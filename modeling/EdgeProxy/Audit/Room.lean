import EdgeProxy.Audit.Effects
import Mathlib.Algebra.Group.Action.Defs

/-! # Options that leave room

Under generous options the bound on the bytes of a segment and on their number imply the bound on
all bytes, and a checkpoint fits into a segment beside any record. Then an append finds room: it
succeeds, and from a ledger that has no more segments than allowed it removes at most one.
-/

namespace EdgeProxy

open Rust Action List Bool

namespace FileAuditLedger

structure Generous (options : AuditLedgerOptions) : Prop where
  accepted : options.accepted = true
  total : options.maxSegments * options.maxSegmentBytes ≤ options.maxTotalBytes
  payload : checkpointLimit ≤ options.maxPayloadBytes
  segment : headerLen + checkpointLimit + hashLen +
    (headerLen + options.maxPayloadBytes + hashLen) ≤ options.maxSegmentBytes

structure History.Bounded (options : AuditLedgerOptions) (history : History) : Prop where
  closed : ∀ segment ∈ table history.first history.anchor history.closed,
    segment.bytes ≤ options.maxSegmentBytes
  current : (frames history.start history.current).length ≤ options.maxSegmentBytes

open History

variable {options : AuditLedgerOptions} {history : History} {entry : Entry}
  {state : AuditLedgerIoState}

theorem Generous.segments_pos (h : Generous options) : 0 < options.maxSegments := by
  have haccepted := h.accepted
  simp only [AuditLedgerOptions.accepted, and_eq_true, decide_eq_true_eq] at haccepted
  exact haccepted.1.1.1.1.2

theorem length_frames_push (hroom : history.link.sequence < 2 ^ 64) :
    (frames history.start (history.current ++ [entry])).length =
      (frames history.start history.current).length + frameBytes entry.payload := by
  rw [frames_push, length_append, length_encodeFrame ⟨hroom, length_previous_link⟩, frameBytes]

variable {count : ℕ}

namespace History

theorem Bounded.push (h : history.Bounded options) (hroom : history.link.sequence < 2 ^ 64)
    (hsize : (frames history.start history.current).length + frameBytes entry.payload ≤
      options.maxSegmentBytes) : (history.push entry hroom).Bounded options := by
  refine ⟨h.closed, ?_⟩
  change (frames history.start (history.current ++ [entry])).length ≤ _
  rwa [length_frames_push hroom]

theorem Bounded.rotate (h : history.Bounded options) (hcurrent : history.current ≠ []) :
    (history.rotate hcurrent).Bounded options := by
  refine ⟨?_, Nat.zero_le _⟩
  rw [table_rotate hcurrent, segments]
  intro segment hsegment
  rcases mem_append.mp hsegment with hclosed | hlast
  · exact h.closed segment hclosed
  · rw [mem_singleton.mp hlast]
    exact h.current

theorem Bounded.drop (h : history.Bounded options)
    (hcount : count ≤ history.closed.length) (hend : history.Droppable count) (hpos : 0 < count) :
    (history.drop count hend hpos).Bounded options := by
  refine ⟨?_, ?_⟩
  · intro segment hsegment
    refine h.closed segment ?_
    rw [← take_append_drop count history.closed, table_append, length_take_closed hcount]
    exact mem_append_right _ hsegment
  · rw [start_drop]
    exact h.current

theorem Bounded.totalBytes_le (h : history.Bounded options) (state : AuditLedgerIoState) :
    (history.ledger state).totalBytes ≤ (history.closed.length + 1) * options.maxSegmentBytes := by
  have hbytes : ∀ bytes ∈ history.segments.map AuditSegment.bytes,
      bytes ≤ options.maxSegmentBytes := by
    intro bytes hmem
    obtain ⟨segment, hsegment, rfl⟩ := mem_map.mp hmem
    rcases mem_append.mp hsegment with hclosed | hlast
    · exact h.closed segment hclosed
    · rw [mem_singleton.mp hlast]
      exact h.current
  have hlength : (history.segments.map AuditSegment.bytes).length = history.closed.length + 1 := by
    rw [length_map, segments, length_table_concat]
  have hsum := sum_le_card_nsmul _ _ hbytes
  rwa [hlength, smul_eq_mul] at hsum

theorem Bounded.sum_drop_le (h : history.Bounded options) (count : ℕ) :
    (((table history.first history.anchor history.closed).drop count).map AuditSegment.bytes).sum ≤
      (history.closed.length - count) * options.maxSegmentBytes := by
  have hsum := sum_le_card_nsmul
    (((table history.first history.anchor history.closed).drop count).map AuditSegment.bytes)
    options.maxSegmentBytes (by
      intro bytes hmem
      obtain ⟨segment, hdropped, rfl⟩ := mem_map.mp hmem
      exact h.closed segment (mem_of_mem_drop hdropped))
  rwa [length_map, length_drop, length_table, smul_eq_mul] at hsum

end History

section Total

def Takes (state : AuditLedgerIoState) : Prop :=
  state = .ready ∨ state = .publishedHead ∨ state = .recovering

variable {store : LedgerStore}

theorem Takes.ensureWritable_eq (h : Takes store.ledger.state) :
    ensureWritable store = (.ok ⟨⟩, store) := by
  rw [ensureWritable, if_neg]
  rcases h with h | h | h
  · rw [h]
    decide
  · rw [h]
    decide
  · rw [h]
    decide

variable {record : AuditRecord}

theorem appendEncoded_eq {payload : Bytes}
    (hsequence : store.ledger.link.sequence < 2 ^ 64) (hstate : Takes store.ledger.state) :
    appendEncoded record payload store =
      (.ok (published record payload store).ledger.head, published record payload store) := by
  have hcheck : checkSequence store = (.ok ⟨⟩, store) := by
    rw [checkSequence, if_neg (not_le.mpr hsequence)]
  have hadvance : advance .beginEncoding store =
      (.ok ⟨⟩, { store with ledger.state := .encoding }) := by
    rw [advance]
    rcases hstate with hstate | hstate | hstate
    · rw [hstate]
      rfl
    · rw [hstate]
      rfl
    · rw [hstate]
      rfl
  rw [appendEncoded, bind_ok hcheck, bind_ok hadvance]
  rfl

theorem appendEncoded_push {segment : AuditSegment} (h : history.Describes segment)
    (hroom : history.link.sequence < 2 ^ 64) (hstate : Takes state) :
    ∃ head, appendEncoded entry.record entry.payload (history.storeWith state segment) =
      (.ok head, (history.push entry hroom).store .publishedHead) := by
  have hlink : (history.storeWith state segment).ledger.link.sequence < 2 ^ 64 := by
    rwa [link_storeWith]
  rw [appendEncoded_eq hlink hstate, published_storeWith h hroom]
  exact ⟨_, rfl⟩

variable {template : AuditRecord}

theorem removalCount_total {ledger : FileAuditLedger}
    {nextFrameBytes fuel start enough : ℕ} (hstart : start < enough)
    (hfuel : enough ≤ start + fuel) (hlength : enough < ledger.segments.length)
    (hfits : removalFits options ledger template nextFrameBytes enough = true) :
    ∃ count, removalCount options ledger template nextFrameBytes fuel start = .ok count := by
  induction fuel generalizing start with
  | zero => omega
  | succ _ ih =>
    rw [removalCount]
    split_ifs with hlast hnow
    · omega
    · exact ⟨_, rfl⟩
    · rcases Nat.lt_or_ge (start + 1) enough with hlater | hsame
      · exact ih hlater (by omega)
      · rw [show enough = start + 1 by omega] at hfits
        exact absurd hfits hnow

variable (hgenerous : Generous options) (hbounded : history.Bounded options)
  {nextFrameBytes timestamp : ℕ}
  (hnext : nextFrameBytes ≤ headerLen + options.maxPayloadBytes + hashLen)

theorem begunSegment_bytes (hcurrent : history.current = []) : history.begunSegment.bytes = 0 := by
  change (frames history.start history.current).length = 0
  rw [hcurrent]
  rfl

include hgenerous hbounded hnext in
/-- As long as the new segment is not one too many, nothing has to be removed. -/
theorem few_of_retentionRequired (hcurrent : history.current = [])
    (hrequired : (history.begun state).ledger.retentionRequired options nextFrameBytes = true) :
    options.maxSegments < history.closed.length + 1 := by
  by_contra hfew
  have htotal := (Nat.mul_le_mul_right options.maxSegmentBytes (not_lt.mp hfew)).trans
    hgenerous.total
  have hsegment := hgenerous.segment
  have hbytes := hbounded.sum_drop_le 0
  have hlength : (history.begun state).ledger.segments.length = history.closed.length + 1 :=
    length_table_concat _ _ _ _
  have hsum : (history.begun state).ledger.totalBytes =
      ((table history.first history.anchor history.closed).map AuditSegment.bytes).sum := by
    change ((table _ _ _ ++ [history.begunSegment]).map AuditSegment.bytes).sum = _
    rw [map_append, sum_append, map_singleton, sum_singleton, begunSegment_bytes hcurrent,
      Nat.add_zero]
  rw [drop_zero, Nat.sub_zero] at hbytes
  rw [Nat.add_mul, Nat.one_mul] at htotal
  simp only [retentionRequired, hlength, hsum, Bool.or_eq_true, decide_eq_true_eq] at hrequired
  omega

include hgenerous hbounded hnext in
theorem removalFits_of_le (hcurrent : history.current = []) (hcount : count ≤ history.closed.length)
    (hfew : history.closed.length + 1 - count ≤ options.maxSegments)
    (hpayload : (encodeRecordWithRetention template
      (some ((history.begun state).ledger.removedRange count))).length ≤ checkpointLimit) :
    removalFits options (history.begun state).ledger template nextFrameBytes count = true := by
  have htotal := hgenerous.total
  have hsegment := hgenerous.segment
  have hlength : (table history.first history.anchor history.closed).length =
      history.closed.length := length_table _ _ _
  have hsegments : (history.begun state).ledger.segments =
      table history.first history.anchor history.closed ++ [history.begunSegment] := rfl
  have hempty := begunSegment_bytes hcurrent
  have hkept := hbounded.sum_drop_le count
  have hsplit := congrArg (fun segments => (segments.map AuditSegment.bytes).sum)
    (take_append_drop count (table history.first history.anchor history.closed))
  simp only [map_append, sum_append] at hsplit
  have hroom : (history.closed.length - count + 1) * options.maxSegmentBytes ≤
      options.maxTotalBytes :=
    (Nat.mul_le_mul_right _ (by omega)).trans htotal
  rw [Nat.add_mul, Nat.one_mul] at hroom
  rw [removalFits, totalBytes, hsegments,
    take_append_of_le_length (by rwa [hlength]), length_append, hlength,
    length_singleton, map_append, sum_append, map_singleton,
    sum_singleton, hempty, frameBytes]
  simp only [and_eq_true, decide_eq_true_eq]
  refine ⟨hfew, ?_⟩
  omega

include hgenerous hnext in
theorem checkCheckpoint_total {payload : Bytes} (hsize : payload.length ≤ checkpointLimit) :
    checkCheckpoint options payload nextFrameBytes = .ok () := by
  have haccepted := hgenerous.accepted
  have hsegment := hgenerous.segment
  simp only [AuditLedgerOptions.accepted, and_eq_true, decide_eq_true_eq] at haccepted
  rw [checkCheckpoint, frameBytes, if_neg]
  omega

theorem retainFor_of_ok {stored : LedgerStore} {head : AuditLedgerHead}
    (htemplate : retentionRecord timestamp store.ledger.currentSegment = .ok template)
    (hcount : removalCount options store.ledger template nextFrameBytes
      store.ledger.segments.length 0 = .ok count)
    (hcheck : checkCheckpoint options (encodeRecordWithRetention template
      (some (store.ledger.removedRange count))) nextFrameBytes = .ok ())
    (happend : appendEncoded template (encodeRecordWithRetention template
      (some (store.ledger.removedRange count))) store = (.ok head, stored)) :
    retainFor options nextFrameBytes timestamp store = (.ok ⟨⟩, dropSegments count stored) := by
  have hlift {α : Type} {result : Except AppError α} {a : α} (h : result = .ok a) :
      liftLedger result store = (.ok a, store) := by
    rw [h]
    rfl
  rw [retainFor, read_bind, bind_ok (hlift htemplate), bind_ok (hlift hcount),
    bind_ok (hlift hcheck), bind_ok happend]
  rfl

theorem map_number_take_table (h : count ≤ history.closed.length) :
    ((table history.first history.anchor history.closed).take count).map AuditSegment.number =
      range' history.first count := by
  have hlength := length_take_closed h
  conv_lhs => rw [← take_append_drop count history.closed]
  rw [table_append, take_left' (by rw [length_table, hlength]), map_number_table, hlength]

include hgenerous hbounded hnext in
theorem retention_total (hcurrent : history.current = []) (hclosed : history.closed ≠ [])
    (htime : timestamp < 2 ^ 64) (hnumber : history.number < 2 ^ 64)
    (hroom : history.link.sequence < 2 ^ 64) (hstate : Takes state) :
    ∃ (entry : Entry) (count : ℕ) (hend : (history.push entry hroom).Droppable count)
      (hpos : 0 < count),
      count ≤ history.closed.length ∧ entry.payload.length ≤ checkpointLimit ∧
      (history.closed.length ≤ options.maxSegments → count = 1) ∧
      history.closed.length + 1 - count ≤ options.maxSegments ∧
      retainFor options nextFrameBytes timestamp (history.begun state) =
        (.ok ⟨⟩, ((history.push entry hroom).drop count hend hpos).store .publishedHead) ∧
      retentionEffects options nextFrameBytes timestamp (history.begun state).ledger =
        .write history.number (encodeFrame history.link entry.payload) ::
          (range' history.first count).map .remove := by
  set store := history.begun state
  have hlength : store.ledger.segments.length = history.closed.length + 1 :=
    length_table_concat _ _ _ _
  have hrange {count : ℕ} (hpos : 0 < count) (hcount : count ≤ history.closed.length) :
      store.ledger.removedRange count = history.rangeAt count :=
    removedRange_storeWith _ hpos hcount
  have hmany := length_pos_iff.mpr hclosed
  have hfew := hgenerous.segments_pos
  obtain ⟨_, _, _, _, _, _, htemplate⟩ := retentionRecord_total timestamp hnumber
  obtain ⟨template, htemplate⟩ : ∃ template, retentionRecord timestamp history.number =
      .ok template := ⟨_, htemplate⟩
  have hpayload {count : ℕ} (hpos : 0 < count) (hcount : count ≤ history.closed.length) :
      (encodeRecordWithRetention template (some (store.ledger.removedRange count))).length ≤
        checkpointLimit := by
    rw [hrange hpos hcount]
    exact length_checkpoint_le htemplate htime hnumber (history.valid_rangeAt hpos hcount)
  obtain ⟨count, hfound⟩ : ∃ count, removalCount options store.ledger template nextFrameBytes
      store.ledger.segments.length 0 = .ok count :=
    removalCount_total hmany (by rw [hlength]; omega) (by rw [hlength]; omega)
      (removalFits_of_le hgenerous hbounded hnext hcurrent le_rfl (by omega)
        (hpayload hmany le_rfl))
  obtain ⟨hpos, hlt, hfits, hleast⟩ := removalCount_eq_ok hfound
  have hcount : count ≤ history.closed.length := by omega
  obtain ⟨entry, rfl, hmetadata, hentry, hsize⟩ :=
    exists_checkpoint htemplate htime hnumber hpos hcount
  have hend := ends_push hroom hmetadata
  have hrange := hrange hpos hcount
  have hcheck : checkCheckpoint options entry.payload nextFrameBytes = .ok () :=
    checkCheckpoint_total hgenerous hnext hsize
  have hone : history.closed.length ≤ options.maxSegments → count = 1 := by
    intro hless
    by_contra hne
    have hfalse := hleast 1 Nat.one_pos (by omega)
    rw [removalFits_of_le hgenerous hbounded hnext hcurrent hmany (by omega)
      (hpayload Nat.one_pos hmany)] at hfalse
    cases hfalse
  have hleft : history.closed.length + 1 - count ≤ options.maxSegments := by
    rw [removalFits, and_eq_true, decide_eq_true_eq, hlength] at hfits
    exact hfits.1
  refine ⟨entry, count, hend, hpos, hcount, hsize, hone, hleft, ?_, ?_⟩
  · obtain ⟨head, happend⟩ : ∃ head, appendEncoded entry.record entry.payload store =
        (.ok head, (history.push entry hroom).store .publishedHead) :=
      appendEncoded_push (.inr ⟨hcurrent, rfl⟩) hroom hstate
    have hpushed : count ≤ (history.push entry hroom).closed.length := hcount
    rw [retainFor_of_ok htemplate hfound (by rw [hrange, ← hentry]; exact hcheck)
      (by rw [hrange, ← hentry]; exact happend), dropSegments_store hpushed hend hpos]
  · have hnumbers : (store.ledger.segments.take count).map
        (fun segment => FileEffect.remove segment.number) =
          (range' history.first count).map FileEffect.remove := by
      change ((table history.first history.anchor history.closed ++ [_]).take count).map _ = _
      rw [take_append_of_le_length (by rwa [length_table]), ← map_number_take_table hcount, map_map]
      rfl
    have hcurrentSegment : store.ledger.currentSegment = history.number := rfl
    rw [retentionEffects, hcurrentSegment, htemplate]
    simp only [hfound, hrange, ← hentry, hcheck, hnumbers, link_storeWith, store]

/-- What a ledger with room does before it writes a frame: to the history, to the store and to the
files. -/
inductive Readies (options : AuditLedgerOptions) (state : AuditLedgerIoState) (nextFrameBytes : ℕ)
    (history : History) : History → LedgerStore → List FileEffect → Prop
  | kept :
      history.current = [] ∨ (frames history.start history.current).length + nextFrameBytes ≤
        options.maxSegmentBytes →
      Readies options state nextFrameBytes history history (history.store state) []
  | rotated (hcurrent : history.current ≠ []) :
      (history.rotate hcurrent).closed.length + 1 ≤ options.maxSegments →
      Readies options state nextFrameBytes history (history.rotate hcurrent)
        ((history.rotate hcurrent).begun state) [.create (history.rotate hcurrent).number]
  | retained (hcurrent : history.current ≠ []) {entry : Entry} {count : ℕ}
      (hroom : (history.rotate hcurrent).link.sequence < 2 ^ 64)
      (hend : ((history.rotate hcurrent).push entry hroom).Droppable count) (hpos : 0 < count) :
      count ≤ (history.rotate hcurrent).closed.length →
      entry.payload.length ≤ checkpointLimit →
      ((history.rotate hcurrent).closed.length ≤ options.maxSegments → count = 1) →
      (history.rotate hcurrent).closed.length + 1 - count ≤ options.maxSegments →
      options.maxSegmentBytes < (frames history.start history.current).length + nextFrameBytes →
      options.maxSegments < (history.rotate hcurrent).closed.length + 1 →
      Readies options state nextFrameBytes history
        (((history.rotate hcurrent).push entry hroom).drop count hend hpos)
        ((((history.rotate hcurrent).push entry hroom).drop count hend hpos).store .publishedHead)
        (.create (history.rotate hcurrent).number :: .write (history.rotate hcurrent).number
            (encodeFrame (history.rotate hcurrent).link entry.payload) ::
          (range' (history.rotate hcurrent).first count).map .remove)

variable {store' : LedgerStore}

theorem orDegrade_of_ok {x : StoreAction PUnit}
    (h : x store = (.ok ⟨⟩, store')) : orDegrade x store = (.ok ⟨⟩, store') := by
  rw [orDegrade, h]

include hgenerous hbounded hnext in
theorem prepareStorage_total (htime : timestamp < 2 ^ 64) (hnumber : history.number + 1 < 2 ^ 64)
    (hroom : history.link.sequence < 2 ^ 64) (hstate : Takes state) :
    ∃ prepared store', Readies options state nextFrameBytes history prepared store'
        (prepareEffects options nextFrameBytes timestamp (history.store state)) ∧
      prepareStorage options nextFrameBytes timestamp (history.store state) = (.ok ⟨⟩, store') := by
  rw [prepareEffects, prepareStorage]
  by_cases hstored : (history.store state).ledger.currentSegmentBytes = 0 ∨
    (history.store state).ledger.currentSegmentBytes + nextFrameBytes ≤ options.maxSegmentBytes
  · rw [if_pos hstored, if_pos hstored]
    refine ⟨history, _, .kept (hstored.imp_left fun hzero => ?_), rfl⟩
    exact (frames_eq_nil_iff _ _).mp (length_eq_zero_iff.mp hzero)
  · have hcurrent := current_ne_nil (not_or.mp hstored).1
    have hrotate := rotateSegment_store state hcurrent
    rw [if_neg (by rw [number_rotate]; omega)] at hrotate
    rw [if_neg hstored, if_neg hstored, hrotate, bind_ok (orDegrade_of_ok hrotate),
      retainIfRequired]
    simp only
    split_ifs with hrequired
    · obtain ⟨_, _, hend, hpos, hcount, hsize, hone, hleft, hretain, heffects⟩ :=
        retention_total hgenerous (hbounded.rotate hcurrent) hnext rfl (by simp [History.rotate])
          htime (by rw [number_rotate]; omega) (by rwa [link_rotate]) hstate
      rw [orDegrade_of_ok hretain, heffects]
      exact ⟨_, _, .retained hcurrent _ hend hpos hcount hsize hone hleft
        (not_le.mp (not_or.mp hstored).2)
        (few_of_retentionRequired hgenerous (hbounded.rotate hcurrent) hnext rfl hrequired), rfl⟩
    · refine ⟨_, _, .rotated hcurrent ?_, rfl⟩
      rw [not_eq_true, retentionRequired, or_eq_false_iff, decide_eq_false_iff_not,
        not_lt] at hrequired
      exact (length_table_concat _ _ _ _).ge.trans hrequired.1

theorem Readies.storeWith {prepared : History} {effects : List FileEffect}
    (h : Readies options state nextFrameBytes history prepared store' effects)
    (hstate : Takes state) :
    ∃ state' segment, Takes state' ∧ prepared.Describes segment ∧
      store' = prepared.storeWith state' segment := by
  cases h with
  | kept => exact ⟨state, _, hstate, .inl rfl, rfl⟩
  | rotated => exact ⟨state, _, hstate, .inr ⟨rfl, rfl⟩, rfl⟩
  | retained => exact ⟨.publishedHead, _, .inr (.inl rfl), .inl rfl, rfl⟩

theorem Readies.sequence_le {prepared : History} {effects : List FileEffect}
    (h : Readies options state nextFrameBytes history prepared store' effects) :
    prepared.link.sequence ≤ history.link.sequence + 1 := by
  cases h with
  | kept => exact Nat.le_succ _
  | rotated =>
    rw [link_rotate]
    exact Nat.le_succ _
  | retained => rw [link_drop, link_push, sequence_next,
      link_rotate]

structure Writable (options : AuditLedgerOptions) (record : AuditRecord) : Prop
    extends Appendable record where
  valid : record.validate = .ok ()
  payload : (encodeRecord record).length ≤ options.maxPayloadBytes

theorem Writable.exists_entry (h : Writable options record)
    (haccepted : options.accepted = true) : ∃ entry : Entry, entry.record = record ∧
      entry.payload = encodeRecord record := by
  have hbound := h.payload
  simp only [AuditLedgerOptions.accepted, and_eq_true, decide_eq_true_eq] at haccepted
  exact ⟨⟨record, none, ⟨h.valid, h.time, by simp [h.kind], by simp⟩, hbound.trans_lt (by omega)⟩,
    rfl, rfl⟩

include hgenerous hbounded in
theorem append_total (hrecord : Writable options record)
    (hnumber : history.number + 1 < 2 ^ 64) (hsequence : history.link.sequence + 1 < 2 ^ 64)
    (hstate : Takes state) :
    ∃ (entry : Entry) (prepared : History) (store' : LedgerStore) (effects : List FileEffect)
      (hroom : prepared.link.sequence < 2 ^ 64) (head : AuditLedgerHead),
      entry.payload = encodeRecord record ∧ entry.payload.length ≤ options.maxPayloadBytes ∧
      Readies options state (frameBytes entry.payload) history prepared store' effects ∧
      append options record (history.store state) =
        (.ok head, (prepared.push entry hroom).store .publishedHead) ∧
      appendEffects options record (history.store state) =
        effects ++ [.write prepared.number (encodeFrame prepared.link entry.payload)] := by
  obtain ⟨entry, rfl, hentry⟩ := hrecord.exists_entry hgenerous.accepted
  have hpayload := hrecord.payload
  have hsegment := hgenerous.segment
  rw [← hentry] at hpayload
  have hwritable : ensureWritable (history.store state) = (.ok ⟨⟩, history.store state) :=
    Takes.ensureWritable_eq hstate
  have hcheck : checkRecord options entry.record = .ok entry.payload := by
    rw [checkRecord, hrecord.valid]
    simp only [← hentry]
    rw [if_neg (not_lt.mpr hpayload), if_neg]
    rw [frameBytes]
    omega
  have hlift : liftLedger (checkRecord options entry.record) (history.store state) =
      (.ok entry.payload, history.store state) := by
    rw [hcheck]
    rfl
  have hnext : frameBytes entry.payload ≤ headerLen + options.maxPayloadBytes + hashLen := by
    rw [frameBytes]
    omega
  obtain ⟨prepared, store', hreadies, hprepare⟩ :=
    prepareStorage_total hgenerous hbounded hnext hrecord.time hnumber (by omega) hstate
  obtain ⟨state', segment, htakes, hdescribes, hstored⟩ := hreadies.storeWith hstate
  have hroom : prepared.link.sequence < 2 ^ 64 := hreadies.sequence_le.trans_lt hsequence
  obtain ⟨head, happend⟩ : ∃ head, appendEncoded entry.record entry.payload
      (prepared.storeWith state' segment) =
        (.ok head, (prepared.push entry hroom).store .publishedHead) :=
    appendEncoded_push hdescribes hroom htakes
  refine ⟨entry, prepared, store', _, hroom, head, hentry, hpayload, hreadies, ?_, ?_⟩
  · rw [append, bind_ok hwritable, bind_ok hlift, bind_ok hprepare, hstored, happend]
  · rw [appendEffects, hwritable, hcheck]
    simp only [hprepare, hstored, link_storeWith]
    rfl

end Total

section AnyLedger

variable {options : AuditLedgerOptions} {ledger : FileAuditLedger} {store : LedgerStore}
  {record : AuditRecord} {nextFrameBytes timestamp : ℕ}

def rotated (ledger : FileAuditLedger) : FileAuditLedger :=
  { ledger with
    currentSegment := ledger.currentSegment + 1
    currentSegmentBytes := 0
    segments := ledger.segments ++ [⟨ledger.currentSegment + 1, 0, 0, ledger.lastHash, 0⟩] }

theorem rotateSegment_cases (store : LedgerStore) :
    (∃ error, rotateSegment store = (.error error, store)) ∨
      store.ledger.currentSegment + 1 < 2 ^ 64 ∧ rotateSegment store =
        (.ok ⟨⟩, ⟨rotated store.ledger,
          store.directory ++ [(store.ledger.currentSegment + 1, [])]⟩) := by
  by_cases h : 2 ^ 64 ≤ store.ledger.currentSegment + 1
  · exact .inl ⟨_, by rw [rotateSegment, if_pos h]⟩
  · exact .inr ⟨not_le.mp h, by rw [rotateSegment, if_neg h]; rfl⟩

/-- The oldest segments of a ledger that has begun a new one can be removed. -/
def Retainable (options : AuditLedgerOptions) (nextFrameBytes timestamp : ℕ)
    (ledger : FileAuditLedger) : Prop :=
  ∃ template, retentionRecord timestamp ledger.currentSegment = .ok template ∧
    (∃ count, 0 < count ∧ count < ledger.segments.length ∧
      removalFits options ledger template nextFrameBytes count = true) ∧
    ∀ count, removalFits options ledger template nextFrameBytes count = true →
      frameBytes (encodeRecordWithRetention template (some (ledger.removedRange count))) ≤
        options.maxSegmentBytes

def FrameFits (options : AuditLedgerOptions) (nextFrameBytes timestamp : ℕ)
    (ledger : FileAuditLedger) : Prop :=
  if ledger.currentSegmentBytes = 0 ∨
      ledger.currentSegmentBytes + nextFrameBytes ≤ options.maxSegmentBytes then
    ledger.link.sequence < 2 ^ 64
  else
    ledger.currentSegment + 1 < 2 ^ 64 ∧
      if (rotated ledger).retentionRequired options nextFrameBytes then
        ledger.link.sequence + 1 < 2 ^ 64 ∧
          Retainable options nextFrameBytes timestamp (rotated ledger)
      else ledger.link.sequence < 2 ^ 64

structure HasRoom (options : AuditLedgerOptions) (ledger : FileAuditLedger)
    (record : AuditRecord) : Prop where
  valid : record.validate = .ok ()
  payload : (encodeRecord record).length ≤ options.maxPayloadBytes
  frame : frameBytes (encodeRecord record) ≤ options.maxSegmentBytes
  room : FrameFits options (frameBytes (encodeRecord record))
    record.context.receivedAtEpochSeconds ledger

theorem Retainable.retainFor_eq (h : Retainable options nextFrameBytes timestamp store.ledger)
    (hsequence : store.ledger.link.sequence < 2 ^ 64) (htakes : Takes store.ledger.state) :
    ∃ count template payload, retainFor options nextFrameBytes timestamp store =
      (.ok ⟨⟩, dropSegments count (published template payload store)) := by
  obtain ⟨template, htemplate, ⟨_, hpos, hlt, hfits⟩, hsize⟩ := h
  obtain ⟨count, hcount⟩ : ∃ count, removalCount options store.ledger template nextFrameBytes
      store.ledger.segments.length 0 = .ok count :=
    removalCount_total hpos (by omega) hlt hfits
  obtain ⟨_, _, hfits, _⟩ := removalCount_eq_ok hcount
  have hcheck : checkCheckpoint options (encodeRecordWithRetention template
      (some (store.ledger.removedRange count))) nextFrameBytes = .ok () := by
    have hsegment := hsize count hfits
    simp only [removalFits, and_eq_true, decide_eq_true_eq] at hfits
    rw [checkCheckpoint, if_neg]
    omega
  exact ⟨count, template, _, retainFor_of_ok htemplate hcount hcheck
    (appendEncoded_eq hsequence htakes)⟩

theorem FrameFits.prepareStorage_eq (h : FrameFits options nextFrameBytes timestamp store.ledger)
    (htakes : Takes store.ledger.state) :
    ∃ store', prepareStorage options nextFrameBytes timestamp store = (.ok ⟨⟩, store') ∧
      store'.ledger.link.sequence < 2 ^ 64 ∧ Takes store'.ledger.state := by
  rw [FrameFits] at h
  rw [prepareStorage]
  by_cases hfits : store.ledger.currentSegmentBytes = 0 ∨
    store.ledger.currentSegmentBytes + nextFrameBytes ≤ options.maxSegmentBytes
  · rw [if_pos hfits] at h ⊢
    exact ⟨store, rfl, h, htakes⟩
  · rw [if_neg hfits] at h ⊢
    obtain ⟨hnumber, h⟩ := h
    rcases rotateSegment_cases store with ⟨_, hrotate⟩ | ⟨_, hrotate⟩
    · rw [rotateSegment, if_neg (not_le.mpr hnumber)] at hrotate
      cases hrotate
    · rw [bind_ok (orDegrade_of_ok hrotate), retainIfRequired]
      by_cases hrequired : (rotated store.ledger).retentionRequired options nextFrameBytes = true
      · rw [if_pos hrequired] at h ⊢
        obtain ⟨hsequence, hretainable⟩ := h
        generalize hbegun : (⟨rotated store.ledger, _⟩ : LedgerStore) = begun
        have hledger : begun.ledger = rotated store.ledger := by rw [← hbegun]
        rw [← hledger] at hretainable
        obtain ⟨_, _, _, hretain⟩ := hretainable.retainFor_eq
          (by rw [hledger]; exact Nat.lt_of_succ_lt hsequence) (by rw [hledger]; exact htakes)
        rw [← hbegun] at hretain ⊢
        exact ⟨_, orDegrade_of_ok hretain, hsequence, .inr (.inl rfl)⟩
      · rw [if_neg hrequired] at h ⊢
        exact ⟨_, rfl, h, htakes⟩

theorem HasRoom.append_eq (h : HasRoom options store.ledger record)
    (htakes : Takes store.ledger.state) :
    ∃ head store', append options record store = (.ok head, store') := by
  have hcheck : liftLedger (checkRecord options record) store =
      (.ok (encodeRecord record), store) := by
    rw [checkRecord, h.valid]
    simp only
    rw [if_neg (not_lt.mpr h.payload), if_neg (not_lt.mpr h.frame)]
    rfl
  obtain ⟨_, hprepare, hsequence, htakes'⟩ := h.room.prepareStorage_eq htakes
  rw [append, bind_ok htakes.ensureWritable_eq, bind_ok hcheck,
    bind_ok hprepare, appendEncoded_eq hsequence htakes']
  exact ⟨_, _, rfl⟩

end AnyLedger

end FileAuditLedger

end EdgeProxy

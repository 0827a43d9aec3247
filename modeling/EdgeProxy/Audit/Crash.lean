import EdgeProxy.Audit.Room

/-! # Crashes of the audit ledger

A process that stops inside an append leaves the files of a history, and behind the last one the
front of a frame. Opening such files with a recovery context cuts the front off and records it.
Under generous options, and from a ledger that has no more segments than allowed, every crash point
of an append opens again and keeps the acknowledged records.
-/

namespace EdgeProxy

open Rust List

namespace FileAuditLedger

open History

variable {options : AuditLedgerOptions} {history : History} {entry : Entry}
  {state : AuditLedgerIoState} {front : Bytes}

section Torn

structure TornFront (link : Link) (payload front : Bytes) : Prop where
  begun : front ≠ []
  within : front <+: encodeFrame link payload
  unfinished : front ≠ encodeFrame link payload

variable {first number : ℕ} {scanState : ScanState} {link : Link}
  (hpayload : entry.payload.length ≤ options.maxPayloadBytes)

include hpayload

theorem Stands.readFrame_torn (h : Stands first scanState link) (hfits : link.Fits)
    (hcount : scanState.records.length < options.maxScanRecords)
    (hfront : TornFront link entry.payload front) :
    readFrame options first number scanState front = .torn scanState := by
  obtain ⟨tail, htail⟩ := hfront.within
  have htailne : tail ≠ [] := by
    rintro rfl
    exact hfront.unfinished (by rwa [append_nil] at htail)
  rw [readFrame]
  by_cases hshort : front.length < headerLen + hashLen
  · rw [if_pos hshort]
  · rw [encodeFrame, append_eq_append_iff] at htail
    have hheader := length_frameHeader entry.payload.length hfits
    rcases htail with ⟨rest, hhead, _⟩ | ⟨rest, rfl, hbody⟩
    · have hlength := congrArg length hhead
      rw [hheader, length_append] at hlength
      rw [hashLen] at hshort
      omega
    · have hlength := congrArg length hbody
      have htaillength := length_pos_iff.mpr htailne
      simp only [length_append, length_frameHash] at hlength
      rw [length_append, hheader] at hshort
      have hrest : hashLen ≤ rest.length := by omega
      rw [← readFrame, readFrame_frameHeader entry.length_payload_lt hfits hrest,
        readBody_frameHeader hfits, h.anchored_eq, h.here, if_neg (by simp), if_neg (by simp),
        if_neg (not_lt.mpr hpayload), if_neg (not_le.mpr hcount), if_pos]
      rw [hashLen]
      omega

theorem scanSegment_torn {entries : List Entry} (h : Stands first scanState link)
    (hhash : link.previous.length = 32)
    (hwithin : Within options scanState.records.length link entries)
    (hcount : scanState.records.length + entries.length < options.maxScanRecords)
    (hfront : TornFront (linkAfter link entries) entry.payload front) :
    scanSegment options first number scanState (frames link entries ++ front) =
      .torn (passed scanState number link entries) front := by
  have hframes : Frames options first number scanState (frames link entries)
      (passed scanState number link entries) := h.read hhash hwithin
  obtain ⟨fuel, hfuel, hscan⟩ := scanFrames_append hframes front (Nat.lt_succ_self _)
  obtain ⟨fuel, rfl⟩ : ∃ n, fuel = n + 1 := ⟨fuel - 1, by omega⟩
  have hfits : (linkAfter link entries).Fits :=
    ⟨by rw [sequence_linkAfter]; exact hwithin.sequences, length_previous_linkAfter hhash entries⟩
  have hpassed : (passed scanState number link entries).records.length <
      options.maxScanRecords := by
    rwa [passed, length_append, length_scanned]
  rw [scanSegment, hscan, scanFrames, if_neg hfront.begun,
    (h.pass number entries).readFrame_torn hpayload hfits hpassed hfront]

namespace History

theorem scanFiles_tailed (hreadable : history.Readable options)
    (hcontext : options.recoveryContext.isSome)
    (hcount : history.entries.length < options.maxScanRecords)
    (hfront : TornFront history.link entry.payload front) :
    scanFiles options history.first (history.tailed front) ScanState.initial =
      .ok { history.scan with recovered := true } := by
  have hstands := stands_opening history
  have hwithin := hreadable.within
  rw [entries] at hwithin hcount
  obtain ⟨hclosed, hcurrent⟩ := within_append_iff.mp hwithin
  rw [scanFiles_tailed_opening, tailed, hstands.scanFiles_append history.hash hclosed history.first,
    scanFiles]
  set closed := passedGroups history.opening history.first history.anchor history.closed with heq
  have hnext : Stands history.first closed history.start :=
    hstands.passed_groups history.first history.closed
  have hread : closed.records.length = history.closed.flatten.length := by
    rw [heq, passedGroups, length_append, length_scannedGroups]
    exact Nat.zero_add _
  have hhash : history.start.previous.length = 32 := length_previous_linkAfter history.hash _
  rw [length_append] at hcount
  rw [Nat.zero_add] at hcurrent
  have hsegment : scanSegment options history.first history.number closed
      (frames history.start history.current ++ front) =
        .torn (passed closed history.number history.start history.current) front :=
    scanSegment_torn hpayload hnext hhash (by rw [hread]; exact hcurrent)
      (by rw [hread]; exact hcount) hfront
  have hkept : (frames history.start history.current ++ front).take
      ((frames history.start history.current ++ front).length - front.length) =
        frames history.start history.current := by
    rw [length_append, Nat.add_sub_cancel, take_left]
  rw [hsegment]
  simp only [hcontext, and_self, if_true, hkept, Except.map, hnext.describeSegment_eq]
  rw [scan, scannedRecords, link]
  simp [heq, passed, passedGroups, opening, segments, directory]

end History

end Torn

variable {count : ℕ}

section Continues

/-- A later history that is within the bounds of segments and payloads and keeps every record of an
earlier one, but for those of removed segments. -/
structure Continues (options : AuditLedgerOptions) (history later : History) : Prop where
  bounded : later.Bounded options
  payloads : ∀ entry ∈ later.entries, entry.payload.length ≤ options.maxPayloadBytes
  first : history.first ≤ later.first
  records : ∀ record ∈ history.records, later.first ≤ record.segment → record ∈ later.records

variable {later : History}

theorem Continues.refl (hbounded : history.Bounded options)
    (hpayloads : ∀ entry ∈ history.entries, entry.payload.length ≤ options.maxPayloadBytes) :
    Continues options history history :=
  ⟨hbounded, hpayloads, le_rfl, fun _ hrecord _ => hrecord⟩

theorem Continues.trans {last : History} (h : Continues options history later)
    (h' : Continues options later last) : Continues options history last :=
  ⟨h'.bounded, h'.payloads, h.first.trans h'.first, fun record hrecord hsegment =>
    h'.records record (h.records record hrecord (h'.first.trans hsegment)) hsegment⟩

theorem Continues.push (h : Continues options history later) (hroom : later.link.sequence < 2 ^ 64)
    (hpayload : entry.payload.length ≤ options.maxPayloadBytes)
    (hsize : (frames later.start later.current).length + frameBytes entry.payload ≤
      options.maxSegmentBytes) : Continues options history (later.push entry hroom) := by
  refine ⟨h.bounded.push hroom hsize, ?_, h.first, ?_⟩
  · rw [entries_push]
    exact forall_mem_append.mpr ⟨h.payloads, forall_mem_singleton.mpr hpayload⟩
  · intro record hrecord hsegment
    rw [records_push]
    exact mem_append_left _ (h.records record hrecord hsegment)

theorem Continues.rotate (h : Continues options history later) (hcurrent : later.current ≠ []) :
    Continues options history (later.rotate hcurrent) := by
  refine ⟨h.bounded.rotate hcurrent, ?_, h.first, ?_⟩
  · rw [entries_rotate]
    exact h.payloads
  · rw [records_rotate]
    exact h.records

theorem Continues.drop (h : Continues options history later)
    (hcount : count ≤ later.closed.length) (hend : later.Droppable count) (hpos : 0 < count) :
    Continues options history (later.drop count hend hpos) := by
  refine ⟨h.bounded.drop hcount hend hpos, ?_, ?_, ?_⟩
  · intro stored hstored
    refine h.payloads stored ?_
    rw [← flatten_groups, groups_drop hend hpos, flatten_append, flatten_groups]
    exact mem_append_right _ hstored
  · exact h.first.trans (Nat.le_add_right _ _)
  · intro record hrecord hsegment
    have hfirst : later.first + count ≤ record.segment := hsegment
    rw [← filter_records hcount hend hpos]
    refine mem_filter.mpr ⟨h.records record hrecord (by omega), ?_⟩
    simp only [decide_not, Bool.not_eq_true', decide_eq_false_iff_not, mem_range'_1]
    omega

variable {nextFrameBytes : ℕ} {prepared : History} {store' : LedgerStore}
  {effects : List FileEffect}
  (h : Readies options state nextFrameBytes history prepared store' effects)

theorem length_closed_rotate (hcurrent : history.current ≠ []) :
    (history.rotate hcurrent).closed.length = history.closed.length + 1 := by
  change (history.closed ++ [history.current]).length = _
  rw [length_append, length_singleton]

/-- The bytes of the frame that a recovery writes. -/
def recoveryBytes (options : AuditLedgerOptions) : ℕ :=
  match options.recoveryContext.map recoveryRecord with
  | some (.ok record) => frameBytes (encodeRecord record)
  | _ => 0

/-- The frame of a recovery can be written without the removal of a segment. -/
def History.Spare (options : AuditLedgerOptions) (history : History) : Prop :=
  history.current = [] ∨ history.closed.length + 1 < options.maxSegments ∨
    (frames history.start history.current).length + recoveryBytes options ≤ options.maxSegmentBytes

include h in
theorem Readies.first_eq (hspare : history.Spare options)
    (hnext : nextFrameBytes = recoveryBytes options) : prepared.first = history.first := by
  cases h with
  | kept => rfl
  | rotated => rfl
  | retained hcurrent _ _ _ _ _ _ _ hfull hmany =>
    rw [length_closed_rotate] at hmany
    rcases hspare with hnil | hfew | hfits
    · exact absurd hnil hcurrent
    · omega
    · omega

include h in
theorem Readies.few (hfew : history.closed.length + 1 ≤ options.maxSegments) :
    prepared.closed.length + 1 ≤ options.maxSegments := by
  cases h with
  | kept => exact hfew
  | rotated _ hrotated => exact hrotated
  | retained hcurrent =>
    change ((history.rotate hcurrent).closed.drop _).length + 1 ≤ _
    rw [length_drop]
    omega

theorem length_entries_drop_le (hend : history.Droppable count) (hpos : 0 < count) :
    (history.drop count hend hpos).entries.length ≤ history.entries.length := by
  rw [← history.flatten_groups, groups_drop hend hpos, flatten_append, flatten_groups,
    length_append]
  exact Nat.le_add_left _ _

/-- What an append adds: the record, and a checkpoint before it where segments are removed. -/
structure Grows (history later : History) : Prop where
  entries : later.entries.length ≤ history.entries.length + 2
  appended : history.link.sequence < later.link.sequence
  sequence : later.link.sequence ≤ history.link.sequence + 2
  number : later.number ≤ history.number + 1

include h in
theorem Readies.grows_push (hroom : prepared.link.sequence < 2 ^ 64) :
    Grows history (prepared.push entry hroom) := by
  cases h with
  | kept =>
    refine ⟨?_, ?_, ?_, Nat.le_succ _⟩
    all_goals simp
  | rotated hcurrent =>
    refine ⟨?_, ?_, ?_, (number_rotate hcurrent).le⟩
    all_goals simp
  | retained hcurrent hroom hend hpos hcount =>
    have hentries := length_entries_drop_le hend hpos
    have hnumber := (number_drop hend hpos hcount).trans (number_rotate hcurrent)
    rw [entries_push, entries_rotate, length_append, length_singleton] at hentries
    refine ⟨?_, ?_, ?_, hnumber.le⟩
    · rw [entries_push, length_append, length_singleton]
      omega
    · rw [link_push, sequence_next, link_drop, link_push, sequence_next, link_rotate]
      omega
    · simp

theorem length_frames_checkpoint (hcurrent : history.current = [])
    (hroom : history.link.sequence < 2 ^ 64) (hsize : entry.payload.length ≤ checkpointLimit) :
    (frames (history.push entry hroom).start (history.push entry hroom).current).length ≤
      headerLen + checkpointLimit + hashLen := by
  change (frames history.start (history.current ++ [entry])).length ≤ _
  rw [length_frames_push hroom, hcurrent, frames, length_nil, frameBytes]
  omega

theorem Generous.fits_rotate (hgenerous : Generous options) (hcurrent : history.current ≠ [])
    (hpayload : entry.payload.length ≤ options.maxPayloadBytes) :
    (frames (history.rotate hcurrent).start (history.rotate hcurrent).current).length +
      frameBytes entry.payload ≤ options.maxSegmentBytes := by
  have hsegment := hgenerous.segment
  change (frames _ []).length + _ ≤ _
  rw [frames, length_nil, frameBytes]
  omega

include h in
theorem Readies.continues (hgenerous : Generous options)
    (hhistory : Continues options history history) : Continues options history prepared := by
  cases h with
  | kept => exact hhistory
  | rotated hcurrent => exact hhistory.rotate hcurrent
  | retained hcurrent hroom hend hpos hcount hsize =>
    have hpayload := hsize.trans hgenerous.payload
    exact ((hhistory.rotate hcurrent).push hroom hpayload
      (hgenerous.fits_rotate hcurrent hpayload)).drop hcount hend hpos

theorem Readies.fits
    (h : Readies options state (frameBytes entry.payload) history prepared store' effects)
    (hgenerous : Generous options) (hpayload : entry.payload.length ≤ options.maxPayloadBytes) :
    (frames prepared.start prepared.current).length + frameBytes entry.payload ≤
      options.maxSegmentBytes := by
  have hsegment := hgenerous.segment
  have hframe : frameBytes entry.payload ≤ headerLen + options.maxPayloadBytes + hashLen := by
    rw [frameBytes]
    omega
  cases h with
  | kept hkept =>
    rcases hkept with hnil | hfits
    · rw [hnil, frames, length_nil]
      omega
    · exact hfits
  | rotated hcurrent => exact hgenerous.fits_rotate hcurrent hpayload
  | @retained hcurrent checkpoint _ hroom _ _ _ hsize =>
    have hcurrent' : (history.rotate hcurrent).current = [] := rfl
    have hlength := length_frames_checkpoint hcurrent' hroom hsize
    rw [start_drop]
    change (frames _ ((history.rotate hcurrent).push checkpoint hroom).current).length + _ ≤ _
    omega

end Continues

section Recovery

/-- The recovery context of the options, with a record that can be written. -/
structure Recovers (options : AuditLedgerOptions) (context : AuditContext) : Prop where
  given : options.recoveryContext = some context
  time : context.receivedAtEpochSeconds < 2 ^ 64
  payload : ∀ record, recoveryRecord context = .ok record →
    (encodeRecord record).length ≤ options.maxPayloadBytes

variable {context : AuditContext}

theorem recoveryRecord_total (haccepted : options.accepted = true)
    (hgiven : options.recoveryContext = some context)
    (htime : context.receivedAtEpochSeconds < 2 ^ 64) :
    ∃ record, recoveryRecord context = .ok record ∧ Appendable record ∧
      record.validate = .ok () := by
  have hactor : context.actorKind = .systemRecovery := by
    simp only [AuditLedgerOptions.accepted, hgiven, Option.all_some, Bool.and_eq_true,
      decide_eq_true_eq] at haccepted
    exact haccepted.2
  obtain ⟨targetId, htarget⟩ : ∃ id, identifierOf "ledger".toList = .ok id :=
    ⟨⟨"ledger".toList, by decide⟩, by decide⟩
  have hvalid : (⟨1, .systemRecovery, context, .systemTrailingRecovery, .auditLedger, targetId,
      none, none, some .succeeded, none⟩ : AuditRecord).validate = .ok () := by
    simp [AuditRecord.validate, AuditRecord.kindValid, hactor]
  have hrecord : recoveryRecord context = .ok ⟨1, .systemRecovery, context,
      .systemTrailingRecovery, .auditLedger, targetId, none, none, some .succeeded, none⟩ := by
    unfold recoveryRecord
    rw [htarget, Rust.ok_bind, checked, hvalid]
  exact ⟨_, hrecord, ⟨by simp, htime⟩, hvalid⟩

theorem Recovers.record (h : Recovers options context) (haccepted : options.accepted = true) :
    ∃ record, recoveryRecord context = .ok record ∧ Writable options record := by
  obtain ⟨record, hrecord, happendable, hvalid⟩ := recoveryRecord_total haccepted h.given h.time
  exact ⟨record, hrecord, happendable, hvalid, h.payload record hrecord⟩

theorem Recovers.recoveryBytes_le (h : Recovers options context) :
    recoveryBytes options ≤ headerLen + options.maxPayloadBytes + hashLen := by
  rw [recoveryBytes, h.given, Option.map_some]
  rcases hrecord : recoveryRecord context with _ | record
  · exact Nat.zero_le _
  · have hpayload := h.payload record hrecord
    change headerLen + _ + hashLen ≤ _
    omega

theorem ofScan_recovered (history : History) :
    ofScan history.first { history.scan with recovered := true } = history.ledger .recovering := by
  have hscan := ofScan_scan history
  have hstate : ofScan history.first { history.scan with recovered := true } =
      { ofScan history.first history.scan with state := .recovering } := rfl
  rw [hstate, hscan]
  rfl

variable (h : history.Readable options) (hcount : history.entries.length < options.maxScanRecords)
  (hpayload : entry.payload.length ≤ options.maxPayloadBytes)

include h hcount hpayload

theorem History.Readable.push (hsequence : history.link.sequence + 1 < 2 ^ 64)
    (hroom : history.link.sequence < 2 ^ 64) : (history.push entry hroom).Readable options := by
  refine ⟨?_, h.number⟩
  rw [entries_push]
  refine within_append_iff.mpr ⟨h.within, forall_mem_singleton.mpr hpayload, ?_, ?_⟩
  · rwa [Nat.zero_add]
  · rwa [link_eq] at hsequence

theorem scanSegments_torn (hcontext : options.recoveryContext.isSome)
    (hfront : TornFront history.link entry.payload front) :
    scanSegments options (history.tailed front) =
      (.ok { history.scan with recovered := true }, history.directory) := by
  rw [scanSegments, firstNumber_tailed, scanFiles_tailed hpayload h hcontext hcount hfront]
  have hvalid : anchorValid history.scan.state = true := history.anchorValid_scan
  simp only [hvalid, if_true]
  rfl

theorem openLedger_torn (hgiven : options.recoveryContext = some context)
    (haccepted : options.accepted = true) (hfront : TornFront history.link entry.payload front)
    {record : AuditRecord} (hrecord : recoveryRecord context = .ok record) {head : AuditLedgerHead}
    {later : History} (happend : append options record (history.store .recovering) =
      (.ok head, later.store .publishedHead)) :
    openLedger options (history.tailed front) =
      (.ok (later.ledger .publishedHead), later.directory) := by
  have hrecording : recordRecovery options context (history.store .recovering) =
      (.ok head, later.store .publishedHead) := by
    rw [recordRecovery, hrecord]
    exact happend
  rw [openLedger_tailed_of_number haccepted h.number, finishOpen,
    scanSegments_torn h hcount hpayload (by rw [hgiven]; rfl) hfront]
  simp only [hgiven, firstNumber_directory, ofScan_recovered, if_true]
  rw [store] at hrecording
  rw [hrecording]
  rfl

omit h hcount hpayload

/-- A history that a crash can leave behind: it is within every bound, with enough left for what
the recovery writes. -/
structure Left (options : AuditLedgerOptions) (history : History) : Prop where
  continues : Continues options history history
  count : history.entries.length < options.maxScanRecords
  sequence : history.link.sequence + 1 < 2 ^ 64
  number : history.number + 1 < 10 ^ 16

theorem Left.readable (h : Left options history) : history.Readable options := by
  have hsequence := h.sequence
  have hcount := h.count
  have hnumber := h.number
  rw [sequence_link] at hsequence
  exact ⟨⟨h.continues.payloads, by omega, by omega⟩, by omega⟩

def Fronts (options : AuditLedgerOptions) (history : History) (front : Bytes) : Prop :=
  front = [] ∨ history.Spare options ∧ ∃ entry : Entry,
    entry.payload.length ≤ options.maxPayloadBytes ∧
    (frames history.start history.current).length + frameBytes entry.payload ≤
      options.maxSegmentBytes ∧
    front <+: encodeFrame history.link entry.payload

theorem Left.openLedger_tailed (h : Left options history) (hgenerous : Generous options)
    (hrecovers : Recovers options context) (hfronts : Fronts options history front) :
    ∃ later state', openLedger options (history.tailed front) =
        (.ok (later.ledger state'), later.directory) ∧ Takes state' ∧
      Continues options history later ∧ later.first = history.first := by
  have haccepted := hgenerous.accepted
  have hsequence := h.sequence
  have hnumber := h.number
  by_cases hnil : front = []
  · subst hnil
    rw [tailed_nil, h.readable.openLedger_eq haccepted]
    exact ⟨history, _, rfl, .inl rfl, h.continues, rfl⟩
  obtain ⟨hspare, entry, hpayload, hsize, hfront⟩ := hfronts.resolve_left hnil
  by_cases hfull : front = encodeFrame history.link entry.payload
  · have hroom : history.link.sequence < 2 ^ 64 := by omega
    rw [hfull, ← directory_push hroom,
      (h.readable.push h.count hpayload hsequence hroom).openLedger_eq haccepted]
    exact ⟨_, _, rfl, .inl rfl, h.continues.push hroom hpayload hsize, rfl⟩
  · obtain ⟨record, hrecord, hwritable⟩ := hrecovers.record haccepted
    obtain ⟨recovery, prepared, _, _, hroom, head, hencoded, hrecovery, hreadies, happend, _⟩ :=
      append_total hgenerous h.continues.bounded hwritable (by omega) (by omega)
        (.inr (.inr rfl) : Takes .recovering)
    have hopen := openLedger_torn h.readable h.count hpayload hrecovers.given haccepted
      ⟨hnil, hfront, hfull⟩ hrecord happend
    have hfirst : prepared.first = history.first :=
      hreadies.first_eq hspare (by rw [hencoded, recoveryBytes, hrecovers.given, Option.map_some,
        hrecord])
    refine ⟨_, _, hopen, .inr (.inl rfl), ?_, hfirst⟩
    exact (hreadies.continues hgenerous h.continues).push hroom hrecovery
      (hreadies.fits hgenerous hrecovery)

end Recovery

/-- The history leaves room for an append and for the recovery from its crash. -/
structure History.Roomy (options : AuditLedgerOptions) (record : AuditRecord) (history : History) :
    Prop where
  continues : Continues options history history
  few : history.closed.length + 1 ≤ options.maxSegments
  count : history.entries.length + 2 ≤ options.maxScanRecords
  sequence : history.link.sequence + 2 < 2 ^ 64
  number : history.number + 2 < 10 ^ 16
  spare : (frames history.start history.current).length + frameBytes (encodeRecord record) ≤
    options.maxSegmentBytes → history.Spare options

variable {record : AuditRecord}

theorem History.Roomy.left (h : history.Roomy options record) : Left options history := by
  have hcount := h.count
  have hsequence := h.sequence
  have hnumber := h.number
  exact ⟨h.continues, by omega, by omega, by omega⟩

theorem History.Roomy.left_rotate (h : history.Roomy options record)
    (hcurrent : history.current ≠ []) : Left options (history.rotate hcurrent) := by
  have hcount := h.count
  have hsequence := h.sequence
  have hnumber := h.number
  have hrotated := h.continues.rotate hcurrent
  refine ⟨.refl hrotated.bounded hrotated.payloads, ?_, ?_, ?_⟩
  · rw [entries_rotate]
    omega
  · rw [link_rotate]
    omega
  · rw [number_rotate]
    omega

theorem History.Roomy.left_drop (h : history.Roomy options record) {hcurrent : history.current ≠ []}
    {hroom : (history.rotate hcurrent).link.sequence < 2 ^ 64}
    {hend : ((history.rotate hcurrent).push entry hroom).Droppable count}
    {hpos : 0 < count} (hcount : count ≤ (history.rotate hcurrent).closed.length)
    (hcontinues : Continues options history
      (((history.rotate hcurrent).push entry hroom).drop count hend hpos)) :
    Left options (((history.rotate hcurrent).push entry hroom).drop count hend hpos) := by
  have hrecords := h.count
  have hsequence := h.sequence
  have hnumber := h.number
  have hpushed : count ≤ ((history.rotate hcurrent).push entry hroom).closed.length := hcount
  refine ⟨.refl hcontinues.bounded hcontinues.payloads, ?_, ?_, ?_⟩
  · have hsplit := congrArg length (congrArg flatten
      (groups_drop hend hpos))
    rw [flatten_append, length_append, flatten_groups, flatten_groups,
      entries_push, entries_rotate, length_append, length_singleton]
      at hsplit
    omega
  · rw [link_drop, link_push, link_rotate, sequence_next]
    omega
  · rw [number_drop hend hpos hpushed]
    change (history.rotate hcurrent).number + 1 < _
    rw [number_rotate]
    omega

def LeftBy (options : AuditLedgerOptions) (history : History) (left : Directory) : Prop :=
  ∃ (later : History) (front : Bytes), Continues options history later ∧ Left options later ∧
    Fronts options later front ∧ left = later.tailed front

theorem leftBy_directory {later : History} (hcontinues : Continues options history later)
    (hleft : Left options later) : LeftBy options history later.directory :=
  ⟨later, [], hcontinues, hleft, .inl rfl, tailed_nil.symm⟩

theorem apply_create (history : History) (h : history.current ≠ []) :
    FileEffect.apply history.directory (.create (history.rotate h).number) =
      (history.rotate h).directory := by
  rw [FileEffect.apply, number_rotate, directory_rotate]

theorem apply_remove (hcount : count ≤ history.closed.length)
    (hend : history.Droppable count) (hpos : 0 < count) (hone : count = 1) :
    FileEffect.apply history.directory (.remove history.first) =
      (history.drop count hend hpos).directory := by
  subst hone
  have hremove := foldl_remove (range' history.first 1) history.directory
  rw [filter_directory hcount hend hpos] at hremove
  exact hremove

variable {left : Directory}

theorem stops_nil {directory : Directory} (h : Stops [] directory left) : left = directory := by
  cases h
  rfl

theorem stops_write {bytes : Bytes} {effects : List FileEffect}
    (h : Stops (.write history.number bytes :: effects) history.directory left) :
    (∃ front, front <+: bytes ∧ left = history.tailed front) ∨
      Stops effects (history.tailed bytes) left := by
  cases h with
  | before => exact .inl ⟨[], nil_prefix, tailed_nil.symm⟩
  | within hfront => exact .inl ⟨_, hfront, write_directory history _⟩
  | after hlater =>
    rw [FileEffect.apply, write_directory] at hlater
    exact .inr hlater

theorem stops_last {bytes : Bytes}
    (h : Stops [.write history.number bytes] history.directory left) :
    ∃ front, front <+: bytes ∧ left = history.tailed front := by
  rcases stops_write h with hfront | hlater
  · exact hfront
  · exact ⟨bytes, prefix_rfl, stops_nil hlater⟩

theorem Readies.leftBy {prepared : History} {store' : LedgerStore} {effects : List FileEffect}
    (h : Readies options state (frameBytes entry.payload) history prepared store' effects)
    (hgenerous : Generous options) (hrecovers : recoveryBytes options ≤
      headerLen + options.maxPayloadBytes + hashLen) (hroomy : history.Roomy options record)
    (hentry : entry.payload = encodeRecord record)
    (hpayload : entry.payload.length ≤ options.maxPayloadBytes)
    (hstops : Stops (effects ++ [.write prepared.number (encodeFrame prepared.link entry.payload)])
      history.directory left) : LeftBy options history left := by
  have hfits := h.fits hgenerous hpayload
  have hprepared := h.continues hgenerous hroomy.continues
  cases h with
  | kept =>
    obtain ⟨front, hfront, rfl⟩ := stops_last hstops
    exact ⟨_, front, hroomy.continues, hroomy.left,
      .inr ⟨hroomy.spare (hentry ▸ hfits), entry, hpayload, hfits, hfront⟩, rfl⟩
  | rotated hcurrent =>
    have hleft := hroomy.left_rotate hcurrent
    cases hstops with
    | before => exact leftBy_directory hroomy.continues hroomy.left
    | after hstops =>
      rw [apply_create] at hstops
      obtain ⟨front, hfront, rfl⟩ := stops_last hstops
      exact ⟨_, front, hprepared, hleft, .inr ⟨.inl rfl, entry, hpayload, hfits, hfront⟩, rfl⟩
  | @retained hcurrent checkpoint count hroom hend hpos hcount hsize hone hfew =>
    have hleft := hroomy.left_rotate hcurrent
    have hcontinues := hroomy.continues.rotate hcurrent
    have hcheckpoint := hsize.trans hgenerous.payload
    have hrotated := hgenerous.fits_rotate hcurrent hcheckpoint
    have hlength := (length_closed_rotate hcurrent).trans_le hroomy.few
    have hdropped := hroomy.left_drop hcount hprepared
    have hspare : (((history.rotate hcurrent).push checkpoint hroom).drop count hend hpos).Spare
        options := by
      have hsegment := hgenerous.segment
      have hempty : (history.rotate hcurrent).current = [] := rfl
      have hlength := length_frames_checkpoint hempty hroom hsize
      refine .inr (.inr ?_)
      rw [start_drop]
      change (frames _ ((history.rotate hcurrent).push checkpoint hroom).current).length + _ ≤ _
      omega
    cases hstops with
    | before => exact leftBy_directory hroomy.continues hroomy.left
    | after hstops =>
      rw [apply_create] at hstops
      rcases stops_write hstops with ⟨front, hfront, rfl⟩ | hstops
      · exact ⟨_, front, hcontinues, hleft,
          .inr ⟨.inl rfl, checkpoint, hcheckpoint, hrotated, hfront⟩, rfl⟩
      · -- only one file is removed
        have hremoved : (range' (history.rotate hcurrent).first count).map
            FileEffect.remove = [.remove ((history.rotate hcurrent).push checkpoint hroom).first] :=
          by rw [hone hlength]; rfl
        rw [hremoved, ← directory_push hroom] at hstops
        cases hstops with
        | before =>
          rw [directory_push]
          exact ⟨_, _, hcontinues, hleft,
            .inr ⟨.inl rfl, checkpoint, hcheckpoint, hrotated, prefix_rfl⟩, rfl⟩
        | after hstops =>
          have hpushed : count ≤ ((history.rotate hcurrent).push checkpoint hroom).closed.length :=
            hcount
          rw [apply_remove hpushed hend hpos (hone hlength)] at hstops
          obtain ⟨front, hfront, rfl⟩ := stops_last hstops
          exact ⟨_, front, hprepared, hdropped, .inr ⟨hspare, entry, hpayload, hfits, hfront⟩, rfl⟩

section Runs

/-- The ledger leaves room for an append and for the recovery from its crash. If the record goes
into the current segment, so does the record of the recovery, or a new segment is not one too
many. -/
structure Roomy (options : AuditLedgerOptions) (store : LedgerStore) (record : AuditRecord) :
    Prop where
  segments : store.ledger.segments.length ≤ options.maxSegments
  count : (storedPayloads store.directory).length + 2 ≤ options.maxScanRecords
  sequence : store.ledger.head.sequence + 3 < 2 ^ 64
  segment : store.ledger.currentSegment + 2 < 10 ^ 16
  spare : store.ledger.currentSegmentBytes + frameBytes (encodeRecord record) ≤
      options.maxSegmentBytes →
    store.ledger.currentSegmentBytes = 0 ∨ store.ledger.segments.length < options.maxSegments ∨
      store.ledger.currentSegmentBytes + recoveryBytes options ≤ options.maxSegmentBytes

/-- The stores of runs in which every append starts with room: a new ledger, what an append leads
to, and what opening finds after an append was stopped at any point. A ledger that has found the
front of a frame is in such a store before it records that. -/
inductive Lives (options : AuditLedgerOptions) : LedgerStore → Prop
  | opened {ledger : FileAuditLedger} {directory : Directory} :
      openLedger options [] = (.ok ledger, directory) → Lives options ⟨ledger, directory⟩
  | appended {store store' : LedgerStore} {record : AuditRecord} {head : AuditLedgerHead} :
      Lives options store → Roomy options store record → Appendable record →
      append options record store = (.ok head, store') → Lives options store'
  | scanned {store : LedgerStore} {record : AuditRecord} {left directory : Directory}
      {scan : DirectoryScan} :
      Lives options store → Roomy options store record → Appendable record →
      Stops (appendEffects options record store) store.directory left →
      scanSegments options left = (.ok scan, directory) →
      Lives options ⟨ofScan (firstNumber directory) scan, directory⟩
  | reopened {store : LedgerStore} {record : AuditRecord} {left directory : Directory}
      {ledger : FileAuditLedger} :
      Lives options store → Roomy options store record → Appendable record →
      Stops (appendEffects options record store) store.directory left →
      openLedger options left = (.ok ledger, directory) → Lives options ⟨ledger, directory⟩

variable {store : LedgerStore} {record : AuditRecord} {context : AuditContext}

theorem Roomy.of_store (h : Roomy options (history.store state) record)
    (hcontinues : Continues options history history) : history.Roomy options record := by
  have hsegments := h.segments
  have hcount := h.count
  have hsequence := h.sequence
  have hlink : (history.store state).ledger.head.sequence + 1 = history.link.sequence :=
    congrArg Link.sequence (history.link_store state)
  have hlength : (history.store state).ledger.segments.length = history.closed.length + 1 :=
    length_table_concat _ _ _ _
  rw [storedPayloads_store, length_map] at hcount
  refine ⟨hcontinues, hlength.ge.trans hsegments, hcount, by omega, h.segment, fun hfits => ?_⟩
  refine (h.spare hfits).imp (fun hzero => ?_) (.imp_left hlength.symm.trans_lt)
  exact (frames_eq_nil_iff _ _).mp (length_eq_zero_iff.mp hzero)

theorem History.Roomy.roomy_store (h : history.Roomy options record) (state : AuditLedgerIoState) :
    FileAuditLedger.Roomy options (history.store state) record := by
  have hlink : (history.store state).ledger.head.sequence + 1 = history.link.sequence :=
    congrArg Link.sequence (history.link_store state)
  have hsequence := h.sequence
  have hlength : (history.store state).ledger.segments.length = history.closed.length + 1 :=
    length_table_concat _ _ _ _
  refine ⟨hlength.trans_le h.few, ?_, by omega, h.number, fun hfits => ?_⟩
  · rw [storedPayloads_store, length_map]
    exact h.count
  · refine (h.spare hfits).imp (fun hnil => ?_) (.imp_left hlength.trans_lt)
    exact length_eq_zero_iff.mpr ((frames_eq_nil_iff _ _).mpr hnil)

theorem Left.scanSegments_tailed (h : Left options history)
    (hcontext : options.recoveryContext.isSome) (hfronts : Fronts options history front) :
    ∃ later scan state', scanSegments options (history.tailed front) = (.ok scan, directory later) ∧
      ofScan (firstNumber later.directory) scan = later.ledger state' ∧ Takes state' ∧
      Continues options later later := by
  have hsequence := h.sequence
  by_cases hnil : front = []
  · subst hnil
    rw [tailed_nil, h.readable.scanSegments_eq]
    refine ⟨history, _, .ready, rfl, ?_, .inl rfl, h.continues⟩
    rw [firstNumber_directory, ofScan_scan]
  obtain ⟨-, entry, hpayload, hsize, hfront⟩ := hfronts.resolve_left hnil
  by_cases hfull : front = encodeFrame history.link entry.payload
  · have hroom : history.link.sequence < 2 ^ 64 := by omega
    have hpushed := h.continues.push hroom hpayload hsize
    rw [hfull, ← directory_push hroom,
      (h.readable.push h.count hpayload hsequence hroom).scanSegments_eq]
    refine ⟨_, _, .ready, rfl, ?_, .inl rfl, .refl hpushed.bounded hpushed.payloads⟩
    rw [firstNumber_directory, ofScan_scan]
  · have hscan := scanSegments_torn h.readable h.count hpayload hcontext ⟨hnil, hfront, hfull⟩
    refine ⟨history, _, .recovering, hscan, ?_, .inr (.inr rfl), h.continues⟩
    rw [firstNumber_directory, ofScan_recovered]

theorem writable_of_append (haccepted : options.accepted = true) (hrecord : Appendable record)
    {head : AuditLedgerHead} {store' : LedgerStore}
    (h : append options record (history.store state) = (.ok head, store')) :
    Writable options record := by
  obtain ⟨entry, _, _, rfl, hmetadata, hpayload, _⟩ := append_eq_ok haccepted hrecord h
  refine ⟨hrecord, entry.storable.valid, ?_⟩
  rwa [Entry.payload, hmetadata, ← encodeRecord] at hpayload

theorem History.Roomy.append_eq (h : history.Roomy options record) (hgenerous : Generous options)
    (hwritable : Writable options record) (hstate : Takes state) :
    ∃ later head, append options record (history.store state) =
        (.ok head, History.store later .publishedHead) ∧
      Continues options history later ∧ later.closed.length + 1 ≤ options.maxSegments ∧
      Grows history later := by
  have hnumber := h.number
  have hsequence := h.sequence
  obtain ⟨_, _, _, _, hroom, head, _, hpayload, hreadies, happend, _⟩ :=
    append_total hgenerous h.continues.bounded hwritable (by omega) (by omega) hstate
  exact ⟨_, head, happend, (hreadies.continues hgenerous h.continues).push hroom hpayload
    (hreadies.fits hgenerous hpayload), hreadies.few h.few, hreadies.grows_push hroom⟩

theorem appendEffects_of_not_writable (hrecord : Appendable record)
    (h : ¬ Writable options record) (store : LedgerStore) :
    appendEffects options record store = [] := by
  have hcheck : ∃ error, checkRecord options record = .error error := by
    rcases hresult : checkRecord options record with error | payload
    · exact ⟨error, rfl⟩
    · obtain ⟨rfl, hvalid, hpayload, _⟩ := checkRecord_eq_ok hresult
      exact absurd ⟨hrecord, hvalid, hpayload⟩ h
  obtain ⟨_, herror⟩ := hcheck
  rw [appendEffects, herror]
  rcases (ensureWritable store).1 with _ | _
  · rfl
  · rfl

theorem History.Roomy.leftBy (h : history.Roomy options record) (hgenerous : Generous options)
    (hrecovers : Recovers options context) (hrecord : Appendable record) (hstate : Takes state)
    (hstops : Stops (appendEffects options record (history.store state)) history.directory left) :
    LeftBy options history left := by
  by_cases hwritable : ¬ Writable options record
  · rw [appendEffects_of_not_writable hrecord hwritable] at hstops
    rw [stops_nil hstops]
    exact leftBy_directory h.continues h.left
  rw [not_not] at hwritable
  have hnumber := h.number
  have hsequence := h.sequence
  obtain ⟨_, _, _, _, _, _, hentry, hpayload, hreadies, _, heffects⟩ :=
    append_total hgenerous h.continues.bounded hwritable (by omega) (by omega) hstate
  rw [heffects] at hstops
  exact hreadies.leftBy hgenerous hrecovers.recoveryBytes_le h hentry hpayload hstops

theorem Lives.exists_history (hgenerous : Generous options) (hrecovers : Recovers options context)
    (h : Lives options store) : ∃ history state, store = History.store history state ∧
      Takes state ∧ Continues options history history := by
  have haccepted := hgenerous.accepted
  induction h with
  | opened hopen =>
    obtain ⟨rfl, rfl⟩ := openLedger_nil_eq_ok hopen
    refine ⟨_, _, rfl, .inl rfl, .refl ⟨?_, Nat.zero_le _⟩ ?_⟩
    · rintro segment ⟨⟩
    · rintro entry ⟨⟩
  | appended _ hroomy hrecord happend ih =>
    obtain ⟨history, state, rfl, hstate, hcontinues⟩ := ih
    have hwritable := writable_of_append haccepted hrecord happend
    obtain ⟨later, _, htotal, hlater, -⟩ :=
      (hroomy.of_store hcontinues).append_eq hgenerous hwritable hstate
    rw [htotal] at happend
    cases happend
    exact ⟨_, _, rfl, .inr (.inl rfl), .refl hlater.bounded hlater.payloads⟩
  | scanned _ hroomy hrecord hstops hscan ih =>
    obtain ⟨history, state, rfl, hstate, hcontinues⟩ := ih
    obtain ⟨later, front, _, hleft, hfronts, rfl⟩ :=
      (hroomy.of_store hcontinues).leftBy hgenerous hrecovers hrecord hstate hstops
    obtain ⟨last, _, state', htailed, hofScan, htakes, hlast⟩ :=
      hleft.scanSegments_tailed (by rw [hrecovers.given]; rfl) hfronts
    rw [htailed] at hscan
    cases hscan
    rw [hofScan]
    exact ⟨last, state', rfl, htakes, hlast⟩
  | reopened _ hroomy hrecord hstops hopen ih =>
    obtain ⟨history, _, rfl, hstate, hcontinues⟩ := ih
    obtain ⟨_, _, _, hleft, hfronts, rfl⟩ :=
      (hroomy.of_store hcontinues).leftBy hgenerous hrecovers hrecord hstate hstops
    obtain ⟨last, state', htailed, htakes, hlast, _⟩ :=
      hleft.openLedger_tailed hgenerous hrecovers hfronts
    rw [htailed] at hopen
    cases hopen
    exact ⟨last, state', rfl, htakes, .refl hlast.bounded hlast.payloads⟩

/-- In a run in which every append starts with room, an append that is stopped anywhere leaves a
directory that opens: no segment is removed by the opening, and every acknowledged record of a
segment that was not removed before is kept. An append that succeeds leaves no more segments and
bytes than allowed. -/
theorem append_survives_crash {options : AuditLedgerOptions} {context : AuditContext}
    {store : LedgerStore} {record : AuditRecord} (hgenerous : Generous options)
    (hrecovers : Recovers options context) (hlives : Lives options store)
    (hroomy : Roomy options store record) (hrecord : Appendable record) :
    (∀ left, Stops (appendEffects options record store) store.directory left →
      ∃ ledger directory, openLedger options left = (.ok ledger, directory) ∧
        firstNumber directory = firstNumber left ∧
        ∀ acknowledged ∈ store.ledger.records,
          firstNumber left ≤ acknowledged.segment → acknowledged ∈ ledger.records) ∧
      ∀ head store', append options record store = (.ok head, store') →
        store'.ledger.segments.length ≤ options.maxSegments ∧
          store'.ledger.totalBytes ≤ options.maxTotalBytes := by
  obtain ⟨history, _, rfl, hstate, hcontinues⟩ := hlives.exists_history hgenerous hrecovers
  have hhistory := hroomy.of_store hcontinues
  constructor
  · intro left hstops
    obtain ⟨later, _, hlater, hleft, hfronts, rfl⟩ :=
      hhistory.leftBy hgenerous hrecovers hrecord hstate hstops
    obtain ⟨last, _, hopen, _, hlast, hfirst⟩ :=
      hleft.openLedger_tailed hgenerous hrecovers hfronts
    rw [firstNumber_tailed]
    refine ⟨_, _, hopen, by rw [firstNumber_directory, hfirst],
      fun acknowledged hmem hsegment => ?_⟩
    exact (hlater.trans hlast).records acknowledged hmem (hfirst.trans_le hsegment)
  · intro head store' happend
    have hwritable := writable_of_append hgenerous.accepted hrecord happend
    obtain ⟨later, _, htotal, hlater, hfew, -⟩ := hhistory.append_eq hgenerous hwritable hstate
    rw [htotal] at happend
    cases happend
    refine ⟨(length_table_concat _ _ _ _).trans_le hfew, ?_⟩
    calc (later.ledger .publishedHead).totalBytes
        ≤ (later.closed.length + 1) * options.maxSegmentBytes :=
          hlater.bounded.totalBytes_le .publishedHead
      _ ≤ options.maxSegments * options.maxSegmentBytes := Nat.mul_le_mul_right _ hfew
      _ ≤ options.maxTotalBytes := hgenerous.total

section Samples

/-- A history that `n` appends lead to. -/
structure Early (options : AuditLedgerOptions) (n : ℕ) (history : History) : Prop where
  continues : Continues options history history
  few : history.closed.length + 1 ≤ options.maxSegments
  entries : history.entries.length ≤ 2 * n
  appended : n < history.link.sequence
  sequence : history.link.sequence ≤ 2 * n + 1
  number : history.number ≤ n + 1

variable {n : ℕ}

theorem Early.roomy (h : Early options n history) (hsmall : n < 1000)
    (hscan : 2 * n + 2 ≤ options.maxScanRecords)
    (hframe : recoveryBytes options ≤ frameBytes (encodeRecord record)) :
    history.Roomy options record := by
  have hentries := h.entries
  have hsequence := h.sequence
  have hnumber := h.number
  exact ⟨h.continues, h.few, by omega, by omega, by omega, fun hfits => .inr (.inr (by omega))⟩

theorem Early.append_eq (h : Early options n history) (hroomy : history.Roomy options record)
    (hgenerous : Generous options) (hwritable : Writable options record) (hstate : Takes state) :
    ∃ later head, append options record (history.store state) =
        (.ok head, History.store later .publishedHead) ∧ Early options (n + 1) later := by
  have hentries := h.entries
  have happended := h.appended
  have hsequence := h.sequence
  have hnumber := h.number
  obtain ⟨later, head, happend, hlater, hfew, hgrows⟩ := hroomy.append_eq hgenerous hwritable hstate
  obtain ⟨hmore, hnext, hlinks, hsegments⟩ := hgrows
  exact ⟨later, head, happend, .refl hlater.bounded hlater.payloads, hfew, by omega, by omega,
    by omega, by omega⟩

theorem early_empty (hgenerous : Generous options) : Early options 0 History.empty := by
  refine ⟨.refl ⟨?_, Nat.zero_le _⟩ ?_, hgenerous.segments_pos, le_rfl, Nat.one_pos, le_rfl, le_rfl⟩
  · rintro segment ⟨⟩
  · rintro entry ⟨⟩

/-- Up to a thousand logouts are appended to a new ledger, with the rotations and removals that they
cause. -/
theorem lives_logouts (hgenerous : Generous options) (hwritable : Writable options logoutRecord)
    (hframe : recoveryBytes options ≤ frameBytes (encodeRecord logoutRecord)) (hsmall : n < 1000)
    (hscan : 2 * n + 2 ≤ options.maxScanRecords) :
    Lives options (logouts options n) ∧ Written options (logouts options n) ∧
      ∃ history state, logouts options n = History.store history state ∧ Takes state ∧
        Early options n history := by
  induction n with
  | zero =>
    have hopen : openLedger options [] = (.ok emptyLedger, [(1, [])]) := by
      rw [openLedger, if_pos hgenerous.accepted]
      change finishOpen options History.empty.directory = _
      rw [← openLedger_directory_of_number hgenerous.accepted (by decide)]
      refine Readable.openLedger_eq hgenerous.accepted ⟨⟨?_, Nat.zero_le _, by decide⟩, by decide⟩
      rintro entry ⟨⟩
    exact ⟨.opened hopen, .opened hopen, History.empty, .ready, rfl, .inl rfl,
      early_empty hgenerous⟩
  | succ n ih =>
    obtain ⟨hlives, hwritten, history, state, hstore, hstate, hearly⟩ := ih (by omega) (by omega)
    have hroomy := hearly.roomy (by omega) (by omega) hframe
    obtain ⟨later, head, happend, hlater⟩ := hearly.append_eq hroomy hgenerous hwritable hstate
    rw [← hstore] at happend
    have hnext : logouts options (n + 1) = later.store .publishedHead := by rw [logouts, happend]
    have hproper : (Operation.securityObservation logoutRecord).Proper := ⟨rfl, by decide⟩
    rw [hnext]
    refine ⟨.appended hlives ?_ hwritable.toAppendable happend, .appended hwritten hproper happend,
      later, _, rfl, .inr (.inl rfl), hlater⟩
    rw [hstore]
    exact hroomy.roomy_store state

def retainingOptions : AuditLedgerOptions where
  recoveryContext := some ⟨sampleId, sampleId, .systemRecovery, 0⟩
  maxPayloadBytes := 1280
  maxSegmentBytes := 2736
  maxSegments := 2
  maxTotalBytes := 5472

theorem generous_retainingOptions : Generous retainingOptions :=
  ⟨by decide, by decide, by decide, by decide⟩

theorem recovers_retainingOptions :
    Recovers retainingOptions ⟨sampleId, sampleId, .systemRecovery, 0⟩ := by
  have hsize : (match recoveryRecord ⟨sampleId, sampleId, .systemRecovery, 0⟩ with
      | .ok record => (encodeRecord record).length
      | .error _ => 0) ≤ retainingOptions.maxPayloadBytes := by decide +kernel
  refine ⟨rfl, by decide, fun record hrecord => ?_⟩
  rwa [hrecord] at hsize

theorem recoveryBytes_retainingOptions :
    recoveryBytes retainingOptions ≤ frameBytes (encodeRecord logoutRecord) := by decide +kernel

theorem writable_logoutRecord : Writable retainingOptions logoutRecord :=
  ⟨⟨by decide, by decide⟩, by decide, by decide +kernel⟩

end Samples

/-- After a hundred logouts, of which only a few have room, a crash of the next one. -/
theorem logout_survives_crash :
    retainingOptions.maxTotalBytes < 100 * frameBytes (encodeRecord logoutRecord) ∧
      100 ≤ (logouts retainingOptions 100).ledger.head.sequence ∧
      ∀ left, Stops (appendEffects retainingOptions logoutRecord (logouts retainingOptions 100))
        (logouts retainingOptions 100).directory left →
      ∃ ledger directory, openLedger retainingOptions left = (.ok ledger, directory) ∧
        ∀ acknowledged ∈ (logouts retainingOptions 100).ledger.records,
          firstNumber left ≤ acknowledged.segment → acknowledged ∈ ledger.records := by
  obtain ⟨hlives, -, history, state, hstore, -, hearly⟩ := lives_logouts generous_retainingOptions
    writable_logoutRecord recoveryBytes_retainingOptions (by decide : 100 < 1000) (by decide)
  have hsequence : (logouts retainingOptions 100).ledger.head.sequence + 1 =
      history.link.sequence := by
    rw [hstore]
    exact congrArg Link.sequence (history.link_store state)
  have happended := hearly.appended
  have hroomy : Roomy retainingOptions (logouts retainingOptions 100) logoutRecord := by
    rw [hstore]
    exact (hearly.roomy (by decide) (by decide) recoveryBytes_retainingOptions).roomy_store state
  obtain ⟨hcrash, -⟩ := append_survives_crash generous_retainingOptions recovers_retainingOptions
    hlives hroomy writable_logoutRecord.toAppendable
  refine ⟨by decide +kernel, by omega, fun left hstops => ?_⟩
  obtain ⟨ledger, directory, hopen, -, hkept⟩ := hcrash left hstops
  exact ⟨ledger, directory, hopen, hkept⟩

def oneScannedOptions : AuditLedgerOptions where
  recoveryContext := some ⟨sampleId, sampleId, .systemRecovery, 0⟩
  maxScanRecords := 1

/-- The process stops when the frame of the second record is written, and the ledger with the first,
acknowledged one does not open any more. -/
theorem crash_prevents_opening :
    (append oneScannedOptions logoutRecord (logouts oneScannedOptions 0)).1.isOk = true ∧
      ∃ left, Stops (appendEffects oneScannedOptions logoutRecord (logouts oneScannedOptions 1))
        (logouts oneScannedOptions 1).directory left ∧
        (openLedger oneScannedOptions left).1.isOk = false := by
  have hok : ∀ m < 2, (append oneScannedOptions logoutRecord (logouts oneScannedOptions m)).1.isOk =
      true := by decide +kernel
  have hwritten : Written oneScannedOptions (logouts oneScannedOptions 2) :=
    written_logouts (by decide +kernel) hok
  have hcount : (storedPayloads (logouts oneScannedOptions 2).directory).length = 2 := by
    decide +kernel
  rcases happend : append oneScannedOptions logoutRecord (logouts oneScannedOptions 1) with
    ⟨_ | head, store⟩
  · have hfailed := hok 1 (by decide)
    rw [happend] at hfailed
    cases hfailed
  have hstore : (logouts oneScannedOptions 2).directory = store.directory :=
    by rw [logouts, happend]
  refine ⟨hok 0 (by decide), _, stops_foldl _ _, Bool.eq_false_iff.mpr fun hopens => ?_⟩
  rw [← append_directory happend, ← hstore] at hopens
  have hle := (hwritten.inBounds hopens).count
  rw [hcount] at hle
  exact absurd hle (by decide)

end Runs

end FileAuditLedger

end EdgeProxy

import EdgeProxy.Audit.Checkpoint
import EdgeProxy.Audit.History

/-! # What an append does to the history

A ledger that keeps a history changes it in three ways: a frame is pushed on the current segment,
the current segment is closed, and the oldest segments are dropped after a checkpoint was pushed.
`append_eq_ok` says which of these a successful append did.
-/

namespace EdgeProxy

open Rust List Bool Prod

namespace FileAuditLedger

variable {store' : LedgerStore} {count : ℕ}

namespace History

section Moves

variable (history : History)

theorem retained_push (entry : Entry) (hfirst : 1 < history.first) :
    ∃ checkpoint ∈ history.closed.flatten ++ (history.current ++ [entry]),
      checkpoint.Ends history.anchor := by
  obtain ⟨checkpoint, hmem, hends⟩ := history.retained hfirst
  rw [← append_assoc]
  exact ⟨checkpoint, mem_append_left _ hmem, hends⟩

theorem sequences_push (entry : Entry) (h : history.link.sequence < 2 ^ 64) :
    history.anchor.sequence + (history.closed.flatten ++ (history.current ++ [entry])).length ≤
      2 ^ 64 := by
  rw [sequence_link, entries, length_append] at h
  simp only [length_append, length_singleton]
  omega

def push (entry : Entry) (h : history.link.sequence < 2 ^ 64) : History where
  first := history.first
  anchor := history.anchor
  closed := history.closed
  current := history.current ++ [entry]
  first_pos := history.first_pos
  sequence_pos := history.sequence_pos
  hash := history.hash
  filled := history.filled
  whole := history.whole
  retained := history.retained_push entry
  sequences := history.sequences_push entry h

def rotate (h : history.current ≠ []) : History where
  first := history.first
  anchor := history.anchor
  closed := history.closed ++ [history.current]
  current := []
  first_pos := history.first_pos
  sequence_pos := history.sequence_pos
  hash := history.hash
  filled := by
    intro entries hentries
    rcases mem_append.mp hentries with hclosed | hcurrent
    · exact history.filled entries hclosed
    · rwa [mem_singleton.mp hcurrent]
  whole := history.whole
  retained hfirst := by simpa using history.retained hfirst
  sequences := by simpa using history.sequences

def linkAt (count : ℕ) : Link :=
  linkAfter history.anchor (history.closed.take count).flatten

/-- A record that is kept says where the first `count` segments end. -/
abbrev Droppable (count : ℕ) : Prop :=
  ∃ entry ∈ (history.closed.drop count).flatten ++ history.current,
    entry.Ends (history.linkAt count)

def drop (count : ℕ) (h : history.Droppable count) (hpos : 0 < count) :
    History where
  first := history.first + count
  anchor := history.linkAt count
  closed := history.closed.drop count
  current := history.current
  first_pos := Nat.add_pos_left history.first_pos count
  sequence_pos := by
    rw [linkAt, sequence_linkAfter]
    exact Nat.add_pos_left history.sequence_pos _
  hash := length_previous_linkAfter history.hash _
  filled entries hentries := history.filled entries (mem_of_mem_drop hentries)
  whole hone := by
    have hfirst := history.first_pos
    omega
  retained _ := h
  sequences := by
    have hsequences := history.sequences
    have hsplit := congrArg length (congrArg flatten
      (take_append_drop count history.closed))
    rw [flatten_append, length_append] at hsplit
    rw [linkAt, sequence_linkAfter]
    rw [length_append] at hsequences ⊢
    omega

variable {history : History} {entry : Entry}

section Push

variable (h : history.link.sequence < 2 ^ 64)

@[simp] theorem link_push :
    (history.push entry h).link = history.link.next entry.payload := by
  change linkAfter history.start (history.current ++ [entry]) = _
  rw [linkAfter_append]
  rfl

@[simp] theorem entries_push :
    (history.push entry h).entries = history.entries ++ [entry] := by
  change history.closed.flatten ++ (history.current ++ [entry]) = _
  rw [← append_assoc]
  rfl

theorem frames_push (history : History) (entry : Entry) :
    frames history.start (history.current ++ [entry]) =
      frames history.start history.current ++ encodeFrame history.link entry.payload := by
  rw [frames_append, frames_singleton]
  rfl

theorem records_push : (history.push entry h).records =
      history.records ++ [⟨history.link.sequence, entry.record, history.number⟩] := by
  change map _ (scannedGroups history.first history.anchor history.closed ++
    scanned history.number history.start (history.current ++ [entry])) = _
  rw [scanned_append, ← append_assoc, map_append]
  rfl

theorem directory_push :
    (history.push entry h).directory = history.tailed (encodeFrame history.link entry.payload) := by
  change _ ++ [(history.number, frames history.start (history.current ++ [entry]))] = _
  rw [frames_push]
  rfl

theorem head_push :
    (history.push entry h).head = ⟨history.first - 1, history.link.sequence⟩ := by
  rw [head, link_push, sequence_next]
  rfl

end Push

section Rotate

variable (h : history.current ≠ [])

@[simp] theorem start_rotate : (history.rotate h).start = history.link := by
  change linkAfter history.anchor (history.closed ++ [history.current]).flatten = _
  simp [link, start]

@[simp] theorem link_rotate : (history.rotate h).link = history.link := start_rotate h

@[simp] theorem entries_rotate : (history.rotate h).entries = history.entries := by
  simp [entries, rotate]

@[simp] theorem number_rotate : (history.rotate h).number = history.number + 1 := by
  change history.first + (history.closed ++ [history.current]).length = _
  rw [length_append, length_singleton, number]
  omega

theorem records_rotate : (history.rotate h).records = history.records := by
  rw [records, records, scannedRecords, scannedRecords]
  change map _ (scannedGroups history.first history.anchor
    (history.closed ++ [history.current]) ++ []) = _
  rw [scannedGroups_append, scannedGroups, scannedGroups, append_nil, append_nil]
  rfl

theorem directory_rotate :
    (history.rotate h).directory = history.directory ++ [(history.number + 1, [])] := by
  rw [directory_eq, directory_eq, groups]
  change files history.first history.anchor (history.groups ++ [[]]) = _
  rw [files_append, groups, length_append]
  rfl

theorem table_rotate :
    table (history.rotate h).first (history.rotate h).anchor (history.rotate h).closed =
      history.segments := by
  rw [segments_eq]
  rfl

end Rotate

section Drop

variable {count : ℕ} (hend : history.Droppable count) (hpos : 0 < count)

@[simp] theorem start_drop : (history.drop count hend hpos).start = history.start := by
  change linkAfter (history.linkAt count) (history.closed.drop count).flatten = _
  rw [linkAt, ← linkAfter_append, ← flatten_append, take_append_drop]
  rfl

@[simp] theorem link_drop : (history.drop count hend hpos).link = history.link := by
  change linkAfter (history.drop count hend hpos).start history.current = _
  rw [start_drop]
  rfl

theorem number_drop (hcount : count ≤ history.closed.length) :
    (history.drop count hend hpos).number = history.number := by
  change history.first + count + (history.closed.drop count).length = _
  rw [length_drop, number]
  omega

end Drop

end Moves

section Stores

def store (history : History) (state : AuditLedgerIoState) : LedgerStore :=
  ⟨history.ledger state, history.directory⟩

def storeWith (history : History) (state : AuditLedgerIoState) (segment : AuditSegment) :
    LedgerStore :=
  ⟨{ history.ledger state with
      segments := table history.first history.anchor history.closed ++ [segment] },
    history.directory⟩

/-- A segment that was begun has no first sequence before its first frame. -/
def begunSegment (history : History) : AuditSegment :=
  { segmentOf history.number history.start history.current with firstSequence := 0 }

abbrev begun (history : History) (state : AuditLedgerIoState) : LedgerStore :=
  history.storeWith state history.begunSegment

/-- The last segment as it was read, or as it was begun. -/
def Describes (history : History) (segment : AuditSegment) : Prop :=
  segment = segmentOf history.number history.start history.current ∨
    history.current = [] ∧ segment = history.begunSegment

variable {history : History} {entry : Entry} {state : AuditLedgerIoState}

theorem store_eq (history : History) (state : AuditLedgerIoState) :
    history.store state =
      history.storeWith state (segmentOf history.number history.start history.current) := rfl

theorem link_storeWith (history : History) (state : AuditLedgerIoState) (segment : AuditSegment) :
    (history.storeWith state segment).ledger.link = history.link := by
  have hsequence := history.sequence_link
  have hpos := history.sequence_pos
  refine Link.ext ?_ rfl
  change history.link.sequence - 1 + 1 = history.link.sequence
  omega

theorem link_store (history : History) (state : AuditLedgerIoState) :
    (history.store state).ledger.link = history.link :=
  history.link_storeWith state (segmentOf history.number history.start history.current)

theorem current_ne_nil (h : (history.store state).ledger.currentSegmentBytes ≠ 0) :
    history.current ≠ [] := by
  intro hnil
  refine h (length_eq_zero_iff.mpr ?_)
  rw [hnil]
  rfl

theorem write_directory (history : History) (bytes : Bytes) :
    Directory.write history.directory history.number bytes = history.tailed bytes := by
  have hothers : (files history.first history.anchor history.closed).map (fun file =>
      if file.1 = history.number then (file.1, file.2 ++ bytes) else file) =
      files history.first history.anchor history.closed := by
    refine (map_congr_left fun file hfile => ?_).trans (map_id _)
    have hnumber : file.1 ∈ (files history.first history.anchor history.closed).map fst :=
      mem_map_of_mem hfile
    rw [map_fst_files, mem_range'_1] at hnumber
    rw [if_neg (by rw [number]; omega), id]
  rw [Directory.write, directory, map_append, hothers, map_singleton, if_pos rfl, tailed]

theorem extendSegment_segmentOf (history : History) (entry : Entry) (segment : AuditSegment)
    (h : history.Describes segment) :
    extendSegment history.link entry.payload
        ((frames history.start history.current).length +
          (encodeFrame history.link entry.payload).length) segment =
      segmentOf history.number history.start (history.current ++ [entry]) := by
  have hstart : 0 < history.start.sequence := by
    rw [start, sequence_linkAfter]
    exact Nat.add_pos_left history.sequence_pos _
  have hlast : linkAfter history.start (history.current ++ [entry]) =
      history.link.next entry.payload := by
    rw [linkAfter_append]
    rfl
  have hfirst : (if segment.firstSequence = 0 then history.link.sequence
      else segment.firstSequence) = history.start.sequence := by
    rcases h with rfl | ⟨hcurrent, rfl⟩
    · rw [if_neg (by exact hstart.ne')]
      rfl
    · rw [if_pos (by rfl), link, hcurrent]
      rfl
  have hnumber : segment.number = history.number := by
    rcases h with rfl | ⟨_, rfl⟩
    · rfl
    · rfl
  rw [extendSegment, segmentOf, hfirst, hnumber, frames_push, hlast, length_append]
  simp [Link.next]

theorem published_storeWith {segment : AuditSegment} (h : history.Describes segment)
    (hroom : history.link.sequence < 2 ^ 64) :
    published entry.record entry.payload (history.storeWith state segment) =
      (history.push entry hroom).store .publishedHead := by
  have hlink := history.link_storeWith state segment
  have hsegment := history.extendSegment_segmentOf entry segment h
  have hledger : (published entry.record entry.payload (history.storeWith state segment)).ledger =
      (history.push entry hroom).ledger .publishedHead := by
    rw [published, extended, hlink]
    simp only [storeWith, ledger, dropLast_concat, getLast?_concat, Option.map_some,
      Option.toList_some, hsegment]
    rw [FileAuditLedger.mk.injEq]
    refine ⟨(records_push hroom).symm, rfl, rfl, ?_, (head_push hroom).symm, ?_, rfl⟩
    · change _ = (frames history.start (history.current ++ [entry])).length
      rw [frames_push, length_append]
    · rw [link_push]
      rfl
  have hdirectory : (published entry.record entry.payload
      (history.storeWith state segment)).directory = (history.push entry hroom).directory := by
    rw [published, extended, hlink]
    change Directory.write history.directory history.number _ = _
    rw [write_directory, directory_push]
  rw [store, ← hledger, ← hdirectory]

theorem appendEncoded_storeWith {segment : AuditSegment}
    (h : history.Describes segment) {result : AuditLedgerHead}
    (happend : appendEncoded entry.record entry.payload
      (history.storeWith state segment) = (.ok result, store')) :
    ∃ hroom : history.link.sequence < 2 ^ 64,
      store' = (history.push entry hroom).store .publishedHead := by
  rcases appendEncoded_cases entry.record entry.payload (history.storeWith state segment) with
    ⟨error, herror⟩ | ⟨hroom, hok⟩
  · rw [herror] at happend
    cases happend
  · rw [link_storeWith] at hroom
    rw [hok] at happend
    cases happend
    exact ⟨hroom, published_storeWith h hroom⟩

theorem rotateSegment_store (state : AuditLedgerIoState) (h : history.current ≠ []) :
    rotateSegment (history.store state) =
      if 2 ^ 64 ≤ (history.rotate h).number then
        (.error ⟨.auditCapacityReached, "audit segment overflow"⟩, history.store state)
      else
        (.ok ⟨⟩, (history.rotate h).begun state) := by
  rw [number_rotate, begun, storeWith, table_rotate, directory_rotate, begunSegment, number_rotate,
    start_rotate, ledger, records_rotate, number_rotate, link_rotate, head, link_rotate]
  rfl

section Drop

variable {count : ℕ} (hcount : count ≤ history.closed.length)
  (hend : history.Droppable count) (hpos : 0 < count)

theorem groups_drop :
    history.groups = history.closed.take count ++ (history.drop count hend hpos).groups := by
  change _ = history.closed.take count ++ (history.closed.drop count ++ [history.current])
  rw [← append_assoc, take_append_drop]
  rfl

include hcount in
theorem length_take_closed : (history.closed.take count).length = count := by
  rw [length_take, min_eq_left hcount]

include hcount in
theorem segments_drop : history.segments =
    table history.first history.anchor (history.closed.take count) ++
      (history.drop count hend hpos).segments := by
  rw [segments_eq, segments_eq, groups_drop hend hpos, table_append, length_take_closed hcount]
  rfl

include hcount in
theorem directory_drop : history.directory =
    files history.first history.anchor (history.closed.take count) ++
      (history.drop count hend hpos).directory := by
  rw [directory_eq, directory_eq, groups_drop hend hpos, files_append, length_take_closed hcount]
  rfl

include hcount in
theorem scannedRecords_drop : history.scannedRecords =
    scannedGroups history.first history.anchor (history.closed.take count) ++
      (history.drop count hend hpos).scannedRecords := by
  rw [scannedRecords_eq, scannedRecords_eq, groups_drop hend hpos, scannedGroups_append,
    length_take_closed hcount]
  rfl

theorem filter_dropped {α : Type} {number : α → ℕ} {front back : List α} {first : ℕ}
    (hfront : ∀ a ∈ front, number a ∈ range' first count)
    (hback : ∀ a ∈ back, first + count ≤ number a) :
    (front ++ back).filter (fun a => number a ∉ range' first count) = back := by
  have hnone : front.filter (fun a => number a ∉ range' first count) = [] :=
    filter_eq_nil_iff.mpr fun a ha => by simpa using hfront a ha
  have hall : back.filter (fun a => number a ∉ range' first count) = back := by
    refine filter_eq_self.mpr fun a ha => ?_
    have hle := hback a ha
    simp only [decide_not, not_eq_true', decide_eq_false_iff_not, mem_range'_1]
    omega
  rw [filter_append, hnone, hall, nil_append]

include hcount in
theorem filter_directory : history.directory.filter (fun file =>
    file.1 ∉ range' history.first count) = (history.drop count hend hpos).directory := by
  rw [directory_drop hcount hend hpos]
  refine filter_dropped (fun file hfile => ?_) fun file hfile => ?_
  · have hnumber := mem_map_of_mem (f := fst) hfile
    rwa [map_fst_files, length_take_closed hcount] at hnumber
  · have hnumber := mem_map_of_mem (f := fst) hfile
    rw [directory_eq, map_fst_files] at hnumber
    exact (mem_range'_1.mp hnumber).1

include hcount in
theorem filter_records : history.records.filter (fun record =>
    record.segment ∉ range' history.first count) = (history.drop count hend hpos).records := by
  rw [records, records, scannedRecords_drop hcount hend hpos, map_append]
  refine filter_dropped (fun record hrecord => ?_) fun record hrecord => ?_
  · obtain ⟨found, hfound, rfl⟩ := mem_map.mp hrecord
    have hbounds := segment_of_mem_scannedGroups hfound
    rw [length_take_closed hcount] at hbounds
    exact mem_range'_1.mpr hbounds
  · obtain ⟨_, hfound, rfl⟩ := mem_map.mp hrecord
    rw [scannedRecords_eq] at hfound
    exact (segment_of_mem_scannedGroups hfound).1

include hcount in
theorem dropSegments_store : dropSegments count (history.store state) =
    (history.drop count hend hpos).store state := by
  have hlength := length_take_closed hcount
  have hremoved : (history.segments.take count).map AuditSegment.number =
      range' history.first count := by
    rw [segments_drop hcount hend hpos, take_left' (by rw [length_table, hlength]),
      map_number_table, hlength]
  have hsegments : history.segments.drop count = (history.drop count hend hpos).segments := by
    rw [segments_drop hcount hend hpos, drop_left' (by rw [length_table, hlength])]
  have hdirectory := filter_directory hcount hend hpos
  have hrecords := filter_records hcount hend hpos
  have hgeneration : ((history.drop count hend hpos).segments.head?.map
      fun segment => segment.number - 1).getD 0 = (history.drop count hend hpos).first - 1 := by
    rw [segments_eq, groups]
    rcases (history.drop count hend hpos).closed with _ | ⟨group, closed⟩
    · rfl
    · rfl
  rw [dropSegments, store, store]
  simp only [ledger, hremoved, hsegments, hdirectory, hrecords, hgeneration,
    number_drop hend hpos hcount, link_drop, start_drop, head]
  rfl

end Drop

end Stores

section Retention

variable {history : History} {options : AuditLedgerOptions} {state : AuditLedgerIoState}
  {count : ℕ}

theorem getElem?_table (number : ℕ) (link : Link) (groups : List (List Entry)) (i : ℕ) :
    (table number link groups)[i]? = groups[i]?.map fun entries =>
      segmentOf (number + i) (linkAfter link (groups.take i).flatten) entries := by
  induction groups generalizing number link i with
  | nil => rfl
  | cons _ _ ih =>
    cases i with
    | zero => rfl
    | succ =>
      rw [table, getElem?_cons_succ, ih, getElem?_cons_succ, take_succ_cons,
        flatten_cons, linkAfter_append, Nat.add_right_comm, Nat.add_assoc]

def rangeAt (history : History) (count : ℕ) : RetentionMetadata :=
  ⟨history.anchor.sequence, (history.linkAt count).sequence - 1, (history.linkAt count).previous⟩

theorem removedRange_storeWith (segment : AuditSegment) (hpos : 0 < count)
    (hcount : count ≤ history.closed.length) :
    (history.storeWith state segment).ledger.removedRange count = history.rangeAt count := by
  obtain ⟨last, rfl⟩ : ∃ last, count = last + 1 := ⟨count - 1, by omega⟩
  have hhead : (history.storeWith state segment).ledger.segments.head?.map
      AuditSegment.firstSequence = some history.anchor.sequence := by
    change (table history.first history.anchor history.closed ++ [segment]).head?.map _ = _
    rcases hclosed : history.closed with _ | ⟨group, closed⟩
    · rw [hclosed] at hcount
      cases hcount
    · rfl
  have hlast : (history.storeWith state segment).ledger.segments[last]? =
      some (segmentOf (history.first + last) (history.linkAt last) history.closed[last]) := by
    change (table history.first history.anchor history.closed ++ [segment])[last]? = _
    rw [getElem?_append_left (by rw [length_table]; exact hcount), getElem?_table,
      getElem?_eq_getElem hcount]
    rfl
  have hnext : linkAfter (history.linkAt last) history.closed[last] =
      history.linkAt (last + 1) := by
    rw [linkAt, linkAt, ← linkAfter_append, take_succ_eq_append_getElem hcount,
      flatten_append, flatten_singleton]
  have hfilled := history.filled _ (getElem_mem hcount)
  rw [removedRange, hhead, Nat.add_sub_cancel, hlast, rangeAt, ← hnext]
  simp [segmentOf, hfilled]

theorem valid_rangeAt (history : History) (hpos : 0 < count)
    (hcount : count ≤ history.closed.length) : (history.rangeAt count).Valid := by
  have hsequences := history.sequences
  have hdropped : 0 < (history.closed.take count).flatten.length := by
    rcases hclosed : history.closed with _ | ⟨group, closed⟩
    · rw [hclosed] at hcount
      exact absurd hpos (not_lt.mpr hcount)
    · obtain ⟨last, rfl⟩ : ∃ last, count = last + 1 := ⟨count - 1, by omega⟩
      have hgroup := history.filled group (by rw [hclosed]; exact mem_cons_self)
      rw [take_succ_cons, flatten_cons, length_append]
      exact Nat.add_pos_left (length_pos_iff.mpr hgroup) _
  have hsplit := congrArg length (congrArg flatten
    (take_append_drop count history.closed))
  rw [flatten_append, length_append] at hsplit
  rw [length_append] at hsequences
  have hlink : (history.linkAt count).sequence =
      history.anchor.sequence + (history.closed.take count).flatten.length := by
    rw [linkAt, sequence_linkAfter]
  refine ⟨history.sequence_pos, ?_, ?_, length_previous_linkAfter history.hash _⟩
  · change history.anchor.sequence ≤ (history.linkAt count).sequence - 1
    omega
  · change (history.linkAt count).sequence - 1 < 2 ^ 64
    omega

theorem ends_rangeAt {entry : Entry} (h : entry.metadata = some (history.rangeAt count)) :
    entry.Ends (history.linkAt count) := by
  have hpos : 0 < (history.linkAt count).sequence := by
    rw [linkAt, sequence_linkAfter]
    exact Nat.add_pos_left history.sequence_pos _
  refine ⟨history.rangeAt count, h, ?_, rfl⟩
  change (history.linkAt count).sequence - 1 + 1 = _
  omega

theorem ends_push {entry : Entry} (hroom : history.link.sequence < 2 ^ 64)
    (h : entry.metadata = some (history.rangeAt count)) :
    (history.push entry hroom).Droppable count :=
  ⟨entry, mem_append_right _ (mem_append_right _ mem_cons_self), ends_rangeAt h⟩

end Retention

end History

section Append

variable {options : AuditLedgerOptions} {history : History} {state : AuditLedgerIoState}

theorem removalCount_eq_ok {ledger : FileAuditLedger} {template : AuditRecord}
    {nextFrameBytes fuel start : ℕ}
    (h : removalCount options ledger template nextFrameBytes fuel start = .ok count) :
    start < count ∧ count < ledger.segments.length ∧
      removalFits options ledger template nextFrameBytes count = true ∧
      ∀ less, start < less → less < count →
        removalFits options ledger template nextFrameBytes less = false := by
  induction fuel generalizing start with
  | zero => cases h
  | succ _ ih =>
    rw [removalCount] at h
    split_ifs at h with hlast hfits
    · cases h
      exact ⟨by omega, by omega, hfits, fun less hless hlt => by omega⟩
    · obtain ⟨hstart, hcount, hfound, hless⟩ := ih h
      refine ⟨by omega, hcount, hfound, fun less hstarts hlt => ?_⟩
      rcases Nat.lt_or_ge (start + 1) less with hlater | hsame
      · exact hless less hlater hlt
      · rw [show less = start + 1 by omega]
        exact eq_false_iff.mpr hfits

theorem checked_eq_ok {record result : AuditRecord} (h : checked record = .ok result) :
    result = record ∧ record.validate = .ok () := by
  rw [checked] at h
  rcases hvalid : record.validate with error | ⟨⟩
  · rw [hvalid] at h
    cases h
  · rw [hvalid] at h
    cases h
    exact ⟨rfl, rfl⟩

variable {record : AuditRecord} {payload : Bytes} {nextFrameBytes timestamp : ℕ}
  {store' : LedgerStore}

theorem retentionRecord_eq_ok {timestamp segment : ℕ}
    (h : retentionRecord timestamp segment = .ok record) :
    record.validate = .ok () ∧ record.recordKind = .retentionCheckpoint ∧
      record.context.receivedAtEpochSeconds = timestamp := by
  unfold retentionRecord at h
  obtain ⟨_, _, h⟩ := Rust.bind_eq_ok.mp h
  obtain ⟨_, _, h⟩ := Rust.bind_eq_ok.mp h
  obtain ⟨_, _, h⟩ := Rust.bind_eq_ok.mp h
  obtain ⟨rfl, hvalid⟩ := checked_eq_ok h
  exact ⟨hvalid, rfl, rfl⟩

theorem liftLedger_eq_ok {α : Type} {result : Except AppError α} {store : LedgerStore}
    {a : α} (h : liftLedger result store = (.ok a, store')) : result = .ok a ∧ store' = store := by
  obtain ⟨hresult, hstore⟩ := Prod.mk.inj h
  exact ⟨hresult, hstore.symm⟩

theorem orDegrade_eq_ok {x : StoreAction PUnit} {store : LedgerStore}
    (h : orDegrade x store = (.ok ⟨⟩, store')) : x store = (.ok ⟨⟩, store') := by
  rw [orDegrade] at h
  rcases hx : x store with ⟨_ | _, _⟩
  · rw [hx] at h
    cases h
  · rwa [hx] at h

theorem small_of_frameBytes (haccepted : options.accepted = true)
    (h : frameBytes payload ≤ options.maxSegmentBytes) : payload.length < 2 ^ 32 := by
  simp only [AuditLedgerOptions.accepted, and_eq_true, decide_eq_true_eq] at haccepted
  rw [frameBytes] at h
  omega

inductive Prepares (options : AuditLedgerOptions) (nextFrameBytes : ℕ) (history : History) :
    History → Prop
  | kept :
      history.current = [] ∨ (frames history.start history.current).length + nextFrameBytes ≤
        options.maxSegmentBytes →
      Prepares options nextFrameBytes history history
  | rotated (hcurrent : history.current ≠ []) (state : AuditLedgerIoState) :
      retentionRequired options ((history.rotate hcurrent).begun state).ledger nextFrameBytes =
        false →
      options.maxSegmentBytes < (frames history.start history.current).length + nextFrameBytes →
      Prepares options nextFrameBytes history (history.rotate hcurrent)
  | retained (hcurrent : history.current ≠ []) (state : AuditLedgerIoState) {entry : Entry}
      {count : ℕ} (hroom : (history.rotate hcurrent).link.sequence < 2 ^ 64)
      (hend : ((history.rotate hcurrent).push entry hroom).Droppable count) (hpos : 0 < count) :
      count ≤ (history.rotate hcurrent).closed.length →
      entry.payload.length ≤ checkpointLimit →
      removalFits options ((history.rotate hcurrent).begun state).ledger entry.record nextFrameBytes
        count = true →
      (∀ less, 0 < less → less < count →
        removalFits options ((history.rotate hcurrent).begun state).ledger entry.record
          nextFrameBytes less = false) →
      entry.metadata = some ((history.rotate hcurrent).rangeAt count) →
      options.maxSegmentBytes < (frames history.start history.current).length + nextFrameBytes →
      retentionRequired options ((history.rotate hcurrent).begun state).ledger nextFrameBytes =
        true →
      Prepares options nextFrameBytes history
        (((history.rotate hcurrent).push entry hroom).drop count hend hpos)

theorem exists_checkpoint
    (hrecord : retentionRecord timestamp history.number = .ok record) (htime : timestamp < 2 ^ 64)
    (hnumber : history.number < 2 ^ 64) (hpos : 0 < count)
    (hcount : count ≤ history.closed.length) :
    ∃ entry : Entry, entry.record = record ∧ entry.metadata = some (history.rangeAt count) ∧
      entry.payload = encodeRecordWithRetention record (some (history.rangeAt count)) ∧
      entry.payload.length ≤ checkpointLimit := by
  obtain ⟨hvalid, hkind, htimestamp⟩ := retentionRecord_eq_ok hrecord
  have hrange := history.valid_rangeAt hpos hcount
  have hsize := length_checkpoint_le hrecord htime hnumber hrange
  have hstorable : Storable record (some (history.rangeAt count)) := by
    refine ⟨hvalid, by rwa [htimestamp], by simp [hkind], ?_⟩
    rintro range ⟨⟩
    exact hrange
  exact ⟨⟨_, _, hstorable, hsize.trans_lt (by decide)⟩, rfl, rfl, rfl, hsize⟩

theorem retainFor_eq_ok (htime : timestamp < 2 ^ 64) (hcurrent : history.current ≠ [])
    (hnumber : (history.rotate hcurrent).number < 2 ^ 64) (hfull : options.maxSegmentBytes <
      (frames history.start history.current).length + nextFrameBytes)
    (hrequired : retentionRequired options ((history.rotate hcurrent).begun state).ledger
      nextFrameBytes = true)
    (h : retainFor options nextFrameBytes timestamp ((history.rotate hcurrent).begun state) =
      (.ok ⟨⟩, store')) :
    ∃ prepared, Prepares options nextFrameBytes history prepared ∧
      store' = prepared.store .publishedHead := by
  rw [retainFor, Action.read_bind] at h
  obtain ⟨_, _, hlift, h⟩ := Action.bind_eq_ok.mp h
  obtain ⟨htemplate, rfl⟩ := liftLedger_eq_ok hlift
  obtain ⟨count, _, hlift, h⟩ := Action.bind_eq_ok.mp h
  obtain ⟨hfound, rfl⟩ := liftLedger_eq_ok hlift
  obtain ⟨hpos, hlt, hfits, hleast⟩ := removalCount_eq_ok hfound
  have hcount : count ≤ (history.rotate hcurrent).closed.length :=
    Nat.lt_succ_iff.mp (hlt.trans_eq (length_table_concat _ _ _ _))
  rw [History.removedRange_storeWith _ hpos hcount] at h
  obtain ⟨_, _, hlift, h⟩ := Action.bind_eq_ok.mp h
  obtain ⟨-, rfl⟩ := liftLedger_eq_ok hlift
  obtain ⟨head, _, happend, h⟩ := Action.bind_eq_ok.mp h
  obtain ⟨entry, rfl, hmetadata, hpayload, hlimit⟩ :=
    exists_checkpoint htemplate htime hnumber hpos hcount
  rw [← hpayload] at happend
  obtain ⟨hroom, rfl⟩ := History.appendEncoded_storeWith (.inr ⟨rfl, rfl⟩) happend
  have hend := History.ends_push hroom hmetadata
  refine ⟨_, .retained hcurrent state hroom hend hpos hcount hlimit hfits hleast hmetadata hfull
    hrequired, ?_⟩
  have hpushed : count ≤ ((history.rotate hcurrent).push entry hroom).closed.length := hcount
  rw [← History.dropSegments_store hpushed hend hpos]
  exact (Prod.mk.inj h).2.symm

theorem prepareStorage_eq_ok (htime : timestamp < 2 ^ 64)
    (h : prepareStorage options nextFrameBytes timestamp (history.store state) = (.ok ⟨⟩, store')) :
    ∃ prepared state' segment, Prepares options nextFrameBytes history prepared ∧
      prepared.Describes segment ∧ store' = prepared.storeWith state' segment := by
  rw [prepareStorage] at h
  split_ifs at h with hkept
  · obtain ⟨-, rfl⟩ := Prod.mk.inj h
    refine ⟨history, state, _, .kept (hkept.imp_left fun hzero => ?_), .inl rfl,
      History.store_eq history state⟩
    exact (frames_eq_nil_iff _ _).mp (length_eq_zero_iff.mp hzero)
  · have hcurrent := History.current_ne_nil (not_or.mp hkept).1
    obtain ⟨_, rotated, hrotate, h⟩ := Action.bind_eq_ok.mp h
    have hrotated := orDegrade_eq_ok hrotate
    rw [History.rotateSegment_store state hcurrent] at hrotated
    split_ifs at hrotated with hnumber
    · cases hrotated
    obtain ⟨-, rfl⟩ := Prod.mk.inj hrotated
    rw [retainIfRequired] at h
    split_ifs at h with hrequired
    · obtain ⟨prepared, hprepares, rfl⟩ :=
        retainFor_eq_ok htime hcurrent (not_le.mp hnumber) (not_le.mp (not_or.mp hkept).2) hrequired
          (orDegrade_eq_ok h)
      exact ⟨prepared, _, _, hprepares, .inl rfl, History.store_eq _ _⟩
    · obtain ⟨-, rfl⟩ := Prod.mk.inj h
      exact ⟨_, state, _, .rotated hcurrent state (eq_false_iff.mpr hrequired)
        (not_le.mp (not_or.mp hkept).2), .inr ⟨rfl, rfl⟩, rfl⟩

/-- A record that its caller may append: a checkpoint is written by the ledger alone, and a time is
a 64-bit number. -/
structure Appendable (record : AuditRecord) : Prop where
  kind : record.recordKind ≠ .retentionCheckpoint
  time : record.context.receivedAtEpochSeconds < 2 ^ 64

theorem checkRecord_eq_ok (h : checkRecord options record = .ok payload) :
    payload = encodeRecord record ∧ record.validate = .ok () ∧
      payload.length ≤ options.maxPayloadBytes ∧ frameBytes payload ≤ options.maxSegmentBytes := by
  rw [checkRecord] at h
  rcases hvalid : record.validate with error | ⟨⟩
  · rw [hvalid] at h
    cases h
  · simp only [hvalid] at h
    split_ifs at h with hpayload hframe
    cases h
    exact ⟨rfl, rfl, not_lt.mp hpayload, not_lt.mp hframe⟩

theorem append_eq_ok (haccepted : options.accepted = true) (hrecord : Appendable record)
    {head : AuditLedgerHead}
    (h : append options record (history.store state) = (.ok head, store')) :
    ∃ (entry : Entry) (prepared : History) (hroom : prepared.link.sequence < 2 ^ 64),
      entry.record = record ∧ entry.metadata = none ∧
      entry.payload.length ≤ options.maxPayloadBytes ∧
      frameBytes entry.payload ≤ options.maxSegmentBytes ∧
      Prepares options (frameBytes entry.payload) history prepared ∧
      store' = (prepared.push entry hroom).store .publishedHead := by
  rw [append] at h
  obtain ⟨_, _, hwritable, h⟩ := Action.bind_eq_ok.mp h
  rw [ensureWritable] at hwritable
  split_ifs at hwritable
  · cases hwritable
  obtain ⟨-, rfl⟩ := Prod.mk.inj hwritable
  obtain ⟨payload, _, hlift, h⟩ := Action.bind_eq_ok.mp h
  obtain ⟨hcheck, rfl⟩ := liftLedger_eq_ok hlift
  obtain ⟨hpayload, hvalid, hlength, hframe⟩ := checkRecord_eq_ok hcheck
  obtain ⟨_, _, hprepare, h⟩ := Action.bind_eq_ok.mp h
  obtain ⟨prepared, _, _, hprepares, hsegment, rfl⟩ :=
    prepareStorage_eq_ok hrecord.time hprepare
  have hstorable : Storable record none := ⟨hvalid, hrecord.time, by simp [hrecord.kind], by simp⟩
  obtain ⟨entry, rfl, hmetadata, rfl⟩ : ∃ entry : Entry, entry.record = record ∧
      entry.metadata = none ∧ entry.payload = payload := by
    rw [hpayload, encodeRecord] at hframe ⊢
    exact ⟨⟨_, _, hstorable, small_of_frameBytes haccepted hframe⟩, rfl, rfl, rfl⟩
  obtain ⟨hroom, rfl⟩ := History.appendEncoded_storeWith hsegment h
  exact ⟨entry, prepared, hroom, rfl, hmetadata, hlength, hframe, hprepares, rfl⟩

end Append

end FileAuditLedger

end EdgeProxy

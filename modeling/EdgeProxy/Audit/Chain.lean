import EdgeProxy.Audit.Tamper

/-! # The entries of an audit ledger

A segment holds the frames of a list of entries, and the chain goes on from one segment to the next.
`frames`, `scanned` and `segmentOf` say what the file, the scan and the table of segments hold of a
list of entries; `files`, `scannedGroups` and `table` say it of consecutive segments. The scan of
such files succeeds exactly when the entries are within its bounds, and gives back the entries with
the table.
-/

namespace EdgeProxy

open Rust List

namespace FileAuditLedger

structure Entry where
  record : AuditRecord
  metadata : Option RetentionMetadata
  storable : Storable record metadata
  small : (encodeRecordWithRetention record metadata).length < 2 ^ 32

def Entry.payload (entry : Entry) : Bytes :=
  encodeRecordWithRetention entry.record entry.metadata

theorem Entry.length_payload_lt (entry : Entry) : entry.payload.length < 2 ^ 32 := entry.small

theorem Entry.decodes (entry : Entry) :
    decodeRecordWithRetention entry.payload = .ok (entry.record, entry.metadata) :=
  decodeRecord_encodeRecord entry.storable

def linkAfter (link : Link) : List Entry → Link
  | [] => link
  | entry :: entries => linkAfter (link.next entry.payload) entries

def frames (link : Link) : List Entry → Bytes
  | [] => []
  | entry :: entries => encodeFrame link entry.payload ++ frames (link.next entry.payload) entries

def scanned (number : ℕ) (link : Link) : List Entry → List ScannedRecord
  | [] => []
  | entry :: entries =>
    ⟨link.sequence, entry.record, entry.metadata, number⟩ ::
      scanned number (link.next entry.payload) entries

def segmentOf (number : ℕ) (link : Link) (entries : List Entry) : AuditSegment where
  number := number
  firstSequence := link.sequence
  lastSequence := if entries = [] then 0 else (linkAfter link entries).sequence - 1
  terminalHash := (linkAfter link entries).previous
  bytes := (frames link entries).length

section Chain

variable (number : ℕ) (link : Link) (front back entries : List Entry)

@[simp] theorem sequence_next (payload : Bytes) :
    (link.next payload).sequence = link.sequence + 1 := rfl

@[simp] theorem linkAfter_append :
    linkAfter link (front ++ back) = linkAfter (linkAfter link front) back := by
  induction front generalizing link with
  | nil => rfl
  | cons _ _ ih => exact ih _

@[simp] theorem sequence_linkAfter :
    (linkAfter link entries).sequence = link.sequence + entries.length := by
  induction entries generalizing link with
  | nil => rfl
  | cons _ _ ih =>
    rw [linkAfter, ih, sequence_next, length_cons]
    omega

theorem length_previous_linkAfter {link : Link} (h : link.previous.length = 32)
    (entries : List Entry) :
    (linkAfter link entries).previous.length = 32 := by
  induction entries generalizing link with
  | nil => exact h
  | cons _ _ ih => exact ih (length_frameHash _ _)

@[simp] theorem frames_append :
    frames link (front ++ back) = frames link front ++ frames (linkAfter link front) back := by
  induction front generalizing link with
  | nil => rfl
  | cons _ _ ih => rw [cons_append, frames, ih, frames, linkAfter, append_assoc]

theorem frames_singleton (entry : Entry) :
    frames link [entry] = encodeFrame link entry.payload := by
  rw [frames, frames, append_nil]

@[simp] theorem frames_eq_nil_iff : frames link entries = [] ↔ entries = [] := by
  cases entries with
  | nil => simp [frames]
  | cons => simp [frames, encodeFrame, frameHeader, frameMagic]

@[simp] theorem scanned_append :
    scanned number link (front ++ back) =
      scanned number link front ++ scanned number (linkAfter link front) back := by
  induction front generalizing link with
  | nil => rfl
  | cons _ _ ih =>
    rw [cons_append, scanned, ih, scanned, linkAfter, cons_append]

@[simp] theorem length_scanned :
    (scanned number link entries).length = entries.length := by
  induction entries generalizing link with
  | nil => rfl
  | cons _ _ ih => rw [scanned, length_cons, ih, length_cons]

theorem segment_of_mem_scanned {number : ℕ} {link : Link} {record : ScannedRecord}
    {entries : List Entry} (h : record ∈ scanned number link entries) :
    record.segment = number := by
  induction entries generalizing link with
  | nil => cases h
  | cons _ _ ih =>
    rcases mem_cons.mp h with rfl | h
    · rfl
    · exact ih h

theorem metadata_scanned :
    (scanned number link entries).map ScannedRecord.metadata = entries.map Entry.metadata := by
  induction entries generalizing link with
  | nil => rfl
  | cons _ _ ih => rw [scanned, map_cons, map_cons, ih]

theorem sequence_scanned : (scanned number link entries).map ScannedRecord.sequence =
    range' link.sequence entries.length := by
  induction entries generalizing link with
  | nil => rfl
  | cons _ _ ih => rw [scanned, map_cons, ih, sequence_next, length_cons, range'_succ]

end Chain

section Segments

def files (number : ℕ) (link : Link) : List (List Entry) → Directory
  | [] => []
  | entries :: groups =>
    (number, frames link entries) :: files (number + 1) (linkAfter link entries) groups

def table (number : ℕ) (link : Link) : List (List Entry) → List AuditSegment
  | [] => []
  | entries :: groups =>
    segmentOf number link entries :: table (number + 1) (linkAfter link entries) groups

def scannedGroups (number : ℕ) (link : Link) : List (List Entry) → List ScannedRecord
  | [] => []
  | entries :: groups =>
    scanned number link entries ++ scannedGroups (number + 1) (linkAfter link entries) groups

variable (number : ℕ) (link : Link) (front back groups : List (List Entry))

@[simp] theorem files_append :
    files number link (front ++ back) = files number link front ++
        files (number + front.length) (linkAfter link front.flatten) back := by
  induction front generalizing number link with
  | nil => rfl
  | cons _ _ ih =>
    rw [cons_append, files, ih, files, flatten_cons, linkAfter_append, length_cons,
      cons_append, Nat.add_right_comm, Nat.add_assoc]

@[simp] theorem table_append :
    table number link (front ++ back) = table number link front ++
        table (number + front.length) (linkAfter link front.flatten) back := by
  induction front generalizing number link with
  | nil => rfl
  | cons _ _ ih =>
    rw [cons_append, table, ih, table, flatten_cons, linkAfter_append, length_cons,
      cons_append, Nat.add_right_comm, Nat.add_assoc]

@[simp] theorem scannedGroups_append :
    scannedGroups number link (front ++ back) = scannedGroups number link front ++
        scannedGroups (number + front.length) (linkAfter link front.flatten) back := by
  induction front generalizing number link with
  | nil => rfl
  | cons _ _ ih =>
    rw [cons_append, scannedGroups, ih, scannedGroups, flatten_cons, linkAfter_append,
      length_cons, append_assoc, Nat.add_right_comm, Nat.add_assoc]

@[simp] theorem length_scannedGroups :
    (scannedGroups number link groups).length = groups.flatten.length := by
  induction groups generalizing number link with
  | nil => rfl
  | cons _ _ ih =>
    rw [scannedGroups, length_append, length_scanned, ih, flatten_cons, length_append]

theorem map_fst_files :
    (files number link groups).map Prod.fst = range' number groups.length := by
  induction groups generalizing number link with
  | nil => rfl
  | cons _ _ ih =>
    rw [files, map_cons, ih, length_cons, range'_succ]

theorem map_number_table :
    (table number link groups).map AuditSegment.number = range' number groups.length := by
  induction groups generalizing number link with
  | nil => rfl
  | cons _ _ ih =>
    rw [table, map_cons, ih, length_cons, range'_succ]
    rfl

@[simp] theorem length_files : (files number link groups).length = groups.length := by
  have hlength := congrArg length (map_fst_files number link groups)
  simpa using hlength

@[simp] theorem length_table : (table number link groups).length = groups.length := by
  have hlength := congrArg length (map_number_table number link groups)
  simpa using hlength

theorem length_table_concat (segment : AuditSegment) :
    (table number link groups ++ [segment]).length = groups.length + 1 := by
  rw [length_append, length_table, length_singleton]

theorem segment_of_mem_scannedGroups {number : ℕ} {link : Link} {record : ScannedRecord}
    {groups : List (List Entry)} (h : record ∈ scannedGroups number link groups) :
    number ≤ record.segment ∧ record.segment < number + groups.length := by
  induction groups generalizing number link with
  | nil => cases h
  | cons _ _ ih =>
    rw [length_cons]
    rcases mem_append.mp h with h | h
    · rw [segment_of_mem_scanned h]
      omega
    · have hlater := ih h
      omega

theorem metadata_scannedGroups :
    (scannedGroups number link groups).map ScannedRecord.metadata =
      groups.flatten.map Entry.metadata := by
  induction groups generalizing number link with
  | nil => rfl
  | cons _ _ ih =>
    rw [scannedGroups, map_append, metadata_scanned, ih, flatten_cons, map_append]

theorem sequence_scannedGroups : (scannedGroups number link groups).map ScannedRecord.sequence =
    range' link.sequence groups.flatten.length := by
  induction groups generalizing number link with
  | nil => rfl
  | cons _ _ ih =>
    rw [scannedGroups, map_append, sequence_scanned, ih, sequence_linkAfter, range'_append_1,
      flatten_cons, length_append]

end Segments

section Scan

variable {options : AuditLedgerOptions} {first number : ℕ} {link : Link} {state : ScanState}
  {entry : Entry} {entries : List Entry} {groups : List (List Entry)}

structure Stands (first : ℕ) (state : ScanState) (link : Link) : Prop where
  here : state.link = link
  anchor : state.records = [] ∧ 1 < first → state.anchor = some link

variable (h : Stands first state link)

include h

theorem Stands.anchored_eq : state.anchored first link = state := by
  rw [ScanState.anchored]
  split_ifs with hfirst
  · rw [← h.anchor hfirst, ← h.here]
  · rfl

def passed (state : ScanState) (number : ℕ) (link : Link) (entries : List Entry) : ScanState where
  link := linkAfter link entries
  records := state.records ++ scanned number link entries
  anchor := state.anchor

def passedGroups (state : ScanState) (number : ℕ) (link : Link) (groups : List (List Entry)) :
    ScanState where
  link := linkAfter link groups.flatten
  records := state.records ++ scannedGroups number link groups
  anchor := state.anchor

theorem Stands.passed_groups (number : ℕ) (groups : List (List Entry)) :
    Stands first (passedGroups state number link groups) (linkAfter link groups.flatten) := by
  refine ⟨rfl, ?_⟩
  rintro ⟨hrecords, hfirst⟩
  obtain ⟨hnil, hscanned⟩ := append_eq_nil_iff.mp hrecords
  rw [← length_eq_zero_iff, length_scannedGroups, length_eq_zero_iff] at hscanned
  rw [hscanned, linkAfter]
  exact h.anchor ⟨hnil, hfirst⟩

theorem Stands.pass (number : ℕ) (entries : List Entry) :
    Stands first (passed state number link entries) (linkAfter link entries) := by
  simpa [passed, passedGroups, scannedGroups] using h.passed_groups number [entries]

theorem Stands.push_eq (number : ℕ) (entry : Entry) :
    (state.anchored first link).push number entry.payload entry.record entry.metadata =
      passed state number link [entry] := by
  rw [h.anchored_eq, ScanState.push, h.here]
  rfl

omit h in
theorem passed_cons (state : ScanState) (number : ℕ) (link : Link) (entry : Entry)
    (entries : List Entry) :
    passed (passed state number link [entry]) number (link.next entry.payload) entries =
      passed state number link (entry :: entries) := by
  simp [passed, linkAfter, scanned]

omit h in
theorem passedGroups_cons (state : ScanState) (number : ℕ) (link : Link) (entries : List Entry)
    (groups : List (List Entry)) :
    passedGroups (passed state number link entries) (number + 1) (linkAfter link entries) groups =
      passedGroups state number link (entries :: groups) := by
  simp [passed, passedGroups, scannedGroups]

/-- The entries are within the bounds of a scan that has read `count` records. -/
structure Within (options : AuditLedgerOptions) (count : ℕ) (link : Link) (entries : List Entry) :
    Prop where
  payloads : ∀ entry ∈ entries, entry.payload.length ≤ options.maxPayloadBytes
  count : count + entries.length ≤ options.maxScanRecords
  sequences : link.sequence + entries.length < 2 ^ 64

omit h in
theorem within_cons_iff {count : ℕ} : Within options count link (entry :: entries) ↔
    entry.payload.length ≤ options.maxPayloadBytes ∧
      Within options (count + 1) (link.next entry.payload) entries := by
  constructor
  · rintro ⟨hpayloads, hcount, hsequences⟩
    rw [length_cons] at hcount hsequences
    refine ⟨hpayloads entry mem_cons_self, fun later hlater =>
      hpayloads later (mem_cons_of_mem _ hlater), by omega, ?_⟩
    rw [sequence_next]
    omega
  · rintro ⟨hpayload, hpayloads, hcount, hsequences⟩
    rw [sequence_next] at hsequences
    refine ⟨forall_mem_cons.mpr ⟨hpayload, hpayloads⟩, ?_, ?_⟩
    · rw [length_cons]
      omega
    · rw [length_cons]
      omega

omit h in
theorem within_append_iff {count : ℕ} {back : List Entry} :
    Within options count link (entries ++ back) ↔ Within options count link entries ∧
      Within options (count + entries.length) (linkAfter link entries) back := by
  induction entries generalizing count link with
  | nil =>
    refine ⟨fun h => ⟨⟨by simp, ?_, ?_⟩, h⟩, fun h => h.2⟩
    · have hcount := h.count
      rw [nil_append] at hcount
      rw [length_nil]
      omega
    · have hsequences := h.sequences
      rw [nil_append] at hsequences
      rw [length_nil]
      omega
  | cons _ _ ih =>
    rw [cons_append, within_cons_iff, within_cons_iff, ih, and_assoc, linkAfter,
      length_cons, Nat.add_right_comm, Nat.add_assoc]

theorem Stands.accepts (hhash : link.previous.length = 32)
    (hpayload : entry.payload.length ≤ options.maxPayloadBytes)
    (hcount : state.records.length < options.maxScanRecords)
    (hsequence : link.sequence + 1 < 2 ^ 64) :
    state.Accepts options first link entry.payload entry.record entry.metadata where
  meets := .inr h.here.symm
  fits := ⟨by omega, hhash⟩
  small := entry.small
  length := hpayload
  count := hcount
  next := hsequence
  decodes := entry.decodes

theorem Stands.readFrame_refused (hfits : link.Fits) (rest : Bytes)
    (hbounds : ¬ (entry.payload.length ≤ options.maxPayloadBytes ∧
      state.records.length < options.maxScanRecords ∧ link.sequence + 1 < 2 ^ 64)) :
    ∃ error, readFrame options first number state (encodeFrame link entry.payload ++ rest) =
      .refused error := by
  have hbody : hashLen ≤ (entry.payload ++ (frameHash link entry.payload ++ rest)).length := by
    rw [length_append, length_append, length_frameHash, hashLen]
    omega
  rw [encodeFrame, append_assoc, append_assoc,
    readFrame_frameHeader entry.length_payload_lt hfits hbody, readBody_frameHeader hfits,
    h.anchored_eq, h.here, if_neg (by simp), if_neg (by simp)]
  split_ifs with hpayload hcount hshort
  · exact ⟨_, rfl⟩
  · exact ⟨_, rfl⟩
  · rw [length_append, length_append, length_frameHash, hashLen] at hshort
    omega
  · have hsequence : 2 ^ 64 ≤ link.sequence + 1 := by
      by_contra hlt
      exact hbounds ⟨not_lt.mp hpayload, not_le.mp hcount, not_le.mp hlt⟩
    have htake : ((frameHash link entry.payload ++ rest).take hashLen) =
        frameHash link entry.payload := take_append (length_frameHash _ _) rest
    rw [take_left, drop_left, htake, readPayload, h.here, if_neg (by simp), entry.decodes]
    simp only
    rw [if_pos hsequence]
    exact ⟨_, rfl⟩

theorem Stands.read (hhash : link.previous.length = 32)
    (hwithin : Within options state.records.length link entries) :
    Frames options first number state (frames link entries)
      (passed state number link entries) := by
  induction entries generalizing state link with
  | nil =>
    have hpassed : passed state number link [] = state := by
      rw [passed, linkAfter, scanned, append_nil, ← h.here]
    rw [hpassed]
    exact .nil state
  | cons entry _ ih =>
    obtain ⟨hpayload, hlater⟩ := within_cons_iff.mp hwithin
    have hcount := hlater.count
    have hsequences := hlater.sequences
    rw [sequence_next] at hsequences
    have haccepts := h.accepts hhash hpayload (by omega) (by omega)
    rw [← passed_cons]
    refine .cons haccepts ?_
    rw [h.push_eq]
    refine ih (h.pass number [entry]) (length_frameHash _ _) ?_
    simpa [passed, scanned] using hlater

theorem Stands.scanFrames_refused (hfits : link.Fits)
    (hcount : state.records.length ≤ options.maxScanRecords)
    (hwithin : ¬ Within options state.records.length link entries) {fuel : ℕ}
    (hfuel : (frames link entries).length < fuel) :
    ∃ error, scanFrames options first number fuel state (frames link entries) =
      .refused error := by
  induction entries generalizing state link fuel with
  | nil => exact absurd ⟨by simp, hcount, hfits.1⟩ hwithin
  | cons entry entries ih =>
    obtain ⟨fuel, rfl⟩ : ∃ n, fuel = n + 1 := ⟨fuel - 1, by omega⟩
    rw [frames] at hfuel ⊢
    rw [scanFrames, if_neg (encodeFrame_append_ne_nil hfits _ _)]
    by_cases hbounds : entry.payload.length ≤ options.maxPayloadBytes ∧
      state.records.length < options.maxScanRecords ∧ link.sequence + 1 < 2 ^ 64
    · obtain ⟨hpayload, hroom, hsequence⟩ := hbounds
      rw [readFrame_encodeFrame (h.accepts hfits.2 hpayload hroom hsequence), h.push_eq]
      have hlt := length_rest_lt hfits entry.payload
        (frames (link.next entry.payload) entries)
      have hlength : (passed state number link [entry]).records.length =
          state.records.length + 1 := by
        simp [passed, scanned]
      have hleft : (frames (link.next entry.payload) entries).length < fuel := by
        omega
      refine ih (h.pass number [entry]) ⟨hsequence, length_frameHash _ _⟩ ?_ ?_ hleft
      · rw [hlength]
        omega
      · rw [hlength]
        exact fun hlater => hwithin (within_cons_iff.mpr ⟨hpayload, hlater⟩)
    · obtain ⟨error, herror⟩ := h.readFrame_refused hfits
        (frames (link.next entry.payload) entries) hbounds
      rw [herror]
      exact ⟨error, rfl⟩

theorem Stands.describeSegment_eq (number : ℕ) (entries : List Entry) :
    describeSegment number state (passed state number link entries)
      (frames link entries).length = segmentOf number link entries := by
  rw [describeSegment, segmentOf, passed, h.here]
  simp only [drop_left, ← head?_map, ← getLast?_map, sequence_scanned, head?_range',
    getLast?_range', sequence_linkAfter]
  cases entries with
  | nil => rfl
  | cons => rfl

theorem Stands.scanFiles_append (hhash : link.previous.length = 32)
    (hwithin : Within options state.records.length link groups.flatten) (number : ℕ)
    (rest : Directory) :
    scanFiles options first (files number link groups ++ rest) state =
      (scanFiles options first rest (passedGroups state number link groups)).map fun scan =>
        { scan with
          segments := table number link groups ++ scan.segments
          directory := files number link groups ++ scan.directory } := by
  induction groups generalizing state number link with
  | nil =>
    have hpassed : passedGroups state number link [] = state := by
      rw [passedGroups, scannedGroups, append_nil, flatten_nil, linkAfter, ← h.here]
    rw [hpassed, files, nil_append]
    rcases scanFiles options first rest state with error | scan
    · rfl
    · rfl
  | cons entries groups ih =>
    rw [flatten_cons] at hwithin
    obtain ⟨hhere, hlater⟩ := within_append_iff.mp hwithin
    have hnext : (passed state number link entries).records.length =
        state.records.length + entries.length := by
      rw [passed, length_append, length_scanned]
    have hrest := ih (h.pass number entries)
      (length_previous_linkAfter hhash entries) (by rwa [hnext]) (number + 1)
    rw [files, cons_append, scanFiles, scanSegment_complete_iff.mpr (h.read hhash hhere)]
    simp only [hrest, passedGroups_cons, h.describeSegment_eq]
    rcases scanFiles options first rest (passedGroups state number link (entries :: groups))
      with error | scan
    · rfl
    · rfl

theorem Stands.scanFiles_error (hfits : link.Fits)
    (hcount : state.records.length ≤ options.maxScanRecords)
    (hwithin : ¬ Within options state.records.length link groups.flatten) (number : ℕ) :
    ∃ error, scanFiles options first (files number link groups) state = .error error := by
  induction groups generalizing state number link with
  | nil => exact absurd ⟨by simp, hcount, hfits.1⟩ hwithin
  | cons entries _ ih =>
    rw [files, scanFiles]
    by_cases hhere : Within options state.records.length link entries
    · have hnext : (passed state number link entries).records.length =
          state.records.length + entries.length := by
        rw [passed, length_append, length_scanned]
      obtain ⟨error, herror⟩ := ih (h.pass number entries)
        ⟨by rw [sequence_linkAfter]; exact hhere.sequences,
          length_previous_linkAfter hfits.2 entries⟩ (hnext.trans_le hhere.count)
        (fun hlater => hwithin (by
          rw [flatten_cons]
          exact within_append_iff.mpr ⟨hhere, by rwa [hnext] at hlater⟩)) (number + 1)
      rw [scanSegment_complete_iff.mpr (h.read hfits.2 hhere)]
      simp only [herror]
      exact ⟨error, rfl⟩
    · obtain ⟨error, herror⟩ : ∃ error, scanSegment options first number state
          (frames link entries) = .refused error :=
        h.scanFrames_refused hfits hcount hhere (Nat.lt_succ_self _)
      rw [herror]
      exact ⟨error, rfl⟩

end Scan

end FileAuditLedger

end EdgeProxy

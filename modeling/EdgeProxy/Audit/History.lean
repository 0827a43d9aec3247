import EdgeProxy.Audit.Chain

/-! # The history of an audit ledger

A `History` is what a ledger keeps: the entries of its segments, the number of the first one and the
link at which the chain begins, which is the first link of all or one that a stored checkpoint
names. Opening the files of a history succeeds exactly when it is within the bounds of the scan.
-/

namespace EdgeProxy

open Rust List Option Bool

namespace FileAuditLedger

section Added

variable {options : AuditLedgerOptions} {first number : ℕ} {state next : ScanState} {bytes : Bytes}

theorem records_of_torn (h : readFrame options first number state bytes = .torn next) :
    next.records = state.records := by
  rcases readFrame_cases options first number state bytes
    with ⟨_, htorn⟩ | ⟨error, herror⟩ | ⟨length, link, body, rfl, hlength, hfits, hbody⟩
  · rw [htorn] at h
    cases h
    rfl
  · rw [herror] at h
    cases h
  · rw [readFrame_frameHeader hlength hfits hbody, readBody_frameHeader hfits] at h
    split_ifs at h
    · cases h
      exact ScanState.records_anchored link
    · exact absurd h readPayload_ne_torn

def AddsFrom (number : ℕ) (state next : ScanState) : Prop :=
  ∃ added, next.records = state.records ++ added ∧ ∀ item ∈ added, item.segment = number

theorem addsFrom_of_scanFrames {fuel : ℕ}
    (h : (scanFrames options first number fuel state bytes).last = some next) :
    AddsFrom number state next := by
  have hsame {state next : ScanState} (hrecords : next.records = state.records) :
      AddsFrom number state next := ⟨[], by rw [hrecords, append_nil], by simp⟩
  induction fuel generalizing state bytes with
  | zero =>
    cases h
    exact hsame rfl
  | succ _ ih =>
    rw [scanFrames] at h
    split_ifs at h
    · cases h
      exact hsame rfl
    · rcases hread : readFrame options first number state bytes with torn | error | ⟨pushed, rest⟩
      · rw [hread] at h
        cases h
        exact hsame (records_of_torn hread)
      · rw [hread] at h
        cases h
      · rw [hread] at h
        obtain ⟨_, _, _, _, rfl, _, rfl⟩ := accepted_of_readFrame hread
        obtain ⟨_, hrecords, hsegment⟩ := ih h
        rw [ScanState.push, ScanState.records_anchored, append_assoc] at hrecords
        refine ⟨_, hrecords, fun item hitem => ?_⟩
        rcases mem_append.mp hitem with hitem | hitem
        · rw [mem_singleton.mp hitem]
        · exact hsegment item hitem

end Added

def Entry.Ends (entry : Entry) (link : Link) : Prop :=
  ∃ range ∈ entry.metadata,
    range.lastSequence + 1 = link.sequence ∧ range.terminalHash = link.previous

structure History where
  first : ℕ
  anchor : Link
  closed : List (List Entry)
  current : List Entry
  first_pos : 0 < first
  sequence_pos : 0 < anchor.sequence
  hash : anchor.previous.length = 32
  filled : ∀ entries ∈ closed, entries ≠ []
  whole : first = 1 → anchor = .first
  retained : 1 < first → ∃ entry ∈ closed.flatten ++ current, entry.Ends anchor
  sequences : anchor.sequence + (closed.flatten ++ current).length ≤ 2 ^ 64

namespace History

variable (history : History)

def groups : List (List Entry) := history.closed ++ [history.current]

def entries : List Entry := history.closed.flatten ++ history.current

def start : Link := linkAfter history.anchor history.closed.flatten

def link : Link := linkAfter history.start history.current

def number : ℕ := history.first + history.closed.length

def directory : Directory :=
  files history.first history.anchor history.closed ++
    [(history.number, frames history.start history.current)]

def tailed (front : Bytes) : Directory :=
  files history.first history.anchor history.closed ++
    [(history.number, frames history.start history.current ++ front)]

def segments : List AuditSegment :=
  table history.first history.anchor history.closed ++
    [segmentOf history.number history.start history.current]

def scannedRecords : List ScannedRecord :=
  scannedGroups history.first history.anchor history.closed ++
    scanned history.number history.start history.current

def records : List LedgerRecord :=
  history.scannedRecords.map fun record => ⟨record.sequence, record.record, record.segment⟩

def head : AuditLedgerHead := ⟨history.first - 1, history.link.sequence - 1⟩

def ledger (state : AuditLedgerIoState) : FileAuditLedger where
  records := history.records
  segments := history.segments
  currentSegment := history.number
  currentSegmentBytes := (frames history.start history.current).length
  head := history.head
  lastHash := history.link.previous
  state := state

variable {history} {options : AuditLedgerOptions}

theorem flatten_groups : history.groups.flatten = history.entries := by
  simp [groups, entries]

theorem link_eq : history.link = linkAfter history.anchor history.entries := by
  rw [link, start, entries, linkAfter_append]

theorem directory_eq : history.directory = files history.first history.anchor history.groups := by
  rw [groups, files_append]
  rfl

theorem tailed_nil : history.tailed [] = history.directory := by
  rw [tailed, directory, append_nil]

theorem map_fst_tailed (front : Bytes) :
    (history.tailed front).map Prod.fst =
      range' history.first (history.closed.length + 1) := by
  rw [tailed, map_append, map_fst_files, map_singleton, range'_concat, number, Nat.one_mul]

theorem segments_eq : history.segments = table history.first history.anchor history.groups := by
  rw [groups, table_append]
  rfl

theorem scannedRecords_eq :
    history.scannedRecords = scannedGroups history.first history.anchor history.groups := by
  rw [groups, scannedGroups_append, scannedGroups, scannedGroups, append_nil]
  rfl

theorem sequence_link :
    history.link.sequence = history.anchor.sequence + history.entries.length := by
  rw [link_eq, sequence_linkAfter]

theorem firstNumber_tailed (front : Bytes) :
    firstNumber (history.tailed front) = history.first := by
  rw [firstNumber, ← head?_map, map_fst_tailed, range'_succ]
  rfl

theorem firstNumber_directory : firstNumber history.directory = history.first := by
  rw [← tailed_nil, firstNumber_tailed]

theorem length_previous_link : history.link.previous.length = 32 := by
  rw [link_eq]
  exact length_previous_linkAfter history.hash _

theorem entries_ne_nil (h : 1 < history.first) : history.entries ≠ [] := by
  obtain ⟨_, hentry, _⟩ := history.retained h
  exact ne_nil_of_mem hentry

theorem fits_anchor (history : History) : history.anchor.Fits := by
  refine ⟨?_, history.hash⟩
  have hsequences := history.sequences
  rcases Nat.lt_or_ge 1 history.first with hfirst | hfirst
  · have hlength := length_pos_iff.mpr (entries_ne_nil hfirst)
    rw [entries] at hlength
    omega
  · have hpos := history.first_pos
    rw [history.whole (by omega)]
    decide

section Scan

def opening (history : History) : ScanState :=
  ⟨history.anchor, [], if 1 < history.first then some history.anchor else none⟩

variable (history : History)

theorem stands_opening : Stands history.first history.opening history.anchor :=
  ⟨rfl, fun h => if_pos h.2⟩

theorem anchored_opening (link : Link) (h : 1 < history.first) :
    ScanState.initial.anchored history.first link =
      history.opening.anchored history.first link := by
  rw [ScanState.anchored, ScanState.anchored, if_pos ⟨rfl, h⟩, if_pos ⟨rfl, h⟩]
  rfl

variable {number : ℕ}

theorem readFrame_opening {bytes : Bytes}
    (h : 1 < history.first) (hbytes : headerLen + hashLen ≤ bytes.length) :
    readFrame options history.first number ScanState.initial bytes =
      readFrame options history.first number history.opening bytes := by
  rw [readFrame, readFrame, anchored_opening history _ h]
  simp only [not_lt.mpr hbytes, if_false]

theorem records_ne_nil {entry : Entry} {rest : Bytes}
    {next : ScanState} (hfits : history.anchor.Fits)
    (h : (scanSegment options history.first number history.opening
      (encodeFrame history.anchor entry.payload ++ rest)).last = some next) :
    next.records ≠ [] := by
  have hstands := stands_opening history
  rw [scanSegment, scanFrames, if_neg (encodeFrame_append_ne_nil hfits _ _)] at h
  by_cases hbounds : entry.payload.length ≤ options.maxPayloadBytes ∧
    history.opening.records.length < options.maxScanRecords ∧ history.anchor.sequence + 1 < 2 ^ 64
  · obtain ⟨hpayload, hcount, hsequence⟩ := hbounds
    rw [readFrame_encodeFrame (hstands.accepts hfits.2 hpayload hcount hsequence),
      hstands.push_eq] at h
    obtain ⟨_, hrecords, -⟩ := addsFrom_of_scanFrames h
    simp [hrecords, passed, scanned]
  · obtain ⟨error, herror⟩ : ∃ error, readFrame options history.first number history.opening
        (encodeFrame history.anchor entry.payload ++ rest) = .refused error :=
      hstands.readFrame_refused hfits rest hbounds
    rw [herror] at h
    cases h

theorem describeSegment_opening {next : ScanState} (h : next.records ≠ []) (number bytes : ℕ) :
    describeSegment number ScanState.initial next bytes =
      describeSegment number history.opening next bytes := by
  rw [describeSegment, describeSegment]
  rcases hrecords : next.records with _ | ⟨record, records⟩
  · exact absurd hrecords h
  · rfl

theorem scanFiles_opening {entry : Entry} {rest : Bytes}
    {later : Directory} (hfirst : 1 < history.first) :
    scanFiles options history.first
        ((number, encodeFrame history.anchor entry.payload ++ rest) :: later) ScanState.initial =
      scanFiles options history.first
        ((number, encodeFrame history.anchor entry.payload ++ rest) :: later) history.opening := by
  have hfits := history.fits_anchor
  have hlength : headerLen + hashLen ≤
      (encodeFrame history.anchor entry.payload ++ rest).length := by
    rw [length_append, length_encodeFrame hfits]
    omega
  have hscan : scanSegment options history.first number ScanState.initial
        (encodeFrame history.anchor entry.payload ++ rest) =
      scanSegment options history.first number history.opening
        (encodeFrame history.anchor entry.payload ++ rest) := by
    rw [scanSegment, scanSegment, scanFrames, scanFrames,
      if_neg (encodeFrame_append_ne_nil hfits _ _), if_neg (encodeFrame_append_ne_nil hfits _ _),
      readFrame_opening history hfirst hlength]
  rw [scanFiles, scanFiles, hscan]
  rcases hresult : scanSegment options history.first number history.opening
    (encodeFrame history.anchor entry.payload ++ rest) with next | ⟨next, left⟩ | error
  · have hnext := history.records_ne_nil hfits (congrArg SegmentScan.last hresult)
    simp only [describeSegment_opening history hnext]
  · have hnext := history.records_ne_nil hfits (congrArg SegmentScan.last hresult)
    simp only [describeSegment_opening history hnext]
  · rfl

theorem tailed_eq_cons (h : 1 < history.first) (front : Bytes) :
    ∃ entry : Entry, ∃ number rest later, history.tailed front =
      (number, encodeFrame history.anchor entry.payload ++ rest) :: later := by
  rcases hclosed : history.closed with _ | ⟨group, closed⟩
  · rcases hcurrent : history.current with _ | ⟨entry, entries⟩
    · exact absurd (by rw [History.entries, hclosed, hcurrent]; rfl) (entries_ne_nil h)
    · refine ⟨entry, history.number, frames (history.anchor.next entry.payload) entries ++ front,
        [], ?_⟩
      rw [tailed, start, hclosed, hcurrent, flatten_nil, linkAfter, frames, append_assoc]
      rfl
  · rcases group with _ | ⟨entry, entries⟩
    · exact absurd rfl (history.filled [] (by rw [hclosed]; exact mem_cons_self))
    · exact ⟨entry, _, _, _, by rw [tailed, hclosed, files, frames, cons_append]⟩

theorem scanFiles_tailed_opening (front : Bytes) :
    scanFiles options history.first (history.tailed front) ScanState.initial =
      scanFiles options history.first (history.tailed front) history.opening := by
  by_cases hfirst : 1 < history.first
  · obtain ⟨_, _, _, _, htailed⟩ := history.tailed_eq_cons hfirst front
    rw [htailed]
    exact scanFiles_opening history hfirst
  · have hpos := history.first_pos
    rw [opening, if_neg hfirst, history.whole (by omega)]
    rfl

end Scan

structure Readable (options : AuditLedgerOptions) (history : History) : Prop where
  within : Within options 0 history.anchor history.entries
  number : history.number < 10 ^ 16

theorem discoverSegments_tailed (history : History) (front : Bytes) :
    discoverSegments (history.tailed front) =
      if history.number < 10 ^ 16 then .ok (history.tailed front) else .error auditCorrupt := by
  have hnumbers := history.map_fst_tailed front
  have hlength : (history.tailed front).length = history.closed.length + 1 := by
    rw [tailed, length_append, length_files, length_singleton]
  have hpos := history.first_pos
  rw [discoverSegments, hnumbers, hlength, ← firstNumber, firstNumber_tailed]
  by_cases hnumber : history.number < 10 ^ 16
  · rw [if_pos hnumber, if_neg, if_neg (by simp)]
    intro hany
    obtain ⟨file, hfile, hbad⟩ := any_eq_true.mp hany
    have hmem : file.1 ∈ (history.tailed front).map Prod.fst := mem_map_of_mem hfile
    rw [hnumbers, mem_range'_1] at hmem
    rw [number] at hnumber
    simp only [or_eq_true, decide_eq_true_eq] at hbad
    omega
  · rw [if_neg hnumber, if_pos]
    refine any_eq_true.mpr
      ⟨(history.number, frames history.start history.current ++ front), ?_, ?_⟩
    · exact mem_append_right _ mem_cons_self
    · simp only [or_eq_true, decide_eq_true_eq]
      exact .inr (not_lt.mp hnumber)

def scan (history : History) : DirectoryScan :=
  ⟨⟨history.link, history.scannedRecords, history.opening.anchor⟩, history.segments,
    history.directory, false⟩

theorem Readable.scanFiles_eq (h : history.Readable options) :
    scanFiles options history.first history.directory ScanState.initial = .ok history.scan := by
  have hwithin : Within options 0 history.anchor history.groups.flatten := by
    rw [flatten_groups]
    exact h.within
  have hscan := (stands_opening history).scanFiles_append history.hash hwithin history.first []
  rw [append_nil] at hscan
  rw [← tailed_nil, scanFiles_tailed_opening, tailed_nil, directory_eq, hscan, scanFiles]
  simp only [Except.map, append_nil, scan, passedGroups, flatten_groups, ← link_eq,
    ← scannedRecords_eq, ← directory_eq, ← segments_eq]
  rfl

theorem anchorValid_scan (history : History) : anchorValid history.scan.state = true := by
  by_cases hfirst : 1 < history.first
  · obtain ⟨entry, hentry, range, hrange, hsequence, hhash⟩ := history.retained hfirst
    have hvalid := entry.storable.metadata range hrange
    have hfits := history.fits_anchor.1
    have hmem : range ∈ history.scannedRecords.filterMap ScannedRecord.metadata := by
      have hmetadata : some range ∈ history.scannedRecords.map ScannedRecord.metadata := by
        rw [scannedRecords_eq, metadata_scannedGroups, flatten_groups, ← hrange]
        exact mem_map_of_mem hentry
      obtain ⟨record, hrecord, heq⟩ := mem_map.mp hmetadata
      exact mem_filterMap.mpr ⟨record, hrecord, heq⟩
    simp only [anchorValid, scan, opening, if_pos hfirst, all_some]
    refine any_eq_true.mpr ⟨range, hmem, ?_⟩
    simp only [and_eq_true, decide_eq_true_eq]
    exact ⟨⟨⟨hsequence, by omega⟩, hhash⟩, hvalid.le⟩
  · simp [anchorValid, scan, opening, hfirst]

theorem ofScan_scan (history : History) :
    ofScan history.first history.scan = history.ledger .ready := by
  have hsequence : (history.scannedRecords.getLast?.map ScannedRecord.sequence).getD 0 =
      history.link.sequence - 1 := by
    rw [scannedRecords_eq, link_eq, ← flatten_groups, ← getLast?_map, sequence_scannedGroups,
      getLast?_range', sequence_linkAfter]
    split_ifs with hnil
    · have hfirst : ¬ 1 < history.first := fun h =>
        entries_ne_nil h (by rwa [← flatten_groups, ← length_eq_zero_iff])
      have hpos := history.first_pos
      rw [hnil, history.whole (by omega)]
      rfl
    · rfl
  rw [ofScan, ledger]
  simp only [scan, directory, segments, getLast?_concat, map_some, getD_some,
    hsequence, false_eq_true, if_false]
  rfl

theorem openLedger_tailed_of_number (haccepted : options.accepted = true)
    (h : history.number < 10 ^ 16) (front : Bytes) :
    openLedger options (history.tailed front) = finishOpen options (history.tailed front) := by
  rw [openLedger, if_pos haccepted, discoverSegments_tailed, if_pos h]
  rcases htailed : history.tailed front with _ | ⟨file, files⟩
  · exact absurd htailed (by simp [tailed])
  · rfl

theorem openLedger_directory_of_number (haccepted : options.accepted = true)
    (h : history.number < 10 ^ 16) :
    openLedger options history.directory = finishOpen options history.directory := by
  rw [← tailed_nil, openLedger_tailed_of_number haccepted h]

theorem Readable.scanSegments_eq (h : history.Readable options) :
    scanSegments options history.directory = (.ok history.scan, history.directory) := by
  rw [scanSegments, firstNumber_directory, h.scanFiles_eq]
  simp only [anchorValid_scan, if_true]
  rfl

theorem Readable.openLedger_eq (haccepted : options.accepted = true)
    (h : history.Readable options) :
    openLedger options history.directory = (.ok (history.ledger .ready), history.directory) := by
  rw [openLedger_directory_of_number haccepted h.number, finishOpen, h.scanSegments_eq]
  simp only [firstNumber_directory, ofScan_scan]
  rcases options.recoveryContext with _ | context
  · rfl
  · rfl

theorem openLedger_error (history : History) (h : ¬ history.Readable options) :
    ∃ error directory, openLedger options history.directory = (.error error, directory) := by
  by_cases haccepted : options.accepted = true
  · by_cases hnumber : history.number < 10 ^ 16
    · have hwithin : ¬ Within options 0 history.anchor history.groups.flatten := by
        rw [flatten_groups]
        exact fun hwithin => h ⟨hwithin, hnumber⟩
      obtain ⟨error, herror⟩ := (stands_opening history).scanFiles_error history.fits_anchor
        (Nat.zero_le _) hwithin history.first
      rw [openLedger_directory_of_number haccepted hnumber, finishOpen, scanSegments,
        firstNumber_directory, ← tailed_nil, scanFiles_tailed_opening, tailed_nil, directory_eq,
        herror]
      exact ⟨error, _, rfl⟩
    · rw [← tailed_nil, openLedger, if_pos haccepted, discoverSegments_tailed, if_neg hnumber]
      exact ⟨_, _, rfl⟩
  · rw [openLedger, if_neg haccepted]
    exact ⟨_, _, rfl⟩

end History

end FileAuditLedger

end EdgeProxy

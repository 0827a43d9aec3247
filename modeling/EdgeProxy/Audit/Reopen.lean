import EdgeProxy.Audit.Writer

/-! # Opening what was written

`Written` are the stores that successful appends lead to, with the rotations and removals that they
cause and with any number of openings between them. Such a store opens again exactly when what it
holds is within the bounds of the scan: an append looks at the bytes of segments, the scan counts
records. A store that opens gives back the ledger that was in memory.
-/

namespace EdgeProxy

open Rust List

namespace FileAuditLedger

section Written

def Operation.kind : Operation → AuditRecordKind
  | intent _ => .intent
  | terminal _ _ => .terminal
  | reconciliation _ _ => .reconciliation
  | securityObservation _ => .securityObservation

structure Operation.Proper (operation : Operation) : Prop where
  kind : operation.record.recordKind = operation.kind
  time : operation.record.context.receivedAtEpochSeconds < 2 ^ 64

inductive Written (options : AuditLedgerOptions) : LedgerStore → Prop
  | opened {ledger : FileAuditLedger} {directory : Directory} :
      openLedger options [] = (.ok ledger, directory) → Written options ⟨ledger, directory⟩
  | appended {store store' : LedgerStore} {operation : Operation} {head : AuditLedgerHead} :
      Written options store → operation.Proper →
      operation.run options store = (.ok head, store') → Written options store'
  | reopened {store : LedgerStore} {ledger : FileAuditLedger} {directory : Directory} :
      Written options store → openLedger options store.directory = (.ok ledger, directory) →
      Written options ⟨ledger, directory⟩

variable {options : AuditLedgerOptions} {store : LedgerStore}

theorem Operation.Proper.appendable {operation : Operation} (h : operation.Proper) :
    Appendable operation.record := by
  refine ⟨?_, h.time⟩
  rw [h.kind]
  cases operation with
  | intent => simp [Operation.kind]
  | terminal => simp [Operation.kind]
  | reconciliation => simp [Operation.kind]
  | securityObservation => simp [Operation.kind]

theorem Operation.append_of_run {operation : Operation} {head : AuditLedgerHead}
    {store' : LedgerStore} (h : operation.run options store = (.ok head, store')) :
    append options operation.record store = (.ok head, store') := by
  have hexpected {expected : AuditLedgerHead} {record : AuditRecord}
      (h : (do expectHead expected; append options record : StoreAction AuditLedgerHead) store =
        (.ok head, store')) : append options record store = (.ok head, store') := by
    obtain ⟨_, _, hcheck, h⟩ := Action.bind_eq_ok.mp h
    rw [expectHead] at hcheck
    split_ifs at hcheck
    · cases hcheck
    · obtain ⟨-, rfl⟩ := Prod.mk.inj hcheck
      exact h
  cases operation with
  | intent => exact h
  | terminal => exact hexpected h
  | reconciliation => exact hexpected h
  | securityObservation => exact h

def History.empty : History where
  first := 1
  anchor := .first
  closed := []
  current := []
  first_pos := Nat.one_pos
  sequence_pos := Nat.one_pos
  hash := rfl
  filled := by simp
  whole _ := rfl
  retained h := absurd h (by decide)
  sequences := by decide

variable {ledger : FileAuditLedger} {directory left : Directory}

theorem accepted_of_openLedger (h : openLedger options directory = (.ok ledger, left)) :
    options.accepted = true := by
  by_contra hrefused
  rw [openLedger, if_neg hrefused] at h
  cases h

theorem History.openLedger_eq_ok {history : History}
    (h : openLedger options history.directory = (.ok ledger, directory)) :
    history.Readable options ∧ ledger = history.ledger .ready ∧ directory = history.directory := by
  by_cases hreadable : history.Readable options
  · rw [hreadable.openLedger_eq (accepted_of_openLedger h)] at h
    cases h
    exact ⟨hreadable, rfl, rfl⟩
  · obtain ⟨_, _, herror⟩ := history.openLedger_error hreadable
    rw [herror] at h
    cases h

theorem openLedger_nil_eq_ok (h : openLedger options [] = (.ok ledger, directory)) :
    ledger = History.empty.ledger .ready ∧ directory = History.empty.directory := by
  have haccepted := accepted_of_openLedger h
  have hempty : openLedger options [] = openLedger options History.empty.directory := by
    rw [History.openLedger_directory_of_number haccepted (by decide), openLedger, if_pos haccepted]
    rfl
  rw [hempty] at h
  exact (History.openLedger_eq_ok h).2

theorem Written.history (h : Written options store) :
    options.accepted = true ∧ ∃ history state, store = History.store history state := by
  induction h with
  | opened hopen =>
    obtain ⟨rfl, rfl⟩ := openLedger_nil_eq_ok hopen
    exact ⟨accepted_of_openLedger hopen, _, _, rfl⟩
  | appended _ hproper hrun ih =>
    obtain ⟨haccepted, history, state, rfl⟩ := ih
    obtain ⟨_, _, hroom, _, _, _, _, _, rfl⟩ :=
      append_eq_ok haccepted hproper.appendable (Operation.append_of_run hrun)
    exact ⟨haccepted, _, _, rfl⟩
  | reopened _ hopen ih =>
    obtain ⟨haccepted, history, _, rfl⟩ := ih
    obtain ⟨_, rfl, rfl⟩ := History.openLedger_eq_ok hopen
    exact ⟨haccepted, _, _, rfl⟩

end Written

section Bounds

variable {options : AuditLedgerOptions} {store : LedgerStore}

/-- The frames in a segment, found by their length fields: the links they name and their
payloads. -/
def framesIn : ℕ → Bytes → List (Link × Bytes)
  | 0, _ => []
  | fuel + 1, bytes =>
    if bytes = [] then []
    else
      let header := readHeader bytes
      (header.link, (bytes.drop headerLen).take header.length) ::
        framesIn fuel (bytes.drop (headerLen + header.length + hashLen))

def storedFrames (directory : Directory) : List (Link × Bytes) :=
  directory.flatMap fun file => framesIn file.2.length file.2

def storedPayloads (directory : Directory) : List Bytes := (storedFrames directory).map Prod.snd

variable {link : Link}

theorem framesIn_encodeFrame {payload : Bytes} (hfits : link.Fits)
    (hsmall : payload.length < 2 ^ 32) (fuel : ℕ) (rest : Bytes) :
    framesIn (fuel + 1) (encodeFrame link payload ++ rest) =
      (link, payload) :: framesIn fuel rest := by
  have hheader : readHeader (encodeFrame link payload ++ rest) =
      ⟨frameMagic, 1, 0, payload.length, link⟩ := by
    rw [encodeFrame, append_assoc, readHeader_frameHeader hsmall hfits]
  have hbody : (encodeFrame link payload ++ rest).drop headerLen =
      payload ++ (frameHash link payload ++ rest) := by
    rw [encodeFrame, append_assoc, append_assoc, drop_left' (length_frameHeader _ hfits)]
  have hrest : (encodeFrame link payload ++ rest).drop (headerLen + payload.length + hashLen) =
      rest := drop_left' (length_encodeFrame hfits payload)
  rw [framesIn, if_neg (encodeFrame_append_ne_nil hfits _ _)]
  simp only [hheader, hbody, hrest, take_left]

/-- The frames of a list of entries after a link. -/
def linkedFrames (link : Link) : List Entry → List (Link × Bytes)
  | [] => []
  | entry :: entries => (link, entry.payload) :: linkedFrames (link.next entry.payload) entries

theorem linkedFrames_append (link : Link) (front back : List Entry) :
    linkedFrames link (front ++ back) =
      linkedFrames link front ++ linkedFrames (linkAfter link front) back := by
  induction front generalizing link with
  | nil => rfl
  | cons _ _ ih => rw [cons_append, linkedFrames, ih, linkedFrames, linkAfter, cons_append]

theorem map_snd_linkedFrames (link : Link) (entries : List Entry) :
    (linkedFrames link entries).map Prod.snd = entries.map Entry.payload := by
  induction entries generalizing link with
  | nil => rfl
  | cons _ _ ih => rw [linkedFrames, map_cons, ih, map_cons]

theorem framesIn_frames {entries : List Entry} {fuel : ℕ}
    (hhash : link.previous.length = 32) (hsequences : link.sequence + entries.length ≤ 2 ^ 64)
    (hfuel : (frames link entries).length ≤ fuel) :
    framesIn fuel (frames link entries) = linkedFrames link entries := by
  induction entries generalizing link fuel with
  | nil =>
    cases fuel with
    | zero => rfl
    | succ => rfl
  | cons entry entries ih =>
    rw [length_cons] at hsequences
    have hfits : link.Fits := ⟨by omega, hhash⟩
    have hlt := length_rest_lt hfits entry.payload (frames (link.next entry.payload) entries)
    rw [frames] at hfuel ⊢
    obtain ⟨fuel, rfl⟩ : ∃ n, fuel = n + 1 := ⟨fuel - 1, by omega⟩
    rw [framesIn_encodeFrame hfits entry.length_payload_lt, linkedFrames,
      ih (length_frameHash _ _) (by rw [sequence_next]; omega) (by omega)]

theorem storedFrames_files {number : ℕ} {groups : List (List Entry)}
    (hhash : link.previous.length = 32)
    (hsequences : link.sequence + groups.flatten.length ≤ 2 ^ 64) :
    storedFrames (files number link groups) = linkedFrames link groups.flatten := by
  induction groups generalizing number link with
  | nil => rfl
  | cons entries groups ih =>
    rw [flatten_cons, length_append] at hsequences
    have hlater : storedFrames (files (number + 1) (linkAfter link entries) groups) =
        linkedFrames (linkAfter link entries) groups.flatten :=
      ih (length_previous_linkAfter hhash entries) (by rw [sequence_linkAfter]; omega)
    rw [storedFrames] at hlater ⊢
    rw [files, flatMap_cons, hlater, framesIn_frames hhash (by omega) le_rfl, flatten_cons,
      linkedFrames_append]

theorem History.storedFrames_directory (history : History) :
    storedFrames history.directory = linkedFrames history.anchor history.entries := by
  have hsequences := history.sequences
  rw [← History.entries, ← History.flatten_groups] at hsequences
  rw [History.directory_eq, storedFrames_files history.hash hsequences, History.flatten_groups]

theorem storedPayloads_store (history : History) (state : AuditLedgerIoState) :
    storedPayloads (history.store state).directory = history.entries.map Entry.payload := by
  change (storedFrames history.directory).map Prod.snd = _
  rw [History.storedFrames_directory, map_snd_linkedFrames]

structure InBounds (options : AuditLedgerOptions) (store : LedgerStore) : Prop where
  count : (storedPayloads store.directory).length ≤ options.maxScanRecords
  payloads : ∀ payload ∈ storedPayloads store.directory, payload.length ≤ options.maxPayloadBytes
  sequence : store.ledger.head.sequence + 1 < 2 ^ 64
  segment : store.ledger.currentSegment < 10 ^ 16

theorem History.readable_iff (history : History) (state : AuditLedgerIoState) :
    history.Readable options ↔ InBounds options (history.store state) := by
  have hsequence : (history.store state).ledger.head.sequence + 1 = history.link.sequence :=
    congrArg Link.sequence (history.link_store state)
  rw [History.sequence_link] at hsequence
  constructor
  · rintro ⟨⟨hpayloads, hcount, hsequences⟩, hnumber⟩
    refine ⟨?_, ?_, hsequence.trans_lt hsequences, hnumber⟩
    · rwa [storedPayloads_store, length_map, ← Nat.zero_add history.entries.length]
    · rw [storedPayloads_store]
      exact forall_mem_map.mpr hpayloads
  · rintro ⟨hcount, hpayloads, hsequences, hnumber⟩
    rw [storedPayloads_store] at hcount hpayloads
    rw [length_map] at hcount
    exact ⟨⟨forall_mem_map.mp hpayloads, by rwa [Nat.zero_add],
      hsequence.symm.trans_lt hsequences⟩, hnumber⟩

theorem Written.openLedger_eq (h : Written options store) (hbounds : InBounds options store) :
    openLedger options store.directory =
      (.ok { store.ledger with state := .ready }, store.directory) := by
  obtain ⟨haccepted, history, state, rfl⟩ := h.history
  exact ((history.readable_iff state).mpr hbounds).openLedger_eq haccepted

theorem Written.inBounds (h : Written options store)
    (hok : (openLedger options store.directory).1.isOk = true) : InBounds options store := by
  obtain ⟨_, history, state, rfl⟩ := h.history
  change (openLedger options history.directory).1.isOk = true at hok
  rcases hopen : openLedger options history.directory with ⟨_ | _, _⟩
  · rw [hopen] at hok
    cases hok
  · exact (history.readable_iff state).mp (History.openLedger_eq_ok hopen).1

variable {options : AuditLedgerOptions}

/-- What a ledger was able to write it is able to open, if and only if the scan reads that many
frames of that size, and the sequence and the number of the segment leave room for the next. -/
theorem reopens_iff {store : LedgerStore} (h : Written options store) :
    (openLedger options store.directory).1.isOk = true ↔
      (storedPayloads store.directory).length ≤ options.maxScanRecords ∧
      (∀ payload ∈ storedPayloads store.directory, payload.length ≤ options.maxPayloadBytes) ∧
      store.ledger.head.sequence + 1 < 2 ^ 64 ∧ store.ledger.currentSegment < 10 ^ 16 := by
  constructor
  · intro hok
    obtain ⟨hcount, hpayloads, hsequence, hsegment⟩ := h.inBounds hok
    exact ⟨hcount, hpayloads, hsequence, hsegment⟩
  · rintro ⟨hcount, hpayloads, hsequence, hsegment⟩
    rw [h.openLedger_eq ⟨hcount, hpayloads, hsequence, hsegment⟩]
    rfl

def logouts (options : AuditLedgerOptions) : ℕ → LedgerStore
  | 0 => ⟨emptyLedger, [(1, [])]⟩
  | n + 1 => (append options logoutRecord (logouts options n)).2

theorem written_logouts {n : ℕ} (hopen : openLedger options [] = (.ok emptyLedger, [(1, [])]))
    (h : ∀ m < n, (append options logoutRecord (logouts options m)).1.isOk = true) :
    Written options (logouts options n) := by
  induction n with
  | zero => exact .opened hopen
  | succ n ih =>
    rcases happend : append options logoutRecord (logouts options n) with ⟨_ | head, store⟩
    · have hok := h n n.lt_succ_self
      rw [happend] at hok
      cases hok
    · have hstore : logouts options (n + 1) = store := by rw [logouts, happend]
      have hproper : (Operation.securityObservation logoutRecord).Proper := ⟨rfl, by decide⟩
      rw [hstore]
      exact .appended (ih fun m hm => h m (hm.trans n.lt_succ_self)) hproper happend

def oneSegmentOptions : AuditLedgerOptions where
  recoveryContext := some ⟨sampleId, sampleId, .systemRecovery, 0⟩
  maxSegmentBytes := 700
  maxSegments := 1

/-- The second record removes the segment of the first one. -/
theorem written_logouts_two : Written oneSegmentOptions (logouts oneSegmentOptions 2) :=
  written_logouts (by decide +kernel) (by decide +kernel)

theorem inBounds_logouts_two : InBounds oneSegmentOptions (logouts oneSegmentOptions 2) := by
  obtain ⟨hcount, hpayloads, hsequence, hsegment⟩ :
      (storedPayloads (logouts oneSegmentOptions 2).directory).length = 2 ∧
      (∀ payload ∈ storedPayloads (logouts oneSegmentOptions 2).directory,
        payload.length ≤ oneSegmentOptions.maxPayloadBytes) ∧
      (logouts oneSegmentOptions 2).ledger.head.sequence + 1 < 2 ^ 64 ∧
      (logouts oneSegmentOptions 2).ledger.currentSegment < 10 ^ 16 := by decide +kernel
  exact ⟨hcount.trans_le (by decide), hpayloads, hsequence, hsegment⟩

theorem logout_reopens :
    Written oneSegmentOptions (logouts oneSegmentOptions 2) ∧
      (openLedger oneSegmentOptions (logouts oneSegmentOptions 2).directory).1.isOk = true := by
  obtain ⟨hcount, hpayloads, hsequence, hsegment⟩ := inBounds_logouts_two
  exact ⟨written_logouts_two,
    (reopens_iff written_logouts_two).mpr ⟨hcount, hpayloads, hsequence, hsegment⟩⟩

def oneRecordOptions : AuditLedgerOptions where
  maxScanRecords := 1

/-- Two records are appended, and the ledger does not open any more. -/
theorem second_record_prevents_opening :
    Written oneRecordOptions (logouts oneRecordOptions 2) ∧
      (openLedger oneRecordOptions (logouts oneRecordOptions 2).directory).1.isOk = false := by
  have hwritten : Written oneRecordOptions (logouts oneRecordOptions 2) :=
    written_logouts (by decide +kernel) (by decide +kernel)
  have hcount : (storedPayloads (logouts oneRecordOptions 2).directory).length = 2 := by
    decide +kernel
  refine ⟨hwritten, Bool.eq_false_iff.mpr fun hok => ?_⟩
  have hle := (hwritten.inBounds hok).count
  rw [hcount] at hle
  exact absurd hle (by decide)

/-- A store that opens, whatever the options of the opening, gives back the ledger that was in
memory, and the next frame continues the same chain. -/
theorem reopened_as_written {later : AuditLedgerOptions} {store : LedgerStore}
    (h : Written options store) {ledger : FileAuditLedger} {directory : Directory}
    (hopen : openLedger later store.directory = (.ok ledger, directory)) :
    ledger = { store.ledger with state := .ready } ∧ directory = store.directory ∧
      ∀ record payload, published record payload ⟨ledger, directory⟩ =
        published record payload store := by
  obtain ⟨_, history, _, rfl⟩ := h.history
  obtain ⟨_, rfl, rfl⟩ := History.openLedger_eq_ok hopen
  exact ⟨rfl, rfl, fun _ _ => rfl⟩

theorem logout_reopened_as_written :
    ∃ ledger directory, openLedger oneSegmentOptions (logouts oneSegmentOptions 2).directory =
        (.ok ledger, directory) ∧
      ledger = { (logouts oneSegmentOptions 2).ledger with state := .ready } ∧
      directory = (logouts oneSegmentOptions 2).directory := by
  have hopen := written_logouts_two.openLedger_eq inBounds_logouts_two
  obtain ⟨hledger, hdirectory, _⟩ := reopened_as_written written_logouts_two hopen
  exact ⟨_, _, hopen, hledger, hdirectory⟩

end Bounds

end FileAuditLedger

end EdgeProxy

import EdgeProxy.Audit.Ledger

/-! # What opening refuses

A directory is sealed when its segments are complete frames of one chain, and torn when the last
segment ends in the beginning of a frame. Opening with a recovery context is refused and discards
nothing exactly when the directory is neither sealed nor torn.
-/

namespace EdgeProxy

open Rust Action List

namespace FileAuditLedger

section Files

variable (options : AuditLedgerOptions) (first : ℕ)

/-- Every segment consists of complete frames, and the chain goes on from one to the next. -/
inductive SealedFiles : ScanState → Directory → ScanState → Prop
  | nil (state : ScanState) : SealedFiles state [] state
  | cons {state next final : ScanState} {number : ℕ} {bytes : Bytes} {files : Directory} :
      Frames options first number state bytes next → SealedFiles next files final →
      SealedFiles state ((number, bytes) :: files) final

def TornFiles (state : ScanState) (files : Directory) (kept : Directory) : Prop :=
  ∃ before number front left middle final,
    files = before ++ [(number, front ++ left)] ∧ kept = before ++ [(number, front)] ∧ left ≠ [] ∧
      SealedFiles options first state before middle ∧
      Frames options first number middle front final ∧ final.Incomplete options first left

variable {options first} {state : ScanState} {files kept : Directory}

theorem TornFiles.cons {next : ScanState} {number : ℕ} {bytes : Bytes}
    (hframes : Frames options first number state bytes next)
    (h : TornFiles options first next files kept) :
    TornFiles options first state ((number, bytes) :: files) ((number, bytes) :: kept) := by
  obtain ⟨before, last, front, left, middle, final, rfl, rfl, hleft, hbefore, hfront, hend⟩ := h
  exact ⟨(number, bytes) :: before, last, front, left, middle, final, rfl, rfl, hleft,
    .cons hframes hbefore, hfront, hend⟩

theorem scanFiles_eq_ok {scan : DirectoryScan}
    (h : scanFiles options first files state = .ok scan) :
    scan.recovered = false ∧ scan.directory = files ∧
        SealedFiles options first state files scan.state ∨
      scan.recovered = true ∧ options.recoveryContext.isSome ∧
        TornFiles options first state files scan.directory := by
  induction files generalizing state scan with
  | nil =>
    cases h
    exact .inl ⟨rfl, rfl, .nil state⟩
  | cons file _ ih =>
    obtain ⟨number, bytes⟩ := file
    rw [scanFiles] at h
    rcases hscan : scanSegment options first number state bytes with next | ⟨next, left⟩ | error
    · simp only [hscan] at h
      obtain ⟨_, hrest, heq⟩ := Rust.bind_eq_ok.mp h
      cases heq
      have hframes := scanSegment_complete_iff.mp hscan
      rcases ih hrest with ⟨hrec, hdir, hsealed⟩ | ⟨hrec, hcontext, htorn⟩
      · exact .inl ⟨hrec, by rw [hdir], .cons hframes hsealed⟩
      · exact .inr ⟨hrec, hcontext, htorn.cons hframes⟩
    · simp only [hscan] at h
      split_ifs at h with hlast
      cases h
      obtain ⟨hcontext, rfl⟩ := hlast
      obtain ⟨front, middle, rfl, hleft, hfront, hend⟩ := scanSegment_torn_iff.mp ⟨next, hscan⟩
      refine .inr ⟨rfl, hcontext, [], number, front, left, state, middle, rfl, ?_, hleft,
        .nil state, hfront, hend⟩
      simp
    · simp only [hscan] at h
      cases h

theorem SealedFiles.scanFiles_eq {final : ScanState}
    (h : SealedFiles options first state files final) :
    ∃ scan, scanFiles options first files state = .ok scan ∧ scan.state = final ∧
      scan.recovered = false ∧ scan.directory = files := by
  induction h with
  | nil => exact ⟨_, rfl, rfl, rfl, rfl⟩
  | @cons state next _ number bytes _ hframes _ ih =>
    obtain ⟨scan, hscan, hstate, hrec, hdir⟩ := ih
    refine ⟨{ scan with
        segments := describeSegment number state next bytes.length :: scan.segments
        directory := (number, bytes) :: scan.directory }, ?_, hstate, hrec, by rw [hdir]⟩
    rw [scanFiles, scanSegment_complete_iff.mpr hframes]
    simp only [hscan]
    rfl

theorem TornFiles.scanFiles_eq (hcontext : options.recoveryContext.isSome)
    (h : TornFiles options first state files kept) :
    ∃ scan, scanFiles options first files state = .ok scan ∧ scan.recovered = true ∧
      scan.directory = kept := by
  obtain ⟨_, _, front, _, middle, final, rfl, rfl, hleft, hbefore, hfront, hend⟩ := h
  induction hbefore with
  | nil =>
    obtain ⟨next, hscan⟩ := scanSegment_torn_iff.mpr ⟨front, final, rfl, hleft, hfront, hend⟩
    rw [nil_append, scanFiles, hscan]
    simp [hcontext]
  | @cons _ _ _ _ _ _ hframes _ ih =>
    obtain ⟨_, hscan, hrec, hdir⟩ := ih hfront
    rw [cons_append, scanFiles, scanSegment_complete_iff.mpr hframes]
    simp only [hscan]
    exact ⟨_, rfl, hrec, by rw [hdir, cons_append]⟩

end Files

section Append

section Rules

variable {options : AuditLedgerOptions} {nextFrameBytes timestamp : ℕ} {P P' : LedgerStore → Prop}
  {E : AppError → LedgerStore → Prop}

theorem holds_liftLedger_bind {α β : Type} {result : Except AppError α} {Q : β → LedgerStore → Prop}
    {k : α → StoreAction β} (hE : ∀ error store, P store → E error store)
    (h : ∀ a, result = .ok a → Holds P (k a) Q E) : Holds P (liftLedger result >>= k) Q E := by
  refine holds_of_ends fun store hstore => ?_
  rcases result with error | a
  · exact hE error store hstore
  · exact (h a rfl).ends hstore

theorem holds_orDegrade {Q : PUnit → LedgerStore → Prop} {x : StoreAction PUnit} (h : Holds P x Q E)
    (hE : ∀ error t, E error t → E error { t with ledger.state := .degraded }) :
    Holds P (orDegrade x) Q E := by
  intro store hstore
  have hx := h store hstore
  rw [orDegrade]
  revert hx
  rcases x store with ⟨error | _, t⟩
  · exact hE error t
  · exact id

/-- What a checkpoint and the removal of the oldest segments keep, retention keeps. -/
theorem ensures_retainIfRequired
    (hretained : ∀ store template count payload,
      retentionRecord timestamp store.ledger.currentSegment = .ok template →
      removalCount options store.ledger template nextFrameBytes store.ledger.segments.length 0 =
        .ok count → P store → P (dropSegments count (published template payload store)))
    (hdegraded : ∀ store, P store → P { store with ledger.state := .degraded }) :
    Ensures P (retainIfRequired options nextFrameBytes timestamp) P := by
  have hretain : Ensures P (retainFor options nextFrameBytes timestamp) P := by
    refine holds_read fun store hstore => ?_
    have hkept (_ : AppError) (t : LedgerStore) (ht : t = store) : P t := ht ▸ hstore
    refine holds_liftLedger_bind hkept fun template htemplate => ?_
    refine holds_liftLedger_bind hkept fun count hcount => ?_
    refine holds_liftLedger_bind hkept fun _ _ => holds_of_ends fun t ht => ?_
    rw [ht]
    rcases appendEncoded_cases template _ store with ⟨_, h⟩ | ⟨_, h⟩
    · rw [bind_error h]
      exact hstore
    · rw [bind_ok h]
      exact hretained store template count _ htemplate hcount hstore
  refine holds_of_ends fun store hstore => ?_
  rw [retainIfRequired]
  split_ifs
  · exact (holds_orDegrade hretain fun _ => hdegraded).ends hstore
  · exact hstore

theorem holds_append_of {Q : AuditLedgerHead → LedgerStore → Prop} {record : AuditRecord}
    (hprepare : ∀ nextFrameBytes timestamp,
      Holds P (prepareStorage options nextFrameBytes timestamp) (fun _ => P') E)
    (hencoded : ∀ payload, Holds P' (appendEncoded record payload) Q E)
    (hE : ∀ error store, P store → E error store) : Holds P (append options record) Q E := by
  have hwritable : Holds P ensureWritable (fun _ => P) E := by
    refine holds_of_ends fun store hstore => ?_
    rw [ensureWritable]
    split_ifs
    · exact hE _ store hstore
    · exact hstore
  exact hwritable.bind fun _ => holds_liftLedger_bind hE fun payload _ =>
    (hprepare _ _).bind fun _ => hencoded payload

end Rules

variable {options : AuditLedgerOptions} {number : ℕ} {front : Bytes} {store : LedgerStore}

def Keeps (number : ℕ) (front : Bytes) (store : LedgerStore) : Prop :=
  ∀ file ∈ store.directory, file.1 = number → file.2 = front

def Elsewhere (number : ℕ) (front : Bytes) (store : LedgerStore) : Prop :=
  Keeps number front store ∧ store.ledger.currentSegment ≠ number

theorem Elsewhere.published (h : Elsewhere number front store) (record : AuditRecord)
    (payload : Bytes) : Elsewhere number front (published record payload store) := by
  refine ⟨?_, h.2⟩
  intro file hfile hnumber
  obtain ⟨old, hold, rfl⟩ := mem_map.mp hfile
  split_ifs at hnumber ⊢ with hcurrent
  · exact absurd (hcurrent.symm.trans hnumber) h.2
  · exact h.1 old hold hnumber

def Current (number : ℕ) (front : Bytes) (store : LedgerStore) : Prop :=
  Keeps number front store ∧ store.ledger.currentSegment = number

variable (nextFrameBytes timestamp : ℕ) (record : AuditRecord)

theorem holds_rotateSegment_current :
    Holds (Current number front) rotateSegment (fun _ => Elsewhere number front)
      fun _ => Keeps number front := by
  intro store hstore
  rw [rotateSegment]
  split_ifs with hoverflow
  · exact hstore.1
  · refine ⟨?_, ?_⟩
    · intro file hfile hnumber
      rcases mem_append.mp hfile with hold | hnew
      · exact hstore.1 file hold hnumber
      · obtain rfl := mem_singleton.mp hnew
        have hcurrent := hstore.2
        change store.ledger.currentSegment + 1 = number at hnumber
        omega
    · have hcurrent := hstore.2
      change store.ledger.currentSegment + 1 ≠ number
      omega

theorem holds_prepareStorage_current :
    Holds (Current number front) (prepareStorage options nextFrameBytes timestamp)
      (fun _ t => Current number front t ∨ Elsewhere number front t)
      fun _ => Keeps number front := by
  apply holds_of_ends
  intro store hstore
  rw [prepareStorage]
  split_ifs
  · exact .inl hstore
  · have hrotate : Holds (Current number front) (orDegrade rotateSegment)
        (fun _ => Elsewhere number front) fun _ => Keeps number front :=
      holds_orDegrade holds_rotateSegment_current fun _ _ ht => ht
    have hretain : Holds (Elsewhere number front)
        (retainIfRequired options nextFrameBytes timestamp) (fun _ => Elsewhere number front)
        fun _ => Keeps number front := by
      refine (ensures_retainIfRequired (fun t template _ payload _ _ ht => ?_) fun _ ht =>
        ht).weakenError fun _ _ ht => ht.1
      exact ⟨fun file hfile => (ht.published template payload).1 file (mem_filter.mp hfile).1, ht.2⟩
    exact (hrotate.bind fun _ => hretain.post fun _ _ ht => .inr ht).ends hstore

theorem holds_append_current :
    Holds (Current number front) (append options record) (fun _ _ => True)
      fun _ => Keeps number front := by
  have hencoded (payload : Bytes) :
      Holds (fun t => Current number front t ∨ Elsewhere number front t)
        (appendEncoded record payload) (fun _ _ => True) fun _ => Keeps number front := by
    intro t ht
    rcases appendEncoded_cases record payload t with ⟨_, herror⟩ | ⟨_, hok⟩
    · rw [herror]
      exact ht.elim And.left And.left
    · rw [hok]
      trivial
  exact holds_append_of holds_prepareStorage_current hencoded fun _ _ ht => ht.1

theorem keeps_of_recordRecovery_error {context : AuditContext} (h : Current number front store)
    {error : AppError} {store' : LedgerStore}
    (hrecord : recordRecovery options context store = (.error error, store')) :
    Keeps number front store' := by
  have hall : Holds (Current number front) (recordRecovery options context) (fun _ _ => True)
      fun _ => Keeps number front :=
    holds_liftLedger_bind (fun _ _ ht => ht.1) fun _ _ => holds_append_current _
  have hend := hall.ends h
  rw [hrecord] at hend
  exact hend

end Append

section Detection

variable {options : AuditLedgerOptions} {directory files : Directory}

def Sealed (options : AuditLedgerOptions) (directory : Directory) : Prop :=
  discoverSegments directory = .ok directory ∧ ∃ final,
    SealedFiles options (firstNumber directory) ScanState.initial directory final ∧
      anchorValid final = true

/-- The directory holds complete frames of one chain and then, in its last segment, the beginning
of a frame. -/
def Torn (options : AuditLedgerOptions) (directory : Directory) : Prop :=
  discoverSegments directory = .ok directory ∧ ∃ kept,
    TornFiles options (firstNumber directory) ScanState.initial directory kept

def Unshortened (directory directory' : Directory) : Prop :=
  ∀ file ∈ directory, ∃ file' ∈ directory', file'.1 = file.1 ∧ file.2 <+: file'.2

def Detects (options : AuditLedgerOptions) (directory : Directory) : Prop :=
  ∃ error directory', openLedger options directory = (.error error, directory') ∧
    Unshortened directory directory'

instance (directory directory' : Directory) : Decidable (Unshortened directory directory') :=
  inferInstanceAs (Decidable (∀ file ∈ directory,
    ∃ file' ∈ directory', file'.1 = file.1 ∧ file.2 <+: file'.2))

theorem unshortened_refl (directory : Directory) : Unshortened directory directory :=
  fun file hfile => ⟨file, hfile, rfl, prefix_refl _⟩

theorem discoverSegments_eq_ok (h : discoverSegments directory = .ok files) :
    files = directory ∧ (directory.map Prod.fst).Nodup := by
  rw [discoverSegments] at h
  split_ifs at h with hnumbers hcontiguous
  cases h
  rw [ne_eq, not_not] at hcontiguous
  exact ⟨rfl, hcontiguous ▸ nodup_range'⟩

theorem finishOpen_sealed {final : ScanState}
    (h : SealedFiles options (firstNumber files) ScanState.initial files final)
    (hanchor : anchorValid final = true) :
    ∃ ledger, finishOpen options files = (.ok ledger, files) := by
  obtain ⟨scan, hscan, rfl, hrecovered, hdirectory⟩ := h.scanFiles_eq
  have hsegments : scanSegments options files = (.ok scan, files) := by
    simp [scanSegments, hscan, hanchor, hdirectory]
  rw [finishOpen, hsegments]
  rcases options.recoveryContext with _ | context
  · exact ⟨_, rfl⟩
  · simp [hrecovered]

theorem Sealed.openLedger_eq (haccepted : options.accepted = true) (h : Sealed options directory) :
    ∃ ledger directory', openLedger options directory = (.ok ledger, directory') := by
  obtain ⟨hdiscover, _, hsealed, hanchor⟩ := h
  rw [openLedger, if_pos haccepted, hdiscover]
  rcases directory with _ | ⟨file, files⟩
  · have hempty : SealedFiles options (firstNumber [(1, [])]) ScanState.initial [(1, [])]
        ScanState.initial := .cons (.nil _) (.nil _)
    obtain ⟨ledger, hledger⟩ := finishOpen_sealed hempty rfl
    exact ⟨ledger, _, hledger⟩
  · obtain ⟨ledger, hledger⟩ := finishOpen_sealed hsealed hanchor
    exact ⟨ledger, _, hledger⟩

theorem TornFiles.not_unshortened {kept directory' : Directory}
    (hnodup : (directory.map Prod.fst).Nodup)
    (h : TornFiles options (firstNumber directory) ScanState.initial directory kept)
    (hcontext : options.recoveryContext.isSome) {error : AppError}
    (hopen : finishOpen options directory = (.error error, directory')) :
    ¬ Unshortened directory directory' := by
  obtain ⟨scan, hscan, hrecovered, hdirectory⟩ := h.scanFiles_eq hcontext
  obtain ⟨_, number, front, left, _, _, hfiles, hkept, hleft, _⟩ := h
  -- The numbers of the segments differ, so only the last file has the number of the last segment.
  have hkeeps (ledger : FileAuditLedger) : Keeps number front ⟨ledger, kept⟩ := by
    intro file hfile hnumber
    rw [hfiles, map_append, nodup_append] at hnodup
    rcases mem_append.mp (hkept ▸ hfile) with hbefore | hlast
    · exact absurd hnumber (hnodup.2.2 _ (mem_map_of_mem hbefore) number (by simp))
    · rw [mem_singleton.mp hlast]
  suffices hcut : ∀ file ∈ directory', file.1 = number → file.2 = front by
    intro hkeep
    obtain ⟨file, hfile, hnumber, hprefix⟩ := hkeep (number, front ++ left) (by simp [hfiles])
    rw [hcut file hfile hnumber] at hprefix
    have hle := hprefix.length_le
    have hpos := length_pos_iff.mpr hleft
    rw [length_append] at hle
    omega
  obtain ⟨context, hsome⟩ := Option.isSome_iff_exists.mp hcontext
  have hcurrent (first : ℕ) : Current number front ⟨ofScan first scan, kept⟩ :=
    ⟨hkeeps _, by simp [ofScan, hdirectory, hkept]⟩
  rcases hanchor : anchorValid scan.state
  · simp only [finishOpen, scanSegments, hscan, hanchor, Bool.false_eq_true, if_false] at hopen
    cases hopen
    rw [hdirectory]
    exact hkeeps (ofScan 1 scan)
  · simp only [finishOpen, scanSegments, hscan, hanchor, if_true, hsome, hrecovered,
      hdirectory] at hopen
    rcases hrecord : recordRecovery options context ⟨ofScan (firstNumber kept) scan, kept⟩ with
      ⟨error' | head, store⟩
    · rw [hrecord] at hopen
      cases hopen
      exact keeps_of_recordRecovery_error (hcurrent _) hrecord
    · rw [hrecord] at hopen
      cases hopen

theorem detects_iff (haccepted : options.accepted = true)
    (hcontext : options.recoveryContext.isSome) (directory : Directory) :
    Detects options directory ↔ ¬ Sealed options directory ∧ ¬ Torn options directory := by
  constructor
  · rintro ⟨error, directory', hopen, hkept⟩
    refine ⟨fun hsealed => ?_, ?_⟩
    · obtain ⟨_, files, hok⟩ := hsealed.openLedger_eq haccepted
      rw [hopen] at hok
      cases hok
    · rintro ⟨hdiscover, _, htorn⟩
      have hfinish : finishOpen options directory = (.error error, directory') := by
        rw [openLedger, if_pos haccepted, hdiscover] at hopen
        rcases directory with _ | ⟨file, files⟩
        · obtain ⟨_, _, _, _, _, _, hfiles, _⟩ := htorn
          exact absurd hfiles (by simp)
        · exact hopen
      exact htorn.not_unshortened (discoverSegments_eq_ok hdiscover).2 hcontext hfinish hkept
  · rintro ⟨hsealed, htorn⟩
    rw [Detects, openLedger, if_pos haccepted]
    rcases hdiscover : discoverSegments directory with error | files
    · exact ⟨error, directory, rfl, unshortened_refl _⟩
    · obtain ⟨rfl, _⟩ := discoverSegments_eq_ok hdiscover
      rcases files with _ | ⟨file, files⟩
      · exact absurd ⟨hdiscover, _, .nil _, rfl⟩ hsealed
      · simp only [finishOpen, scanSegments]
        rcases hscan : scanFiles options (firstNumber (file :: files)) (file :: files)
          ScanState.initial with error | scan
        · exact ⟨error, _, rfl, unshortened_refl _⟩
        · rcases scanFiles_eq_ok hscan with ⟨_, hdirectory, hfiles⟩ | ⟨_, _, hfiles⟩
          · rcases hanchor : anchorValid scan.state
            · simp only [hanchor, hdirectory, Bool.false_eq_true, if_false]
              exact ⟨_, _, rfl, unshortened_refl _⟩
            · exact absurd ⟨hdiscover, _, hfiles, hanchor⟩ hsealed
          · exact absurd ⟨hdiscover, _, hfiles⟩ htorn

def sampleId : AuditIdentifier := ⟨"a".toList, by decide⟩

def recoveringOptions : AuditLedgerOptions where
  recoveryContext := some ⟨sampleId, sampleId, .systemRecovery, 0⟩

def logoutRecord : AuditRecord :=
  ⟨1, .securityObservation, ⟨sampleId, sampleId, .bootstrapAdmin, 0⟩, .adminLogout, .adminAccount,
    ⟨"administrator".toList, by decide⟩, none, none, some .observed, none⟩

def emptyLedger : FileAuditLedger :=
  ⟨[], [⟨1, 1, 0, Link.first.previous, 0⟩], 1, 0, ⟨0, 0⟩, Link.first.previous, .ready⟩

end Detection

end FileAuditLedger

end EdgeProxy

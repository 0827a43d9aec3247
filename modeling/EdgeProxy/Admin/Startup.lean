import EdgeProxy.Admin.Revisions
import EdgeProxy.Config.Canonical
import EdgeProxy.Lib.Faulty

/-! # Resolving the configuration at startup

`ResolveStartupConfigUseCase` takes the current revision if there is one, and imports the bootstrap
seed into a repository that is empty. The import saves the revision and then makes it current. A
process that ends between the two leaves a repository that is not empty and has no current
revision, and no later start leaves that state.
-/

namespace EdgeProxy

open Rust Rust.Action FileRevisionRepository ConfigValidator List Option AList

inductive StartupConfigOrigin where
  | revisionCurrent | bootstrapSeedImported
  deriving DecidableEq

structure ResolvedStartupConfig where
  snapshot : ConfigSnapshot
  origin : StartupConfigOrigin
  deriving DecidableEq

inductive StartupConfigResolutionState where
  | openingRepository | repositoryEmpty | readingSeed | validatingSeed | importingSeed
  | readingCurrent | validatingCurrent | resolved | unconfigured
  | failed (errorCode : ErrorCode)

inductive StartupConfigResolutionEvent where
  | repositoryInspected (empty : Bool)
  | seedRead | seedAbsent | seedValidated | seedImported | currentRead | currentValidated
  | failed (errorCode : ErrorCode)

/-- `StartupConfigResolutionMachine::transition`; the error leaves out the two names it prints. -/
def StartupConfigResolutionState.transition :
    StartupConfigResolutionState → StartupConfigResolutionEvent →
      Except AppError StartupConfigResolutionState
  | .openingRepository, .repositoryInspected true => .ok .repositoryEmpty
  | .openingRepository, .repositoryInspected false => .ok .readingCurrent
  | .repositoryEmpty, .seedRead => .ok .validatingSeed
  | .repositoryEmpty, .seedAbsent => .ok .unconfigured
  | .validatingSeed, .seedValidated => .ok .importingSeed
  | .importingSeed, .seedImported => .ok .resolved
  | .readingCurrent, .currentRead => .ok .validatingCurrent
  | .validatingCurrent, .currentValidated => .ok .resolved
  | .openingRepository, .failed code | .repositoryEmpty, .failed code
  | .readingSeed, .failed code | .validatingSeed, .failed code | .importingSeed, .failed code
  | .readingCurrent, .failed code | .validatingCurrent, .failed code => .ok (.failed code)
  | _, _ => .error ⟨.internalBug, "invalid startup config transition"⟩

/-- The effects of a start, in their order; each can fail or be the last one of the process. -/
inductive StartupEffect where
  | readPointer | readCurrent | readHistory | readSeed
  | createLayout | writeRevision | renameRevision
  | ensureLayout | findRevision | writePointer | renamePointer
  deriving DecidableEq

/-- One start: what becomes of its effects, and what the preflight says of a snapshot. -/
structure StartupRun where
  fates : StartupEffect → Fate Unit
  preflight : ConfigSnapshot → Except AppError Unit

abbrev StartupAction (α : Type) := Action FileRevisionRepository (Stop AppError) α

namespace FileRevisionRepository

/-- The files are visited in the order of their names, which is that of the bytes of the ids. -/
def history (repository : FileRevisionRepository) : Except AppError (List RevisionRecord) :=
  ((repository.revisions.keys.mergeSort fun a b => encode a ≤ encode b).mapM
    repository.findRevision).map (filterMap fun record => record)

/-- `save_revision`, whose temporary file is not part of the repository. -/
def saveRevisionDurably (fates : StartupEffect → Fate Unit) (record : RevisionRecord) :
    StartupAction PUnit := do
  touch (fates .createLayout) configStoreError
  touch (fates .writeRevision) configStoreError
  atomically (fates .renameRevision) (fun repository => { repository with
    revisions := repository.revisions.insert record.id
      (renderMvpConfigSnapshot record.snapshot) }) configStoreError

def setCurrentDurably (fates : StartupEffect → Fate Unit) (revisionId : Text) :
    StartupAction PUnit := do
  touch (fates .ensureLayout) configStoreError
  touch (fates .findRevision) configStoreError
  let repository ← Action.read
  match ← ofExcept (repository.findRevision revisionId) with
  | none => raise (revisionNotFound revisionId)
  | some _ =>
    touch (fates .writePointer) configStoreError
    atomically (fates .renamePointer) (fun repository =>
      { repository with currentFile := some revisionId }) configStoreError

end FileRevisionRepository

def bootstrapSeedId : Text := "bootstrap-seed".toList

def AppError.underCode (code : ErrorCode) (error : AppError) : AppError := ⟨code, error.message⟩

/-- `validate_source(..).into_result()` with the default validator. -/
def checkSource (source : ConfigSource) : Except AppError Unit :=
  match ConfigValidator.validateSource {} source with
  | [] => .ok ()
  | errors => .error (validationErrorsToAppError errors)

namespace StartupRun

variable (run : StartupRun)

variable (machine : StartupConfigResolutionState) (seed : Option Text)

def resolveCurrent (record : RevisionRecord) : StartupAction (Option ResolvedStartupConfig) := do
  let machine ← ofExcept (machine.transition (.repositoryInspected false))
  let machine ← ofExcept (machine.transition .currentRead)
  let snapshot ← ofExcept
    ((checkSnapshot record.snapshot).mapError (.underCode .configCurrentRevisionInvalid))
  ofExcept (run.preflight snapshot)
  let _ ← ofExcept (machine.transition .currentValidated)
  return some ⟨snapshot, .revisionCurrent⟩

def importSeed (seed : Text) : StartupAction (Option ResolvedStartupConfig) := do
  let machine ← ofExcept (machine.transition .seedRead)
  let source ← ofExcept
    ((parseMvpConfig seed bootstrapSeedId).mapError (.underCode .configBootstrapSeedInvalid))
  ofExcept ((checkSource source).mapError (.underCode .configBootstrapSeedInvalid))
  ofExcept (run.preflight source.snapshot)
  let machine ← ofExcept (machine.transition .seedValidated)
  saveRevisionDurably run.fates ⟨source.snapshot.revisionId, source.snapshot⟩
  setCurrentDurably run.fates source.snapshot.revisionId
  let _ ← ofExcept (machine.transition .seedImported)
  return some ⟨source.snapshot, .bootstrapSeedImported⟩

/-- Without a current revision, only an empty repository lets the seed in. -/
def resolveSeed
    (repository : FileRevisionRepository) : StartupAction (Option ResolvedStartupConfig) := do
  touch (run.fates .readHistory) configStoreError
  let history ← ofExcept repository.history
  if !history.isEmpty then
    let _ ← ofExcept (machine.transition (.repositoryInspected false))
    raise ⟨.configCurrentRevisionMissing,
      "revision repository is non-empty but current revision is unavailable"⟩
  else
    let machine ← ofExcept (machine.transition (.repositoryInspected true))
    touch (run.fates .readSeed) configStoreError
    match seed with
    | none =>
      let _ ← ofExcept (machine.transition .seedAbsent)
      return none
    | some seed => run.importSeed machine seed

def execute : StartupAction (Option ResolvedStartupConfig) := do
  let machine := StartupConfigResolutionState.openingRepository
  let invalid := AppError.underCode .configCurrentRevisionInvalid
  touch (run.fates .readPointer) (invalid configStoreError)
  touch (run.fates .readCurrent) (invalid configStoreError)
  let repository ← Action.read
  match ← ofExcept ((current false repository).1.mapError invalid) with
  | some record => run.resolveCurrent machine record
  | none =>
    if repository.currentRevisionId.isSome then
      let _ ← ofExcept (machine.transition (.repositoryInspected false))
      raise ⟨.configCurrentRevisionMissing,
        "current revision pointer does not reference a stored revision"⟩
    else run.resolveSeed machine seed repository

/-- The seed was valid, and every effect up to the renaming of the revision took place. -/
def imports (snapshot : ConfigSnapshot) : Bool :=
  [StartupEffect.readPointer, .readCurrent, .readHistory, .readSeed, .createLayout,
    .writeRevision].all (fun effect => (run.fates effect).isDone) &&
    (run.preflight snapshot).isOk && (run.fates .renameRevision).takesEffect

/-- No effect from the renaming of the revision to that of the pointer failed or was the last. -/
def completes : Bool :=
  [StartupEffect.renameRevision, .ensureLayout, .findRevision, .writePointer].all
    (fun effect => (run.fates effect).isDone) && (run.fates .renamePointer).takesEffect

end StartupRun

variable {record : RevisionRecord}

namespace FileRevisionRepository

variable {repository : FileRevisionRepository} {s : ConfigSnapshot} {id : Text}

def empty : FileRevisionRepository := ⟨∅, none⟩

def saved (s : ConfigSnapshot) : FileRevisionRepository :=
  ⟨insert s.revisionId (renderMvpConfigSnapshot s) ∅, none⟩

def imported (s : ConfigSnapshot) : FileRevisionRepository :=
  { saved s with currentFile := some s.revisionId }

theorem lookup_saved : (saved s).revisions.lookup s.revisionId = some (renderMvpConfigSnapshot s) :=
  lookup_insert _

theorem saved_ne_empty : saved s ≠ .empty := by
  intro h
  have hlookup := lookup_saved (s := s)
  rw [h] at hlookup
  cases hlookup

theorem findRevision_eq_iff
    (h : repository.revisions.lookup s.revisionId = some (renderMvpConfigSnapshot s)) :
    repository.findRevision s.revisionId = .ok (some ⟨s.revisionId, s⟩) ↔ s.Canonical := by
  rw [← reread_iff, findRevision, h]
  simp only [map_eq_ok, some.injEq, RevisionRecord.mk.injEq, true_and]

theorem findRevision_id (h : repository.findRevision id = .ok (some record)) : record.id = id := by
  unfold findRevision at h
  split at h
  · cases h
  · obtain ⟨_, -, hrecord⟩ := map_eq_ok.mp h
    cases hrecord
    rfl

theorem findRevision_isSome {record : Option RevisionRecord}
    (h : repository.findRevision id = .ok record) :
    record.isSome = (repository.revisions.lookup id).isSome := by
  unfold findRevision at h
  split at h
  · next hnone =>
    cases h
    rw [hnone]
    rfl
  · next source hsome =>
    obtain ⟨_, -, rfl⟩ := map_eq_ok.mp h
    rw [hsome]
    rfl

theorem revisions_of_history (h : repository.history = .ok []) : repository.revisions = ∅ := by
  obtain ⟨records, hrecords, hnone⟩ := map_eq_ok.mp h
  have hsome := map_of_mapM_ok (fun _ _ => findRevision_isSome) hrecords
  have hkeys : repository.revisions.keys = [] := by
    refine eq_nil_iff_forall_not_mem.mpr fun id hid => ?_
    have hlookup : (repository.revisions.lookup id).isSome = true := lookup_isSome.mpr hid
    have htrue : true ∈ records.map isSome := by
      rw [hsome, ← hlookup]
      exact mem_map_of_mem (mem_mergeSort.mpr hid)
    obtain ⟨record, hrecord, hisSome⟩ := mem_map.mp htrue
    obtain ⟨value, rfl⟩ := isSome_iff_exists.mp hisSome
    have hvalue : value ∈ records.filterMap fun record => record :=
      mem_filterMap.mpr ⟨_, hrecord, rfl⟩
    rw [hnone] at hvalue
    exact not_mem_nil hvalue
  exact ext (map_eq_nil_iff.mp hkeys)

theorem history_empty : empty.history = .ok [] := by
  simp [history, empty, pure, Except.pure, Except.map]

end FileRevisionRepository

section Runs

variable {seed : Option Text} {source : Text} {parsed : ConfigSource} {run : StartupRun}
  {repository : FileRevisionRepository}

namespace StartupRun

def Admits (run : StartupRun) (seed : Option Text) (repository : FileRevisionRepository) : Prop :=
  repository = .empty ∧ ∃ source ∈ seed, ∃ parsed,
    parseMvpConfig source bootstrapSeedId = .ok parsed ∧
      ConfigValidator.validateSource {} parsed = [] ∧ run.imports parsed.snapshot = true

theorem checkSource_eq_ok : checkSource parsed = .ok () ↔
    validateSource {} parsed = [] := by
  unfold checkSource
  split
  · next h => simp [h]
  · next h => simpa using h

theorem mapError_eq_ok {ε ε' α : Type} {x : Except ε α} {f : ε → ε'} {a : α} :
    x.mapError f = .ok a ↔ x = .ok a := by
  cases x <;> simp [Except.mapError]

theorem ends_saveRevision {α : Type} {fates : StartupEffect → Fate Unit}
    {k : PUnit → StartupAction α} {Q : α → FileRevisionRepository → Prop}
    {E : Stop AppError → FileRevisionRepository → Prop} (next : FileRevisionRepository)
    (hnext : next = ⟨repository.revisions.insert record.id
      (renderMvpConfigSnapshot record.snapshot), repository.currentFile⟩)
    (hkept : ∀ effect, (fates effect).isDone = false → ((fates .createLayout).isDone &&
      (fates .writeRevision).isDone && (fates .renameRevision).takesEffect) = false →
      ∀ stop, E stop repository)
    (hsaved : (fates .createLayout).isDone = true → (fates .writeRevision).isDone = true →
      (fates .renameRevision).takesEffect = true →
        ((fates .renameRevision).isDone = false → E .crash next) ∧
        ((fates .renameRevision).isDone = true → Ends Q E (k ⟨⟩ next))) :
    Ends Q E ((saveRevisionDurably fates record >>= k) repository) := by
  subst hnext
  rw [saveRevisionDurably, bind_bind]
  refine ends_touch (fun hlayout => ?_) fun h => hkept _ h (by simp [h])
  rw [bind_bind]
  refine ends_touch (fun hwrite => ?_) fun h => hkept _ h (by simp [h])
  refine ends_atomically_of_fate (fun hdone => ?_)
    (fun h => hkept _ (Fate.isDone_of_takesEffect h) (by simp [h]))
    fun hstopped htakes => (hsaved hlayout hwrite htakes).1 hstopped
  exact (hsaved hlayout hwrite (Fate.takesEffect_of_isDone hdone)).2 hdone

theorem ends_transition {α : Type} {machine next : StartupConfigResolutionState}
    {event : StartupConfigResolutionEvent} {k : StartupConfigResolutionState → StartupAction α}
    {Q : α → FileRevisionRepository → Prop} {E : Stop AppError → FileRevisionRepository → Prop}
    (h : machine.transition event = .ok next) (hk : Ends Q E (k next repository)) :
    Ends Q E ((ofExcept (machine.transition event) >>= k) repository) := by
  rw [ofExcept_ok_bind h]
  exact hk

theorem execute_keeps (run : StartupRun) (seed : Option Text)
    (repository : FileRevisionRepository) :
    Ends (fun resolved t => (t = repository ∧ ∀ r ∈ resolved, r.origin = .revisionCurrent ∧
        repository.currentFile.isSome = true) ∨ run.Admits seed repository)
      (fun _ t => t = repository ∨ run.Admits seed repository) (run.execute seed repository) := by
  refine ends_touch (fun hpointer => ?_) fun _ _ => .inl rfl
  refine ends_touch (fun hcurrent => ?_) fun _ _ => .inl rfl
  refine ends_ofExcept (fun current hfound => ?_) fun _ _ => .inl rfl
  rcases current with _ | record
  · dsimp only
    split_ifs with hid
    · exact ends_transition rfl (Or.inl rfl)
    have hfile : repository.currentFile = none := by simpa [currentRevisionId] using hid
    refine ends_touch (fun hhistory => ?_) fun _ _ => .inl rfl
    refine ends_ofExcept (fun history hread => ?_) fun _ _ => .inl rfl
    split_ifs with hempty
    · exact ends_transition rfl (Or.inl rfl)
    refine ends_transition rfl (ends_touch (fun hseed => ?_) fun _ _ => .inl rfl)
    rcases seed with _ | source
    · exact ends_transition rfl (Or.inl ⟨rfl, nofun⟩)
    refine ends_transition rfl (ends_ofExcept (fun parsed hparsed => ?_) fun _ _ => .inl rfl)
    refine ends_ofExcept (fun _ hvalid => ?_) fun _ _ => .inl rfl
    refine ends_ofExcept (fun _ hpreflight => ?_) fun _ _ => .inl rfl
    refine ends_transition rfl (ends_saveRevision _ rfl (fun _ _ _ _ => .inl rfl)
      fun hlayout hwrite htakes => ?_)
    have hadmits : run.Admits (some source) repository := by
      refine ⟨?_, source, rfl, parsed, mapError_eq_ok.mp hparsed,
        checkSource_eq_ok.mp (mapError_eq_ok.mp hvalid), ?_⟩
      · have hnil : history = [] := by simpa using hempty
        obtain ⟨_, currentFile⟩ := repository
        rw [hnil] at hread
        exact congrArg₂ FileRevisionRepository.mk (revisions_of_history hread) hfile
      · simp [imports, hpointer, hcurrent, hhistory, hseed, hlayout, hwrite, htakes, hpreflight,
          Except.isOk, Except.toBool]
    exact ⟨fun _ => .inr hadmits, fun _ =>
      ends_of_forall (fun _ _ => .inr hadmits) fun _ _ => .inr hadmits⟩
  · refine ends_transition rfl (ends_transition rfl
      (ends_ofExcept (fun snapshot _ => ?_) fun _ _ => .inl rfl))
    refine ends_ofExcept (fun _ _ => ends_transition rfl (Or.inl ⟨rfl, ?_⟩)) fun _ _ => .inl rfl
    rintro r ⟨⟩
    refine ⟨rfl, ?_⟩
    rcases hfile : repository.currentFile with _ | id
    · simp [current, currentRevisionId, hfile, Except.mapError] at hfound
    · rfl

def leaves (run : StartupRun) (s : ConfigSnapshot) : FileRevisionRepository :=
  if run.imports s then
    if run.completes && ((saved s).findRevision s.revisionId).isOk then imported s else saved s
  else .empty

theorem execute_empty (hparsed : parseMvpConfig source bootstrapSeedId = .ok parsed)
    (hvalid : validateSource {} parsed = []) (run : StartupRun) :
    let s := parsed.snapshot
    let excused : Prop := (∀ effect, (run.fates effect).isDone = true) → run.preflight s = .ok () →
      ((saved s).findRevision s.revisionId).isOk = false
    Ends (fun resolved t => resolved = some ⟨s, .bootstrapSeedImported⟩ ∧ t = run.leaves s)
      (fun _ t => excused ∧ t = run.leaves s) (run.execute (some source) .empty) := by
  intro s excused
  have hstopped (effect : StartupEffect) (h : (run.fates effect).isDone = false)
      (himports : run.imports s = false) : excused ∧ empty = run.leaves s :=
    ⟨fun hall => by simp [hall] at h, by rw [leaves, if_neg (by simp [himports])]⟩
  refine ends_touch (fun hpointer => ?_) fun h _ => hstopped _ h (by simp [imports, h])
  refine ends_touch (fun hcurrent => ?_) fun h _ => hstopped _ h (by simp [imports, h])
  refine ends_touch (fun hhistory => ?_) fun h _ => hstopped _ h (by simp [imports, h])
  rw [ofExcept_ok_bind history_empty, if_neg (by simp)]
  refine ends_transition rfl ?_
  refine ends_touch (fun hseed => ?_) fun h _ => hstopped _ h (by simp [imports, h])
  refine ends_transition rfl ?_
  rw [ofExcept_ok_bind (mapError_eq_ok.mpr hparsed),
    ofExcept_ok_bind (mapError_eq_ok.mpr (checkSource_eq_ok.mpr hvalid))]
  refine ends_ofExcept (fun _ hpreflight => ?_) fun e h => ⟨fun _ hok => ?_, ?_⟩
  rotate_left
  · exact nomatch h.symm.trans hok
  · rw [leaves, if_neg (by simp [imports, s, h, Except.isOk, Except.toBool])]
  refine ends_transition rfl (ends_saveRevision (saved s) rfl
    (fun effect hnot h _ => hstopped effect hnot ?_) fun hlayout hwrite htakes => ?_)
  · refine Bool.eq_false_iff.mpr fun himports => ?_
    simp only [imports, all_cons, all_nil, Bool.and_eq_true] at himports
    obtain ⟨⟨⟨-, -, -, -, hlayout, hwrite, -⟩, -⟩, htakes⟩ := himports
    simp [hlayout, hwrite, htakes] at h
  have himports : run.imports s = true := by
    simp [imports, hpointer, hcurrent, hhistory, hseed, hlayout, hwrite, htakes, hpreflight, s,
      Except.isOk, Except.toBool]
  have hsaved (effect : StartupEffect) (h : (run.fates effect).isDone = false)
      (hcompletes : run.completes = false) : excused ∧ saved s = run.leaves s :=
    ⟨fun hall => by simp [hall] at h, by
      rw [leaves, if_pos himports, if_neg (by simp [hcompletes])]⟩
  refine ⟨fun h => hsaved _ h (by simp [completes, h]), fun hrename => ?_⟩
  rw [setCurrentDurably, bind_bind]
  refine ends_touch (fun hlayout => ?_) fun h _ => hsaved _ h (by simp [completes, h])
  rw [bind_bind]
  refine ends_touch (fun hfind => ?_) fun h _ => hsaved _ h (by simp [completes, h])
  rw [bind_bind, read_bind, bind_bind]
  refine ends_ofExcept (fun record hfound => ?_) fun e hlost => ?_
  · obtain ⟨record, rfl⟩ : ∃ r, record = some r := isSome_iff_exists.mp (by
      rw [findRevision_isSome hfound, lookup_saved]
      rfl)
    dsimp only
    rw [bind_bind]
    refine ends_touch (fun hwritten => ?_) fun h _ => hsaved _ h (by simp [completes, h])
    have himported (h : (run.fates .renamePointer).takesEffect = true) :
        imported s = run.leaves s := by
      rw [leaves, if_pos himports, if_pos]
      simp [completes, hrename, hlayout, hfind, hwritten, h, hfound, s, Except.isOk, Except.toBool]
    refine ends_atomically_of_fate (fun h => ends_transition rfl
      ⟨rfl, himported (Fate.takesEffect_of_isDone h)⟩)
      (fun h _ => hsaved _ (Fate.isDone_of_takesEffect h) (by simp [completes, h]))
      fun hstop h => ⟨fun hall => by simp [hall] at hstop, himported h⟩
  · have hlost : ((saved s).findRevision s.revisionId).isOk = false := by
      rw [show (saved s).findRevision s.revisionId = .error e from hlost]
      rfl
    exact ⟨fun _ _ => hlost, by rw [leaves, if_pos himports, if_neg (by simp [hlost])]⟩

theorem execute_reads (run : StartupRun) (seed : Option Text) (repository : FileRevisionRepository)
    (hpointer : repository.currentRevisionId.isSome = true) :
    Ends (fun resolved _ => ∀ r ∈ resolved, ∃ record,
      (current false repository).1 = .ok (some record) ∧
        record.snapshot = r.snapshot) (fun _ _ => True) (run.execute seed repository) := by
  refine ends_touch (fun _ => ends_touch (fun _ => ?_) fun _ _ => trivial) fun _ _ => trivial
  refine ends_ofExcept (fun current hcurrent => ?_) fun _ _ => trivial
  rcases current with _ | record
  · rw [if_pos hpointer]
    exact ends_transition rfl trivial
  · refine ends_transition rfl (ends_transition rfl
      (ends_ofExcept (fun snapshot hcheck => ?_) fun _ _ => trivial))
    refine ends_ofExcept (fun _ _ => ends_transition rfl ?_) fun _ _ => trivial
    rintro r ⟨⟩
    exact ⟨record, mapError_eq_ok.mp hcurrent,
      (checkSnapshot_eq_ok (mapError_eq_ok.mp hcheck)).symm⟩

theorem execute_current_iff {later : StartupRun} (hdone : ∀ effect, later.fates effect = .done)
    {s : ConfigSnapshot} (hpointer : repository.currentRevisionId = some s.revisionId)
    (hlookup : repository.revisions.lookup s.revisionId = some (renderMvpConfigSnapshot s))
    (hvalid : validateSnapshot {} s = []) (hpreflight : later.preflight s = .ok ()) :
    (∃ origin, (later.execute seed repository).1 = .ok (some ⟨s, origin⟩)) ↔ s.Canonical := by
  have hcurrent : (current false repository).1 =
      repository.findRevision s.revisionId := by
    simp [current, hpointer]
  rw [← findRevision_eq_iff hlookup]
  constructor
  · rintro ⟨origin, hrun⟩
    have hreads := execute_reads later seed repository (by rw [hpointer]; rfl)
    rw [show later.execute seed repository = (.ok (some ⟨s, origin⟩), _) from
      Prod.ext hrun rfl] at hreads
    obtain ⟨⟨id, snapshot⟩, hrecord, rfl⟩ := hreads _ rfl
    obtain rfl : id = snapshot.revisionId := findRevision_id (hcurrent.symm.trans hrecord)
    exact hcurrent.symm.trans hrecord
  · intro hfound
    have hnot {effect : StartupEffect} {P : Prop}
        (h : (later.fates effect).isDone = false) : P := by
      rw [hdone] at h
      cases h
    suffices h : Ends (fun resolved _ => resolved = some ⟨s, .revisionCurrent⟩)
        (fun _ _ => False) (later.execute seed repository) by
      revert h
      rcases later.execute seed repository with ⟨_ | _, _⟩
      · exact False.elim
      · exact fun h => ⟨_, congrArg Except.ok h⟩
    refine ends_touch (fun _ => ends_touch (fun _ => ?_) hnot) hnot
    rw [read_bind, ofExcept_ok_bind (mapError_eq_ok.mpr (hcurrent.trans hfound))]
    refine ends_transition rfl (ends_transition rfl ?_)
    rw [ofExcept_ok_bind (mapError_eq_ok.mpr (show checkSnapshot s = .ok s by
      rw [checkSnapshot, hvalid])), ofExcept_ok_bind hpreflight]
    exact ends_transition rfl rfl

end StartupRun

def FileRevisionRepository.afterStarts (source : Text) (runs : List StartupRun) :
    FileRevisionRepository :=
  runs.foldl (fun repository run => (run.execute (some source) repository).2) .empty

theorem execute_of_ne_empty (hne : repository ≠ .empty) (run : StartupRun) (seed : Option Text) :
    (run.execute seed repository).2 = repository ∧
      ∀ resolved, (run.execute seed repository).1 = .ok (some resolved) →
        resolved.origin = .revisionCurrent ∧ repository.currentFile.isSome = true := by
  have hkeeps := run.execute_keeps seed repository
  revert hkeeps
  rcases run.execute seed repository with ⟨_ | _, _⟩
  · rintro (rfl | h)
    · exact ⟨rfl, nofun⟩
    · exact absurd h.1 hne
  · rintro (⟨rfl, h⟩ | h)
    · exact ⟨rfl, fun r hr => h r (Except.ok.inj hr)⟩
    · exact absurd h.1 hne

theorem afterStarts_eq (hparsed : parseMvpConfig source bootstrapSeedId = .ok parsed)
    (hvalid : validateSource {} parsed = []) (runs : List StartupRun) :
    afterStarts source runs =
      (runs.find? (·.imports parsed.snapshot)).elim .empty (·.leaves parsed.snapshot) := by
  have hkept {repository : FileRevisionRepository} (hne : repository ≠ .empty)
      (runs : List StartupRun) :
      runs.foldl (fun repository run => (run.execute (some source) repository).2) repository =
        repository := by
    induction runs with
    | nil => rfl
    | cons run _ ih => rw [foldl_cons, (execute_of_ne_empty hne run _).1, ih]
  induction runs with
  | nil => rfl
  | cons run runs ih =>
    have hrun : (run.execute (some source) .empty).2 = run.leaves parsed.snapshot :=
      state_of_ends (P := fun t => t = _) (ends_mono
        (StartupRun.execute_empty hparsed hvalid run) (fun _ _ h => h.2) fun _ _ h => h.2)
    rw [afterStarts, foldl_cons, hrun, find?_cons]
    rcases himports : run.imports parsed.snapshot
    · rw [StartupRun.leaves, if_neg (by simp [himports])]
      exact ih
    · refine hkept ?_ runs
      rw [StartupRun.leaves, if_pos himports]
      split
      · exact fun h => nomatch congrArg currentFile h
      · exact saved_ne_empty

section Restart

variable (hparsed : parseMvpConfig source bootstrapSeedId = .ok parsed)
  (hvalid : validateSource {} parsed = []) {later : StartupRun}
  (hdone : ∀ effect, later.fates effect = .done)
  (hpreflight : later.preflight parsed.snapshot = .ok ())

include hparsed hvalid hdone hpreflight

theorem resolves_leaves_iff (seed : Option Text) {run : StartupRun}
    (himports : run.imports parsed.snapshot = true) :
    (∃ origin, (later.execute seed (run.leaves parsed.snapshot)).1 =
      .ok (some ⟨parsed.snapshot, origin⟩)) ↔
      run.completes = true ∧ parsed.snapshot.Canonical := by
  have hfound := findRevision_eq_iff (lookup_saved (s := parsed.snapshot))
  rw [StartupRun.leaves, if_pos himports]
  split_ifs with h
  · rw [Bool.and_eq_true] at h
    have hid : parsed.snapshot.revisionId = bootstrapSeedId := parseMvpConfig_revisionId hparsed
    rw [and_iff_right h.1]
    refine StartupRun.execute_current_iff hdone ?_ lookup_saved (append_eq_nil_iff.mp
      (append_eq_nil_iff.mp hvalid).1).1 hpreflight
    simp only [currentRevisionId, imported, map_some, hid]
    rfl
  · refine iff_of_false ?_ fun ⟨hcompletes, hcanonical⟩ => ?_
    · rintro ⟨_, hrun⟩
      exact nomatch ((execute_of_ne_empty saved_ne_empty later seed).2 _ hrun).2
    · rw [hfound.mpr hcanonical] at h
      simp [hcompletes, Except.isOk, Except.toBool] at h

theorem resolves_empty (hcanonical : parsed.snapshot.Canonical) :
    ∃ origin, (later.execute (some source) .empty).1 = .ok (some ⟨parsed.snapshot, origin⟩) := by
  have hfound := (findRevision_eq_iff (lookup_saved (s := parsed.snapshot))).mpr hcanonical
  have hempty := StartupRun.execute_empty hparsed hvalid later
  revert hempty
  rcases later.execute (some source) .empty with ⟨_ | _, _⟩
  · rintro ⟨hlost, -⟩
    have hlost := hlost (fun effect => by rw [hdone]; rfl) hpreflight
    rw [hfound] at hlost
    cases hlost
  · exact fun h => ⟨_, congrArg Except.ok h.1⟩

/-- Starts with a valid seed, from an empty repository. Once a run has saved the seed, a later start
resolves to it exactly if that run got to the pointer and the seed survives a rendering; before, it
does if the seed survives a rendering. A repository that holds anything is never seeded, and only a
run that saves a valid seed changes it. -/
theorem startup_restarts_iff :
    (∀ (runs : List StartupRun) run, runs.find? (·.imports parsed.snapshot) = some run →
      ((∃ origin, (later.execute (some source) (afterStarts source runs)).1 =
          .ok (some ⟨parsed.snapshot, origin⟩)) ↔
        run.completes = true ∧ parsed.snapshot.Canonical)) ∧
    (∀ runs : List StartupRun, runs.find? (·.imports parsed.snapshot) = none →
      parsed.snapshot.Canonical →
      ∃ origin, (later.execute (some source) (afterStarts source runs)).1 =
        .ok (some ⟨parsed.snapshot, origin⟩)) ∧
    (∀ repository : FileRevisionRepository, repository ≠ .empty → ∀ (run : StartupRun) seed,
      (run.execute seed repository).2 = repository ∧
        ∀ resolved, (run.execute seed repository).1 = .ok (some resolved) →
          resolved.origin = .revisionCurrent ∧ repository.currentFile.isSome = true) ∧
    ∀ (repository : FileRevisionRepository) (run : StartupRun) (seed : Option Text),
      (run.execute seed repository).2 ≠ repository → run.Admits seed repository := by
  have hafter := afterStarts_eq hparsed hvalid
  refine ⟨fun runs run hfirst => ?_, fun runs hnone hcanonical => ?_,
    fun repository hne run seed => execute_of_ne_empty hne run seed,
    fun repository run seed hchanged => ?_⟩
  · rw [hafter, hfirst]
    have himports : run.imports parsed.snapshot = true := by simpa using find?_some hfirst
    exact resolves_leaves_iff hparsed hvalid hdone hpreflight (some source) himports
  · rw [hafter, hnone]
    exact resolves_empty hparsed hvalid hdone hpreflight hcanonical
  · exact (state_of_ends (P := fun t => t = repository ∨ run.Admits seed repository) (ends_mono
      (run.execute_keeps seed repository) (fun _ _ => .imp_left And.left)
      fun _ _ h => h)).resolve_left
        hchanged

end Restart

def stoppedAfterSave : StartupRun where
  fates effect := if effect = .renameRevision then .stopped ⟨true, fun _ => false⟩ else .done
  preflight _ := .ok ()

def undisturbedStart : StartupRun := ⟨fun _ => .done, fun _ => .ok ()⟩

def seedSource : Text := "schema_version = 1".toList

theorem parse_seedSource : parseMvpConfig seedSource bootstrapSeedId =
    .ok ⟨seedSnapshot bootstrapSeedId, true, []⟩ := by
  decide +kernel

theorem valid_seedSource : validateSource {} ⟨seedSnapshot bootstrapSeedId, true, []⟩ = [] := by
  decide +kernel

theorem canonical_seedSnapshot : (seedSnapshot bootstrapSeedId).Canonical :=
  parse_render_eq_iff.mp (by decide +kernel)

def refusedStart : StartupRun :=
  ⟨fun _ => .done, fun _ => .error ⟨.configAdminBindConflict, "bind"⟩⟩

/-- A refused start, one that saves the seed, and one that is stopped. -/
theorem startup_restarts_seed :
    ∃ origin, (undisturbedStart.execute (some seedSource) (afterStarts seedSource
      [refusedStart, undisturbedStart, stoppedAfterSave])).1 =
        .ok (some ⟨seedSnapshot bootstrapSeedId, origin⟩) :=
  ((startup_restarts_iff parse_seedSource valid_seedSource
    (show ∀ effect, undisturbedStart.fates effect = .done from fun _ => rfl) rfl).1 _ _ rfl).mpr
    ⟨rfl, canonical_seedSnapshot⟩

/-- After that, a start finds a revision and no pointer, and the seed is not looked at. -/
theorem stopped_after_save_stuck :
    afterStarts seedSource [stoppedAfterSave] = .saved (seedSnapshot bootstrapSeedId) ∧
      (undisturbedStart.execute (some seedSource) (afterStarts seedSource [stoppedAfterSave])).1 =
        .error (.error ⟨.configCurrentRevisionMissing,
          "revision repository is non-empty but current revision is unavailable"⟩) := by
  refine ⟨afterStarts_eq parse_seedSource valid_seedSource _, ?_⟩
  decide +kernel

end Runs

section Persistence

variable {s : ConfigSnapshot} {repository stored current : FileRevisionRepository}
  {env env' : OperationEnv} {later : StartupRun} {seed : Option Text}

theorem saveRevision_eq_ok (h : saveRevision env record repository = (.ok ⟨⟩, stored)) :
    stored.revisions.lookup record.id = some (renderMvpConfigSnapshot record.snapshot) := by
  unfold saveRevision at h
  split_ifs at h
  · cases h
  · cases h
    exact lookup_insert _

theorem setCurrent_eq_ok {id : Text} (h : setCurrent env id stored = (.ok ⟨⟩, current)) :
    current = { stored with currentFile := some id } := by
  unfold setCurrent at h
  repeat' split at h
  all_goals cases h
  rfl

/-- A snapshot that was saved and made current is read back, and started with, as it was exactly if
it survives a rendering and its id survives the trimming of the pointer. -/
theorem persisted_iff (hvalid : ConfigValidator.validateSnapshot {} s = [])
    (hsaved : saveRevision env ⟨s.revisionId, s⟩ repository = (.ok ⟨⟩, stored))
    (hcurrent : setCurrent env' s.revisionId stored = (.ok ⟨⟩, current))
    (hdone : ∀ effect, later.fates effect = .done) (hpreflight : later.preflight s = .ok ()) :
    ((FileRevisionRepository.current false current).1 = .ok (some ⟨s.revisionId, s⟩) ∧
      (∃ origin, (later.execute seed current).1 = .ok (some ⟨s, origin⟩)) ∧
      parseMvpConfig (renderMvpConfigSnapshot s) s.revisionId = .ok ⟨s, true, []⟩) ↔
      s.Canonical ∧ trim s.revisionId = s.revisionId := by
  have hlookup := saveRevision_eq_ok hsaved
  obtain rfl := setCurrent_eq_ok hcurrent
  constructor
  · rintro ⟨hread, -, hparsed⟩
    exact ⟨parse_render_eq_iff.mp hparsed, (findRevision_id hread).symm⟩
  · rintro ⟨hcanonical, htrim⟩
    have hpointer : currentRevisionId { stored with currentFile := some s.revisionId } =
        some s.revisionId := congrArg some htrim
    refine ⟨?_, (StartupRun.execute_current_iff hdone hpointer hlookup hvalid hpreflight).mpr
      hcanonical, parse_render_eq_iff.mpr hcanonical⟩
    simp only [current, hpointer]
    exact (findRevision_eq_iff hlookup).mpr hcanonical

theorem persisted_seed :
    let s := seedSnapshot bootstrapSeedId
    let stored := (saveRevision {} ⟨s.revisionId, s⟩ .empty).2
    let current := (setCurrent {} s.revisionId stored).2
    (FileRevisionRepository.current false current).1 = .ok (some ⟨s.revisionId, s⟩) ∧
      (∃ origin, (undisturbedStart.execute none current).1 = .ok (some ⟨s, origin⟩)) ∧
      parseMvpConfig (renderMvpConfigSnapshot s) s.revisionId = .ok ⟨s, true, []⟩ :=
  (persisted_iff (by decide +kernel)
    (show saveRevision {} _ .empty = (.ok ⟨⟩, _) from rfl)
    (show setCurrent {} _ _ = (.ok ⟨⟩, _) from rfl) (fun _ => rfl) rfl).mpr
    ⟨canonical_seedSnapshot, by decide +kernel⟩

/-- The validator accepts an id that ends in a blank. It is stored as a file name and read back
without the blank, so that the process does not start again. -/
theorem blank_id_not_found :
    let s := seedSnapshot "next ".toList
    let saved := saveRevision {} ⟨s.revisionId, s⟩ .empty
    let current := setCurrent {} s.revisionId saved.2
    ConfigValidator.validateSnapshot {} s = [] ∧ saved.1 = .ok ⟨⟩ ∧ current.1 = .ok ⟨⟩ ∧
      (FileRevisionRepository.current false current.2).1 = .ok none ∧
      (undisturbedStart.execute none current.2).1 = .error (.error
        ⟨.configCurrentRevisionMissing,
          "current revision pointer does not reference a stored revision"⟩) := by
  decide +kernel

end Persistence

end EdgeProxy

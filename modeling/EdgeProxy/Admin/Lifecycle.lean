import EdgeProxy.Admin.Revisions

/-! # Applying a revision to the core

`apply_with_core` and `rollback_with_core` over the revision files together with the snapshot that
the core runs. Both prepare an activation: they check the snapshot, save it, and plan which commands
to send. Then the commands are sent, the revision is made current and the change is recorded. Each
of these steps may fail after the ones before it took effect. The Admin handler wraps the call in an
audit operation and takes the outcome from the answer.
-/

namespace EdgeProxy

open Rust Action FileRevisionRepository

/-- The revision files and the snapshot active in the core. A command is kept with the snapshot that
was active when it was sent. -/
structure LifecycleState where
  repository : FileRevisionRepository
  active : ConfigSnapshot
  sent : List (ConfigSnapshot × ConfigSnapshot)

abbrev LifecycleAction (α : Type) := Action LifecycleState AppError α

def onRepository {α : Type} (x : RevisionAction α) : LifecycleAction α :=
  zoom LifecycleState.repository (fun repository s => { s with repository }) x

variable (env : OperationEnv)

def sendCommand (snapshot : ConfigSnapshot) : LifecycleAction PUnit :=
  fun s =>
    let s := { s with sent := s.sent ++ [(s.active, snapshot)] }
    match env.coreRejects with
    | some error => (.error error, s)
    | none => (.ok ⟨⟩, { s with active := snapshot })

def sendCommands (env : OperationEnv) : List ConfigSnapshot → LifecycleAction PUnit
  | [] => pure ⟨⟩
  | snapshot :: snapshots => do
    sendCommand env snapshot
    sendCommands env snapshots

structure Activation where
  revisionId : Text
  snapshot : ConfigSnapshot
  plan : ApplyPlan

def planActivation (revisionId : Text) (snapshot : ConfigSnapshot)
    (save : RevisionAction PUnit) : RevisionAction Activation := do
  let current ← current env.rereadFails
  save
  return ⟨revisionId, snapshot, planApplyWithCurrent (current.map RevisionRecord.snapshot) snapshot⟩

def findForRollback (revisionId : Text) : RevisionAction RevisionRecord :=
  fun repository =>
    if env.readFails then (.error configStoreError, repository)
    else
      match repository.findRevision revisionId with
      | .error error => (.error error, repository)
      | .ok none => (.error (revisionNotFound revisionId), repository)
      | .ok (some record) => (.ok record, repository)

def LifecycleCall.prepare : LifecycleCall → RevisionAction Activation
  | .apply snapshot => do
    let snapshot ← liftResult (checkSnapshot snapshot)
    planActivation env snapshot.revisionId snapshot
      (saveRevision env ⟨snapshot.revisionId, snapshot⟩)
  | .rollback revisionId => do
    let record ← findForRollback env revisionId
    let snapshot ← liftResult (checkSnapshot record.snapshot)
    planActivation env revisionId snapshot (pure ⟨⟩)

def Activation.run (activation : Activation) :
    LifecycleAction ApplyResponse := do
  match ← attempt (sendCommands env activation.plan.commands) with
  | .error error =>
    onRepository (recordAudit env)
    fail error
  | .ok _ =>
    onRepository (setCurrent env activation.revisionId)
    onRepository (recordAudit env)
    return ⟨activation.revisionId, activation.plan.commands.length, activation.plan.restartRequired⟩

def LifecycleCall.run (call : LifecycleCall) :
    LifecycleAction ApplyResponse := do
  let activation ← onRepository (call.prepare env)
  activation.run env

def AdminOperation.run (operation : AdminOperation) :
    LifecycleAction ApplyResponse := do
  let call ← onRepository (operation.resolve env)
  call.run env

def LifecycleState.after (history : List (AdminOperation × OperationEnv)) (s : LifecycleState) :
    LifecycleState :=
  history.foldl (fun s step => (step.1.run step.2 s).2) s

variable {r : FileRevisionRepository}

section Outcomes

variable {env : OperationEnv} {activation : Activation} {s : LifecycleState}

def Settable (env : OperationEnv) (revisionId : Text)
    (repository : FileRevisionRepository) : Prop :=
  env.layoutFails = false ∧ env.setCurrentFails = false ∧
    ∃ record, repository.findRevision revisionId = .ok (some record)

theorem setCurrent_cases (env : OperationEnv) (revisionId : Text)
    (repository : FileRevisionRepository) :
    Settable env revisionId repository ∧
        setCurrent env revisionId repository =
          (.ok ⟨⟩, { repository with currentFile := some revisionId }) ∨
      ¬ Settable env revisionId repository ∧
        ∃ error, setCurrent env revisionId repository = (.error error, repository) := by
  by_cases hset : Settable env revisionId repository
  · have ⟨hlayout, hwrite, _, hfind⟩ := hset
    exact .inl ⟨hset, by simp [setCurrent, hlayout, hwrite, hfind]⟩
  · refine .inr ⟨hset, ?_⟩
    rw [setCurrent]
    split_ifs with hlayout hwrite
    · exact ⟨_, rfl⟩
    · rcases repository.findRevision revisionId with error | _ | record
      all_goals exact ⟨_, rfl⟩
    · rcases hfind : repository.findRevision revisionId with error | _ | record
      · exact ⟨_, rfl⟩
      · exact ⟨_, rfl⟩
      · exact absurd ⟨by simpa using hlayout, by simpa using hwrite, record, hfind⟩ hset

def Activation.Accepted (env : OperationEnv) (activation : Activation) : Prop :=
  activation.plan.commands = [] ∨ env.coreRejects = none

def Activation.Planned (activation : Activation) : Prop :=
  activation.plan.commands = [] ∨ activation.plan.commands = [activation.snapshot]

def Activation.dispatched (activation : Activation) (s : LifecycleState) : LifecycleState :=
  if activation.plan.commands = [] then s
  else { s with
    active := activation.snapshot, sent := s.sent ++ [(s.active, activation.snapshot)] }

theorem Activation.repository_dispatched (activation : Activation) (s : LifecycleState) :
    (activation.dispatched s).repository = s.repository := by
  rw [dispatched]
  split_ifs
  · rfl
  · rfl

abbrev Activation.pointed (activation : Activation) (s : LifecycleState) : LifecycleState :=
  { activation.dispatched s with
    repository := { s.repository with currentFile := some activation.revisionId } }

inductive Activation.Ran (env : OperationEnv) (activation : Activation) (s : LifecycleState) :
    Except AppError ApplyResponse × LifecycleState → Prop
  | rejected (error : AppError) (hrejected : ¬ activation.Accepted env) :
      Ran env activation s
        (.error error, { s with sent := s.sent ++ [(s.active, activation.snapshot)] })
  | unset (error : AppError) (haccepted : activation.Accepted env)
      (hset : ¬ Settable env activation.revisionId s.repository) :
      Ran env activation s (.error error, activation.dispatched s)
  | unrecorded (error : AppError) (haccepted : activation.Accepted env)
      (hset : Settable env activation.revisionId s.repository) (haudit : env.auditFails = true) :
      Ran env activation s (.error error, activation.pointed s)
  | done (haccepted : activation.Accepted env)
      (hset : Settable env activation.revisionId s.repository) (haudit : env.auditFails = false) :
      Ran env activation s (.ok ⟨activation.revisionId, activation.plan.commands.length,
        activation.plan.restartRequired⟩, activation.pointed s)

theorem onRepository_eq {α : Type} {x : RevisionAction α} {s : LifecycleState}
    {result : Except AppError α} (h : x s.repository = (result, r)) :
    onRepository x s = (result, { s with repository := r }) := by
  rw [onRepository, zoom_apply, h]

theorem recordAudit_cases (env : OperationEnv) (s : LifecycleState) :
    env.auditFails = true ∧ (∃ error, onRepository (recordAudit env) s = (.error error, s)) ∨
      env.auditFails = false ∧ onRepository (recordAudit env) s = (.ok ⟨⟩, s) := by
  rw [onRepository, zoom_apply, recordAudit]
  rcases env.auditFails
  · exact .inr ⟨rfl, rfl⟩
  · exact .inl ⟨rfl, _, rfl⟩

theorem Activation.sendCommands_cases (env : OperationEnv) (hplanned : activation.Planned)
    (s : LifecycleState) :
    activation.Accepted env ∧
        sendCommands env activation.plan.commands s = (.ok ⟨⟩, activation.dispatched s) ∨
      ¬ activation.Accepted env ∧ ∃ error, sendCommands env activation.plan.commands s =
        (.error error, { s with sent := s.sent ++ [(s.active, activation.snapshot)] }) := by
  rcases hplanned with hnone | hone
  · exact .inl ⟨.inl hnone, by simp [hnone, sendCommands, dispatched]⟩
  · rw [hone]
    rcases hcore : env.coreRejects with _ | error
    · refine .inl ⟨.inr hcore, ?_⟩
      simp [sendCommands, sendCommand, bind_apply, hcore, dispatched, hone]
    · refine .inr ⟨?_, error, ?_⟩
      · simp [Accepted, hone, hcore]
      · simp [sendCommands, sendCommand, bind_apply, hcore]

theorem Activation.ran (env : OperationEnv) (hplanned : activation.Planned) (s : LifecycleState) :
    activation.Ran env s (activation.run env s) := by
  rw [run]
  rcases Activation.sendCommands_cases env hplanned s with
    ⟨haccepted, hsend⟩ | ⟨hrejected, error, hsend⟩
  · have hattempt : attempt (sendCommands env activation.plan.commands) s =
        (.ok (.ok ⟨⟩), activation.dispatched s) := by
      rw [attempt_apply, hsend]
    have hrepository := activation.repository_dispatched s
    rw [bind_ok hattempt]
    rcases setCurrent_cases env activation.revisionId s.repository with
      ⟨hset, hcurrent⟩ | ⟨hset, error, hcurrent⟩
    · have hlift : onRepository (setCurrent env activation.revisionId)
          (activation.dispatched s) = (.ok ⟨⟩, activation.pointed s) := by
        rw [onRepository, zoom_apply, hrepository, hcurrent]
      simp only
      rw [bind_ok hlift]
      rcases recordAudit_cases env (activation.pointed s) with
        ⟨haudit, error, hrecord⟩ | ⟨haudit, hrecord⟩
      · rw [bind_error hrecord]
        exact .unrecorded error haccepted hset haudit
      · rw [bind_ok hrecord]
        exact .done haccepted hset haudit
    · have hlift : onRepository (setCurrent env activation.revisionId)
          (activation.dispatched s) = (.error error, activation.dispatched s) := by
        rw [onRepository, zoom_apply, hrepository, hcurrent, ← hrepository]
      simp only
      rw [bind_error hlift]
      exact .unset error haccepted hset
  · have hattempt : attempt (sendCommands env activation.plan.commands) s =
        (.ok (.error error), { s with sent := s.sent ++ [(s.active, activation.snapshot)] }) := by
      rw [attempt_apply, hsend]
    rw [bind_ok hattempt]
    simp only
    rcases recordAudit_cases env { s with sent := s.sent ++ [(s.active, activation.snapshot)] } with
      ⟨_, error, hrecord⟩ | ⟨_, hrecord⟩
    · rw [bind_error hrecord]
      exact .rejected error hrejected
    · rw [bind_ok hrecord]
      exact .rejected error hrejected

def Activation.PlannedAgainst (activation : Activation) (r : FileRevisionRepository) : Prop :=
  ∃ current, FileRevisionRepository.current false r = (.ok current, r) ∧
    activation.plan = planApplyWithCurrent (current.map RevisionRecord.snapshot) activation.snapshot

theorem Activation.PlannedAgainst.planned
    (h : activation.PlannedAgainst r) : activation.Planned := by
  obtain ⟨_, _, hplan⟩ := h
  rw [Planned, hplan, planApplyWithCurrent]
  split_ifs
  · exact .inl rfl
  · exact .inr rfl

theorem FileRevisionRepository.current_eq_ok {fails : Bool} {r' : FileRevisionRepository}
    {found : Option RevisionRecord} (h : current fails r = (.ok found, r')) :
    current false r = (.ok found, r) := by
  have hstate : r' = r := by
    have := current_state fails r
    rwa [h] at this
  cases fails
  · rw [h, hstate]
  · rw [current, if_pos rfl] at h
    cases h

theorem planActivation_holds (revisionId : Text) (snapshot : ConfigSnapshot)
    {save : RevisionAction PUnit} {Q : FileRevisionRepository → Prop}
    (hsave : Holds (· = r) save (fun _ => Q) fun _ => (· = r)) :
    Holds (· = r) (planActivation env revisionId snapshot save)
      (fun activation r' => activation.PlannedAgainst r ∧ activation.revisionId = revisionId ∧
        activation.snapshot = snapshot ∧ Q r') fun _ => (· = r) := by
  have hcurrent : Holds (· = r) (current env.rereadFails)
      (fun found s => current false r = (.ok found, r) ∧ s = r)
      fun _ => (· = r) := by
    refine holds_of_ends fun s hs => ?_
    subst hs
    have hstate := current_state env.rereadFails s
    rcases hrun : current env.rereadFails s with ⟨_ | found, _⟩
    · rw [hrun] at hstate
      exact hstate
    · rw [hrun] at hstate
      exact ⟨current_eq_ok hrun, hstate⟩
  refine hcurrent.bind fun found => ?_
  rintro s ⟨hfound, hs⟩
  exact (hsave.bind fun _ => holds_pure fun r' hr' =>
    ⟨⟨found, hfound, rfl⟩, rfl, rfl, hr'⟩) s hs

def LifecycleCall.target (repository : FileRevisionRepository) :
    LifecycleCall → Option (Text × ConfigSnapshot)
  | .apply snapshot => some (snapshot.revisionId, snapshot)
  | .rollback revisionId =>
    match repository.findRevision revisionId with
    | .ok (some record) => some (revisionId, record.snapshot)
    | _ => none

structure Prepared (call : LifecycleCall) (r : FileRevisionRepository) (activation : Activation)
    (r' : FileRevisionRepository) : Prop where
  planned : activation.PlannedAgainst r
  target : call.target r = some (activation.revisionId, activation.snapshot)
  current : r'.currentFile = r.currentFile
  kept : ∀ id, r'.revisions.lookup id = r.revisions.lookup id ∨
    call = .apply activation.snapshot ∧ id = activation.revisionId

theorem LifecycleCall.prepare_holds (env : OperationEnv) (call : LifecycleCall)
    (r : FileRevisionRepository) :
    Holds (· = r) (call.prepare env) (Prepared call r) fun _ => (· = r) := by
  have hcheck (snapshot : ConfigSnapshot) :
      Holds (· = r) (liftResult (checkSnapshot snapshot))
        (fun next s => next = snapshot ∧ s = r) fun _ => (· = r) :=
    holds_liftResult.post fun _ _ => And.imp_left checkSnapshot_eq_ok
  cases call with
  | apply snapshot =>
    refine (hcheck snapshot).bind fun next => ?_
    have hsave : Holds (· = r)
        (saveRevision env ⟨next.revisionId, next⟩)
        (fun _ r' => r'.currentFile = r.currentFile ∧ ∀ id,
          r'.revisions.lookup id = r.revisions.lookup id ∨ id = next.revisionId)
        fun _ => (· = r) := by
      refine holds_of_ends ?_
      rintro _ rfl
      rw [saveRevision]
      split_ifs
      · exact rfl
      · refine ⟨rfl, fun id => ?_⟩
        by_cases hid : id = next.revisionId
        · exact .inr hid
        · exact .inl (AList.lookup_insert_ne hid)
    rintro s ⟨rfl, hs⟩
    refine ((planActivation_holds next.revisionId next hsave).post ?_) s hs
    rintro activation r' ⟨hplanned, hid, rfl, hcurrent, hkept⟩
    refine ⟨hplanned, by rw [target, hid], hcurrent, fun id => ?_⟩
    rw [hid]
    exact (hkept id).imp_right fun h => ⟨rfl, h⟩
  | rollback revisionId =>
    have hfind : Holds (· = r) (findForRollback env revisionId)
        (fun record s => r.findRevision revisionId = .ok (some record) ∧ s = r)
        fun _ => (· = r) := by
      refine holds_of_ends ?_
      rintro _ rfl
      rw [findForRollback]
      rcases hresult : findRevision _ revisionId with error | _ | record
      all_goals simp only
      all_goals split_ifs
      all_goals first
        | exact rfl
        | exact ⟨rfl, rfl⟩
    refine hfind.bind fun record => ?_
    rintro s ⟨hrecord, rfl⟩
    refine ((hcheck record.snapshot).bind fun next => ?_) s rfl
    rintro t ⟨rfl, ht⟩
    have hsave : Ensures (· = s) (pure ⟨⟩ : RevisionAction PUnit) (· = s) :=
      holds_pure fun _ h => h
    refine ((planActivation_holds revisionId record.snapshot hsave).post ?_) t ht
    rintro activation r' ⟨hplanned, hid, hsnapshot, rfl⟩
    exact ⟨hplanned, by rw [target, hrecord, hid, hsnapshot], rfl, fun _ => .inl rfl⟩

/-- An operation fails with everything as it was, or it activates what it resolved to. -/
theorem AdminOperation.run_cases (env : OperationEnv) (operation : AdminOperation)
    (s : LifecycleState) :
    (∃ error, operation.run env s = (.error error, s)) ∨ ∃ call activation r,
      operation.resolve env s.repository = (.ok call, s.repository) ∧
      call.prepare env s.repository = (.ok activation, r) ∧
      (∀ snapshot, call = .apply snapshot → ∃ current suffix,
        s.repository.currentRevisionId = some current ∧ operation.suffix = some suffix ∧
          snapshot.revisionId = current ++ suffix) ∧
      Prepared call s.repository activation r ∧
      operation.run env s = activation.run env { s with repository := r } := by
  have hresolved := (operation.resolve_holds (r := s.repository) env).ends rfl
  rw [run]
  rcases hresolve : operation.resolve env s.repository with ⟨error | call, r⟩
  · rw [hresolve] at hresolved
    subst hresolved
    exact .inl ⟨error, bind_error (onRepository_eq hresolve)⟩
  rw [hresolve] at hresolved
  obtain ⟨rfl, hextends⟩ := hresolved
  have hprepared := (call.prepare_holds env s.repository).ends rfl
  rw [bind_ok (onRepository_eq hresolve), LifecycleCall.run]
  rcases hprepare : call.prepare env s.repository with ⟨error | activation, r⟩
  · rw [hprepare] at hprepared
    subst hprepared
    exact .inl ⟨error, bind_error (onRepository_eq hprepare)⟩
  · rw [hprepare] at hprepared
    exact .inr ⟨call, activation, r, rfl, hprepare, hextends, hprepared,
      bind_ok (onRepository_eq hprepare)⟩

end Outcomes

section Atomicity

variable {env : OperationEnv} {call : LifecycleCall} {s s' : LifecycleState}

def Unchanged (s s' : LifecycleState) : Prop :=
  s'.repository.currentRevisionId = s.repository.currentRevisionId ∧ s'.active = s.active

/-- The revision of the call is current; if commands were sent, the files and the core both have
its snapshot. -/
def Effected (call : LifecycleCall) (commandsSent : ℕ) (s s' : LifecycleState) : Prop :=
  ∃ revisionId snapshot, call.target s.repository = some (revisionId, snapshot) ∧
    s'.repository.currentRevisionId = some revisionId ∧
    (commandsSent ≠ 0 →
      s'.repository.findRevision revisionId = .ok (some ⟨revisionId, snapshot⟩) ∧
        s'.active = snapshot)

structure AllOrNothing (call : LifecycleCall) (s : LifecycleState)
    (outcome : Except AppError ApplyResponse × LifecycleState) : Prop where
  error : ∀ error, outcome.1 = .error error → Unchanged s outcome.2
  ok : ∀ response, outcome.1 = .ok response → Effected call response.commandsSent s outcome.2

inductive AuditEffectState where
  | committed | rejected
  deriving DecidableEq

structure AuditAnswers where
  invalidOperation : Option AppError := none
  beginError : Option AppError := none
  terminalError : Option AppError := none

structure AuditedOutcome where
  result : Except AppError ApplyResponse
  state : LifecycleState
  terminal : Option AuditEffectState

/-- The audited part of the handler, for a request that is authenticated; the answer has a 2xx
status exactly when the operation returned `Ok`. -/
def handleAuditedLifecycleRequest (audit : AuditAnswers) (operation : LifecycleAction ApplyResponse)
    (s : LifecycleState) : AuditedOutcome :=
  match audit.invalidOperation, audit.beginError with
  | some error, _ => ⟨.error error, s, none⟩
  | none, some error => ⟨.error error, s, none⟩
  | none, none =>
    let (result, s') := operation s
    let effectState := match result with
      | .ok _ => AuditEffectState.committed
      | .error _ => AuditEffectState.rejected
    match audit.terminalError with
    | none => ⟨result, s', some effectState⟩
    | some error => ⟨.error error, s', none⟩

structure Truthful (call : LifecycleCall) (s : LifecycleState) (o : AuditedOutcome) : Prop where
  committed : o.terminal = some .committed →
    ∃ response, o.result = .ok response ∧ Effected call response.commandsSent s o.state
  rejected : o.terminal = some .rejected → Unchanged s o.state

/-- What must not go wrong once the core has taken the commands: the revision can be made current
and recorded, unless that changes nothing, and its file reads back as the snapshot. -/
structure Activation.Settles (env : OperationEnv) (activation : Activation) (s : LifecycleState) :
    Prop where
  set : ¬ Settable env activation.revisionId s.repository →
    activation.plan.commands = [] ∨ s.active = activation.snapshot
  recorded : Settable env activation.revisionId s.repository → env.auditFails = true →
    s.repository.currentRevisionId = some (trim activation.revisionId) ∧
      (activation.plan.commands = [] ∨ s.active = activation.snapshot)
  readBack : Settable env activation.revisionId s.repository → env.auditFails = false →
    trim activation.revisionId = activation.revisionId ∧
      (activation.plan.commands ≠ [] → s.repository.findRevision activation.revisionId =
        .ok (some ⟨activation.revisionId, activation.snapshot⟩))

theorem AllOrNothing.truthful (h : AllOrNothing call s (call.run env s)) (audit : AuditAnswers) :
    Truthful call s (handleAuditedLifecycleRequest audit (call.run env) s) := by
  rw [handleAuditedLifecycleRequest]
  rcases audit.invalidOperation with _ | error
  · rcases audit.beginError with _ | error
    · rcases hrun : call.run env s with ⟨error | response, _⟩
      · rcases audit.terminalError with _ | error'
        · exact ⟨nofun, fun _ => by simpa [hrun] using h.error error (by rw [hrun])⟩
        · exact ⟨nofun, nofun⟩
      · rcases audit.terminalError with _ | error'
        · exact ⟨fun _ => ⟨response, rfl, by simpa [hrun] using h.ok response (by rw [hrun])⟩,
            nofun⟩
        · exact ⟨nofun, nofun⟩
    · exact ⟨nofun, nofun⟩
  · exact ⟨nofun, nofun⟩

theorem Activation.active_dispatched_iff {activation : Activation} :
    (activation.dispatched s).active = s.active ↔
      activation.plan.commands = [] ∨ s.active = activation.snapshot := by
  rw [dispatched]
  split_ifs with hnone
  · exact iff_of_true rfl (.inl hnone)
  · rw [or_iff_right hnone, eq_comm]

theorem Activation.allOrNothing_iff {activation : Activation} (hplanned : activation.Planned)
    (hcurrent : r.currentFile = s.repository.currentFile)
    (htarget : call.target s.repository = some (activation.revisionId, activation.snapshot)) :
    AllOrNothing call s (activation.run env { s with repository := r }) ↔
      (activation.Accepted env → activation.Settles env { s with repository := r }) := by
  have hran := Activation.ran env hplanned { s with repository := r }
  generalize activation.run env { s with repository := r } = outcome at hran
  have hid : r.currentRevisionId = s.repository.currentRevisionId := by
    rw [currentRevisionId, hcurrent]
    rfl
  cases hran with
  | rejected _ hrejected =>
    exact iff_of_true ⟨fun _ _ => ⟨hid, rfl⟩, nofun⟩ fun haccepted => absurd haccepted hrejected
  | unset error haccepted hset =>
    constructor
    · intro h _
      exact ⟨fun _ => active_dispatched_iff.mp (h.error error rfl).2,
        fun hset' => absurd hset' hset,
        fun hset' => absurd hset' hset⟩
    · intro h
      refine ⟨fun _ _ => ⟨?_, active_dispatched_iff.mpr ((h haccepted).set hset)⟩, nofun⟩
      rw [repository_dispatched, hid]
  | unrecorded error haccepted hset haudit =>
    constructor
    · intro h _
      obtain ⟨hcurrent', hactive⟩ := h.error error rfl
      refine ⟨fun hset' => absurd hset hset', fun _ _ => ⟨?_, active_dispatched_iff.mp hactive⟩,
        fun _ haudit' => absurd (haudit.symm.trans haudit') (by decide)⟩
      rw [hid, ← hcurrent']
      rfl
    · intro h
      obtain ⟨hcurrent', hactive⟩ := (h haccepted).recorded hset haudit
      refine ⟨fun _ _ => ⟨?_, active_dispatched_iff.mpr hactive⟩, nofun⟩
      rw [← hid, hcurrent']
      rfl
  | done haccepted hset haudit =>
    constructor
    · intro h _
      obtain ⟨_, _, htarget', hcurrent', heffect⟩ := h.ok _ rfl
      rw [htarget] at htarget'
      cases htarget'
      refine ⟨fun hset' => absurd hset hset',
        fun _ haudit' => absurd (haudit.symm.trans haudit') (by decide),
        fun _ _ => ⟨Option.some.inj hcurrent', fun hcommands => ?_⟩⟩
      exact (heffect (by simpa using hcommands)).1
    · intro h
      obtain ⟨htrim, hread⟩ := (h haccepted).readBack hset haudit
      refine ⟨nofun, fun response hresponse => ?_⟩
      cases hresponse
      refine ⟨_, _, htarget, congrArg some htrim, fun hcommands => ?_⟩
      have hsome : activation.plan.commands ≠ [] := by simpa using hcommands
      refine ⟨hread hsome, ?_⟩
      rw [pointed, dispatched, if_neg hsome]

theorem lifecycle_all_or_nothing_iff (env : OperationEnv) (call : LifecycleCall)
    (s : LifecycleState) :
    (AllOrNothing call s (call.run env s) ∧
        ∀ audit, Truthful call s (handleAuditedLifecycleRequest audit (call.run env) s)) ↔
      ∀ activation repository, call.prepare env s.repository = (.ok activation, repository) →
        activation.Accepted env → activation.Settles env { s with repository } := by
  have hprepared := (call.prepare_holds env s.repository).ends rfl
  rw [and_iff_left_of_imp AllOrNothing.truthful]
  rcases hprepare : call.prepare env s.repository with ⟨error | activation, r⟩
  · rw [hprepare] at hprepared
    subst hprepared
    have hrun : call.run env s = (.error error, s) := bind_error (onRepository_eq hprepare)
    rw [hrun]
    exact iff_of_true ⟨fun _ _ => ⟨rfl, rfl⟩, nofun⟩ nofun
  · rw [hprepare] at hprepared
    obtain ⟨hplanned, htarget, hcurrent, _⟩ := hprepared
    have hrun : call.run env s = activation.run env { s with repository := r } :=
      bind_ok (onRepository_eq hprepare)
    rw [hrun, Activation.allOrNothing_iff hplanned.planned hcurrent htarget]
    constructor
    · rintro h _ _ heq
      cases heq
      exact h
    · exact fun h => h activation r rfl

def seedState : LifecycleState where
  repository := seedRepository
  active := seedSnapshot "bootstrap-seed".toList
  sent := []

/-- The core has taken the snapshot when the write of `current` fails: the call returns an error and
the handler records a rejected effect. -/
theorem set_current_failure_after_core :
    ((LifecycleCall.apply (seedSnapshot "next".toList)).run { setCurrentFails := true }
        seedState).1 = .error configStoreError ∧
      ((LifecycleCall.apply (seedSnapshot "next".toList)).run { setCurrentFails := true }
        seedState).2.active = seedSnapshot "next".toList ∧
      ((LifecycleCall.apply (seedSnapshot "next".toList)).run { setCurrentFails := true }
        seedState).2.repository.currentRevisionId = some "bootstrap-seed".toList ∧
      (handleAuditedLifecycleRequest {} ((LifecycleCall.apply (seedSnapshot "next".toList)).run
        { setCurrentFails := true }) seedState).terminal = some .rejected := by
  decide

end Atomicity

end EdgeProxy

import EdgeProxy.Config.ProxyHost
import EdgeProxy.Config.Render
import EdgeProxy.Config.Validation
import EdgeProxy.Lib.Result

/-! # Configuration revisions

`FileRevisionRepository` keeps one file per revision, named by the hexadecimal form of the
revision id, and a file that holds the id of the current revision. The Admin operations derive the
id of the revision they save from the current id. What the file system, the core and the audit
sink answer during one operation is its `OperationEnv`; file names longer than `nameMax` bytes are
refused.
-/

namespace EdgeProxy

open Rust Action AList

structure OperationEnv where
  layoutFails : Bool := false
  writeFails : Bool := false
  renameFails : Bool := false
  readFails : Bool := false
  rereadFails : Bool := false
  setCurrentFails : Bool := false
  coreRejects : Option AppError := none
  auditFails : Bool := false
  nameMax : Option ℕ := some 255

/-- A revision record without its summary and checksum, which only describe the snapshot. -/
structure RevisionRecord where
  id : Text
  snapshot : ConfigSnapshot
  deriving DecidableEq

/-- The files: the rendered revisions by id, and the content of `current`. -/
structure FileRevisionRepository where
  revisions : AList fun _ : Text => Text
  currentFile : Option Text

abbrev RevisionAction (α : Type) := Action FileRevisionRepository AppError α

def configStoreError : AppError := ⟨.configStoreFailed, "file system error"⟩

def revisionNotFound (revisionId : Text) : AppError :=
  ⟨.configRevisionNotFound, "revision not found: " ++ String.ofList revisionId⟩

/-- The length of `hex_encode(id)` with the extension of the temporary file. -/
def tempNameLength (revisionId : Text) : ℕ := 2 * byteLen revisionId + ".toml.tmp".toList.length

namespace FileRevisionRepository

variable (repository : FileRevisionRepository) (env : OperationEnv) (revisionId : Text)

def findRevision : Except AppError (Option RevisionRecord) :=
  match repository.revisions.lookup revisionId with
  | none => .ok none
  | some source =>
    (parseMvpConfig source revisionId).map fun parsed => some ⟨revisionId, parsed.snapshot⟩

def currentRevisionId : Option Text :=
  repository.currentFile.map trim

def current (readFails : Bool) : RevisionAction (Option RevisionRecord) := fun repository =>
  if readFails then (.error configStoreError, repository)
  else
    match repository.currentRevisionId with
    | none => (.ok none, repository)
    | some revisionId => (repository.findRevision revisionId, repository)

def saveRevision (record : RevisionRecord) : RevisionAction PUnit :=
  fun repository =>
    if env.layoutFails || env.writeFails || env.renameFails ||
        env.nameMax.any (· < tempNameLength record.id) then (.error configStoreError, repository)
    else
      (.ok ⟨⟩, { repository with
        revisions := repository.revisions.insert record.id
          (renderMvpConfigSnapshot record.snapshot) })

def setCurrent : RevisionAction PUnit := fun repository =>
  if env.layoutFails then (.error configStoreError, repository)
  else
    match repository.findRevision revisionId with
    | .error error => (.error error, repository)
    | .ok none => (.error (revisionNotFound revisionId), repository)
    | .ok (some _) =>
      if env.setCurrentFails then (.error configStoreError, repository)
      else (.ok ⟨⟩, { repository with currentFile := some revisionId })

end FileRevisionRepository

open FileRevisionRepository

/-- The commands of a plan are the snapshots that the core is asked to apply. -/
structure ApplyPlan where
  commands : List ConfigSnapshot
  warnings : List String
  restartRequired : Bool

def restartWarnings (current next : ConfigSnapshot) : List String :=
  (if current.listeners ≠ next.listeners then
    ["listener changes require process restart in MVP"] else []) ++
  (if current.runtime.metrics ≠ next.runtime.metrics then
    ["metrics changes require process restart in MVP"] else []) ++
  (if current.runtime.maxConnections ≠ next.runtime.maxConnections ∨
      current.runtime.maxInflightPayloadBytes ≠ next.runtime.maxInflightPayloadBytes ∨
      current.runtime.upstreamReadTimeoutMs ≠ next.runtime.upstreamReadTimeoutMs then
    ["resource policy changes require process restart"] else [])

def planApplyWithCurrent (current : Option ConfigSnapshot) (snapshot : ConfigSnapshot) :
    ApplyPlan :=
  let warnings := current.elim [] (restartWarnings · snapshot)
  if !warnings.isEmpty then ⟨[], warnings, true⟩ else ⟨[snapshot], [], false⟩

def recordAudit (env : OperationEnv) : RevisionAction PUnit := fun repository =>
  if env.auditFails then (.error ⟨.auditUnavailable, "audit sink failed"⟩, repository)
  else (.ok ⟨⟩, repository)

structure ApplyResponse where
  revisionId : Text
  commandsSent : ℕ
  restartRequired : Bool
  deriving DecidableEq

/-- `validate_snapshot(..).into_result()` with the default validator. -/
def checkSnapshot (snapshot : ConfigSnapshot) : Except AppError ConfigSnapshot :=
  match ConfigValidator.validateSnapshot {} snapshot with
  | [] => .ok snapshot
  | errors => .error (validationErrorsToAppError errors)

def liftResult {α : Type} (result : Except AppError α) : RevisionAction α := fun repository =>
  (result, repository)

def currentRevisionMissing : AppError := ⟨.configRevisionNotFound, "current revision missing"⟩

def requireCurrent (env : OperationEnv) : RevisionAction RevisionRecord := do
  match ← current env.readFails with
  | none => fail currentRevisionMissing
  | some record => return record

inductive LifecycleCall where
  | apply (snapshot : ConfigSnapshot)
  | rollback (revisionId : Text)

def deriveCall (env : OperationEnv) (derive : RevisionRecord → Except AppError ConfigSnapshot) :
    RevisionAction LifecycleCall := do
  let current ← requireCurrent env
  let next ← liftResult (derive current)
  return .apply next

/-- Unknown fields of the source are not an error here. -/
def parseValidConfigSource (source revisionId : Text) : Except AppError ConfigSnapshot := do
  let parsed ← parseMvpConfig source revisionId
  checkSnapshot parsed.snapshot

def ensureProxyHostExists (snapshot : ConfigSnapshot) (proxyHostId : Text) : Except AppError Unit :=
  if snapshot.routes.any (·.id == generatedId proxyHostId) then .ok ()
  else .error ⟨.adminRouteNotFound, "proxy host not found: " ++ String.ofList proxyHostId⟩

inductive AdminOperation where
  | applyConfigSource (source : Text)
  | createProxyHost (request : ProxyHostRequest)
  | updateProxyHost (proxyHostId : Text) (request : ProxyHostRequest)
  | deleteProxyHost (proxyHostId : Text)
  | rollback (revisionId : Text)

/-- The operations up to the call of `apply_with_core` or `rollback_with_core`. -/
def AdminOperation.resolve (env : OperationEnv) : AdminOperation → RevisionAction LifecycleCall
  | .applyConfigSource source => deriveCall env fun current =>
    parseValidConfigSource source (current.id ++ "-config-apply".toList)
  | .createProxyHost request => deriveCall env fun current =>
    let proxyHost := proxyHostFromRequest request
    checkSnapshot { addProxyHost current.snapshot proxyHost with
      revisionId := current.snapshot.revisionId ++ ("-proxy-host-".toList ++ proxyHost.id) }
  | .updateProxyHost proxyHostId request =>
    if request.id ≠ proxyHostId then
      fail ⟨.httpMalformedRequest, "path proxy host id must match request body id"⟩
    else deriveCall env fun current => do
      ensureProxyHostExists current.snapshot proxyHostId
      checkSnapshot { EdgeProxy.updateProxyHost current.snapshot (proxyHostFromRequest request) with
        revisionId :=
          current.snapshot.revisionId ++ ("-update-proxy-host-".toList ++ proxyHostId) }
  | .deleteProxyHost proxyHostId => deriveCall env fun current => do
    ensureProxyHostExists current.snapshot proxyHostId
    checkSnapshot { removeProxyHost current.snapshot proxyHostId with
      revisionId := current.snapshot.revisionId ++ ("-delete-proxy-host-".toList ++ proxyHostId) }
  | .rollback revisionId => pure (.rollback revisionId)

/-- What an operation appends to the current id; a rollback saves nothing. -/
def AdminOperation.suffix : AdminOperation → Option Text
  | .applyConfigSource _ => some "-config-apply".toList
  | .createProxyHost request => some ("-proxy-host-".toList ++ request.id)
  | .updateProxyHost proxyHostId _ => some ("-update-proxy-host-".toList ++ proxyHostId)
  | .deleteProxyHost proxyHostId => some ("-delete-proxy-host-".toList ++ proxyHostId)
  | .rollback _ => none

theorem parseMvpConfig_revisionId {source revisionId : Text} {parsed : ConfigSource}
    (h : parseMvpConfig source revisionId = .ok parsed) :
    parsed.snapshot.revisionId = revisionId := by
  obtain ⟨_, -, h⟩ := bind_eq_ok.mp h
  obtain ⟨_, -, h⟩ := bind_eq_ok.mp h
  obtain ⟨_, -, h⟩ := bind_eq_ok.mp h
  cases h
  rfl

theorem checkSnapshot_eq_ok {snapshot next : ConfigSnapshot}
    (h : checkSnapshot snapshot = .ok next) :
    next = snapshot := by
  unfold checkSnapshot at h
  split at h
  · exact (Except.ok.inj h).symm
  · nomatch h

def Appends (suffix : Text) (derive : RevisionRecord → Except AppError ConfigSnapshot) : Prop :=
  ∀ record next, record.snapshot.revisionId = record.id → derive record = .ok next →
    next.revisionId = record.id ++ suffix

theorem appends_parse (source : Text) :
    Appends "-config-apply".toList fun current =>
      parseValidConfigSource source (current.id ++ "-config-apply".toList) := by
  intro record next _ h
  obtain ⟨_, hparsed, hnext⟩ := bind_eq_ok.mp h
  rw [checkSnapshot_eq_ok hnext]
  exact parseMvpConfig_revisionId hparsed

theorem appends_check (suffix : Text) (change : ConfigSnapshot → ConfigSnapshot) :
    Appends suffix fun current => checkSnapshot { change current.snapshot with
      revisionId := current.snapshot.revisionId ++ suffix } := by
  intro record next hid h
  rw [checkSnapshot_eq_ok h, ← hid]

variable {suffix : Text}

theorem appends_guard (guard : RevisionRecord → Except AppError Unit)
    {derive : RevisionRecord → Except AppError ConfigSnapshot} (h : Appends suffix derive) :
    Appends suffix fun current => guard current >>= fun _ => derive current := by
  intro record next hid hd
  obtain ⟨_, -, hd⟩ := bind_eq_ok.mp hd
  exact h record next hid hd

variable {operation : AdminOperation}

theorem AdminOperation.suffix_ne_nil (h : operation.suffix = some suffix) : suffix ≠ [] := by
  cases operation <;> cases h <;> simp

theorem AdminOperation.resolve_derives (h : operation.suffix = some suffix) :
    (∃ error, ∀ env, operation.resolve env = fail error) ∨
      ∃ derive, Appends suffix derive ∧ ∀ env, operation.resolve env = deriveCall env derive := by
  cases operation with
  | applyConfigSource source =>
    cases h
    exact .inr ⟨_, appends_parse source, fun _ => rfl⟩
  | createProxyHost request =>
    cases h
    exact .inr ⟨_, appends_check _ (addProxyHost · (proxyHostFromRequest request)), fun _ => rfl⟩
  | updateProxyHost proxyHostId request =>
    cases h
    by_cases hid : request.id ≠ proxyHostId
    · exact .inl ⟨_, fun env => if_pos hid⟩
    · exact .inr ⟨_, appends_guard _ (appends_check _
        (EdgeProxy.updateProxyHost · (proxyHostFromRequest request))), fun env => if_neg hid⟩
  | deleteProxyHost proxyHostId =>
    cases h
    exact .inr ⟨_, appends_guard _ (appends_check _ (removeProxyHost · proxyHostId)), fun _ => rfl⟩
  | rollback => nomatch h

theorem AdminOperation.resolve_apply
    (h : operation.suffix = some suffix) {env : OperationEnv} {r r' : FileRevisionRepository}
    {call : LifecycleCall} (hresolve : operation.resolve env r = (.ok call, r')) :
    ∃ next, call = .apply next := by
  rcases operation.resolve_derives h with ⟨_, hfail⟩ | ⟨derive, _, hderives⟩
  · rw [hfail] at hresolve
    nomatch hresolve
  · rw [hderives] at hresolve
    obtain ⟨_, _, _, hlifted⟩ := Action.bind_eq_ok.mp hresolve
    obtain ⟨next, _, _, hnext⟩ := Action.bind_eq_ok.mp hlifted
    exact ⟨next, (Except.ok.inj (congrArg Prod.fst hnext)).symm⟩

/-- The longest file name has no part in what is resolved. -/
theorem AdminOperation.resolve_nameMax (operation : AdminOperation) (nameMax nameMax' : Option ℕ) :
    operation.resolve { nameMax } = operation.resolve { nameMax := nameMax' } := by
  cases operation <;> rfl

section Rules

variable {r : FileRevisionRepository} {α : Type}

theorem holds_liftResult {P : FileRevisionRepository → Prop} {result : Except AppError α} :
    Holds P (liftResult result) (fun a s => result = .ok a ∧ P s) fun _ => P := by
  refine holds_of_ends fun s hs => ?_
  cases result with
  | error => exact hs
  | ok => exact ⟨rfl, hs⟩

theorem FileRevisionRepository.current_state (fails : Bool) (s : FileRevisionRepository) :
    (current fails s).2 = s := by
  unfold current
  split
  · rfl
  · split <;> rfl

variable (env : OperationEnv)

theorem holds_requireCurrent :
    Holds (· = r) (requireCurrent env)
      (fun record s => s = r ∧ r.currentRevisionId = some record.id ∧
        record.snapshot.revisionId = record.id) fun _ => (· = r) := by
  refine Holds.bind (Q := fun record s => s = r ∧ ∀ found ∈ record,
      r.currentRevisionId = some found.id ∧ found.snapshot.revisionId = found.id)
    (holds_of_ends ?_) fun record => ?_
  · rintro _ rfl
    unfold current
    split
    · exact rfl
    · split
      · exact ⟨rfl, nofun⟩
      · next revisionId hcurrent =>
        cases hfind : findRevision _ revisionId with
        | error => exact rfl
        | ok =>
          refine ⟨rfl, fun record hrecord => ?_⟩
          unfold findRevision at hfind
          split at hfind
          · cases hfind
            nomatch hrecord
          · obtain ⟨_, hparsed, rfl⟩ := map_eq_ok.mp hfind
            cases hrecord
            exact ⟨hcurrent, parseMvpConfig_revisionId hparsed⟩
  · cases record with
    | none => exact holds_fail fun _ h => h.1
    | some record => exact holds_pure fun _ h => ⟨h.1, h.2 record rfl⟩

/-- An operation that saves a revision does so under the current id with its suffix. -/
theorem AdminOperation.resolve_holds (operation : AdminOperation) :
    Holds (· = r) (operation.resolve env)
      (fun call s => s = r ∧ ∀ snapshot, call = .apply snapshot → ∃ current suffix,
        r.currentRevisionId = some current ∧ operation.suffix = some suffix ∧
          snapshot.revisionId = current ++ suffix) fun _ => (· = r) := by
  rcases hsuffix : operation.suffix with _ | suffix
  · cases operation with
    | rollback => exact holds_pure fun _ h => ⟨h, nofun⟩
    | _ => nomatch hsuffix
  · rcases operation.resolve_derives hsuffix with ⟨_, hfail⟩ | ⟨derive, hderive, hresolve⟩
    · rw [hfail]
      exact holds_fail fun _ h => h
    · rw [hresolve]
      refine (holds_requireCurrent env).bind fun record => ?_
      rintro s ⟨rfl, hcurrent, hid⟩
      rcases hnext : derive record with error | next
      · exact rfl
      · refine ⟨rfl, fun snapshot hsnapshot => ?_⟩
        cases hsnapshot
        exact ⟨_, suffix, hcurrent, rfl, hderive record _ hid hnext⟩

def seedRepository : FileRevisionRepository where
  revisions := singleton "bootstrap-seed".toList "schema_version = 1\n".toList
  currentFile := some "bootstrap-seed".toList

end Rules

end EdgeProxy

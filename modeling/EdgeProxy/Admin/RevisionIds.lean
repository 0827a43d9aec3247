import EdgeProxy.Admin.Lifecycle

/-! # Revision ids

Every operation that saves a revision appends to the current id. A revision is never overwritten as
long as no stored id extends the current one. The id must also fit a file name and an audit
identifier: a history is run here under two sets of limits, those of the source and the file system
and none at all, which is how an operation that fails only for the length of its id is told apart.
-/

namespace EdgeProxy

open Rust Action FileRevisionRepository List Option Prod

variable {operation : AdminOperation} {current suffix id : Text}

section Immutability

variable {s : LifecycleState}

def Leaf (repository : FileRevisionRepository) : Prop :=
  ∀ current, repository.currentRevisionId = some current →
    ∀ id ∈ repository.revisions, current <+: id → id = current

theorem leaf_of_keys {repository : FileRevisionRepository}
    (h : ∀ current ∈ repository.currentRevisionId, ∀ id ∈ repository.revisions.keys,
      current <+: id → id = current) : Leaf repository :=
  fun current hcurrent id hid => h current hcurrent id (AList.mem_keys.mp hid)

theorem Leaf.notMem {repository : FileRevisionRepository} (h : Leaf repository)
    (hcurrent : repository.currentRevisionId = some current)
    (hsuffix : operation.suffix = some suffix) : current ++ suffix ∉ repository.revisions := by
  intro hmem
  have hself := h current hcurrent _ hmem ( prefix_append _ _)
  exact operation.suffix_ne_nil hsuffix (append_right_eq_self.mp hself)

theorem Activation.Ran.revisions {env : OperationEnv} {activation : Activation}
    {outcome : Except AppError ApplyResponse × LifecycleState} (h : activation.Ran env s outcome) :
    outcome.2.repository.revisions = s.repository.revisions := by
  cases h with
  | unset => rw [Activation.repository_dispatched]
  | _ => rfl

theorem AdminOperation.run_keeps (operation : AdminOperation) (env : OperationEnv)
    (hleaf : operation.suffix.isSome = true → Leaf s.repository) {source : Text}
    (hsource : s.repository.revisions.lookup id = some source) :
    (operation.run env s).2.repository.revisions.lookup id = some source := by
  rcases operation.run_cases env s with ⟨error, hfailed⟩ |
    ⟨call, activation, r, -, -, hextends, hprepared, hactivates⟩
  · rw [hfailed]
    exact hsource
  rw [hactivates, (Activation.ran env hprepared.planned.planned _).revisions]
  rcases hprepared.kept id with hkept | ⟨hcall, rfl⟩
  · rw [← hsource]
    exact hkept
  · have htarget := hprepared.target
    rw [hcall, LifecycleCall.target, some.injEq, Prod.mk.injEq] at htarget
    obtain ⟨current, suffix, hcurrent, hsuffix, hextended⟩ := hextends _ hcall
    have hmem : activation.revisionId ∈ s.repository.revisions :=
      AList.lookup_isSome.mp (by rw [hsource]; rfl)
    rw [← htarget.1, hextended] at hmem
    exact absurd hmem ((hleaf (by rw [hsuffix]; rfl)).notMem hcurrent hsuffix)

/-- In every run whose saving operations start where no stored revision extends the current one, a
revision that was saved is found unchanged ever after, and no operation derives the id of one. -/
theorem revisions_immutable (s : LifecycleState) (history : List (AdminOperation × OperationEnv))
    (hleaf : ∀ p operation env, p ++ [(operation, env)] <+: history →
      operation.suffix.isSome = true → Leaf (s.after p).repository) :
    (∀ p q, p ++ q = history → ∀ id source,
      (s.after p).repository.revisions.lookup id = some source →
        (s.after history).repository.findRevision id = (s.after p).repository.findRevision id) ∧
      ∀ p operation env suffix current, p ++ [(operation, env)] <+: history →
        operation.suffix = some suffix →
        (s.after p).repository.currentRevisionId = some current →
          current ++ suffix ∉ (s.after p).repository.revisions := by
  constructor
  · intro p q hp id source hsaved
    have hlookup : (s.after (p ++ q)).repository.revisions.lookup id = some source := by
      induction q using reverseRecOn generalizing history with
      | nil => rwa [append_nil]
      | append_singleton q step ih =>
        obtain ⟨operation, env⟩ := step
        have hprefix : p ++ q ++ [(operation, env)] <+: history := by
          rw [append_assoc, hp]
        rw [← append_assoc, LifecycleState.after, foldl_concat]
        refine operation.run_keeps env (hleaf _ operation env hprefix) ?_
        exact ih (p ++ q) (fun p' operation' env' h =>
          hleaf p' operation' env' (h.trans (( prefix_append _ _).trans hprefix))) rfl
    rw [← hp, findRevision, findRevision, hlookup, hsaved]
  · intro p operation env suffix current hp hsuffix hcurrent
    exact (hleaf p operation env hp (by rw [hsuffix]; rfl)).notMem hcurrent hsuffix

def applySource (source : String) : AdminOperation × OperationEnv :=
  (.applyConfigSource source.toList, {})

theorem first_apply_kept :
    (seedState.after [applySource "schema_version = 1",
        applySource "schema_version = 2"]).repository.findRevision
          "bootstrap-seed-config-apply".toList =
      (seedState.after [applySource "schema_version = 1"]).repository.findRevision
        "bootstrap-seed-config-apply".toList := by
  have hsaved : (((seedState.after [applySource "schema_version = 1"]).repository.revisions.lookup
      "bootstrap-seed-config-apply".toList).isSome) = true := by decide +kernel
  obtain ⟨source, hsource⟩ := isSome_iff_exists.mp hsaved
  refine (revisions_immutable seedState _ ?_).1 [applySource "schema_version = 1"] _ rfl _ source
    hsource
  intro p operation env hp _
  have hlength := hp.length_le
  rcases p with _ | ⟨step, _ | ⟨step', p⟩⟩
  · exact leaf_of_keys (by decide +kernel)
  · obtain rfl : step = _ := (cons_prefix_cons.mp hp).1
    exact leaf_of_keys (by decide +kernel)
  · simp at hlength

/-- Applying, rolling back and applying again derives the same id twice: the revision saved first
is overwritten, and its id then names another snapshot. -/
theorem apply_after_rollback_overwrites :
    ((seedState.after [applySource "schema_version = 1"]).repository.findRevision
        "bootstrap-seed-config-apply".toList).map (·.map (·.snapshot.schemaVersion)) =
      .ok (some 1) ∧
    ((seedState.after [applySource "schema_version = 1", (.rollback "bootstrap-seed".toList, {}),
          applySource "schema_version = 2"]).repository.findRevision
        "bootstrap-seed-config-apply".toList).map (·.map (·.snapshot.schemaVersion)) =
      .ok (some 2) := by
  decide +kernel

end Immutability

inductive AuditValidationError where
  | identifierEmpty | identifierTooLong | identifierInvalidCharacter | recordInvariantInvalid
  deriving DecidableEq

def auditIdentifierMaxBytes : ℕ := 128

def isAuditCharacter (c : Char) : Bool :=
  isAsciiAlphanumeric c || c == '-' || c == '_' || c == '.' || c == ':'

/-- `validate_audit_identifier`, with the limit as a parameter. -/
def validateIdentifierWithin (maxBytes : Option ℕ) (value : Text) :
    Except AuditValidationError Unit :=
  if value.isEmpty then .error .identifierEmpty
  else if maxBytes.any (· < byteLen value) then .error .identifierTooLong
  else if !value.all isAuditCharacter then .error .identifierInvalidCharacter
  else .ok ()

def validateAuditIdentifier (value : Text) : Except AuditValidationError Unit :=
  validateIdentifierWithin (some auditIdentifierMaxBytes) value

/-- `AuditTargetId::parse` with the message of the caller. -/
def auditTarget (message : String) (result : Except AuditValidationError Unit) (value : Text) :
    Except AppError Text :=
  match result with
  | .ok _ => .ok value
  | .error _ => .error ⟨.auditRecordInvalid, message⟩

structure LifecycleAudit where
  targetId : Text
  beforeRevision : Text

def lifecycleTarget (requestId : Text) : AdminOperation → Except AppError Text
  | .applyConfigSource _ =>
    auditTarget "invalid config audit target"
      (validateAuditIdentifier ("config-".toList ++ requestId)) ("config-".toList ++ requestId)
  | .rollback revisionId =>
    auditTarget "rollback revision audit target is invalid" (validateAuditIdentifier revisionId)
      revisionId
  | .createProxyHost { id, .. } | .updateProxyHost id _ | .deleteProxyHost id =>
    auditTarget "proxy host audit target is invalid" (validateAuditIdentifier id) id

/-- `lifecycle_audit_operation`; the limit of the revision id is a parameter. -/
def lifecycleAuditOperation (identifierMax : Option ℕ) (requestId currentRevision : Text)
    (operation : AdminOperation) : Except AppError LifecycleAudit := do
  let before ← auditTarget "invalid revision audit target"
    (validateIdentifierWithin identifierMax currentRevision) currentRevision
  let target ← lifecycleTarget requestId operation
  return ⟨target, before⟩

/-- The longest file name and the longest audit identifier; `none` for no limit. -/
structure NameLimits where
  fileNameMax : Option ℕ
  identifierMax : Option ℕ

def NameLimits.actual : NameLimits := ⟨some 255, some auditIdentifierMaxBytes⟩

def NameLimits.unlimited : NameLimits := ⟨none, none⟩

structure AuditedStep where
  operation : AdminOperation
  requestId : Text

def auditedRun (limits : NameLimits) (step : AuditedStep) : LifecycleAction ApplyResponse :=
    fun s =>
  match s.repository.currentRevisionId with
  | none => (.error currentRevisionMissing, s)
  | some current =>
    match lifecycleAuditOperation limits.identifierMax step.requestId current step.operation with
    | .error error => (.error error, s)
    | .ok _ => step.operation.run { nameMax := limits.fileNameMax } s

def allSucceed (limits : NameLimits) : List AuditedStep → LifecycleState → Bool
  | [], _ => true
  | step :: steps, s =>
    match auditedRun limits step s with
    | (.ok _, s) => allSucceed limits steps s
    | (.error _, _) => false

def AuditedStep.suffixBytes (step : AuditedStep) : ℕ := byteLen (step.operation.suffix.getD [])

section Growth

variable {s s' : LifecycleState} {response : ApplyResponse}

structure PlainId (id : Text) : Prop where
  nonempty : id ≠ []
  characters : id.all isAuditCharacter = true

theorem not_isWhitespace_of_isAuditCharacter {c : Char} (h : isAuditCharacter c = true) :
    isWhitespace c = false := by
  simp only [isAuditCharacter, Bool.or_eq_true, beq_iff_eq] at h
  rcases h with (((h | rfl) | rfl) | rfl) | rfl
  · exact (not_isWhitespace_of_isAsciiAlphanumeric h).1
  all_goals decide

theorem PlainId.trim_eq (h : PlainId id) : trim id = id :=
  (trimmed_of_forall fun c hc =>
    not_isWhitespace_of_isAuditCharacter (all_eq_true.mp h.characters c hc)).trim_eq

theorem PlainId.append (h : PlainId id)
    (hs : suffix.all isAuditCharacter = true) : PlainId (id ++ suffix) where
  nonempty := by simp [h.nonempty]
  characters := by
    rw [all_append, h.characters, hs]
    rfl

theorem PlainId.validate (h : PlainId id) {maxBytes : Option ℕ}
    (hlength : ∀ n ∈ maxBytes, byteLen id ≤ n) : validateIdentifierWithin maxBytes id = .ok () := by
  have hany : maxBytes.any (· < byteLen id) = false := by
    cases maxBytes with
    | none => rfl
    | some n => simpa using hlength n rfl
  simp [validateIdentifierWithin, h.nonempty, hany, h.characters]

theorem all_isAuditCharacter_of_validate {maxBytes : Option ℕ}
    (h : validateIdentifierWithin maxBytes id = .ok ()) : id.all isAuditCharacter = true := by
  unfold validateIdentifierWithin at h
  split_ifs at h with _ _ hall
  simpa using hall

theorem auditTarget_eq_ok {message : String} {result : Except AuditValidationError Unit}
    {value target : Text} (h : auditTarget message result value = .ok target) :
    result = .ok () := by
  cases result with
  | ok => rfl
  | error => nomatch h

theorem lifecycleAuditOperation_suffix {identifierMax : Option ℕ} {requestId : Text}
    {audit : LifecycleAudit}
    (h : lifecycleAuditOperation identifierMax requestId current operation = .ok audit)
    (hsuffix : operation.suffix = some suffix) : suffix.all isAuditCharacter = true := by
  obtain ⟨_, -, h⟩ := bind_eq_ok.mp h
  obtain ⟨_, h, -⟩ := bind_eq_ok.mp h
  cases operation with
  | applyConfigSource =>
    cases hsuffix
    decide
  | rollback => nomatch hsuffix
  | createProxyHost | updateProxyHost | deleteProxyHost =>
    cases hsuffix
    have hid := all_isAuditCharacter_of_validate (auditTarget_eq_ok h)
    rw [all_append, hid]
    rfl

theorem lifecycleAuditOperation_limited {requestId : Text}
    {audit : LifecycleAudit} (hid : PlainId current)
    (hlength : byteLen current ≤ auditIdentifierMaxBytes)
    (h : lifecycleAuditOperation none requestId current operation = .ok audit) :
    lifecycleAuditOperation (some auditIdentifierMaxBytes) requestId current operation =
      .ok audit := by
  rw [← h]
  unfold lifecycleAuditOperation
  rw [hid.validate (by simpa using hlength), hid.validate (by simp)]

theorem LifecycleCall.prepare_limited {next : ConfigSnapshot} {r r' : FileRevisionRepository}
    {activation : Activation}
    (h : (LifecycleCall.apply next).prepare { nameMax := none } r = (.ok activation, r'))
    (nameMax : ℕ) :
    (LifecycleCall.apply next).prepare { nameMax := some nameMax } r =
      if nameMax < tempNameLength next.revisionId then (.error configStoreError, r)
      else (.ok activation, r') := by
  obtain ⟨snapshot, t, hlift, hplan⟩ := Action.bind_eq_ok.mp h
  have hcheck : checkSnapshot next = .ok snapshot := congrArg fst hlift
  obtain rfl : r = t := congrArg snd hlift
  obtain rfl := checkSnapshot_eq_ok hcheck
  obtain ⟨before, t, hcurrent, hsaving⟩ := Action.bind_eq_ok.mp hplan
  obtain rfl : r = t := (current_state false r).symm.trans (congrArg snd hcurrent)
  obtain ⟨_, saved, hsave, hdone⟩ := Action.bind_eq_ok.mp hsaving
  rw [LifecycleCall.prepare, bind_ok hlift]
  refine (bind_ok (show current _ _ = _ from hcurrent)).trans ?_
  split_ifs with hname
  · refine bind_error ?_
    simp [saveRevision, hname]
  · rw [← hdone]
    refine bind_ok (a := ⟨⟩) ?_
    rw [← hsave]
    simp [saveRevision, hname]

theorem Activation.run_nameMax (activation : Activation) (nameMax nameMax' : Option ℕ) :
    activation.run { nameMax } = activation.run { nameMax := nameMax' } := by
  have hsend (commands : List ConfigSnapshot) : sendCommands { nameMax } commands =
      sendCommands { nameMax := nameMax' } commands := by
    induction commands with
    | nil => rfl
    | cons _ _ ih => exact congrArg (sendCommand _ _ >>= fun _ => ·) ih
  rw [Activation.run, hsend]
  rfl

theorem AdminOperation.run_limited (hsuffix : operation.suffix = some suffix)
    (hcurrent : s.repository.currentRevisionId = some current)
    (h : operation.run { nameMax := none } s = (.ok response, s')) :
    s'.repository.currentFile = some (current ++ suffix) ∧ ∀ nameMax,
      operation.run { nameMax := some nameMax } s =
        if nameMax < tempNameLength (current ++ suffix) then (.error configStoreError, s)
        else (.ok response, s') := by
  rcases operation.run_cases { nameMax := none } s with ⟨error, hfailed⟩ |
    ⟨call, activation, r, hresolve, hprepare, hextends, hprepared, hactivates⟩
  · rw [hfailed] at h
    nomatch h
  obtain ⟨next, rfl⟩ := operation.resolve_apply hsuffix hresolve
  have htarget := hprepared.target
  rw [LifecycleCall.target, some.injEq, Prod.mk.injEq] at htarget
  obtain ⟨_, _, hcurrent', hsuffix', hid⟩ := hextends next rfl
  cases hcurrent.symm.trans hcurrent'
  cases hsuffix.symm.trans hsuffix'
  rw [← hid]
  refine ⟨?_, fun nameMax => ?_⟩
  · have hran := Activation.ran { nameMax := none } hprepared.planned.planned
      { s with repository := r }
    rw [← hactivates, h] at hran
    cases hran
    rw [htarget.1]
  · have hresolve' := hresolve
    rw [operation.resolve_nameMax none (some nameMax)] at hresolve'
    rw [run, bind_ok (onRepository_eq hresolve'), LifecycleCall.run]
    have hlimited := LifecycleCall.prepare_limited hprepare nameMax
    split_ifs at hlimited ⊢ with hname
    · exact bind_error (onRepository_eq hlimited)
    · rw [bind_ok (onRepository_eq hlimited), ← h, hactivates, activation.run_nameMax]

theorem byteLen_append (s t : Text) : byteLen (s ++ t) = byteLen s + byteLen t := by
  simp [byteLen, encode]

theorem name_too_long_iff (id : Text) : 255 < tempNameLength id ↔ 123 < byteLen id := by
  have hlength : ".toml.tmp".toList.length = 9 := by decide
  unfold tempNameLength
  omega

theorem auditedRun_limited {step : AuditedStep}
    (hcurrent : s.repository.currentFile = some current) (hid : PlainId current)
    (hlength : byteLen current ≤ 123) (hsuffix : step.operation.suffix = some suffix)
    (h : auditedRun .unlimited step s = (.ok response, s')) :
    s'.repository.currentFile = some (current ++ suffix) ∧ PlainId (current ++ suffix) ∧
      auditedRun .actual step s =
        if byteLen current + byteLen suffix ≤ 123 then (.ok response, s')
        else (.error configStoreError, s) := by
  have hrevision : s.repository.currentRevisionId = some current := by
    rw [currentRevisionId, hcurrent, map_some, hid.trim_eq]
  simp only [auditedRun, hrevision] at h ⊢
  cases haudit : lifecycleAuditOperation NameLimits.unlimited.identifierMax step.requestId current
      step.operation with
  | error e =>
    rw [haudit] at h
    cases h
  | ok audit =>
    rw [haudit] at h
    obtain ⟨hfile, hlimited⟩ := AdminOperation.run_limited hsuffix hrevision h
    refine ⟨hfile, hid.append (lifecycleAuditOperation_suffix haudit hsuffix), ?_⟩
    have hactual : lifecycleAuditOperation NameLimits.actual.identifierMax step.requestId current
        step.operation = .ok audit :=
      lifecycleAuditOperation_limited hid (hlength.trans (by decide)) haudit
    rw [hactual]
    refine (hlimited 255).trans ?_
    simp only [name_too_long_iff, byteLen_append]
    split_ifs
    · omega
    · rfl
    · rfl
    · omega

theorem allSucceed_iff {steps : List AuditedStep}
    (hcurrent : s.repository.currentFile = some current) (hid : PlainId current)
    (hlength : byteLen current ≤ 123)
    (hsaving : ∀ step ∈ steps, step.operation.suffix.isSome = true)
    (h : allSucceed .unlimited steps s = true) :
    allSucceed .actual steps s = true ↔
      byteLen current + (steps.map AuditedStep.suffixBytes).sum ≤ 123 := by
  induction steps generalizing s current with
  | nil => simpa [allSucceed] using hlength
  | cons step _ ih =>
    obtain ⟨suffix, hsuffix⟩ := isSome_iff_exists.mp (hsaving step mem_cons_self)
    have hbytes : step.suffixBytes = byteLen suffix := by
      rw [AuditedStep.suffixBytes, hsuffix, getD_some]
    rcases hrun : auditedRun .unlimited step s with ⟨_ | _, _⟩
    · simp [allSucceed, hrun] at h
    · simp only [allSucceed, hrun] at h
      obtain ⟨hfile, hplain, hactual⟩ := auditedRun_limited hcurrent hid hlength hsuffix hrun
      simp only [allSucceed, hactual, map_cons, sum_cons, hbytes]
      split_ifs with hfits
      · rw [ih hfile hplain (by rwa [byteLen_append])
          (fun other hother => hsaving other (mem_cons_of_mem _ hother)) h, byteLen_append,
          Nat.add_assoc]
      · simp only [false_iff]
        omega

/-- A history of applies and proxy-host mutations from the imported seed whose steps all succeed
but for the length of names: under the limits it succeeds exactly if the last id has at most 123
bytes, which is as long as its hexadecimal file name allows. -/
theorem revision_ids_fit_iff (s : LifecycleState) (steps : List AuditedStep)
    (hseed : s.repository.currentFile = some "bootstrap-seed".toList)
    (hsaving : ∀ step ∈ steps, step.operation.suffix.isSome = true)
    (h : allSucceed .unlimited steps s = true) :
    allSucceed .actual steps s = true ↔ 14 + (steps.map AuditedStep.suffixBytes).sum ≤ 123 :=
  allSucceed_iff hseed ⟨by decide, by decide⟩ (by decide) hsaving h

def repeatedApply (count : ℕ) : List AuditedStep :=
  replicate count ⟨.applyConfigSource "schema_version = 1".toList, "request".toList⟩

theorem eight_applies_fit : allSucceed .actual (repeatedApply 8) seedState = true := by
  refine (revision_ids_fit_iff seedState (repeatedApply 8) rfl (by decide) ?_).mpr ?_
  · decide +kernel
  · decide +kernel

/-- The ninth apply fails, and only for the length of its id. -/
theorem ninth_apply_fails :
    allSucceed .actual (repeatedApply 8) seedState = true ∧
      allSucceed .unlimited (repeatedApply 9) seedState = true ∧
      allSucceed .actual (repeatedApply 9) seedState = false := by
  decide +kernel

end Growth

end EdgeProxy

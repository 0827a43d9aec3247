import EdgeProxy.Admin.Server
import EdgeProxy.Audit.Incomplete

/-! # Audit admission

Mutations are admitted while the admission state is healthy. At startup
`initialize_audit_ledger` verifies the ledger and reconciles the operations that an earlier process
left incomplete; afterwards every append is made by `begin_audit_operation`,
`complete_audit_operation` or `record_security_observation`. The state below has two history
variables: what the writer answered, and the admission states with the ledger for which they were
published.
-/

namespace EdgeProxy

open Rust Action FileAuditLedger

inductive AuditAdmissionEvent where
  | beginVerification | verificationPassed | incompleteOperationsFound | verificationFailed
  | appendFailed | beginReconciliation | reconciliationCompleted | reconciliationUnknown

def AuditAdmissionState.transition :
    AuditAdmissionState → AuditAdmissionEvent → Except AppError AuditAdmissionState
  | .starting, .beginVerification => .ok .verifying
  | .verifying, .verificationPassed => .ok .healthy
  | .verifying, .incompleteOperationsFound => .ok .reconciling
  | .verifying, .verificationFailed => .ok .failedClosed
  | .healthy, .appendFailed => .ok .degraded
  | .degraded, .beginReconciliation => .ok .reconciling
  | .reconciling, .reconciliationCompleted => .ok .healthy
  | .reconciling, .reconciliationUnknown => .ok .failedClosed
  | _, _ => .error ⟨.auditRecordInvalid, "AUDIT_STATE_TRANSITION_INVALID"⟩

inductive AuditAuthoritativeFact where
  | committed | notCommitted | unknown
  deriving DecidableEq

def AuditAuthoritativeFact.outcome : AuditAuthoritativeFact → AuditOutcome
  | committed => .reconciledCommitted
  | notCommitted => .reconciledNotCommitted
  | unknown => .reconciliationUnknown

/-- `AuditAuthoritativeStateInspector::inspect`. -/
abbrev Inspector :=
  AuditOperationId → AuditAction → AuditTargetId → Except AppError AuditAuthoritativeFact

structure AuditVerificationReport where
  head : AuditLedgerHead
  recordCount : ℕ
  segmentCount : ℕ
  incompleteOperationCount : ℕ

def FileAuditLedger.verify (ledger : FileAuditLedger) : Except AppError AuditVerificationReport :=
  if 2 ^ 16 ≤ ledger.segments.length then
    .error ⟨.auditCapacityReached, "audit segment count exceeds report bounds"⟩
  else
    .ok
      { head := ledger.head
        recordCount := ledger.records.length
        segmentCount := ledger.segments.length
        incompleteOperationCount := ledger.incompleteOperations.length % 2 ^ 16 }

/-- A file operation that fails, and what the append has done to the store by then. -/
structure IoFault where
  error : AppError
  left : LedgerStore

structure AuditedLedger where
  store : LedgerStore
  admission : AuditAdmissionState
  answers : List (AuditRecord × Except AppError AuditLedgerHead) := []
  published : List (AuditAdmissionState × FileAuditLedger) := []

abbrev AuditedAction (α : Type) := Action AuditedLedger AppError α

namespace FileAuditLedger

def Operation.expect : Operation → StoreAction PUnit
  | intent _ | securityObservation _ => pure ⟨⟩
  | terminal _ expected | reconciliation _ expected => expectHead expected

/-- An append in which a file operation fails: whichever it is, the ledger is degraded. -/
def Operation.interrupted (options : AuditLedgerOptions) (fault : IoFault) (operation : Operation) :
    StoreAction AuditLedgerHead := do
  operation.expect
  ensureWritable
  let _ ← liftLedger (checkRecord options operation.record)
  fun _ => (.error fault.error, { fault.left with ledger.state := .degraded })

def Operation.runWith (options : AuditLedgerOptions) (fault : Option IoFault)
    (operation : Operation) : StoreAction AuditLedgerHead :=
  match fault with
  | none => operation.run options
  | some fault => operation.interrupted options fault

end FileAuditLedger

namespace AuditedLedger

section Calls

variable (options : AuditLedgerOptions) (fault : Option IoFault)

def replaceState (admission : AuditAdmissionState) : AuditedAction PUnit :=
  modify fun audit =>
    { audit with
      admission := admission
      published := audit.published ++ [(admission, audit.store.ledger)] }

def appendTo (operation : Operation) : AuditedAction AuditLedgerHead := fun audit =>
  match operation.runWith options fault audit.store with
  | (answer, store) =>
    (answer, { audit with store, answers := audit.answers ++ [(operation.record, answer)] })

def ports : AuditLedgerPorts AuditedLedger AuditLedgerHead where
  state := AuditedLedger.admission
  replaceState admission audit := (replaceState admission audit).2
  appendIntent record := appendTo options fault (.intent record)
  appendTerminal record expected := appendTo options fault (.terminal record expected)

end Calls

section Startup

variable (options : AuditLedgerOptions)

def refuse {α : Type} (admission : AuditAdmissionState) (error : AppError) : AuditedAction α := do
  replaceState admission
  fail error

def liftAudit {α : Type} (result : Except AppError α) : AuditedAction α := fun audit =>
  (result, audit)

structure ReconcileAuditOutput where
  head : AuditLedgerHead
  fact : AuditAuthoritativeFact
  admissionState : AuditAdmissionState

def reconciliationOf (incomplete : AuditRecord) (fact : AuditAuthoritativeFact) : AuditRecord :=
  { incomplete with recordKind := .reconciliation, outcome := some fact.outcome }

variable (faults : ℕ → Option IoFault) (inspect : ℕ → Inspector) (fault : Option IoFault)

def reconcileIncompleteAudit (inspect : Inspector)
    (incomplete : AuditRecord) (expectedHead : AuditLedgerHead) :
    AuditedAction ReconcileAuditOutput := do
  if incomplete.recordKind ≠ .intent then
    fail ⟨.auditRecordInvalid, "only incomplete intent records can be reconciled"⟩
  else
    let fact ← liftAudit
      (inspect incomplete.context.operationId incomplete.action incomplete.targetId)
    let head ← appendTo options fault
      (.reconciliation (reconciliationOf incomplete fact) expectedHead)
    let state := if fact = .unknown then .failedClosed else .healthy
    replaceState state
    return ⟨head, fact, state⟩

/-- One turn of the loop over the incomplete operations, `count` of which were reconciled. -/
def reconcileTurn (inspect : Inspector) (record : AuditRecord)
    (count : ℕ) : AuditedAction PUnit := fun audit =>
  match reconcileIncompleteAudit options fault inspect record audit.store.ledger.head audit with
  | (.error error, audit) => refuse .failedClosed error audit
  | (.ok output, audit) =>
    if 2 ^ 16 ≤ count + 1 then
      (.error ⟨.auditCapacityReached, "reconciled audit operation count exceeds startup bound"⟩,
        audit)
    else if output.fact = .unknown then
      refuse .failedClosed ⟨.auditReconciliationUnknown,
        "audit reconciliation requires operator investigation"⟩ audit
    else replaceState .reconciling audit

/-- The inspector and the files may answer each turn as they like. -/
def reconcileAll (faults : ℕ → Option IoFault) (inspect : ℕ → Inspector) :
    List AuditRecord → ℕ → AuditedAction ℕ
  | [], count => pure count
  | record :: records, count => do
    reconcileTurn options (faults count) (inspect count) record count
    reconcileAll faults inspect records (count + 1)

structure InitializeAuditLedgerOutput where
  head : AuditLedgerHead
  verifiedRecordCount : ℕ
  incompleteCount : ℕ
  reconciledCount : ℕ
  admissionState : AuditAdmissionState

def reconcileVerified (report : AuditVerificationReport) (incomplete : List AuditRecord) :
    AuditedAction InitializeAuditLedgerOutput := do
  if 2 ^ 16 ≤ incomplete.length then
    fail ⟨.auditCapacityReached, "incomplete audit operation count exceeds startup bound"⟩
  else if incomplete = [] then
    let state ← liftAudit (AuditAdmissionState.verifying.transition .verificationPassed)
    replaceState state
    return ⟨report.head, report.recordCount, incomplete.length, 0, state⟩
  else
    let state ← liftAudit (AuditAdmissionState.verifying.transition .incompleteOperationsFound)
    replaceState state
    let reconciledCount ← reconcileAll options faults inspect incomplete 0
    let state ← liftAudit (state.transition .reconciliationCompleted)
    replaceState state
    let audit ← read
    return ⟨audit.store.ledger.head, report.recordCount, incomplete.length, reconciledCount, state⟩

def initializeAuditLedger : AuditedAction InitializeAuditLedgerOutput := do
  let state ← liftAudit (AuditAdmissionState.starting.transition .beginVerification)
  replaceState state
  let audit ← read
  match audit.store.ledger.verify with
  | .error error => refuse .failedClosed error
  | .ok report =>
    if audit.store.ledger.unresolvedReconciliations ≠ [] then
      refuse .failedClosed ⟨.auditReconciliationUnknown,
        "audit ledger contains unresolved reconciliation records"⟩
    else
      reconcileVerified options faults inspect report audit.store.ledger.incompleteOperations

end Startup

section Clean

variable {options : AuditLedgerOptions} {fault : Option IoFault} {operation : Operation}
  {P : LedgerRecord → Prop} {floor : ℕ} {audit audit' : AuditedLedger} {head : AuditLedgerHead}

theorem interrupted_ne_ok {store store' : LedgerStore} {fault : IoFault} :
    operation.interrupted options fault store ≠ (.ok head, store') := by
  intro h
  obtain ⟨_, _, _, h⟩ := Action.bind_eq_ok.mp h
  obtain ⟨_, _, _, h⟩ := Action.bind_eq_ok.mp h
  obtain ⟨_, _, _, h⟩ := Action.bind_eq_ok.mp h
  cases h

theorem appendTo_eq_ok (h : appendTo options fault operation audit = (.ok head, audit')) :
    ∃ store', fault = none ∧ append options operation.record audit.store = (.ok head, store') ∧
      audit' = { audit with
        store := store', answers := audit.answers ++ [(operation.record, .ok head)] } := by
  rw [appendTo] at h
  rcases hrun : operation.runWith options fault audit.store with ⟨_, store'⟩
  rw [hrun] at h
  cases h
  rcases fault with _ | fault
  · exact ⟨store', rfl, Operation.append_of_run hrun, rfl⟩
  · exact absurd hrun interrupted_ne_ok

structure Clean (P : LedgerRecord → Prop) (floor : ℕ) (audit : AuditedLedger) : Prop where
  tracks : Tracks P floor audit.store
  takes : Takes audit.store.ledger.state
  answered : ∀ answer ∈ audit.answers, ∃ head, answer.2 = .ok head

theorem Clean.appended (h : Clean P floor audit)
    (happend : appendTo options fault operation audit = (.ok head, audit'))
    (hnew : ∀ item : LedgerRecord, item.record = operation.record →
      operation.record.recordKind = .intent → floor < item.sequence → P item) :
    Clean (fun item => P item ∧ ¬ Closes operation.record item.operationId) floor audit' := by
  obtain ⟨_, rfl, hstore, rfl⟩ := appendTo_eq_ok happend
  have hends := (holds_append hnew options).ends h.tracks
  rw [hstore] at hends
  refine ⟨hends.1, .inr (.inl hends.2), fun answer hanswer => ?_⟩
  rcases List.mem_append.mp hanswer with hanswer | hanswer
  · exact h.answered answer hanswer
  · rw [List.mem_singleton.mp hanswer]
    exact ⟨head, rfl⟩

theorem Clean.mono {Q : LedgerRecord → Prop} (h : Clean P floor audit)
    (hP : ∀ item, P item → Q item) : Clean Q floor audit :=
  ⟨h.tracks.mono fun item _ => hP item, h.takes, h.answered⟩

theorem Clean.replaced (h : Clean P floor audit) (admission : AuditAdmissionState) :
    Clean P floor (replaceState admission audit).2 := ⟨h.tracks, h.takes, h.answered⟩

end Clean

variable {head : AuditLedgerHead}

section Initialize

variable {options : AuditLedgerOptions} {floor : ℕ} {audit : AuditedLedger}
  {fault : Option IoFault} {inspect : Inspector} {record : AuditRecord}
  {faults : ℕ → Option IoFault} {inspects : ℕ → Inspector}

/-- What is published healthy is a ledger that takes records and has no incomplete operation. -/
def PublishedSound (audit : AuditedLedger) : Prop :=
  ∀ entry ∈ audit.published, entry.1 = .healthy →
    entry.2.state ≠ .degraded ∧ entry.2.incompleteOperations = []

theorem PublishedSound.replaced (h : PublishedSound audit) {admission : AuditAdmissionState}
    (hsound : admission = .healthy → audit.store.ledger.state ≠ .degraded ∧
      audit.store.ledger.incompleteOperations = []) :
    PublishedSound (replaceState admission audit).2 := by
  intro entry hentry
  rcases List.mem_append.mp hentry with hentry | hentry
  · exact h entry hentry
  · rw [List.mem_singleton.mp hentry]
    exact hsound

theorem refuse_apply {α : Type} (admission : AuditAdmissionState) (error : AppError) :
    (refuse admission error : AuditedAction α) audit =
      (.error error, (replaceState admission audit).2) := rfl

variable {count : ℕ} {records : List AuditRecord} {P : LedgerRecord → Prop}
  {incomplete : List AuditRecord}

theorem reconcileTurn_cases (options : AuditLedgerOptions) (fault : Option IoFault)
    (inspect : Inspector) (audit : AuditedLedger) (hintent : record.recordKind = .intent)
    (hcount : count + 1 < 2 ^ 16) :
    (∃ error audit', reconcileTurn options fault inspect record count audit =
      (.error error, audit') ∧
        audit'.admission = .failedClosed ∧ (PublishedSound audit → PublishedSound audit')) ∨
      ∃ fact head reconciled,
        inspect record.context.operationId record.action record.targetId = .ok fact ∧
        fact ≠ .unknown ∧
        appendTo options fault (.reconciliation (reconciliationOf record fact)
          audit.store.ledger.head) audit = (.ok head, reconciled) ∧
        reconcileTurn options fault inspect record count audit = replaceState .reconciling
            (replaceState .healthy reconciled).2 := by
  have hfailed {audit' : AuditedLedger} (h : PublishedSound audit') :
      PublishedSound (replaceState .failedClosed audit').2 := h.replaced nofun
  have hpublished {operation : Operation} {answer : Except AppError AuditLedgerHead}
      {audit' : AuditedLedger} (h : appendTo options fault operation audit = (answer, audit')) :
      audit.published = audit'.published := by
    rw [← (Prod.mk.inj h).2]
  simp only [reconcileTurn, reconcileIncompleteAudit, if_neg (not_not.mpr hintent), bind_apply,
    liftAudit]
  rcases inspect record.context.operationId record.action record.targetId with error | fact
  · exact .inl ⟨error, _, refuse_apply _ _, rfl, hfailed⟩
  simp only
  rcases happend : appendTo options fault (.reconciliation (reconciliationOf record fact)
    audit.store.ledger.head) audit with ⟨error | head, reconciled⟩
  · refine .inl ⟨error, _, refuse_apply _ _, rfl, fun h => hfailed ?_⟩
    rwa [PublishedSound, ← hpublished happend]
  · by_cases hunknown : fact = .unknown
    · simp only [hunknown, replaceState, modify_apply, pure_apply, if_true,
        if_neg (not_le.mpr hcount)]
      refine .inl ⟨_, _, refuse_apply _ _, rfl, fun h => hfailed (hfailed ?_)⟩
      rwa [PublishedSound, ← hpublished happend]
    · refine .inr ⟨fact, head, reconciled, rfl, hunknown, happend, ?_⟩
      simp only [hunknown, replaceState, modify_apply, pure_apply, if_false,
        if_neg (not_le.mpr hcount)]

def OpenIn (records : List AuditRecord) (item : LedgerRecord) : Prop :=
  ∃ record ∈ records, record.context.operationId = item.operationId

theorem Clean.reconciled {fact : AuditAuthoritativeFact} {expected : AuditLedgerHead}
    {reconciled : AuditedLedger} (h : Clean (OpenIn (record :: records)) floor audit)
    (happend : appendTo options fault (.reconciliation (reconciliationOf record fact) expected)
      audit = (.ok head, reconciled)) :
    Clean (fun item => OpenIn records item ∧ record.context.operationId ≠ item.operationId) floor
      reconciled := by
  have hclean := h.appended happend (by simp [Operation.record, reconciliationOf])
  refine hclean.mono ?_
  rintro item ⟨⟨other, hother, hid⟩, hopen⟩
  have hne : record.context.operationId ≠ item.operationId := fun hsame =>
    hopen ⟨.inr rfl, hsame⟩
  rcases List.mem_cons.mp hother with rfl | hother
  · exact absurd hid hne
  · exact ⟨⟨other, hother, hid⟩, hne⟩

theorem Clean.state_ne_degraded (h : Clean P floor audit) :
    audit.store.ledger.state ≠ .degraded := by
  rcases h.takes with h | h | h
  · rw [h]
    decide
  · rw [h]
    decide
  · rw [h]
    decide

theorem Clean.incompleteOperations_eq (h : Clean P floor audit) (hP : ∀ item, ¬ P item) :
    audit.store.ledger.incompleteOperations = [] :=
  incompleteOperations_eq_nil_iff.mpr
    (List.eq_nil_iff_forall_not_mem.mpr fun item hitem => hP item (h.tracks.unclosed item hitem))

/-- What an earlier process left incomplete is one operation, or the inspector does not confirm the
first of them. -/
def Settles (inspect : Inspector) (incomplete : List AuditRecord) : Prop :=
  (∀ record ∈ incomplete, ∀ other ∈ incomplete,
    record.context.operationId = other.context.operationId) ∨
  ∀ record ∈ incomplete.head?, ∀ fact,
    inspect record.context.operationId record.action record.targetId = .ok fact → fact = .unknown

theorem reconcileAll_ends (hintents : ∀ record ∈ records, record.recordKind = .intent)
    (hcount : count + records.length < 2 ^ 16) (hadmission : audit.admission ≠ .healthy)
    (h : Clean (OpenIn records) floor audit) :
    let sound audit' := Settles (inspects count) records ∧ PublishedSound audit →
      PublishedSound audit'
    Ends (fun _ audit' => Clean (fun _ => False) floor audit' ∧ sound audit')
      (fun _ audit' => audit'.admission ≠ .healthy ∧ sound audit')
      (reconcileAll options faults inspects records count audit) := by
  induction records generalizing count audit with
  | nil => exact ⟨h.mono (by simp [OpenIn]), fun hsound => hsound.2⟩
  | cons record records ih =>
    rw [List.length_cons] at hcount
    rcases reconcileTurn_cases options (faults count) (inspects count) audit
      (hintents record List.mem_cons_self) (show count + 1 < 2 ^ 16 by omega) with
        ⟨_, _, hturn, hfailed, hsound⟩ | ⟨fact, head, reconciled, hfact, hknown, happend, hturn⟩
    · rw [reconcileAll, bind_error hturn]
      exact ⟨by rw [hfailed]; decide, fun hpublished => hsound hpublished.2⟩
    · rw [reconcileAll, bind_ok hturn]
      have hclean := h.reconciled happend
      have hends : Ends _ _ (reconcileAll options faults inspects records (count + 1)
          (replaceState .reconciling (replaceState .healthy reconciled).2).2) :=
        ih (fun record hrecord => hintents record (List.mem_cons_of_mem _ hrecord)) (by omega)
          (by rintro ⟨⟩) ((hclean.mono fun item hitem => hitem.1).replaced _ |>.replaced _)
      have hnext : Settles (inspects count) (record :: records) ∧ PublishedSound audit →
          Settles (inspects (count + 1)) records ∧ PublishedSound (replaceState .reconciling
            (replaceState .healthy reconciled).2).2 := by
        rintro ⟨hsame | hunconfirmed, hpublished⟩
        · have hnone : reconciled.store.ledger.incompleteOperations = [] := by
            refine hclean.incompleteOperations_eq ?_
            rintro item ⟨⟨other, hother, hid⟩, hne⟩
            refine hne ?_
            rw [← hid, hsame record List.mem_cons_self other (List.mem_cons_of_mem _ hother)]
          have hbefore : PublishedSound reconciled := by
            obtain ⟨_, _, _, rfl⟩ := appendTo_eq_ok happend
            exact hpublished
          refine ⟨.inl fun record hrecord other hother => ?_,
            (hbefore.replaced fun _ => ⟨hclean.state_ne_degraded, hnone⟩).replaced nofun⟩
          exact hsame record (List.mem_cons_of_mem _ hrecord) other (List.mem_cons_of_mem _ hother)
        · exact absurd (hunconfirmed record rfl fact hfact) hknown
      exact ends_mono hends (fun _ _ hafter => ⟨hafter.1, hafter.2 ∘ hnext⟩)
        fun _ _ hafter => ⟨hafter.1, hafter.2 ∘ hnext⟩

def starting (opened : LedgerStore) : AuditedLedger where
  store := opened
  admission := .starting

theorem recordKind_of_mem_incompleteOperations {ledger : FileAuditLedger} :
    ∀ record ∈ ledger.incompleteOperations, record.recordKind = .intent := by
  intro record hrecord
  obtain ⟨_, _, _, hkind, _⟩ := mem_incompleteOperations.mp hrecord
  exact hkind

variable {opened : LedgerStore}

theorem clean_verifying (hordered : Ordered opened.ledger) (htakes : Takes opened.ledger.state) :
    Clean (OpenIn opened.ledger.incompleteOperations) opened.ledger.head.sequence
      (replaceState .verifying (starting opened)).2 := by
  have htracks : Tracks (OpenIn opened.ledger.incompleteOperations) opened.ledger.head.sequence
      opened :=
    ⟨hordered, le_rfl, fun item hitem => ⟨item.record, record_mem_incompleteOperations hitem, rfl⟩⟩
  exact ⟨htracks, htakes, fun _ hanswer => absurd hanswer List.not_mem_nil⟩

theorem reconcileVerified_eq (report : AuditVerificationReport)
    (hfew : ¬ 2 ^ 16 ≤ incomplete.length) (hsome : incomplete ≠ []) :
    reconcileVerified options faults inspects report incomplete audit =
      match reconcileAll options faults inspects incomplete 0
          (replaceState .reconciling audit).2 with
      | (.error error, audit) => (.error error, audit)
      | (.ok count, audit) =>
        (.ok ⟨audit.store.ledger.head, report.recordCount, incomplete.length, count, .healthy⟩,
          (replaceState .healthy audit).2) := by
  rw [reconcileVerified, if_neg hfew, if_neg hsome]
  change (reconcileAll options faults inspects incomplete 0 >>= _) (replaceState _ audit).2 = _
  rw [bind_apply]
  rcases reconcileAll options faults inspects incomplete 0 (replaceState .reconciling audit).2
    with ⟨error | count, audit'⟩
  · rfl
  · rfl

theorem reconcileVerified_ends (report : AuditVerificationReport)
    (hintents : ∀ record ∈ incomplete, record.recordKind = .intent)
    (h : Clean (OpenIn incomplete) floor audit) (hadmission : audit.admission ≠ .healthy)
    (hpublished : PublishedSound audit) :
    let sound audit' := Settles (inspects 0) incomplete → PublishedSound audit'
    Ends
      (fun output audit => (output.admissionState = .healthy ∧ Clean (fun _ => False) floor audit) ∧
        sound audit)
      (fun _ audit => audit.admission ≠ .healthy ∧ sound audit)
      (reconcileVerified options faults inspects report incomplete audit) := by
  by_cases hmany : 2 ^ 16 ≤ incomplete.length
  · rw [reconcileVerified, if_pos hmany]
    exact ⟨hadmission, fun _ => hpublished⟩
  · by_cases hnil : incomplete = []
    · have hclean : Clean (fun _ => False) floor audit := h.mono (by simp [hnil, OpenIn])
      rw [reconcileVerified, if_neg hmany, if_pos hnil]
      refine ⟨⟨rfl, hclean.replaced _⟩, fun _ => hpublished.replaced fun _ => ?_⟩
      exact ⟨hclean.state_ne_degraded, hclean.incompleteOperations_eq fun _ => id⟩
    · have hends : Ends _ _ (reconcileAll options faults inspects incomplete 0
          (replaceState .reconciling audit).2) :=
        reconcileAll_ends hintents (by omega) (by rintro ⟨⟩) (h.replaced .reconciling)
      have hbegun : PublishedSound (replaceState .reconciling audit).2 := hpublished.replaced nofun
      rw [reconcileVerified_eq report hmany hnil]
      revert hends
      rcases reconcileAll options faults inspects incomplete 0 (replaceState .reconciling audit).2
        with ⟨error | count, audit'⟩
      · exact fun ⟨hadmission, hsound⟩ => ⟨hadmission, fun hsettles => hsound ⟨hsettles, hbegun⟩⟩
      · rintro ⟨hclean, hsound⟩
        refine ⟨⟨rfl, Clean.replaced hclean _⟩, fun hsettles => ?_⟩
        exact (hsound ⟨hsettles, hbegun⟩).replaced fun _ =>
          ⟨hclean.state_ne_degraded, hclean.incompleteOperations_eq fun _ => id⟩

theorem initializeAuditLedger_cases (options : AuditLedgerOptions) (faults : ℕ → Option IoFault)
    (inspects : ℕ → Inspector) (opened : LedgerStore) :
    (∃ error, initializeAuditLedger options faults inspects (starting opened) =
      refuse .failedClosed error (replaceState .verifying (starting opened)).2) ∨
    ∃ report, initializeAuditLedger options faults inspects (starting opened) =
      reconcileVerified options faults inspects report opened.ledger.incompleteOperations
        (replaceState .verifying (starting opened)).2 := by
  have hbegun : initializeAuditLedger options faults inspects (starting opened) =
      (match opened.ledger.verify with
      | .error error => refuse .failedClosed error
      | .ok report =>
        if opened.ledger.unresolvedReconciliations ≠ [] then
          refuse .failedClosed ⟨.auditReconciliationUnknown,
            "audit ledger contains unresolved reconciliation records"⟩
        else reconcileVerified options faults inspects report opened.ledger.incompleteOperations)
        (replaceState .verifying (starting opened)).2 := rfl
  rw [hbegun]
  rcases opened.ledger.verify with error | report
  · exact .inl ⟨error, rfl⟩
  · simp only
    split_ifs
    · exact .inl ⟨_, rfl⟩
    · exact .inr ⟨report, rfl⟩

theorem initializeAuditLedger_ends (hordered : Ordered opened.ledger)
    (htakes : Takes opened.ledger.state) :
    let sound audit := Settles (inspects 0) opened.ledger.incompleteOperations →
      PublishedSound audit
    Ends
      (fun output audit => (output.admissionState = .healthy ∧
        Clean (fun _ => False) opened.ledger.head.sequence audit) ∧ sound audit)
      (fun _ audit => audit.admission ≠ .healthy ∧ sound audit)
      (initializeAuditLedger options faults inspects (starting opened)) := by
  have hnone : PublishedSound (starting opened) := fun _ hentry => absurd hentry List.not_mem_nil
  have hverifying : PublishedSound (replaceState .verifying (starting opened)).2 :=
    hnone.replaced nofun
  rcases initializeAuditLedger_cases options faults inspects opened with ⟨_, h⟩ | ⟨report, h⟩
  · rw [h]
    exact ⟨by rintro ⟨⟩, fun _ => hverifying.replaced nofun⟩
  · rw [h]
    exact reconcileVerified_ends report recordKind_of_mem_incompleteOperations
      (clean_verifying hordered htakes) (by rintro ⟨⟩) hverifying

end Initialize

section Runs

inductive AuditCall where
  | begin (fault : Option IoFault) (input : AuditPersistentOperationInput)
  | complete (fault : Option IoFault) (input : CompleteAuditOperationInput AuditLedgerHead)
  | observe (fault : Option IoFault) (input : AuditSecurityObservationInput)

def AuditCall.run (options : AuditLedgerOptions) : AuditCall → AuditedLedger → AuditedLedger
  | begin fault input, audit => (beginAuditOperation (ports options fault) input audit).2
  | complete fault input, audit => (completeAuditOperation (ports options fault) input audit).2
  | observe fault input, audit => (recordSecurityObservation (ports options fault)
      (fun record => appendTo options fault (.securityObservation record)) input audit).2

inductive Serves (options : AuditLedgerOptions) (faults : ℕ → Option IoFault)
    (inspects : ℕ → Inspector) (opened : LedgerStore)
    (allowed : AuditedLedger → AuditCall → Prop) : AuditedLedger → Prop
  | started {output : InitializeAuditLedgerOutput} {audit : AuditedLedger} :
      initializeAuditLedger options faults inspects (starting opened) = (.ok output, audit) →
      Serves options faults inspects opened allowed
        { audit with admission := output.admissionState }
  | called {audit : AuditedLedger} (call : AuditCall) :
      Serves options faults inspects opened allowed audit → allowed audit call →
      Serves options faults inspects opened allowed (call.run options audit)

/-- No file operation fails for an intent, and the ledger has room for it. -/
def IntentsFit (options : AuditLedgerOptions) (audit : AuditedLedger) : AuditCall → Prop
  | .begin fault input => audit.admission = .healthy → fault = none ∧
      HasRoom options audit.store.ledger (recordForOperation input .intent none none none)
  | .complete _ _ | .observe _ _ => True

/-- An operation of an earlier process is incomplete: no record has closed an intent that stood in
the ledger when it was opened. -/
def LeftOver (opened ledger : FileAuditLedger) : Prop :=
  ∃ item ∈ unclosed ledger.records, item.sequence ≤ opened.head.sequence

variable {options : AuditLedgerOptions} {faults : ℕ → Option IoFault} {inspects : ℕ → Inspector}
  {opened : LedgerStore} {audit : AuditedLedger} {floor : ℕ} {fault : Option IoFault}
  {operation : Operation}

def Own (floor : ℕ) (item : LedgerRecord) : Prop := floor < item.sequence

theorem Clean.own_appended {audit' : AuditedLedger} (h : Clean (Own floor) floor audit)
    (happend : appendTo options fault operation audit = (.ok head, audit')) :
    Clean (Own floor) floor audit' :=
  (h.appended happend fun _ _ _ hfloor => hfloor).mono fun _ hitem => hitem.1

theorem Clean.of_appendTo {audit' : AuditedLedger}
    (h : audit.admission = .healthy → Clean (Own floor) floor audit)
    (happend : appendTo options fault operation audit = (.ok head, audit'))
    (hhealthy : audit'.admission = .healthy) : Clean (Own floor) floor audit' := by
  have hsame : audit'.admission = audit.admission := by rw [← (Prod.mk.inj happend).2]
  exact (h (hsame ▸ hhealthy)).own_appended happend

theorem clean_run (h : audit.admission = .healthy → Clean (Own floor) floor audit)
    {call : AuditCall} (hfits : IntentsFit options audit call) :
    (call.run options audit).admission = .healthy →
      Clean (Own floor) floor (call.run options audit) := by
  cases call with
  | begin fault input =>
    change (beginAuditOperation (ports options fault) input audit).2.admission = .healthy → _
    rw [AuditCall.run, beginAuditOperation]
    split_ifs with hblocked
    · exact h
    · intro _
      have hhealthy := not_not.mp hblocked
      obtain ⟨rfl, hroom⟩ := hfits hhealthy
      obtain ⟨head, _, happend⟩ := hroom.append_eq (h hhealthy).takes
      have hintent : ∃ audit', appendTo options none
          (.intent (recordForOperation input .intent none none none)) audit =
            (.ok head, audit') := by
        rw [appendTo, Operation.runWith, Operation.run, happend]
        exact ⟨_, rfl⟩
      obtain ⟨audit', hintent⟩ := hintent
      rw [show (ports options none).appendIntent _ audit = _ from hintent]
      exact (h hhealthy).own_appended hintent
  | complete fault input =>
    change (completeAuditOperation (ports options fault) input audit).2.admission = .healthy → _
    rw [AuditCall.run, completeAuditOperation]
    generalize input.terminal = terminal
    rcases input.effectState
    all_goals rcases input.errorCode with _ | code
    · rcases happend : (ports options fault).appendTerminal terminal input.expectedHead audit with
        ⟨_ | head, audit'⟩
      · rintro ⟨⟩
      · exact Clean.of_appendTo h happend
    · exact h
    · exact h
    · rcases happend : (ports options fault).appendTerminal terminal input.expectedHead audit with
        ⟨_ | head, audit'⟩
      · rintro ⟨⟩
      · exact Clean.of_appendTo h happend
  | observe fault input =>
    change (recordSecurityObservation (ports options fault) _ input audit).2.admission =
      .healthy → _
    rw [AuditCall.run, recordSecurityObservation]
    split_ifs
    · exact h
    · exact h
    · rcases happend : appendTo options fault (.securityObservation input.record) audit with
        ⟨_ | head, audit'⟩
      · rintro ⟨⟩
      · exact Clean.of_appendTo h happend

theorem Serves.clean (hordered : Ordered opened.ledger) (htakes : Takes opened.ledger.state)
    (h : Serves options faults inspects opened (IntentsFit options) audit) :
    audit.admission = .healthy →
      Clean (Own opened.ledger.head.sequence) opened.ledger.head.sequence audit := by
  induction h with
  | started hstartup =>
    intro _
    have hends : Ends _ _ (initializeAuditLedger options faults inspects (starting opened)) :=
      initializeAuditLedger_ends hordered htakes
    rw [hstartup] at hends
    obtain ⟨⟨_, hclean⟩, _⟩ := hends
    exact ⟨hclean.tracks.mono fun _ _ => False.elim, hclean.takes, hclean.answered⟩
  | called _ _ hfits ih => exact clean_run ih hfits

/-- A process whose intents are all appended, and which finds one operation incomplete or none that
the inspector confirms: it publishes the healthy state only for a ledger without incomplete
operations, a startup that fails does not leave it, and while it lasts the ledger takes records,
nothing is left over from an earlier process and no append has failed. -/
theorem healthy_only_when_sound {options : AuditLedgerOptions} {faults : ℕ → Option IoFault}
    {inspects : ℕ → Inspector} {directory : Directory} {opened : LedgerStore}
    (hopen : openLedger options directory = (.ok opened.ledger, opened.directory))
    (hsettles : Settles (inspects 0) opened.ledger.incompleteOperations) :
    (∀ error audit, initializeAuditLedger options faults inspects (starting opened) =
      (.error error, audit) → audit.admission ≠ .healthy) ∧
    (∀ entry ∈ (initializeAuditLedger options faults inspects (starting opened)).2.published,
      entry.1 = .healthy → entry.2.state ≠ .degraded ∧ entry.2.incompleteOperations = []) ∧
    ∀ audit, Serves options faults inspects opened (IntentsFit options) audit →
      audit.admission = .healthy → audit.store.ledger.state ≠ .degraded ∧
        ¬ LeftOver opened.ledger audit.store.ledger ∧
        ∀ answer ∈ audit.answers, ∃ head, answer.2 = .ok head := by
  obtain ⟨hordered, htakes⟩ := openLedger_ordered hopen
  have hends : Ends _ _ (initializeAuditLedger options faults inspects (starting opened)) :=
    initializeAuditLedger_ends hordered htakes
  refine ⟨fun error audit herror => ?_, ?_, fun audit hserves hhealthy => ?_⟩
  · rw [herror] at hends
    exact hends.1
  · exact state_of_ends (P := PublishedSound) (ends_mono hends (fun _ _ h => h.2 hsettles)
      fun _ _ h => h.2 hsettles)
  · have hclean := hserves.clean hordered htakes hhealthy
    refine ⟨hclean.state_ne_degraded, ?_, hclean.answered⟩
    rintro ⟨item, hitem, hsequence⟩
    exact absurd (hclean.tracks.unclosed item hitem) (not_lt.mpr hsequence)

def failClosedAuditInspector : Inspector := fun _ _ _ => .ok .unknown

def newLedger : LedgerStore := ⟨emptyLedger, [(1, [])]⟩

def configApplyInput : AuditPersistentOperationInput where
  context := logoutRecord.context
  action := .configApply
  targetKind := .configRevision
  targetId := logoutRecord.targetId
  beforeRevision := none

def startedLedger : AuditedLedger where
  store := newLedger
  admission := .healthy
  published := [(.verifying, emptyLedger), (.healthy, emptyLedger)]

theorem serves_startedLedger (allowed : AuditedLedger → AuditCall → Prop) :
    Serves {} (fun _ => none) (fun _ => failClosedAuditInspector) newLedger allowed
      startedLedger := by
  have hstartup : initializeAuditLedger {} (fun _ => none) (fun _ => failClosedAuditInspector)
      (starting newLedger) = (.ok ⟨⟨0, 0⟩, 0, 0, 0, .healthy⟩, startedLedger) := rfl
  exact .started hstartup

/-- The first intent of a new ledger is appended, and the healthy state is sound. -/
theorem first_intent_stays_sound :
    ((AuditCall.begin none configApplyInput).run {} startedLedger).admission = .healthy ∧
      ¬ LeftOver newLedger.ledger
        ((AuditCall.begin none configApplyInput).run {} startedLedger).store.ledger := by
  have hopen : openLedger {} [] = (.ok newLedger.ledger, newLedger.directory) := by
    decide +kernel
  have hroom : HasRoom {} startedLedger.store.ledger
      (recordForOperation configApplyInput .intent none none none) :=
    ⟨by decide +kernel, by decide +kernel, by decide +kernel,
      by rw [FrameFits, if_pos (.inl rfl)]; decide⟩
  have hserves := (serves_startedLedger (IntentsFit {})).called
    (.begin none configApplyInput) fun _ => ⟨rfl, hroom⟩
  have hsettles : Settles failClosedAuditInspector newLedger.ledger.incompleteOperations :=
    .inl (by decide +kernel)
  have hhealthy : ((AuditCall.begin none configApplyInput).run {} startedLedger).admission =
      .healthy := by decide +kernel
  exact ⟨hhealthy, ((healthy_only_when_sound hopen hsettles).2.2 _ hserves hhealthy).2.1⟩

/-- The write of the first intent fails. The ledger is degraded, and mutations stay admitted. -/
theorem failed_intent_stays_healthy :
    openLedger {} [] = (.ok newLedger.ledger, newLedger.directory) ∧
    ∃ audit, Serves {} (fun _ => none) (fun _ => failClosedAuditInspector) newLedger
        (fun _ _ => True) audit ∧
      audit.admission = .healthy ∧ audit.store.ledger.state = .degraded := by
  refine ⟨by decide +kernel, _, (serves_startedLedger _).called
    (.begin (some ⟨⟨.auditAppendFailed, "audit ledger append failed"⟩, newLedger⟩) configApplyInput)
    trivial, ?_, ?_⟩
  · decide +kernel
  · decide +kernel

end Runs

end AuditedLedger

end EdgeProxy

import EdgeProxy.Audit.Admission

/-! # Audited mutations

`execute_audited_mutation` for any ledger writer, admission controller and effect, each of which is
given by how it answers. The state has a history variable: what was appended or refused, and what
the effect returned when it ran.
-/

namespace EdgeProxy

open Rust

namespace AuditedMutation

structure AuditMutationEffect (T : Type) where
  value : T
  afterRevision : Option AuditTargetId

/-- A controller whose lock is poisoned ignores `replace_state` and shows `FailedClosed`. -/
structure AuditPorts (T : Type) where
  appendIntent : AuditRecord → Except AppError AuditLedgerHead
  appendTerminal : AuditRecord → AuditLedgerHead → Except AppError AuditLedgerHead
  effect : Except AppError (AuditMutationEffect T)
  poisoned : Bool

inductive Event (T : Type) where
  | appended (record : AuditRecord)
  | refused (record : AuditRecord)
  | ran (result : Except AppError (AuditMutationEffect T))

structure World (T : Type) where
  admission : AuditAdmissionState
  events : List (Event T) := []

structure AuditedMutationOutput (T : Type) where
  value : T
  audit : CompleteAuditOperationOutput AuditLedgerHead

structure AuditedMutationFailure (T : Type) where
  error : AppError
  effectError : Option AppError
  committedValue : Option T
  state : AuditOperationState
  effectState : Option AuditEffectState
  durableHead : Option AuditLedgerHead

variable {T : Type} (ports : AuditPorts T)

/-- Notes how the writer answered. -/
def answer (record : AuditRecord) (result : Except AppError AuditLedgerHead) :
    Action (World T) AppError AuditLedgerHead := fun w =>
  match result with
  | .ok head => (.ok head, { w with events := w.events ++ [.appended record] })
  | .error error => (.error error, { w with events := w.events ++ [.refused record] })

def replaceState (admission : AuditAdmissionState) (w : World T) : World T :=
  { w with admission := if ports.poisoned then .failedClosed else admission }

def AuditPorts.ledger : AuditLedgerPorts (World T) AuditLedgerHead where
  state := World.admission
  replaceState := replaceState ports
  appendIntent record := answer record (ports.appendIntent record)
  appendTerminal record expected := answer record (ports.appendTerminal record expected)

def executeAuditedMutation (operation : AuditPersistentOperationInput) :
    Action (World T) (AuditedMutationFailure T) (AuditedMutationOutput T) := fun w =>
  match beginAuditOperation ports.ledger operation w with
  | (.error error, w) => (.error ⟨error, none, none, .rejectedNoEffect, none, none⟩, w)
  | (.ok head, w) =>
    let w := { w with events := w.events ++ [.ran ports.effect] }
    match ports.effect with
    | .ok effect =>
      match completeAuditOperation ports.ledger
        ⟨operation, head, .committed, effect.afterRevision, none⟩ w with
      | (.ok audit, w) => (.ok ⟨effect.value, audit⟩, w)
      | (.error (error, state), w) =>
        (.error ⟨error, none, some effect.value, state, some .committed, some head⟩, w)
    | .error effectError =>
      match AuditIdentifier.parse effectError.code.asStr.toList with
      | .error _ =>
        (.error ⟨⟨.internalBug, "application error code is not audit-safe"⟩, some effectError, none,
          .auditDegradedRejected, some .rejected, some head⟩, replaceState ports .degraded w)
      | .ok code =>
        match completeAuditOperation ports.ledger
          ⟨operation, head, .rejected, none, some code⟩ w with
        | (.ok audit, w) =>
          (.error ⟨effectError, some effectError, none, audit.state, some .rejected,
            some audit.head⟩, w)
        | (.error (error, state), w) =>
          (.error ⟨error, some effectError, none, state, some .rejected, some head⟩, w)

/-- The effect runs at most once, right after its intent was appended in the healthy state; a
success means one intent and one terminal of the same operation, which tells that the effect was
committed; and a committed value whose terminal is refused is returned, with the state not healthy
any more. -/
theorem audited_mutation_protocol (operation : AuditPersistentOperationInput)
    (admission : AuditAdmissionState) :
    let ran := executeAuditedMutation ports operation { admission }
    let intent := recordForOperation operation .intent none none none
    (∀ result, .ran result ∈ ran.2.events → admission = .healthy ∧ ∃ rest,
        ran.2.events = .appended intent :: .ran result :: rest ∧ ∀ other, .ran other ∉ rest) ∧
      (∀ output, ran.1 = .ok output → ∃ effect, ports.effect = .ok effect ∧
        output.value = effect.value ∧ ran.2.events = [.appended intent, .ran (.ok effect), .appended
          (recordForOperation operation .terminal (some .succeeded) effect.afterRevision none)]) ∧
      ∀ effect record, .ran (.ok effect) ∈ ran.2.events → .refused record ∈ ran.2.events →
        (∃ failure, ran.1 = .error failure ∧ failure.committedValue = some effect.value) ∧
          ran.2.admission ≠ .healthy := by
  have hreplaced (w : World T) : (replaceState ports .degraded w).admission ≠ .healthy := by
    unfold replaceState
    cases ports.poisoned <;> simp
  have hevents (w : World T) : (replaceState ports .degraded w).events = w.events := rfl
  intro ran intent
  simp only [ran, executeAuditedMutation, beginAuditOperation, AuditPorts.ledger]
  by_cases hhealthy : admission = .healthy
  swap
  · simp [hhealthy]
  simp only [hhealthy, ne_eq, not_true_eq_false, if_false]
  rcases ports.appendIntent intent with error | head
  · simp [answer]
  simp only [answer]
  rcases ports.effect with effectError | effect
  · simp only
    rcases AuditIdentifier.parse effectError.code.asStr.toList with _ | code
    · simp [intent, hevents]
    simp only [completeAuditOperation]
    generalize ports.appendTerminal _ head = result
    rcases result with error | last
    · simp [intent, answer, hevents]
    · simp [intent, answer]
  · simp only [completeAuditOperation]
    generalize ports.appendTerminal _ head = result
    rcases result with error | last
    · simp [intent, answer, hevents, hreplaced]
    · simp [intent, answer]
      rfl

end AuditedMutation

end EdgeProxy

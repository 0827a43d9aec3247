import EdgeProxy.Audit.Record
import EdgeProxy.Domain.ErrorCode
import EdgeProxy.Lib.Action

/-! # Audited operations

`begin_audit_operation`, `complete_audit_operation` and `record_security_observation`, for any
writer of the ledger and any admission controller.
-/

namespace EdgeProxy

open Rust

inductive AuditAdmissionState where
  | starting | verifying | reconciling | healthy | degraded | failedClosed
  deriving DecidableEq

inductive AuditOperationState where
  | terminalPersisting (effect : AuditEffectState)
  | completed | rejectedNoEffect | auditDegradedCommitted | auditDegradedRejected

/-- The writer and the admission controller, over the state `σ` that they share. The writer answers
an append with the head `H` of the ledger. -/
structure AuditLedgerPorts (σ H : Type) where
  state : σ → AuditAdmissionState
  replaceState : AuditAdmissionState → σ → σ
  appendIntent : AuditRecord → Action σ AppError H
  appendTerminal : AuditRecord → H → Action σ AppError H

structure AuditPersistentOperationInput where
  context : AuditContext
  action : AuditAction
  targetKind : AuditTargetKind
  targetId : AuditTargetId
  beforeRevision : Option AuditTargetId

def recordForOperation (input : AuditPersistentOperationInput) (recordKind : AuditRecordKind)
    (outcome : Option AuditOutcome) (afterRevision : Option AuditTargetId)
    (errorCode : Option AuditStableErrorCode) : AuditRecord where
  recordVersion := 1
  recordKind := recordKind
  context := input.context
  action := input.action
  targetKind := input.targetKind
  targetId := input.targetId
  beforeRevision := input.beforeRevision
  afterRevision := afterRevision
  outcome := outcome
  errorCode := errorCode

def AuditEffectState.outcome : AuditEffectState → AuditOutcome
  | .committed => .succeeded
  | .rejected => .failed

structure CompleteAuditOperationInput (H : Type) where
  operation : AuditPersistentOperationInput
  expectedHead : H
  effectState : AuditEffectState
  afterRevision : Option AuditTargetId
  errorCode : Option AuditStableErrorCode

def CompleteAuditOperationInput.terminal {H : Type} (input : CompleteAuditOperationInput H) :
    AuditRecord :=
  recordForOperation input.operation .terminal input.effectState.outcome input.afterRevision
    input.errorCode

structure CompleteAuditOperationOutput (H : Type) where
  head : H
  state : AuditOperationState
  terminal : AuditRecord
  effectState : AuditEffectState

structure AuditSecurityObservationInput where
  context : AuditContext
  action : AuditAction
  targetId : AuditTargetId
  outcome : AuditOutcome

def AuditSecurityObservationInput.record (input : AuditSecurityObservationInput) : AuditRecord where
  recordVersion := 1
  recordKind := .securityObservation
  context := input.context
  action := input.action
  targetKind := .adminAccount
  targetId := input.targetId
  beforeRevision := none
  afterRevision := none
  outcome := some input.outcome
  errorCode := none

structure AuditSecurityObservationOutput (H : Type) where
  head : Option H
  admissionState : AuditAdmissionState
  appendError : Option AppError

def isSecurityObservation (action : AuditAction) : Bool :=
  [AuditAction.adminLoginSuccess, .adminLogout, .adminLockout,
    .adminAuthFailureSampled].contains action

variable {σ H : Type} (ports : AuditLedgerPorts σ H)

def beginAuditOperation (input : AuditPersistentOperationInput) : Action σ AppError H := fun s =>
  if ports.state s ≠ .healthy then
    (.error ⟨.auditMutationBlocked, "persistent mutation requires a healthy audit ledger"⟩, s)
  else ports.appendIntent (recordForOperation input .intent none none none) s

def completeAuditOperation (input : CompleteAuditOperationInput H) :
    Action σ (AppError × AuditOperationState) (CompleteAuditOperationOutput H) := fun s =>
  match input.effectState, input.errorCode with
  | .committed, some _ =>
    (.error (⟨.auditRecordInvalid, "committed audit terminal cannot include an error code"⟩,
      .terminalPersisting .committed), s)
  | .rejected, none =>
    (.error (⟨.auditRecordInvalid, "rejected audit terminal requires a stable error code"⟩,
      .terminalPersisting .rejected), s)
  | effectState, _ =>
    match ports.appendTerminal input.terminal input.expectedHead s with
    | (.ok head, s) => (.ok ⟨head, .completed, input.terminal, effectState⟩, s)
    | (.error error, s) =>
      (.error (error, if effectState = .committed then .auditDegradedCommitted
        else .auditDegradedRejected), ports.replaceState .degraded s)

def recordSecurityObservation (appendSecurityObservation : AuditRecord → Action σ AppError H)
    (input : AuditSecurityObservationInput) :
    Action σ AppError (AuditSecurityObservationOutput H) := fun s =>
  if !isSecurityObservation input.action then
    (.error ⟨.auditRecordInvalid, "action is not a security observation"⟩, s)
  else if ports.state s ≠ .healthy then (.ok ⟨none, ports.state s, none⟩, s)
  else
    match appendSecurityObservation input.record s with
    | (.ok head, s) => (.ok ⟨some head, .healthy, none⟩, s)
    | (.error error, s) =>
      (.ok ⟨none, .degraded, some error⟩, ports.replaceState .degraded s)

end EdgeProxy

import EdgeProxy.Admin.RevisionIds

/-! # Audit records

The records of the audit ledger. An identifier carries the proof that `parse` accepted it, and a
record is checked by `AuditRecord.validate` before it is written and after it is read.
-/

namespace EdgeProxy

open Rust

/-- A text that `validate_audit_identifier` accepts. -/
structure AuditIdentifier where
  value : Text
  valid : validateAuditIdentifier value = .ok ()

namespace AuditIdentifier

@[ext] theorem ext {a b : AuditIdentifier} (h : a.value = b.value) : a = b := by
  cases a
  cases b
  simp_all

instance : DecidableEq AuditIdentifier := fun a b =>
  decidable_of_iff (a.value = b.value) ⟨AuditIdentifier.ext, fun h => h ▸ rfl⟩

def parse (value : Text) : Except AuditValidationError AuditIdentifier :=
  match h : validateAuditIdentifier value with
  | .ok () => .ok ⟨value, h⟩
  | .error error => .error error

theorem parse_value (id : AuditIdentifier) : parse id.value = .ok id := by
  unfold parse
  split
  · rfl
  · next h => rw [id.valid] at h; cases h

theorem parse_eq_ok {value : Text} {id : AuditIdentifier} (h : parse value = .ok id) :
    id.value = value := by
  unfold parse at h
  split at h
  · cases h
    rfl
  · cases h

end AuditIdentifier

abbrev AuditOperationId := AuditIdentifier
abbrev AuditRequestId := AuditIdentifier
abbrev AuditTargetId := AuditIdentifier
abbrev AuditStableErrorCode := AuditIdentifier

inductive AuditAction where
  | configApply | configRollback | proxyHostCreate | proxyHostUpdate | proxyHostDelete
  | certificateIssue | certificateRenew | certificateImport | certificateInstall
  | trustBundleImport | trustBundleDelete | adminSetup | adminLoginSuccess | adminLogout
  | adminLockout | adminAuthFailureSampled | maintenanceRestoreImported | systemTrailingRecovery
  | retentionCheckpoint
  deriving DecidableEq

def AuditAction.asStr : AuditAction → String
  | configApply => "config.apply"
  | configRollback => "config.rollback"
  | proxyHostCreate => "proxy_host.create"
  | proxyHostUpdate => "proxy_host.update"
  | proxyHostDelete => "proxy_host.delete"
  | certificateIssue => "certificate.issue"
  | certificateRenew => "certificate.renew"
  | certificateImport => "certificate.import"
  | certificateInstall => "certificate.install"
  | trustBundleImport => "trust_bundle.import"
  | trustBundleDelete => "trust_bundle.delete"
  | adminSetup => "admin.setup"
  | adminLoginSuccess => "admin.login.success"
  | adminLogout => "admin.logout"
  | adminLockout => "admin.lockout"
  | adminAuthFailureSampled => "admin.auth.failure_sampled"
  | maintenanceRestoreImported => "maintenance.restore_imported"
  | systemTrailingRecovery => "system.trailing_recovery"
  | retentionCheckpoint => "audit.retention.checkpoint"

inductive AuditOutcome where
  | succeeded | failed | observed | reconciledCommitted | reconciledNotCommitted
  | reconciliationUnknown
  deriving DecidableEq

def AuditOutcome.asStr : AuditOutcome → String
  | succeeded => "succeeded"
  | failed => "failed"
  | observed => "observed"
  | reconciledCommitted => "reconciled_committed"
  | reconciledNotCommitted => "reconciled_not_committed"
  | reconciliationUnknown => "reconciliation_unknown"

inductive AuditRecordKind where
  | intent | terminal | reconciliation | securityObservation | retentionCheckpoint
  | systemRecovery
  deriving DecidableEq

def AuditRecordKind.asStr : AuditRecordKind → String
  | intent => "intent"
  | terminal => "terminal"
  | reconciliation => "reconciliation"
  | securityObservation => "security_observation"
  | retentionCheckpoint => "retention_checkpoint"
  | systemRecovery => "system_recovery"

inductive AuditTargetKind where
  | configRevision | proxyHost | certificate | trustBundle | adminAccount | restore | auditLedger
  deriving DecidableEq

def AuditTargetKind.asStr : AuditTargetKind → String
  | configRevision => "config_revision"
  | proxyHost => "proxy_host"
  | certificate => "certificate"
  | trustBundle => "trust_bundle"
  | adminAccount => "admin_account"
  | restore => "restore"
  | auditLedger => "audit_ledger"

inductive AuditActorKind where
  | bootstrapSetup | bootstrapAdmin | maintenanceCli | systemRecovery
  deriving DecidableEq

def AuditActorKind.asStr : AuditActorKind → String
  | bootstrapSetup => "bootstrap_setup"
  | bootstrapAdmin => "bootstrap_admin"
  | maintenanceCli => "maintenance_cli"
  | systemRecovery => "system_recovery"

structure AuditContext where
  operationId : AuditOperationId
  requestId : AuditRequestId
  actorKind : AuditActorKind
  receivedAtEpochSeconds : ℕ
  deriving DecidableEq

structure AuditRecord where
  recordVersion : ℕ
  recordKind : AuditRecordKind
  context : AuditContext
  action : AuditAction
  targetKind : AuditTargetKind
  targetId : AuditTargetId
  beforeRevision : Option AuditTargetId
  afterRevision : Option AuditTargetId
  outcome : Option AuditOutcome
  errorCode : Option AuditStableErrorCode
  deriving DecidableEq

namespace AuditRecord

/-- The invariant that the kind of a record puts on its other fields. -/
def kindValid (record : AuditRecord) : Bool :=
  match record.recordKind with
  | .intent =>
    record.outcome.isNone && record.errorCode.isNone && record.afterRevision.isNone
  | .terminal =>
    match record.outcome, record.errorCode.isSome with
    | some .succeeded, false => true
    | some .failed, true => true
    | _, _ => false
  | .reconciliation =>
    match record.outcome with
    | some .reconciledCommitted | some .reconciledNotCommitted | some .reconciliationUnknown => true
    | _ => false
  | .securityObservation =>
    record.outcome == some .observed && record.targetKind == .adminAccount &&
      record.beforeRevision.isNone && record.afterRevision.isNone && record.errorCode.isNone &&
      [AuditAction.adminLoginSuccess, .adminLogout, .adminLockout,
        .adminAuthFailureSampled].contains record.action
  | .retentionCheckpoint =>
    record.action == .retentionCheckpoint && record.targetKind == .auditLedger &&
      record.outcome == some .succeeded
  | .systemRecovery =>
    record.action == .systemTrailingRecovery && record.targetKind == .auditLedger &&
      record.context.actorKind == .systemRecovery && record.outcome == some .succeeded &&
      record.errorCode.isNone

def validate (record : AuditRecord) : Except AuditValidationError Unit :=
  if record.recordVersion ≠ 1 || !record.kindValid then .error .recordInvariantInvalid else .ok ()

end AuditRecord

end EdgeProxy

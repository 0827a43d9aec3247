import EdgeProxy.Audit.Record
import EdgeProxy.Lib.Faulty

/-! # Replacing a data directory from a backup

A restore extracts the archive to a stage beside the data directory, writes a journal, moves the
old data to a rollback directory, moves the stage to the target and verifies it. A recovery reads
the journal and decides which of the two trees stays. Every effect on the disk has a fate: it may
fail, and the process may stop in it, part way through the removal of a directory too.
`RestoreStateMachine` follows both; a failure is handled by the state it happened in.
-/

namespace EdgeProxy

open Rust Action

inductive RestoreState where
  | idle | locking | opening | authenticating | readingManifest | extractingStage
  | verifyingArtifacts | validatingConfig | validatingCertificates | validatingSecrets
  | validatingAudit | preflightingRuntime | preparingCommit | writingTransaction | committing
  | verifyingPublishedTarget | recordingProvenance | completed
  | auditDegradedCommitted (errorCode : ErrorCode)
  | rollingBack (errorCode : ErrorCode)
  | recoveringInterruptedCommit
  | cleaningUp (errorCode : ErrorCode)
  | failed (errorCode : ErrorCode)

inductive RestoreEvent where
  | start | recoveryRequested | lockAcquired | envelopeOpened | envelopeAuthenticated
  | manifestRead | stageCreated | stageExtracted | artifactsVerified | configValidated
  | certificatesValidated | secretsValidated | auditValidated | runtimePreflighted
  | commitPrepared | newTargetCommitPrepared | transactionPersisted | targetMovedToRollback
  | stagePublished | publishedTargetVerified | provenancePersisted | provenanceNotRequired
  | provenanceAppendFailed (errorCode : ErrorCode)
  | rollbackRequested (errorCode : ErrorCode)
  | rollbackRestored | interruptedTransactionRecovered
  | operationFailed (errorCode : ErrorCode)
  | cleanupFinished

namespace RestoreState

def transitionInvalid : AppError :=
  ⟨.restoreStateTransitionInvalid, "The restore state transition is invalid."⟩

def transition : RestoreState → RestoreEvent → Except AppError RestoreState
  | idle, .start => .ok locking
  | idle, .recoveryRequested => .ok recoveringInterruptedCommit
  | locking, .lockAcquired => .ok opening
  | opening, .envelopeOpened => .ok authenticating
  | authenticating, .envelopeAuthenticated => .ok readingManifest
  | readingManifest, .manifestRead => .ok extractingStage
  | extractingStage, .stageCreated => .ok extractingStage
  | extractingStage, .stageExtracted => .ok verifyingArtifacts
  | verifyingArtifacts, .artifactsVerified => .ok validatingConfig
  | validatingConfig, .configValidated => .ok validatingCertificates
  | validatingCertificates, .certificatesValidated => .ok validatingSecrets
  | validatingSecrets, .secretsValidated => .ok validatingAudit
  | validatingAudit, .auditValidated => .ok preflightingRuntime
  | preflightingRuntime, .runtimePreflighted => .ok preparingCommit
  | preparingCommit, .newTargetCommitPrepared => .ok committing
  | preparingCommit, .commitPrepared => .ok writingTransaction
  | writingTransaction, .transactionPersisted => .ok committing
  | committing, .targetMovedToRollback => .ok committing
  | committing, .stagePublished => .ok verifyingPublishedTarget
  | verifyingPublishedTarget, .publishedTargetVerified => .ok recordingProvenance
  | recordingProvenance, .provenancePersisted => .ok completed
  | recordingProvenance, .provenanceNotRequired => .ok completed
  | recordingProvenance, .provenanceAppendFailed errorCode => .ok (auditDegradedCommitted errorCode)
  | committing, .rollbackRequested errorCode => .ok (rollingBack errorCode)
  | rollingBack errorCode, .rollbackRestored => .ok (cleaningUp errorCode)
  | recoveringInterruptedCommit, .interruptedTransactionRecovered => .ok verifyingPublishedTarget
  | completed, .operationFailed _ => .error transitionInvalid
  | auditDegradedCommitted _, .operationFailed _ => .error transitionInvalid
  | failed _, .operationFailed _ => .error transitionInvalid
  | cleaningUp _, .operationFailed _ => .error transitionInvalid
  | _, .operationFailed errorCode => .ok (cleaningUp errorCode)
  | cleaningUp errorCode, .cleanupFinished => .ok (failed errorCode)
  | _, _ => .error transitionInvalid

/-- The states in which a failure moves the old data back. -/
def rollsBack : RestoreState → Bool
  | committing | verifyingPublishedTarget => true
  | _ => false

end RestoreState

/-- A file of a data directory. `segment` stands for the part of the audit segments that holds the
record at an index. -/
inductive DataFile where
  | current
  | revision (id : Text)
  | other (path : Text)
  | segment (index : ℕ)
  deriving DecidableEq

/-- A data directory: its files with their contents, the records of its audit ledger, and whether a
part of another frame stands behind them. -/
structure DataTree where
  files : List (DataFile × Text)
  ledger : List AuditRecord
  torn : Bool := false
  deriving DecidableEq

namespace DataTree

variable (tree : DataTree)

def restrict (kept : DataFile → Bool) : DataTree where
  files := tree.files.filter fun file => kept file.1
  ledger := (tree.ledger.zipIdx.filter fun record => kept (.segment record.2)).map Prod.fst
  torn := tree.torn && kept (.segment tree.ledger.length)

/-- The `config` directory as the revision repository reads it. -/
def repository : FileRevisionRepository where
  revisions := (tree.files.filterMap fun
    | (.revision id, source) => some (⟨id, source⟩ : Sigma fun _ : Text => Text)
    | _ => none).toAList
  currentFile := tree.files.lookup .current

def current : Except AppError (Option RevisionRecord) :=
  (FileRevisionRepository.current false tree.repository).1

/-- `FileRevisionRepository::current().ok().flatten().is_some()`. -/
def valid : Bool :=
  match tree.current with
  | .ok (some _) => true
  | _ => false

def append (record : AuditRecord) : DataTree :=
  { tree with ledger := tree.ledger ++ [record] }

/-- The write of a frame was cut off; `kept` says whether a part of it is there. -/
def tear (kept : DataFile → Bool) : DataTree :=
  { tree with torn := kept (.segment tree.ledger.length) }

end DataTree

inductive RestoreTransactionState where
  | prepared | targetMoved | stagePublished
  deriving DecidableEq

structure RestoreTransaction where
  operationId : Text
  archiveId : Text
  targetIdentity : Text
  stageIdentity : Text
  rollbackIdentity : Text
  state : RestoreTransactionState

structure Disk where
  target : Option DataTree
  rollback : Option DataTree
  stage : Option DataTree
  journal : Option RestoreTransaction

/-- The effects of `ReplaceRestoreBackupUseCase::execute`, in the order of the source; those after
`removeTarget` belong to the handling of a failure. -/
inductive ReplaceStep where
  | lock | extract | persistPrepared | moveTarget | syncMoved | persistMoved | publishStage
  | syncPublished | persistPublished | verifyTarget | provenance | removeRollback | removeStage
  | syncCommitted | deleteJournal
  | removeTarget | moveBack | discardStage | syncMovedBack | abandonJournal | cleanup
  deriving DecidableEq

/-- The effects of `RecoverRestoreUseCase::execute`. -/
inductive RecoverStep where
  | readTarget | readRollback | removeRollback | removeStage | syncCommitted | removeTarget
  | moveBack | discardStage | syncMovedBack | provenance | deleteJournal
  deriving DecidableEq

abbrev DiskAction (α : Type) := Action Disk (Stop AppError) α

def restoreTargetUnsafe : AppError := ⟨.restoreTargetUnsafe, "The restore target is unsafe."⟩

def restoreStageFailed : AppError := ⟨.restoreStageFailed, "The restore staging operation failed."⟩

def restoreConfigInvalid : AppError :=
  ⟨.restoreConfigInvalid, "The restored configuration is invalid."⟩

def restoreCommitFailed : AppError := ⟨.restoreCommitFailed, "The restore commit failed."⟩

def restoreRollbackFailed : AppError := ⟨.restoreRollbackFailed, "The restore rollback failed."⟩

def restoreTransactionUnresolved : AppError :=
  ⟨.restoreTransactionUnresolved, "The restore transaction is unresolved."⟩

def transactionAmbiguous : AppError :=
  ⟨.restoreTransactionAmbiguous, "The restore transaction state is ambiguous."⟩

def isTransactionValue (value : Text) : Bool :=
  !value.isEmpty && !value.any (fun c => c == '/' || c == '\\' || c == '\x00') &&
    value ≠ ".".toList && value ≠ "..".toList

variable (fate : Fate DataFile) (operationId archiveId : Text) (revisionId : Option Text)
  (tx : RestoreTransaction)

def validateTransactionValues : Except AppError Unit :=
  if [tx.operationId, tx.archiveId, tx.targetIdentity, tx.stageIdentity,
      tx.rollbackIdentity].all isTransactionValue then .ok ()
  else .error restoreTransactionUnresolved

/-- `FileRestoreTransactionStore`: the journal is written beside its place and renamed, so it is
changed at once, and a failure after the rename is still reported. -/
def persist : DiskAction PUnit := do
  ofExcept (validateTransactionValues tx)
  durably fate (fun disk => { disk with journal := some tx }) restoreCommitFailed

def load (operationId : Text) : DiskAction (Option RestoreTransaction) := do
  let disk ← read
  match disk.journal with
  | none => return none
  | some tx =>
    ofExcept (validateTransactionValues tx)
    if tx.operationId ≠ operationId then raise restoreTransactionUnresolved
    else return some tx

def deleteJournal : DiskAction PUnit :=
  durably fate (fun disk => { disk with journal := none }) restoreCommitFailed

/-- `FileReplaceRestorePublisher`: the names of the three directories follow from the name of the
target. -/
structure ReplacePublisher where
  name : Text

inductive RestoreRollbackOutcome where
  | notRequired | restored

structure RestoreStageSummary where
  archiveId : Text
  revisionId : Text
  certificateCount : ℕ
  trustBundleCount : ℕ

namespace ReplacePublisher

variable (publisher : ReplacePublisher)

def stageName : Text := '.' :: publisher.name ++ ".restore-stage".toList

def rollbackName : Text := '.' :: publisher.name ++ ".restore-rollback".toList

variable (move sync : Fate DataFile) (tx : RestoreTransaction) (fate : Fate DataFile)

def validate : Except AppError Unit :=
  if tx.targetIdentity = publisher.name ∧ tx.stageIdentity = publisher.stageName ∧
      tx.rollbackIdentity = publisher.rollbackName then .ok ()
  else .error restoreTransactionUnresolved

def prepareReplace (operationId : Text) (summary : RestoreStageSummary) :
    DiskAction RestoreTransaction := do
  let disk ← read
  if disk.target.isNone ∨ disk.stage.isNone ∨ disk.rollback.isSome then
    raise restoreTargetUnsafe
  else
    let tx : RestoreTransaction :=
      ⟨operationId, summary.archiveId, publisher.name, publisher.stageName, publisher.rollbackName,
        .prepared⟩
    ofExcept (validateTransactionValues tx)
    return tx

def moveTargetToRollback : DiskAction PUnit := do
  ofExcept (publisher.validate tx)
  atomically move (fun disk => { disk with target := none, rollback := disk.target })
    restoreCommitFailed
  touch sync restoreCommitFailed

def publishStage : DiskAction PUnit := do
  ofExcept (publisher.validate tx)
  atomically move (fun disk => { disk with stage := none, target := disk.stage })
    restoreCommitFailed
  touch sync restoreCommitFailed

def holdsRevision (summary : RestoreStageSummary) (tree : Option DataTree) : Bool :=
  match tree.map DataTree.current with
  | some (.ok (some record)) => record.id = summary.revisionId
  | _ => false

def verifyTarget (read : Fate DataFile) (tx : RestoreTransaction)
    (summary : RestoreStageSummary) : DiskAction PUnit := do
  ofExcept (publisher.validate tx)
  touch read restoreCommitFailed
  let disk ← Action.read
  if holdsRevision summary disk.target then return ⟨⟩ else raise restoreCommitFailed

def removeTree (get : Disk → Option DataTree)
    (set : Option DataTree → Disk → Disk) (e : AppError) : DiskAction PUnit := do
  let disk ← read
  if (get disk).isSome then
    gradually fate (set none)
      (fun kept disk => set ((get disk).map fun tree => tree.restrict kept) disk) e
  else return ⟨⟩

def removeStage (e : AppError) : DiskAction PUnit :=
  removeTree fate Disk.stage (fun tree disk => { disk with stage := tree }) e

structure RollbackFates where
  removeTarget : Fate DataFile
  moveBack : Fate DataFile
  discardStage : Fate DataFile
  sync : Fate DataFile

def rollbackAfterFailure (fates : RollbackFates) (tx : RestoreTransaction) :
    DiskAction RestoreRollbackOutcome := do
  ofExcept (publisher.validate tx)
  let disk ← read
  if disk.rollback.isNone then return .notRequired
  else
    removeTree fates.removeTarget Disk.target (fun tree disk => { disk with target := tree })
      restoreRollbackFailed
    atomically fates.moveBack
      (fun disk => { disk with rollback := none, target := disk.rollback }) restoreRollbackFailed
    removeStage fates.discardStage restoreRollbackFailed
    touch fates.sync restoreRollbackFailed
    return .restored

structure CleanupFates where
  removeRollback : Fate DataFile
  removeStage : Fate DataFile
  sync : Fate DataFile

def cleanupCommitted (fates : CleanupFates) (tx : RestoreTransaction) : DiskAction PUnit := do
  ofExcept (publisher.validate tx)
  removeTree fates.removeRollback Disk.rollback (fun tree disk => { disk with rollback := tree })
    restoreCommitFailed
  removeStage fates.removeStage restoreCommitFailed
  touch fates.sync restoreCommitFailed

def treeValid (read : Fate DataFile) (get : Disk → Option DataTree) (tx : RestoreTransaction) :
    DiskAction Bool := do
  ofExcept (publisher.validate tx)
  match ← rescue (touch read restoreCommitFailed) with
  | .error _ => return false
  | .ok _ =>
    let disk ← Action.read
    return (get disk).any DataTree.valid

end ReplacePublisher

def restoreIdentityInvalid : AppError :=
  ⟨.auditRecordInvalid, "restore audit identity is invalid"⟩

def auditIdentity (value : Text) : Except AppError AuditIdentifier :=
  (AuditIdentifier.parse value).mapError fun _ => restoreIdentityInvalid

/-- The record that `append_restore_provenance` writes. -/
def provenanceRecord (timestamp : ℕ) : Except AppError AuditRecord := do
  let operation ← auditIdentity operationId
  let request ← auditIdentity operation.value
  let target ← auditIdentity archiveId
  let revision ← revisionId.elim (pure none) fun id => some <$> auditIdentity id
  return {
    recordVersion := 1
    recordKind := .reconciliation
    context := ⟨operation, request, .maintenanceCli, timestamp⟩
    action := .maintenanceRestoreImported
    targetKind := .restore
    targetId := target
    beforeRevision := none
    afterRevision := revision
    outcome := some .reconciledCommitted
    errorCode := none }

def provenanceFailed : AppError := ⟨.auditAppendFailed, "audit ledger append failed"⟩

def provenanceRefused : AppError :=
  ⟨.auditTrailingFrameIncomplete, "audit trailing frame is incomplete"⟩

/-- `FileRestoreProvenanceWriter`: opens the ledger of the target, which creates it where there is
none, and appends to it. It opens without a recovery context, so the ledger may not end with a part
of a frame; an append that is cut off leaves one. -/
def writeProvenance (record : AuditRecord) : DiskAction PUnit := do
  let disk ← read
  let tree := disk.target.getD ⟨[], [], false⟩
  if tree.torn then raise provenanceRefused
  else
    let written (tree : DataTree) (disk : Disk) := { disk with target := some tree }
    let part (extent : Extent DataFile) :=
      written (if extent.applied then tree.append record else tree.tear extent.kept)
    effect fate (written (tree.append record)) part part provenanceFailed

def appendProvenance (timestamp : ℕ) : DiskAction PUnit := do
  writeProvenance fate
    (← ofExcept (provenanceRecord operationId archiveId revisionId timestamp))

section UseCases

/-- What a use case works on: the disk, its state machine and the transaction it has written. -/
structure RestoreRun where
  disk : Disk
  machine : RestoreState := .idle
  transaction : Option RestoreTransaction := none

abbrev RestoreAction (α : Type) := Action RestoreRun (Stop AppError) α

def onDisk {α : Type} (x : DiskAction α) : RestoreAction α :=
  zoom RestoreRun.disk (fun disk run => { run with disk }) x

def transition (event : RestoreEvent) : RestoreAction PUnit := do
  let run ← read
  let machine ← ofExcept (run.machine.transition event)
  modify fun run => { run with machine }

def transitions : List RestoreEvent → RestoreAction PUnit
  | [] => return ⟨⟩
  | event :: events => do
    transition event
    transitions events

def setTransaction (tx : RestoreTransaction) : RestoreAction PUnit :=
  modify fun run => { run with transaction := some tx }

inductive PreflightCheck where
  | certificates | secrets | audit | runtime

/-- What a restore is given: the tree its archive holds and what the manifest says of it, and the
answers of the preflight checks that only read the stage. -/
structure ReplaceInput where
  operationId : Text
  summary : RestoreStageSummary
  staged : DataTree
  rejects : PreflightCheck → Option AppError := fun _ => none
  timestamp : ℕ := 0

structure RestoreReceipt where
  operationId : Text
  archiveId : Text
  restoredLayoutVersion : ℕ
  restoredRevisionId : Text
  certificateCount : ℕ
  trustBundleCount : ℕ
  rollbackCopyCreated : Bool
  commitMode : String

/-- Whatever stops the extraction, part of the stage may stay behind. -/
def extract (fate : Fate DataFile) (staged : DataTree) : DiskAction PUnit := do
  let disk ← read
  if disk.stage.isSome then raise restoreStageFailed
  else
    let part (extent : Extent DataFile) (disk : Disk) :=
      if extent.applied then { disk with stage := some (staged.restrict extent.kept) } else disk
    effect fate (fun disk => { disk with stage := some staged }) part part restoreStageFailed

def validateConfig (summary : RestoreStageSummary) : DiskAction PUnit := do
  let disk ← read
  if ReplacePublisher.holdsRevision summary disk.stage then return ⟨⟩
  else raise restoreConfigInvalid

def preflight (input : ReplaceInput) (check : PreflightCheck) : DiskAction PUnit :=
  match input.rejects check with
  | none => return ⟨⟩
  | some error => raise error

def appendRestoreProvenance (fate : Fate DataFile) (operationId archiveId : Text)
    (revisionId : Option Text) (timestamp : ℕ) : RestoreAction PUnit := do
  match ← rescue
      (onDisk (appendProvenance fate operationId archiveId revisionId timestamp)) with
  | .ok _ => transition .provenancePersisted
  | .error error =>
    transition (.provenanceAppendFailed error.code)
    raise error

variable (publisher : ReplacePublisher) (fates : ReplaceStep → Fate DataFile)
  (input : ReplaceInput) (tx : RestoreTransaction)

def stageArchive : RestoreAction PUnit := do
  onDisk (touch (fates .lock) ⟨.dataDirectoryBusy, "data directory is already exclusively owned"⟩)
  transition .lockAcquired
  onDisk (extract (fates .extract) input.staged)
  transitions [.envelopeOpened, .envelopeAuthenticated, .manifestRead, .stageCreated,
    .stageExtracted, .artifactsVerified]
  onDisk (validateConfig input.summary)
  transition .configValidated
  onDisk (preflight input .certificates)
  transition .certificatesValidated
  onDisk (preflight input .secrets)
  transition .secretsValidated
  onDisk (preflight input .audit)
  transition .auditValidated
  onDisk (preflight input .runtime)
  transition .runtimePreflighted

def commitStage : RestoreAction RestoreTransaction := do
  let tx ← onDisk (publisher.prepareReplace input.operationId input.summary)
  transition .commitPrepared
  onDisk (persist (fates .persistPrepared) tx)
  transition .transactionPersisted
  setTransaction tx
  onDisk (publisher.moveTargetToRollback (fates .moveTarget) (fates .syncMoved) tx)
  let tx := { tx with state := .targetMoved }
  onDisk (persist (fates .persistMoved) tx)
  setTransaction tx
  transition .targetMovedToRollback
  onDisk (publisher.publishStage (fates .publishStage) (fates .syncPublished) tx)
  let tx := { tx with state := .stagePublished }
  onDisk (persist (fates .persistPublished) tx)
  setTransaction tx
  transition .stagePublished
  onDisk (publisher.verifyTarget (fates .verifyTarget) tx input.summary)
  transition .publishedTargetVerified
  return tx

def executeInner : RestoreAction RestoreReceipt := do
  stageArchive fates input
  let tx ← commitStage publisher fates input
  appendRestoreProvenance (fates .provenance) input.operationId input.summary.archiveId
    (some input.summary.revisionId) input.timestamp
  onDisk (publisher.cleanupCommitted
    ⟨fates .removeRollback, fates .removeStage, fates .syncCommitted⟩ tx)
  onDisk (deleteJournal (fates .deleteJournal))
  return {
    operationId := input.operationId
    archiveId := input.summary.archiveId
    restoredLayoutVersion := 1
    restoredRevisionId := input.summary.revisionId
    certificateCount := input.summary.certificateCount
    trustBundleCount := input.summary.trustBundleCount
    rollbackCopyCreated := true
    commitMode := "replace_transaction" }

/-- Moves the old data back after a failure of the commit, and says which error is reported. -/
def undoCommit (original : AppError) : DiskAction AppError := do
  match ← rescue (publisher.rollbackAfterFailure
      ⟨fates .removeTarget, fates .moveBack, fates .discardStage, fates .syncMovedBack⟩ tx) with
  | .ok _ =>
    let _ ← rescue (deleteJournal (fates .abandonJournal))
    return original
  | .error error => return error

def failureToReport (machine : RestoreState)
    (transaction : Option RestoreTransaction) (original : AppError) : DiskAction AppError :=
  match machine.rollsBack, transaction with
  | true, some tx => undoCommit publisher fates tx original
  | _, _ => pure original

/-- What `execute` does with an error. The transitions it tries on the way are ignored. -/
def handleFailure (machine : RestoreState)
    (transaction : Option RestoreTransaction) (original : AppError) :
    DiskAction RestoreReceipt := do
  let failure ← failureToReport publisher fates machine transaction original
  let _ ← rescue (ReplacePublisher.removeStage (fates .cleanup) restoreStageFailed)
  raise failure

/-- `ReplaceRestoreBackupUseCase::execute`, without its log. -/
def ReplaceRestoreBackup.execute : DiskAction RestoreReceipt := fun disk =>
  match (do transition .start; executeInner publisher fates input : RestoreAction RestoreReceipt)
      { disk } with
  | (.ok receipt, run) => (.ok receipt, run.disk)
  | (.error .crash, run) => (.error .crash, run.disk)
  | (.error (.error original), run) =>
    handleFailure publisher fates run.machine run.transaction original run.disk

inductive RecoveryOutcome where
  | restoreAborted | commitCompleted | rollbackRestored
  deriving DecidableEq

structure RestoreRecoveryReceipt where
  operationId : Text
  outcome : RecoveryOutcome
  deriving DecidableEq

def settle (fates : RecoverStep → Fate DataFile) (tx : RestoreTransaction)
    (target rollback : Bool) : DiskAction RecoveryOutcome :=
  match tx.state, target, rollback with
  | .prepared, true, false => do
    publisher.cleanupCommitted ⟨fates .removeRollback, fates .removeStage, fates .syncCommitted⟩ tx
    return .restoreAborted
  | .targetMoved, true, true | .stagePublished, true, _ => do
    publisher.cleanupCommitted ⟨fates .removeRollback, fates .removeStage, fates .syncCommitted⟩ tx
    return .commitCompleted
  | .prepared, false, true | .targetMoved, false, true | .stagePublished, false, true => do
    match ← publisher.rollbackAfterFailure ⟨fates .removeTarget, fates .moveBack,
        fates .discardStage, fates .syncMovedBack⟩ tx with
    | .restored => return .rollbackRestored
    | .notRequired => raise transactionAmbiguous
  | _, _, _ => raise transactionAmbiguous

/-- The provenance of a recovery, which only a completed commit has. -/
def recordOutcome (fates : RecoverStep → Fate DataFile) (tx : RestoreTransaction)
    (operationId : Text) (timestamp : ℕ) (outcome : RecoveryOutcome) : RestoreAction PUnit :=
  match outcome with
  | .commitCompleted =>
    appendRestoreProvenance (fates .provenance) operationId tx.archiveId none timestamp
  | _ => transition .provenanceNotRequired

def requireTransaction (operationId : Text) : DiskAction RestoreTransaction := do
  match ← load operationId with
  | some tx => return tx
  | none => raise restoreTransactionUnresolved

/-- What a recovery does once the directories are settled. -/
def finishRecovery (fates : RecoverStep → Fate DataFile) (tx : RestoreTransaction)
    (operationId : Text) (timestamp : ℕ) (outcome : RecoveryOutcome) :
    RestoreAction RestoreRecoveryReceipt := do
  recordOutcome fates tx operationId timestamp outcome
  onDisk (deleteJournal (fates .deleteJournal))
  return ⟨operationId, outcome⟩

def recoverInner (fates : RecoverStep → Fate DataFile) (operationId : Text) (timestamp : ℕ) :
    RestoreAction RestoreRecoveryReceipt := do
  transition .recoveryRequested
  let tx ← onDisk (requireTransaction operationId)
  let target ← onDisk (publisher.treeValid (fates .readTarget) Disk.target tx)
  let rollback ← onDisk (publisher.treeValid (fates .readRollback) Disk.rollback tx)
  let outcome ← onDisk (settle publisher fates tx target rollback)
  transition .interruptedTransactionRecovered
  transition .publishedTargetVerified
  finishRecovery fates tx operationId timestamp outcome

/-- `RecoverRestoreUseCase::execute`, without its log. -/
def RecoverRestore.execute (fates : RecoverStep → Fate DataFile) (operationId : Text)
    (timestamp : ℕ) : DiskAction RestoreRecoveryReceipt := fun disk =>
  match recoverInner publisher fates operationId timestamp { disk } with
  | (result, run) => (result, run.disk)

end UseCases

end EdgeProxy

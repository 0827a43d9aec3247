import EdgeProxy.Domain.Upstream
import EdgeProxy.Lib.Faulty

/-! # The offline upgrade and its recovery

An upgrade runs helper commands one after the other and writes a journal around them; a recovery
reads the journal and rolls back. The command and the journal entry that tells of it are two
effects, and either may fail, take effect and still be reported as failed, or be the last effect
before the process stops.
-/

namespace EdgeProxy

open Rust Action

structure OfflineUpgradeRequest where
  targetVersion : Text
  imageDigest : Text
  artifactFile : Text
  passphraseFile : Text

inductive OfflineUpgradeState where
  | prepared | draining | stopped | switched | ready | committed | rollingBack | rolledBack
  deriving DecidableEq

structure OfflineUpgradeBackupReceipt where
  backupId : Text
  previousArtifactDigest : Text

structure OfflineUpgradeJournal where
  operationId : Text
  state : OfflineUpgradeState
  backupId : Text
  previousArtifactDigest : Text
  targetArtifactDigest : Text
  deriving DecidableEq

def isAsciiHexdigit (c : Char) : Bool :=
  c.isDigit || 'a' ≤ c && c ≤ 'f' || 'A' ≤ c && c ≤ 'F'

/-- Only ASCII digits pass, so the length in characters is the length in bytes. -/
def isSha256Digest (value : Text) : Bool :=
  let digest := (stripPrefix "sha256:".toList value).getD value
  digest.length == 64 && digest.all isAsciiHexdigit

def OfflineUpgradeRequest.validate (request : OfflineUpgradeRequest) : Except AppError Unit :=
  let version := (stripPrefix ['v'] request.targetVersion).getD request.targetVersion
  if (version.splitOn '.').length ≠ 3 ∨
      (version.splitOn '.').any (fun part => part.isEmpty || !part.all Char.isDigit) then
    .error ⟨.processCommandInvalid, "upgrade version must be SemVer"⟩
  else if !isSha256Digest request.imageDigest then
    .error ⟨.backupDestinationUnsafe, "upgrade image digest must be SHA-256"⟩
  else if !"/".toList.isPrefixOf request.passphraseFile ||
      request.passphraseFile.contains '\x00' then
    .error ⟨.backupSecretInputInvalid, "passphrase file must be an absolute path reference"⟩
  else if !"/".toList.isPrefixOf request.artifactFile || request.artifactFile.contains '\x00' then
    .error ⟨.backupDestinationUnsafe, "artifact file must be an absolute path reference"⟩
  else .ok ()

def OfflineUpgradeJournal.validate (journal : OfflineUpgradeJournal) : Except AppError Unit :=
  if journal.operationId.isEmpty || journal.backupId.isEmpty ||
      !isSha256Digest journal.previousArtifactDigest ||
      !isSha256Digest journal.targetArtifactDigest then
    .error ⟨.backupManifestInvalid, "upgrade journal identity is invalid"⟩
  else .ok ()

section World

inductive OfflineUpgradeCommand where
  | admitArtifact (artifactFile targetVersion imageDigest : Text)
  | preflight (targetVersion imageDigest : Text)
  | createAndVerifyBackup (passphraseFile : Text)
  | stageArtifact (imageDigest : Text)
  | drainAndStop
  | switchToStagedArtifact
  | startAndWaitReady
  | rollback (backupId previousArtifactDigest : Text)
  deriving DecidableEq

inductive Artifact where
  | old | new

/-- The commands that took effect since the upgrade began, and the journal. -/
structure UpgradeWorld where
  commands : List OfflineUpgradeCommand
  journal : Option OfflineUpgradeJournal

def OfflineUpgradeCommand.place : OfflineUpgradeCommand → Artifact → Artifact
  | switchToStagedArtifact, _ => .new
  | rollback _ _, _ => .old
  | _, artifact => artifact

def UpgradeWorld.artifact (world : UpgradeWorld) : Artifact :=
  world.commands.foldl (fun artifact command => command.place artifact) .old

/-- The effects of an upgrade; none of them is tried twice in one run. -/
inductive UpgradeEffect where
  | admission | preflight | drainAndStop | backup | stage | switch | start | rollback
  | persist (state : OfflineUpgradeState)
  deriving DecidableEq

/-- What becomes of the effects of one run, and what the backup helper reports. -/
structure UpgradeEnv where
  fate : UpgradeEffect → Fate Unit
  receipt : OfflineUpgradeBackupReceipt

abbrev UpgradeAction (α : Type) := Action UpgradeWorld (Stop AppError) α

def helperFailed : AppError := ⟨.runtimeCommandRejected, "upgrade helper command failed"⟩

/-- A helper that fails may have done its work. -/
def runUpgradeCommand (fate : Fate Unit) (command : OfflineUpgradeCommand) : UpgradeAction PUnit :=
  durably fate
    (fun world => { world with commands := world.commands ++ [command] }) helperFailed

variable (env : UpgradeEnv)

variable (request : OfflineUpgradeRequest)

def admitUpgradeArtifact : UpgradeAction PUnit :=
  runUpgradeCommand (env.fate .admission)
    (.admitArtifact request.artifactFile request.targetVersion request.imageDigest)

def preflightUpgrade : UpgradeAction PUnit :=
  runUpgradeCommand (env.fate .preflight) (.preflight request.targetVersion request.imageDigest)

def createAndVerifyUpgradeBackup : UpgradeAction OfflineUpgradeBackupReceipt := do
  runUpgradeCommand (env.fate .backup) (.createAndVerifyBackup request.passphraseFile)
  return env.receipt

def stageUpgradeArtifact : UpgradeAction PUnit :=
  runUpgradeCommand (env.fate .stage) (.stageArtifact request.imageDigest)

def drainAndStopService : UpgradeAction PUnit :=
  runUpgradeCommand (env.fate .drainAndStop) .drainAndStop

def switchToStagedArtifact : UpgradeAction PUnit :=
  runUpgradeCommand (env.fate .switch) .switchToStagedArtifact

def startAndWaitReady : UpgradeAction PUnit :=
  runUpgradeCommand (env.fate .start) .startAndWaitReady

def rollbackUpgrade (receipt : OfflineUpgradeBackupReceipt) : UpgradeAction PUnit :=
  runUpgradeCommand (env.fate .rollback)
    (.rollback receipt.backupId receipt.previousArtifactDigest)

end World

def journalInvalid : AppError := ⟨.backupManifestInvalid, "upgrade journal is invalid"⟩

def hex (bytes : Bytes) : Text :=
  bytes.flatMap fun byte => [(byte.toNat / 16).digitChar, (byte.toNat % 16).digitChar]

def OfflineUpgradeState.name : OfflineUpgradeState → String
  | prepared => "prepared"
  | draining => "draining"
  | stopped => "stopped"
  | switched => "switched"
  | ready => "ready"
  | committed => "committed"
  | rollingBack => "rolling_back"
  | rolledBack => "rolled_back"

def OfflineUpgradeJournal.body (journal : OfflineUpgradeJournal) : Text :=
  "version=1\noperation=".toList ++ hex (encode journal.operationId) ++
    "\nstate=".toList ++ journal.state.name.toList ++
    "\nbackup=".toList ++ hex (encode journal.backupId) ++
    "\nprevious=".toList ++ journal.previousArtifactDigest ++
    "\ntarget=".toList ++ journal.targetArtifactDigest ++ ['\n']

/-- `FileOfflineUpgradeJournalStore`: the journal is written beside its place and renamed, so it is
changed at once, and a failure after the rename is still reported. -/
def persistJournal (fate : Fate Unit) (journal : OfflineUpgradeJournal) : UpgradeAction PUnit := do
  ofExcept (journal.validate.mapError fun _ => journalInvalid)
  durably fate (fun world => { world with journal := some journal }) journalInvalid

/-- A file of more than 4096 bytes is not read. -/
def loadUpgradeJournal (operationId : Text) : UpgradeAction (Option OfflineUpgradeJournal) := do
  let world ← read
  match world.journal with
  | none => return none
  | some journal =>
    if byteLen journal.body > 4096 then raise journalInvalid
    else
      ofExcept (journal.validate.mapError fun _ => journalInvalid)
      if journal.operationId ≠ operationId then raise journalInvalid
      else return some journal

section UseCases

variable (env : UpgradeEnv)

def operationIdOf (receipt : OfflineUpgradeBackupReceipt) : Text :=
  "upgrade-".toList ++ receipt.backupId

def persistUpgradeJournal (state : OfflineUpgradeState) (backup : OfflineUpgradeBackupReceipt)
    (targetArtifactDigest : Text) : UpgradeAction PUnit := do
  let journal : OfflineUpgradeJournal :=
    ⟨operationIdOf backup, state, backup.backupId, backup.previousArtifactDigest,
      targetArtifactDigest⟩
  ofExcept journal.validate
  persistJournal (env.fate (.persist state)) journal

variable (backup : OfflineUpgradeBackupReceipt) (targetArtifactDigest : Text)
  (request : OfflineUpgradeRequest) (x : UpgradeAction PUnit)

def prepareOfflineUpgrade : UpgradeAction OfflineUpgradeBackupReceipt := do
  ofExcept request.validate
  admitUpgradeArtifact env request
  preflightUpgrade env request
  match ← rescue (drainAndStopService env) with
  | .error e =>
    startAndWaitReady env
    raise e
  | .ok _ =>
    match ← rescue (createAndVerifyUpgradeBackup env request) with
    | .error e =>
      startAndWaitReady env
      raise e
    | .ok backup => return backup

/-- Returns the error with which the upgrade ends. -/
def rollbackJournaledUpgrade (originalError : AppError) : UpgradeAction PUnit := do
  persistUpgradeJournal env .rollingBack backup targetArtifactDigest
  rollbackUpgrade env backup
  persistUpgradeJournal env .rolledBack backup targetArtifactDigest
  raise originalError

/-- A step before the switch: the service is started again when it fails. -/
def orStart : UpgradeAction PUnit := do
  match ← rescue x with
  | .error e =>
    startAndWaitReady env
    raise e
  | .ok _ => return ⟨⟩

/-- A step from the switch on: the upgrade is rolled back when it fails. -/
def orRollback : UpgradeAction PUnit := do
  match ← rescue x with
  | .error e => rollbackJournaledUpgrade env backup targetArtifactDigest e
  | .ok _ => return ⟨⟩

def executeJournaledOfflineUpgrade : UpgradeAction OfflineUpgradeState := do
  let backup ← prepareOfflineUpgrade env request
  orStart env (persistUpgradeJournal env .prepared backup request.imageDigest)
  orStart env (stageUpgradeArtifact env request)
  orStart env (persistUpgradeJournal env .draining backup request.imageDigest)
  orStart env (persistUpgradeJournal env .stopped backup request.imageDigest)
  orRollback env backup request.imageDigest (switchToStagedArtifact env)
  orRollback env backup request.imageDigest
    (persistUpgradeJournal env .switched backup request.imageDigest)
  orRollback env backup request.imageDigest (startAndWaitReady env)
  persistUpgradeJournal env .ready backup request.imageDigest
  persistUpgradeJournal env .committed backup request.imageDigest
  return .committed

def journalUnavailable : AppError := ⟨.backupManifestInvalid, "upgrade journal is unavailable"⟩

def manualRecovery : AppError :=
  ⟨.backupStateTransitionInvalid, "upgrade journal requires manual recovery"⟩

/-- The rollback of a recovery. -/
def rollBack (journal : OfflineUpgradeJournal) : UpgradeAction OfflineUpgradeState := do
  persistJournal (env.fate (.persist .rollingBack)) { journal with state := .rollingBack }
  rollbackUpgrade env ⟨journal.backupId, journal.previousArtifactDigest⟩
  persistJournal (env.fate (.persist .rolledBack)) { journal with state := .rolledBack }
  return .rolledBack

def recoverOfflineUpgrade (operationId : Text) : UpgradeAction OfflineUpgradeState := do
  match ← loadUpgradeJournal operationId with
  | none => raise journalUnavailable
  | some journal =>
    ofExcept journal.validate
    match journal.state with
    | .committed => return .committed
    | .switched | .ready => rollBack env journal
    | _ => raise manualRecovery

end UseCases

end EdgeProxy

import EdgeProxy.Audit.Frames

/-! # The audit ledger

`FileAuditLedger` appends records to the last segment of a directory. A segment that is full is
followed by a new one; when there are too many segments or bytes, the oldest are removed and a
checkpoint records what they held. Opening the directory scans every frame again; with a recovery
context an incomplete last frame is cut off and recorded. Effects on the files succeed here: the
results are about what the ledger does with them.
-/

namespace EdgeProxy

open Rust Action Prod

/-- The segments of a ledger with their numbers, in ascending order. -/
abbrev Directory := List (ℕ × Bytes)

structure AuditSegment where
  number : ℕ
  firstSequence : ℕ
  lastSequence : ℕ
  terminalHash : Bytes
  bytes : ℕ
  deriving DecidableEq

structure AuditLedgerHead where
  generation : ℕ
  sequence : ℕ
  deriving DecidableEq

structure LedgerRecord where
  sequence : ℕ
  record : AuditRecord
  segment : ℕ
  deriving DecidableEq

inductive AuditLedgerIoState where
  | ready | encoding | appending | syncing | publishedHead | recovering | degraded | failedClosed
  deriving DecidableEq

inductive AuditLedgerIoEvent where
  | beginEncoding | encoded | appended | synced | failed

def AuditLedgerIoState.transition :
    AuditLedgerIoState → AuditLedgerIoEvent → Except AppError AuditLedgerIoState
  | .ready, .beginEncoding | .publishedHead, .beginEncoding | .recovering, .beginEncoding =>
    .ok .encoding
  | .encoding, .encoded => .ok .appending
  | .appending, .appended => .ok .syncing
  | .syncing, .synced => .ok .publishedHead
  | .encoding, .failed | .appending, .failed | .syncing, .failed | .recovering, .failed =>
    .ok .degraded
  | _, _ => .error ⟨.auditRecordInvalid, "audit ledger I/O state transition is invalid"⟩

structure FileAuditLedger where
  records : List LedgerRecord
  segments : List AuditSegment
  currentSegment : ℕ
  currentSegmentBytes : ℕ
  head : AuditLedgerHead
  lastHash : Bytes
  state : AuditLedgerIoState
  deriving DecidableEq

structure LedgerStore where
  ledger : FileAuditLedger
  directory : Directory

abbrev StoreAction (α : Type) := Action LedgerStore AppError α

def liftLedger {α : Type} (result : Except AppError α) : StoreAction α := fun store =>
  (result, store)

def AuditLedgerOptions.accepted (options : AuditLedgerOptions) : Bool :=
  0 < options.maxPayloadBytes && options.maxPayloadBytes ≤ 8 * 1024 &&
    0 < options.maxScanRecords && options.maxScanRecords ≤ 100000 &&
    headerLen + hashLen + 1 ≤ options.maxSegmentBytes &&
    options.maxSegmentBytes ≤ 4 * 1024 * 1024 && 0 < options.maxSegments &&
    options.maxSegments ≤ 32 && options.maxSegmentBytes ≤ options.maxTotalBytes &&
    options.maxTotalBytes ≤ 128 * 1024 * 1024 &&
    options.recoveryContext.all fun context => context.actorKind = .systemRecovery

namespace FileAuditLedger

section Append

variable (options : AuditLedgerOptions)

variable (ledger : FileAuditLedger) (record : AuditRecord) (nextFrameBytes timestamp : ℕ)
  (payload : Bytes)

def link : Link := ⟨ledger.head.sequence + 1, ledger.lastHash⟩

def totalBytes : ℕ := (ledger.segments.map AuditSegment.bytes).sum

def advance (event : AuditLedgerIoEvent) : StoreAction PUnit := fun store =>
  match store.ledger.state.transition event with
  | .ok state => (.ok ⟨⟩, { store with ledger.state := state })
  | .error error => (.error error, store)

def Directory.write (directory : Directory) (number : ℕ) (bytes : Bytes) : Directory :=
  directory.map fun file => if file.1 = number then (file.1, file.2 ++ bytes) else file

def extendSegment (link : Link) (payload : Bytes) (bytes : ℕ) (segment : AuditSegment) :
    AuditSegment :=
  { segment with
    firstSequence := if segment.firstSequence = 0 then link.sequence else segment.firstSequence
    lastSequence := link.sequence
    terminalHash := frameHash link payload
    bytes := bytes }

def extended (store : LedgerStore) : LedgerStore :=
  let ledger := store.ledger
  let frame := encodeFrame ledger.link payload
  let bytes := ledger.currentSegmentBytes + frame.length
  { ledger := { ledger with
      lastHash := frameHash ledger.link payload
      currentSegmentBytes := bytes
      head := { ledger.head with sequence := ledger.link.sequence }
      records := ledger.records ++ [⟨ledger.link.sequence, record, ledger.currentSegment⟩]
      segments := ledger.segments.dropLast ++
        (ledger.segments.getLast?.map (extendSegment ledger.link payload bytes)).toList }
    directory := Directory.write store.directory ledger.currentSegment frame }

def checkSequence : StoreAction PUnit := fun store =>
  if 2 ^ 64 ≤ store.ledger.link.sequence then
    (.error ⟨.auditSequenceInvalid, "audit sequence overflow"⟩, store)
  else (.ok ⟨⟩, store)

def appendEncoded : StoreAction AuditLedgerHead := do
  checkSequence
  advance .beginEncoding
  advance .encoded
  modify (extended record payload)
  advance .appended
  advance .synced
  let store ← read
  return store.ledger.head

def rotateSegment : StoreAction PUnit := fun store =>
  let ledger := store.ledger
  let number := ledger.currentSegment + 1
  if 2 ^ 64 ≤ number then (.error ⟨.auditCapacityReached, "audit segment overflow"⟩, store)
  else
    (.ok ⟨⟩,
      { ledger := { ledger with
          currentSegment := number
          currentSegmentBytes := 0
          segments := ledger.segments ++ [⟨number, 0, 0, ledger.lastHash, 0⟩] }
        directory := store.directory ++ [(number, [])] })

def retentionRequired (nextFrameBytes : ℕ) : Bool :=
  options.maxSegments < ledger.segments.length ||
    options.maxTotalBytes < ledger.totalBytes + nextFrameBytes

def identifierOf (value : Text) : Except AppError AuditIdentifier :=
  (AuditIdentifier.parse value).mapError fun _ => auditCorrupt

/-- A record that the ledger itself builds is checked like any other. -/
def checked : Except AppError AuditRecord :=
  match record.validate with
  | .ok () => .ok record
  | .error _ => .error auditCorrupt

@[irreducible] def retentionRecord (timestamp segment : ℕ) : Except AppError AuditRecord := do
  let operationId ← identifierOf ("retention-".toList ++ (toString segment).toList)
  let requestId ← identifierOf ("internal-".toList ++ (toString segment).toList)
  let targetId ← identifierOf "ledger".toList
  checked
    { recordVersion := 1
      recordKind := .retentionCheckpoint
      context := ⟨operationId, requestId, .systemRecovery, timestamp⟩
      action := .retentionCheckpoint
      targetKind := .auditLedger
      targetId := targetId
      beforeRevision := none
      afterRevision := none
      outcome := some .succeeded
      errorCode := none }

def retentionImpossible : AppError :=
  ⟨.auditCapacityReached, "audit retention bounds cannot be satisfied"⟩

/-- What a checkpoint says when the first `count` segments are removed. -/
def removedRange (count : ℕ) : RetentionMetadata where
  firstSequence := (ledger.segments.head?.map AuditSegment.firstSequence).getD 0
  lastSequence := (ledger.segments[count - 1]?.map AuditSegment.lastSequence).getD 0
  terminalHash := (ledger.segments[count - 1]?.map AuditSegment.terminalHash).getD []

def frameBytes : ℕ := headerLen + payload.length + hashLen

def removalFits (template : AuditRecord) (nextFrameBytes count : ℕ) : Bool :=
  let removed := ((ledger.segments.take count).map AuditSegment.bytes).sum
  let payload := encodeRecordWithRetention template (some (ledger.removedRange count))
  ledger.segments.length - count ≤ options.maxSegments &&
    ledger.totalBytes - removed + frameBytes payload + nextFrameBytes ≤ options.maxTotalBytes

/-- The least number of segments whose removal makes room; the last segment is never removed. -/
def removalCount (ledger : FileAuditLedger) (template : AuditRecord) (nextFrameBytes : ℕ) :
    ℕ → ℕ → Except AppError ℕ
  | 0, _ => .error retentionImpossible
  | fuel + 1, count =>
    if ledger.segments.length ≤ count + 1 then .error retentionImpossible
    else if removalFits options ledger template nextFrameBytes (count + 1) then .ok (count + 1)
    else removalCount ledger template nextFrameBytes fuel (count + 1)

def dropSegments (count : ℕ) (store : LedgerStore) : LedgerStore :=
  let ledger := store.ledger
  let removed := (ledger.segments.take count).map AuditSegment.number
  let segments := ledger.segments.drop count
  { ledger := { ledger with
      segments := segments
      records := ledger.records.filter fun record => record.segment ∉ removed
      head := { ledger.head with
        generation := (segments.head?.map fun segment => segment.number - 1).getD 0 } }
    directory := store.directory.filter fun file => file.1 ∉ removed }

def checkCheckpoint (nextFrameBytes : ℕ) : Except AppError Unit :=
  if options.maxTotalBytes < frameBytes payload + nextFrameBytes ∨
      options.maxSegmentBytes < frameBytes payload then
    .error ⟨.auditCapacityReached, "audit retention checkpoint exceeds storage bounds"⟩
  else .ok ()

def retainFor : StoreAction PUnit := do
  let store ← read
  let ledger := store.ledger
  let template ← liftLedger (retentionRecord timestamp ledger.currentSegment)
  let count ← liftLedger
    (removalCount options ledger template nextFrameBytes ledger.segments.length 0)
  let payload := encodeRecordWithRetention template (some (ledger.removedRange count))
  liftLedger (checkCheckpoint options payload nextFrameBytes)
  let _ ← appendEncoded template payload
  modify (dropSegments count)

def orDegrade (x : StoreAction PUnit) : StoreAction PUnit := fun store =>
  match x store with
  | (.ok a, store) => (.ok a, store)
  | (.error error, store) => (.error error, { store with ledger.state := .degraded })

def retainIfRequired : StoreAction PUnit := fun store =>
  if store.ledger.retentionRequired options nextFrameBytes then
    orDegrade (retainFor options nextFrameBytes timestamp) store
  else (.ok ⟨⟩, store)

def prepareStorage : StoreAction PUnit := fun store =>
  if store.ledger.currentSegmentBytes = 0 ∨
      store.ledger.currentSegmentBytes + nextFrameBytes ≤ options.maxSegmentBytes then
    (.ok ⟨⟩, store)
  else
    (do
      orDegrade rotateSegment
      retainIfRequired options nextFrameBytes timestamp : StoreAction PUnit) store

def ensureWritable : StoreAction PUnit := fun store =>
  if store.ledger.state = .degraded ∨ store.ledger.state = .failedClosed then
    (.error ⟨.auditUnavailable, "audit ledger is not writable"⟩, store)
  else (.ok ⟨⟩, store)

def checkRecord : Except AppError Bytes :=
  match record.validate with
  | .error _ => .error ⟨.auditRecordInvalid, "audit record invariant is invalid"⟩
  | .ok () =>
    let payload := encodeRecord record
    if options.maxPayloadBytes < payload.length then
      .error ⟨.auditRecordTooLarge, "audit payload exceeds limit"⟩
    else if options.maxSegmentBytes < frameBytes payload then
      .error ⟨.auditRecordTooLarge, "audit frame exceeds segment limit"⟩
    else .ok payload

def append : StoreAction AuditLedgerHead := do
  ensureWritable
  let payload ← liftLedger (checkRecord options record)
  prepareStorage options (frameBytes payload) record.context.receivedAtEpochSeconds
  appendEncoded record payload

def expectHead (expected : AuditLedgerHead) : StoreAction PUnit := fun store =>
  if expected ≠ store.ledger.head then
    (.error ⟨.auditRecordInvalid, "audit head mismatch"⟩, store)
  else (.ok ⟨⟩, store)

end Append

inductive Operation where
  | intent (record : AuditRecord)
  | terminal (record : AuditRecord) (expected : AuditLedgerHead)
  | reconciliation (record : AuditRecord) (expected : AuditLedgerHead)
  | securityObservation (record : AuditRecord)

def Operation.record : Operation → AuditRecord
  | intent record | terminal record _ | reconciliation record _ | securityObservation record =>
    record

def Operation.run (options : AuditLedgerOptions) : Operation → StoreAction AuditLedgerHead
  | intent record | securityObservation record => append options record
  | terminal record expected | reconciliation record expected => do
    expectHead expected
    append options record

section Open

variable (options : AuditLedgerOptions)

variable (directory : Directory) (context : AuditContext)

/-- The segments that `discover_segments` finds: their names have sixteen digits, none is number
zero and no number is left out. -/
def discoverSegments : Except AppError Directory :=
  if directory.any fun file => file.1 = 0 || 10 ^ 16 ≤ file.1 then .error auditCorrupt
  else if directory.map fst ≠ List.range' ((directory.head?.map fst).getD 1)
      directory.length then
    .error ⟨.auditInteriorCorruption, "audit segment sequence is not contiguous"⟩
  else .ok directory

def describeSegment (number : ℕ) (before after : ScanState) (bytes : ℕ) : AuditSegment :=
  let scanned := after.records.drop before.records.length
  { number
    firstSequence := (scanned.head?.map ScannedRecord.sequence).getD before.link.sequence
    lastSequence := (scanned.getLast?.map ScannedRecord.sequence).getD 0
    terminalHash := after.link.previous
    bytes }

structure DirectoryScan where
  state : ScanState
  segments : List AuditSegment
  directory : Directory
  recovered : Bool

def trailingIncomplete : AppError :=
  ⟨.auditTrailingFrameIncomplete, "audit trailing frame is incomplete"⟩

def scanFiles (first : ℕ) : Directory → ScanState → Except AppError DirectoryScan
  | [], state => .ok ⟨state, [], [], false⟩
  | (number, bytes) :: files, state =>
    match scanSegment options first number state bytes with
    | .refused error => .error error
    | .complete next => do
      let scan ← scanFiles first files next
      return { scan with
        segments := describeSegment number state next bytes.length :: scan.segments
        directory := (number, bytes) :: scan.directory }
    | .torn next left =>
      if options.recoveryContext.isSome ∧ files = [] then
        let kept := bytes.take (bytes.length - left.length)
        .ok ⟨next, [describeSegment number state next kept.length], [(number, kept)], true⟩
      else .error trailingIncomplete

/-- A ledger whose first segments were removed begins where a checkpoint says. -/
def anchorValid (state : ScanState) : Bool :=
  state.anchor.all fun link => (state.records.filterMap ScannedRecord.metadata).any fun metadata =>
    metadata.lastSequence + 1 = link.sequence && metadata.lastSequence + 1 < 2 ^ 64 &&
      metadata.terminalHash = link.previous && metadata.firstSequence ≤ metadata.lastSequence

def firstNumber : ℕ := (directory.head?.map fst).getD 1

def ScanState.initial : ScanState := ⟨.first, [], none⟩

def scanSegments : Except AppError DirectoryScan × Directory :=
  match scanFiles options (firstNumber directory) directory ScanState.initial with
  | .error error => (.error error, directory)
  | .ok scan =>
    if anchorValid scan.state then (.ok scan, scan.directory)
    else
      (.error ⟨.auditChainMismatch, "audit retention anchor has no valid checkpoint"⟩,
        scan.directory)

def ofScan (first : ℕ) (scan : DirectoryScan) : FileAuditLedger where
  records := scan.state.records.map fun record => ⟨record.sequence, record.record, record.segment⟩
  segments := scan.segments
  currentSegment := (scan.directory.getLast?.map fst).getD 1
  currentSegmentBytes := (scan.segments.getLast?.map AuditSegment.bytes).getD 0
  head := ⟨first - 1, (scan.state.records.getLast?.map ScannedRecord.sequence).getD 0⟩
  lastHash := scan.state.link.previous
  state := if scan.recovered then .recovering else .ready

@[irreducible] def recoveryRecord : Except AppError AuditRecord := do
  let targetId ← identifierOf "ledger".toList
  checked
    { recordVersion := 1
      recordKind := .systemRecovery
      context := context
      action := .systemTrailingRecovery
      targetKind := .auditLedger
      targetId := targetId
      beforeRevision := none
      afterRevision := none
      outcome := some .succeeded
      errorCode := none }

def recordRecovery : StoreAction AuditLedgerHead := do
  let record ← liftLedger (recoveryRecord context)
  append options record

def finishOpen : Except AppError FileAuditLedger × Directory :=
  match scanSegments options directory with
  | (.error error, directory) => (.error error, directory)
  | (.ok scan, directory) =>
    let ledger := ofScan (firstNumber directory) scan
    match options.recoveryContext with
    | some context =>
      if scan.recovered then
        match recordRecovery options context ⟨ledger, directory⟩ with
        | (.ok _, store) => (.ok store.ledger, store.directory)
        | (.error error, store) => (.error error, store.directory)
      else (.ok ledger, directory)
    | none => (.ok ledger, directory)

/-- `FileAuditLedger::open`, with what it leaves in the directory. -/
def openLedger : Except AppError FileAuditLedger × Directory :=
  if options.accepted then
    match discoverSegments directory with
    | .error error => (.error error, directory)
    | .ok [] => finishOpen options [(1, [])]
    | .ok files => finishOpen options files
  else (.error ⟨.auditRecordInvalid, "audit ledger bounds must be positive"⟩, directory)

end Open

section Rules

variable {options : AuditLedgerOptions} {store : LedgerStore} {record : AuditRecord}
  {payload : Bytes}

def published (record : AuditRecord) (payload : Bytes) (store : LedgerStore) : LedgerStore :=
  let next := extended record payload store
  { next with ledger.state := .publishedHead }

theorem appendEncoded_cases (record : AuditRecord) (payload : Bytes) (store : LedgerStore) :
    (∃ error, appendEncoded record payload store = (.error error, store)) ∨
      store.ledger.link.sequence < 2 ^ 64 ∧ appendEncoded record payload store =
        (.ok (published record payload store).ledger.head, published record payload store) := by
  by_cases hsequence : 2 ^ 64 ≤ store.ledger.link.sequence
  · have hcheck : checkSequence store =
        (.error ⟨.auditSequenceInvalid, "audit sequence overflow"⟩, store) := by
      rw [checkSequence, if_pos hsequence]
    exact .inl ⟨_, by rw [appendEncoded, bind_error hcheck]⟩
  · have hcheck : checkSequence store = (.ok ⟨⟩, store) := by
      rw [checkSequence, if_neg hsequence]
    rw [appendEncoded, bind_ok hcheck]
    rcases htransition : store.ledger.state.transition .beginEncoding with error | state
    · have hadvance : advance .beginEncoding store = (.error error, store) := by
        rw [advance, htransition]
      exact .inl ⟨error, by rw [bind_error hadvance]⟩
    · have hstate : state = .encoding := by
        rcases hs : store.ledger.state
        all_goals rw [hs] at htransition
        all_goals first
          | exact (Except.ok.inj htransition).symm
          | cases htransition
      subst hstate
      have hadvance : advance .beginEncoding store =
          (.ok ⟨⟩, { store with ledger.state := .encoding }) := by
        rw [advance, htransition]
      refine .inr ⟨not_le.mp hsequence, ?_⟩
      rw [bind_ok hadvance]
      rfl

end Rules

end FileAuditLedger

end EdgeProxy

import EdgeProxy.Audit.Record
import EdgeProxy.Lib.Json
import EdgeProxy.Lib.Sha256

/-! # The payloads of the audit ledger

A record is stored as JSON, a retention checkpoint together with what it removed. `RecordDto` has
the fields of the stored form; reading checks every identifier, name and number again.
-/

namespace EdgeProxy

open Rust List Option Prod

structure RetentionMetadata where
  firstSequence : ℕ
  lastSequence : ℕ
  terminalHash : Bytes
  deriving DecidableEq

structure RecordDto where
  recordVersion : ℕ
  recordKind : Text
  operationId : Text
  requestId : Text
  actorKind : Text
  action : Text
  targetKind : Text
  targetId : Text
  beforeRevision : Option Text
  afterRevision : Option Text
  outcome : Option Text
  errorCode : Option Text
  timestampEpochSeconds : ℕ
  prunedFirstSequence : Option ℕ
  prunedLastSequence : Option ℕ
  prunedTerminalHash : Option Text

def auditCorrupt : AppError := ⟨.auditRecordInvalid, "audit ledger verification failed"⟩

namespace RecordDto

def fieldNames : List Text :=
  ["record_version", "record_kind", "operation_id", "request_id", "actor_kind", "action",
    "target_kind", "target_id", "before_revision", "after_revision", "outcome", "error_code",
    "timestamp_epoch_seconds", "pruned_first_sequence", "pruned_last_sequence",
    "pruned_terminal_hash"].map String.toList

def optional {α : Type} (scalar : α → Json.Scalar) : Option α → Json.Scalar
  | none => .null
  | some a => scalar a

def values (d : RecordDto) : List Json.Scalar :=
  [.number d.recordVersion, .string d.recordKind, .string d.operationId, .string d.requestId,
    .string d.actorKind, .string d.action, .string d.targetKind, .string d.targetId,
    optional .string d.beforeRevision, optional .string d.afterRevision,
    optional .string d.outcome, optional .string d.errorCode, .number d.timestampEpochSeconds,
    optional .number d.prunedFirstSequence, optional .number d.prunedLastSequence,
    optional .string d.prunedTerminalHash]

/-- `serde_json::to_vec`. -/
def toVec (d : RecordDto) : Bytes := encode (Json.writeObject (fieldNames.zip d.values))

def readText : Json.Scalar → Option Text
  | .string t => some t
  | _ => none

def readUnsigned (bound : ℕ) : Json.Scalar → Option ℕ
  | .number n => if n < bound then some n else none
  | _ => none

def readOptional {α : Type} (read : Json.Scalar → Option α) : Json.Scalar → Option (Option α)
  | .null => some none
  | value => (read value).map some

def ofValues : List Json.Scalar → Option RecordDto
  | [version, kind, operation, request, actor, action, target, targetId, before, after, outcome,
      code, timestamp, first, last, hash] => do
    let recordVersion ← readUnsigned (2 ^ 16) version
    let recordKind ← readText kind
    let operationId ← readText operation
    let requestId ← readText request
    let actorKind ← readText actor
    let action ← readText action
    let targetKind ← readText target
    let targetId ← readText targetId
    let beforeRevision ← readOptional readText before
    let afterRevision ← readOptional readText after
    let outcome ← readOptional readText outcome
    let errorCode ← readOptional readText code
    let timestampEpochSeconds ← readUnsigned (2 ^ 64) timestamp
    let prunedFirstSequence ← readOptional (readUnsigned (2 ^ 64)) first
    let prunedLastSequence ← readOptional (readUnsigned (2 ^ 64)) last
    let prunedTerminalHash ← readOptional readText hash
    some { recordVersion, recordKind, operationId, requestId, actorKind, action, targetKind,
           targetId, beforeRevision, afterRevision, outcome, errorCode, timestampEpochSeconds,
           prunedFirstSequence, prunedLastSequence, prunedTerminalHash }
  | _ => none

/-- The values of an object: unknown and repeated fields are refused (`deny_unknown_fields`), and
an absent field reads as `null`, which only an option accepts. -/
def valuesOf (fields : List (Text × Json.Scalar)) : Option (List Json.Scalar) :=
  if (fields.map fst).Nodup ∧ ∀ name ∈ fields.map fst, name ∈ fieldNames then
    some (fieldNames.map fun name => (fields.lookup name).getD .null)
  else none

/-- `serde_json::from_slice`. -/
def fromSlice (bytes : Bytes) : Option RecordDto := do
  let text ← decode bytes
  match ← Json.readDocument text with
  | .object fields => do ofValues (← valuesOf fields)
  | .array values => ofValues values

def Fits (d : RecordDto) : Prop :=
  d.recordVersion < 2 ^ 16 ∧ d.timestampEpochSeconds < 2 ^ 64 ∧
    (∀ n ∈ d.prunedFirstSequence, n < 2 ^ 64) ∧ ∀ n ∈ d.prunedLastSequence, n < 2 ^ 64

theorem readOptional_text (t : Option Text) :
    readOptional readText (optional .string t) = some t := by
  cases t with
  | none => rfl
  | some => rfl

theorem readOptional_number {n : Option ℕ} {bound : ℕ} (h : ∀ k ∈ n, k < bound) :
    readOptional (readUnsigned bound) (optional .number n) = some n := by
  cases n with
  | none => rfl
  | some k => simp [optional, readOptional, readUnsigned, h k rfl]

variable {d : RecordDto}

theorem ofValues_values (h : d.Fits) : ofValues d.values = some d := by
  obtain ⟨hversion, htime, hfirst, hlast⟩ := h
  simp only [ofValues, values, readText, readUnsigned, if_pos hversion, if_pos htime,
    readOptional_text, readOptional_number hfirst, readOptional_number hlast,
    bind_eq_bind, bind_some]

theorem map_lookup_zip {names : List Text} (hnodup : names.Nodup) {values : List Json.Scalar}
    (h : values.length = names.length) :
    names.map (fun name => ((names.zip values).lookup name).getD .null) = values := by
  induction names generalizing values with
  | nil => exact (length_eq_zero_iff.mp h).symm
  | cons name names ih =>
    obtain ⟨value, values, rfl⟩ := exists_cons_of_length_eq_add_one h
    obtain ⟨hfresh, hnodup⟩ := nodup_cons.mp hnodup
    have hrest : names.map (fun other =>
        (((name, value) :: names.zip values).lookup other).getD .null) = values := by
      rw [← ih hnodup (Nat.succ.inj h)]
      refine map_congr_left fun other hother => ?_
      have hne : other ≠ name := fun heq => hfresh (heq ▸ hother)
      rw [lookup_cons, beq_false_of_ne hne, ih hnodup (Nat.succ.inj h)]
    rw [zip_cons_cons, map_cons, hrest, lookup_cons_self, getD_some]

theorem valuesOf_zip {values : List Json.Scalar} (h : values.length = fieldNames.length) :
    valuesOf (fieldNames.zip values) = some values := by
  have hnames : (fieldNames.zip values).map fst = fieldNames :=
    map_fst_zip h.ge
  have hnodup : fieldNames.Nodup := by decide
  rw [valuesOf, hnames, if_pos ⟨hnodup, fun _ => id⟩, map_lookup_zip hnodup h]

theorem fits_values (h : d.Fits) : ∀ field ∈ fieldNames.zip d.values, field.2.fits := by
  obtain ⟨hversion, htime, hfirst, hlast⟩ := h
  intro field hfield
  have hmem : field.2 ∈ d.values := (of_mem_zip (a := field.1) (b := field.2) hfield).2
  have hoption (n : Option ℕ) (hn : ∀ k ∈ n, k < 2 ^ 64) : (optional .number n).fits := by
    cases n with
    | none => trivial
    | some k => exact hn k rfl
  have htext (t : Option Text) : (optional .string t).fits := by
    cases t with
    | none => trivial
    | some => trivial
  simp only [values, mem_cons, not_mem_nil, or_false] at hmem
  rcases hmem with h | h | h | h | h | h | h | h | h | h | h | h | h | h | h | h
  all_goals rw [h]
  · exact hversion.trans (by decide)
  all_goals first
    | trivial
    | exact htext _
    | exact htime
    | exact hoption _ hfirst
    | exact hoption _ hlast

theorem fromSlice_toVec (h : d.Fits) : fromSlice d.toVec = some d := by
  have hlength : d.values.length = fieldNames.length := rfl
  simp only [fromSlice, toVec, decode_encode, bind_eq_bind, bind_some,
    Json.readDocument_writeObject (fits_values h), valuesOf_zip hlength, ofValues_values h]

end RecordDto

section Names

variable {α : Type}

def parseName (all : List α) (asStr : α → String) (name : Text) : Except AppError α :=
  match all.find? fun a => (asStr a).toList = name with
  | some a => .ok a
  | none => .error auditCorrupt

def parseKind : Text → Except AppError AuditRecordKind :=
  parseName [.intent, .terminal, .reconciliation, .securityObservation, .retentionCheckpoint,
    .systemRecovery] AuditRecordKind.asStr

def parseActor : Text → Except AppError AuditActorKind :=
  parseName [.bootstrapSetup, .bootstrapAdmin, .maintenanceCli, .systemRecovery]
    AuditActorKind.asStr

def parseTarget : Text → Except AppError AuditTargetKind :=
  parseName [.configRevision, .proxyHost, .certificate, .trustBundle, .adminAccount, .restore,
    .auditLedger] AuditTargetKind.asStr

def parseOutcome : Text → Except AppError AuditOutcome :=
  parseName [.succeeded, .failed, .observed, .reconciledCommitted, .reconciledNotCommitted,
    .reconciliationUnknown] AuditOutcome.asStr

def parseAction : Text → Except AppError AuditAction :=
  parseName [.configApply, .configRollback, .proxyHostCreate, .proxyHostUpdate, .proxyHostDelete,
    .certificateIssue, .certificateRenew, .certificateImport, .certificateInstall,
    .trustBundleImport, .trustBundleDelete, .adminSetup, .adminLoginSuccess, .adminLogout,
    .adminLockout, .adminAuthFailureSampled, .maintenanceRestoreImported, .systemTrailingRecovery,
    .retentionCheckpoint] AuditAction.asStr

def parseIdentifier (value : Text) : Except AppError AuditIdentifier :=
  (AuditIdentifier.parse value).mapError fun _ => auditCorrupt

theorem parseKind_asStr (kind : AuditRecordKind) : parseKind kind.asStr.toList = .ok kind := by
  cases kind <;> rfl

theorem parseActor_asStr (actor : AuditActorKind) : parseActor actor.asStr.toList = .ok actor := by
  cases actor <;> rfl

theorem parseTarget_asStr (target : AuditTargetKind) :
    parseTarget target.asStr.toList = .ok target := by
  cases target <;> rfl

theorem parseOutcome_asStr (outcome : AuditOutcome) :
    parseOutcome outcome.asStr.toList = .ok outcome := by
  cases outcome <;> rfl

theorem parseAction_asStr (action : AuditAction) :
    parseAction action.asStr.toList = .ok action := by
  cases action <;> rfl

theorem parseIdentifier_value (id : AuditIdentifier) : parseIdentifier id.value = .ok id := by
  rw [parseIdentifier, AuditIdentifier.parse_value]
  rfl

end Names

def hexByte (b : UInt8) : Text := [(b.toNat / 16).digitChar, (b.toNat % 16).digitChar]

def encodeHash (hash : Bytes) : Text := hash.flatMap hexByte

def decodePairs : Text → Option Bytes
  | high :: low :: t => do
    let value ← digitsValue 16 0 [high, low]
    let bytes ← decodePairs t
    some (UInt8.ofNat value :: bytes)
  | [] => some []
  | [_] => none

def decodeHash (value : Text) : Except AppError Bytes :=
  if byteLen value ≠ 64 then .error auditCorrupt
  else
    match decodePairs value with
    | some bytes => .ok bytes
    | none => .error auditCorrupt

theorem digitsValue_hexByte (b : UInt8) : digitsValue 16 0 (hexByte b) = some b.toNat := by
  have hall : ∀ n < 256, digitsValue 16 0 [(n / 16).digitChar, (n % 16).digitChar] = some n := by
    decide +kernel
  exact hall b.toNat b.toNat_lt

theorem decodePairs_encodeHash (hash : Bytes) : decodePairs (encodeHash hash) = some hash := by
  induction hash with
  | nil => rfl
  | cons b _ ih =>
    have hb := digitsValue_hexByte b
    rw [hexByte] at hb
    rw [encodeHash, flatMap_cons, hexByte, cons_append, cons_append,
      nil_append, decodePairs, hb, ← encodeHash, ih]
    simp

theorem byteLen_hexByte (b : UInt8) : byteLen (hexByte b) = 2 := by
  have hall : ∀ n < 256, byteLen [(n / 16).digitChar, (n % 16).digitChar] = 2 := by
    decide +kernel
  exact hall b.toNat b.toNat_lt

theorem byteLen_encodeHash (hash : Bytes) : byteLen (encodeHash hash) = 2 * hash.length := by
  induction hash with
  | nil => rfl
  | cons _ _ ih =>
    rw [encodeHash, flatMap_cons, byteLen_append, byteLen_hexByte, ← encodeHash, ih, length_cons]
    omega

theorem decodeHash_encodeHash {hash : Bytes} (h : hash.length = 32) :
    decodeHash (encodeHash hash) = .ok hash := by
  rw [decodeHash, byteLen_encodeHash, h, if_neg (by decide), decodePairs_encodeHash]

section Records

def recordDto (record : AuditRecord) (metadata : Option RetentionMetadata) : RecordDto where
  recordVersion := record.recordVersion
  recordKind := record.recordKind.asStr.toList
  operationId := record.context.operationId.value
  requestId := record.context.requestId.value
  actorKind := record.context.actorKind.asStr.toList
  action := record.action.asStr.toList
  targetKind := record.targetKind.asStr.toList
  targetId := record.targetId.value
  beforeRevision := record.beforeRevision.map AuditIdentifier.value
  afterRevision := record.afterRevision.map AuditIdentifier.value
  outcome := record.outcome.map fun outcome => outcome.asStr.toList
  errorCode := record.errorCode.map AuditIdentifier.value
  timestampEpochSeconds := record.context.receivedAtEpochSeconds
  prunedFirstSequence := metadata.map RetentionMetadata.firstSequence
  prunedLastSequence := metadata.map RetentionMetadata.lastSequence
  prunedTerminalHash := metadata.map fun metadata => encodeHash metadata.terminalHash

def encodeRecordWithRetention (record : AuditRecord) (metadata : Option RetentionMetadata) :
    Bytes :=
  (recordDto record metadata).toVec

def encodeRecord (record : AuditRecord) : Bytes := encodeRecordWithRetention record none

def parseOptional {α : Type} (parse : Text → Except AppError α) :
    Option Text → Except AppError (Option α)
  | none => .ok none
  | some value => (parse value).map some

def auditVersionUnsupported : AppError :=
  ⟨.auditUnsupportedVersion, "audit record version is unsupported"⟩

def recordOfDto (d : RecordDto) : Except AppError AuditRecord := do
  if d.recordVersion ≠ 1 then throw auditVersionUnsupported
  let recordKind ← parseKind d.recordKind
  let operationId ← parseIdentifier d.operationId
  let requestId ← parseIdentifier d.requestId
  let actorKind ← parseActor d.actorKind
  let action ← parseAction d.action
  let targetKind ← parseTarget d.targetKind
  let targetId ← parseIdentifier d.targetId
  let beforeRevision ← parseOptional parseIdentifier d.beforeRevision
  let afterRevision ← parseOptional parseIdentifier d.afterRevision
  let outcome ← parseOptional parseOutcome d.outcome
  let errorCode ← parseOptional parseIdentifier d.errorCode
  let context : AuditContext :=
    { operationId, requestId, actorKind, receivedAtEpochSeconds := d.timestampEpochSeconds }
  let record : AuditRecord :=
    { recordVersion := d.recordVersion, recordKind, context, action, targetKind, targetId,
      beforeRevision, afterRevision, outcome, errorCode }
  match record.validate with
  | .ok () => return record
  | .error _ => throw auditCorrupt

def metadataOfDto (d : RecordDto) (kind : AuditRecordKind) :
    Except AppError (Option RetentionMetadata) :=
  match d.prunedFirstSequence, d.prunedLastSequence, d.prunedTerminalHash with
  | none, none, none => if kind ≠ .retentionCheckpoint then .ok none else .error auditCorrupt
  | some firstSequence, some lastSequence, some hash =>
    if kind = .retentionCheckpoint ∧ 0 < firstSequence ∧ firstSequence ≤ lastSequence then
      (decodeHash hash).map fun terminalHash => some { firstSequence, lastSequence, terminalHash }
    else .error auditCorrupt
  | _, _, _ => .error auditCorrupt

def decodeRecordWithRetention (bytes : Bytes) :
    Except AppError (AuditRecord × Option RetentionMetadata) :=
  match RecordDto.fromSlice bytes with
  | none => .error auditCorrupt
  | some d => do
    let record ← recordOfDto d
    let metadata ← metadataOfDto d record.recordKind
    return (record, metadata)

/-- What a removed range can be: sequences are 64-bit and a hash has 32 bytes. -/
structure RetentionMetadata.Valid (metadata : RetentionMetadata) : Prop where
  pos : 0 < metadata.firstSequence
  le : metadata.firstSequence ≤ metadata.lastSequence
  lt : metadata.lastSequence < 2 ^ 64
  hash : metadata.terminalHash.length = 32

structure Storable (record : AuditRecord) (metadata : Option RetentionMetadata) : Prop where
  valid : record.validate = .ok ()
  time : record.context.receivedAtEpochSeconds < 2 ^ 64
  kind : record.recordKind = .retentionCheckpoint ↔ metadata.isSome
  metadata : ∀ range ∈ metadata, range.Valid

theorem AuditRecord.version_of_validate {record : AuditRecord} (h : record.validate = .ok ()) :
    record.recordVersion = 1 := by
  rw [validate] at h
  split_ifs at h with hvalid
  simp only [ne_eq, Bool.or_eq_true, decide_eq_true_eq, Bool.not_eq_true'] at hvalid
  by_contra hversion
  exact hvalid (.inl hversion)

variable {record : AuditRecord} {metadata : Option RetentionMetadata}

theorem Storable.fits (h : Storable record metadata) : (recordDto record metadata).Fits := by
  refine ⟨?_, h.time, ?_, ?_⟩
  · exact (AuditRecord.version_of_validate h.valid).trans_lt (by decide)
  · intro n hn
    obtain ⟨range, hrange, rfl⟩ := mem_map.mp hn
    exact (h.metadata range hrange).le.trans_lt (h.metadata range hrange).lt
  · intro n hn
    obtain ⟨range, hrange, rfl⟩ := mem_map.mp hn
    exact (h.metadata range hrange).lt

theorem parseOptional_map {α : Type} {parse : Text → Except AppError α} {name : α → Text}
    (h : ∀ a, parse (name a) = .ok a) (a : Option α) :
    parseOptional parse (a.map name) = .ok a := by
  cases a with
  | none => rfl
  | some =>
    rw [map_some, parseOptional, h]
    rfl

theorem recordOfDto_recordDto (h : record.validate = .ok ()) :
    recordOfDto (recordDto record metadata) = .ok record := by
  have hversion := AuditRecord.version_of_validate h
  have hids := parseOptional_map parseIdentifier_value
  have houtcome := parseOptional_map parseOutcome_asStr
  simp only [recordOfDto, recordDto, hversion, ne_eq, not_true_eq_false, if_false,
    parseKind_asStr, parseActor_asStr, parseAction_asStr, parseTarget_asStr,
    parseIdentifier_value, hids, houtcome, ok_bind]
  rw [← hversion, h]
  rfl

theorem Storable.metadataOfDto_eq (h : Storable record metadata) :
    metadataOfDto (recordDto record metadata) record.recordKind = .ok metadata := by
  cases metadata with
  | none =>
    have hkind : record.recordKind ≠ .retentionCheckpoint := by simp [h.kind]
    simp [metadataOfDto, recordDto, hkind]
  | some range =>
    have hkind : record.recordKind = .retentionCheckpoint := by simp [h.kind]
    obtain ⟨hpos, hle, _, hhash⟩ := h.metadata range rfl
    simp [metadataOfDto, recordDto, hkind, hpos, hle, decodeHash_encodeHash hhash, Except.map]

theorem decodeRecord_encodeRecord_eq (h : record.validate = .ok ())
    (hfits : (recordDto record metadata).Fits) :
    decodeRecordWithRetention (encodeRecordWithRetention record metadata) =
      (metadataOfDto (recordDto record metadata) record.recordKind).map (record, ·) := by
  rw [decodeRecordWithRetention, encodeRecordWithRetention, RecordDto.fromSlice_toVec hfits]
  simp only [recordOfDto_recordDto h, ok_bind]
  rfl

theorem decodeRecord_encodeRecord (h : Storable record metadata) :
    decodeRecordWithRetention (encodeRecordWithRetention record metadata) =
      .ok (record, metadata) := by
  rw [decodeRecord_encodeRecord_eq h.valid h.fits, h.metadataOfDto_eq]
  rfl

end Records

end EdgeProxy

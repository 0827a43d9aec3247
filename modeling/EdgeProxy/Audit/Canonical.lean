import EdgeProxy.Audit.Writer

/-! # The payloads that decode

The decoder accepts more than the encoder writes: white space, fields in another order or left out,
and capital letters in a hash. What it accepts is the encoding of what it returns exactly if none of
these is used. The other way round, `append` also takes a checkpoint without its range, which is
encoded and not decoded.
-/

namespace EdgeProxy

open Rust List FileAuditLedger

variable {value : Text}

section Hash

theorem toDigit_eq_some {c : Char} {d : ℕ} (h : toDigit 16 c = some d) :
    d < 16 ∧ d.digitChar = c.toLower := by
  have hall : ∀ n < 128, ∀ d ∈ toDigit 16 (Char.ofNat n),
      d < 16 ∧ d.digitChar = (Char.ofNat n).toLower := by decide
  have halnum := isAsciiAlphanumeric_iff.mp (isAsciiAlphanumeric_of_toDigit (by rw [h]; rfl))
  have hd := hall c.toNat (by omega) d
  rw [Char.ofNat_toNat] at hd
  exact hd h

theorem hexByte_digits {d e : ℕ} (hd : d < 16) (he : e < 16) :
    hexByte (UInt8.ofNat (d * 16 + e)) = [d.digitChar, e.digitChar] := by
  have hall : ∀ d < 16, ∀ e < 16,
      hexByte (UInt8.ofNat (d * 16 + e)) = [d.digitChar, e.digitChar] := by decide
  exact hall d hd e he

theorem encodeHash_decodePairs {bytes : Bytes} (h : decodePairs value = some bytes) :
    encodeHash bytes = toAsciiLowercase value := by
  induction value using decodePairs.induct generalizing bytes with
  | case1 high low t ih =>
    simp only [decodePairs, digitsValue, Option.bind_eq_bind, Option.bind_eq_some_iff,
      Option.some.injEq] at h
    obtain ⟨_, ⟨d, hd, e, he, rfl⟩, rest, hrest, rfl⟩ := h
    obtain ⟨hd, hhigh⟩ := toDigit_eq_some hd
    obtain ⟨he, hlow⟩ := toDigit_eq_some he
    rw [encodeHash, flatMap_cons, ← encodeHash, ih hrest, Nat.zero_mul, Nat.zero_add,
      hexByte_digits hd he, hhigh, hlow]
    rfl
  | case2 =>
    cases h
    rfl
  | case3 => cases h

theorem encodeHash_of_decodeHash {bytes : Bytes} (h : decodeHash value = .ok bytes) :
    encodeHash bytes = toAsciiLowercase value := by
  rw [decodeHash, ite_error_eq_ok] at h
  obtain ⟨-, h⟩ := h
  split at h
  · next hpairs =>
    cases h
    exact encodeHash_decodePairs hpairs
  · cases h

end Hash

section Fields

theorem parseName_eq_ok {α : Type} {all : List α} {asStr : α → String} {name : Text} {a : α}
    (h : parseName all asStr name = .ok a) : (asStr a).toList = name := by
  rw [parseName] at h
  split at h
  · next hfind =>
    cases h
    simpa using find?_some hfind
  · cases h

theorem parseIdentifier_eq_ok {id : AuditIdentifier}
    (h : parseIdentifier value = .ok id) : id.value = value := by
  rw [parseIdentifier] at h
  cases hparse : AuditIdentifier.parse value with
  | error =>
    rw [hparse] at h
    cases h
  | ok =>
    rw [hparse] at h
    cases h
    exact AuditIdentifier.parse_eq_ok hparse

theorem parseOptional_eq_ok {α : Type} {parse : Text → Except AppError α} {name : α → Text}
    {value : Option Text} {a : Option α} (h : parseOptional parse value = .ok a)
    (hparse : ∀ {value a}, parse value = .ok a → name a = value) : a.map name = value := by
  cases value with
  | none =>
    cases h
    rfl
  | some =>
    obtain ⟨_, hvalue, rfl⟩ := map_eq_ok.mp h
    rw [Option.map_some, hparse hvalue]

variable {d : RecordDto} {record : AuditRecord} {metadata : Option RetentionMetadata}

theorem recordOfDto_eq_ok (h : recordOfDto d = .ok record) : record.validate = .ok () ∧
    recordDto record none = { d with
      prunedFirstSequence := none, prunedLastSequence := none, prunedTerminalHash := none } := by
  rw [recordOfDto] at h
  split_ifs at h
  · cases h
  obtain ⟨_, hkind, h₁⟩ := bind_eq_ok.mp h
  obtain ⟨_, hoperation, h₂⟩ := bind_eq_ok.mp h₁
  obtain ⟨_, hrequest, h₃⟩ := bind_eq_ok.mp h₂
  obtain ⟨_, hactor, h₄⟩ := bind_eq_ok.mp h₃
  obtain ⟨_, haction, h₅⟩ := bind_eq_ok.mp h₄
  obtain ⟨_, htarget, h₆⟩ := bind_eq_ok.mp h₅
  obtain ⟨_, hid, h₇⟩ := bind_eq_ok.mp h₆
  obtain ⟨_, hbefore, h₈⟩ := bind_eq_ok.mp h₇
  obtain ⟨_, hafter, h₉⟩ := bind_eq_ok.mp h₈
  obtain ⟨_, houtcome, h₁₀⟩ := bind_eq_ok.mp h₉
  obtain ⟨_, hcode, h₁₁⟩ := bind_eq_ok.mp h₁₀
  dsimp only at h₁₁
  split at h₁₁
  · next hvalid =>
    cases h₁₁
    refine ⟨hvalid, ?_⟩
    simp only [recordDto, parseName_eq_ok hkind, parseIdentifier_eq_ok hoperation,
      parseIdentifier_eq_ok hrequest, parseName_eq_ok hactor, parseName_eq_ok haction,
      parseName_eq_ok htarget, parseIdentifier_eq_ok hid,
      parseOptional_eq_ok hbefore parseIdentifier_eq_ok,
      parseOptional_eq_ok hafter parseIdentifier_eq_ok,
      parseOptional_eq_ok houtcome parseName_eq_ok,
      parseOptional_eq_ok hcode parseIdentifier_eq_ok, Option.map_none]
  · cases h₁₁

theorem metadataOfDto_eq_ok {kind : AuditRecordKind} (h : metadataOfDto d kind = .ok metadata) :
    metadata = none ∧ kind ≠ .retentionCheckpoint ∧ d.prunedFirstSequence = none ∧
        d.prunedLastSequence = none ∧ d.prunedTerminalHash = none ∨
      ∃ range hash, metadata = some range ∧ kind = .retentionCheckpoint ∧
        (0 < range.firstSequence ∧ range.firstSequence ≤ range.lastSequence) ∧
        d.prunedFirstSequence = some range.firstSequence ∧
        d.prunedLastSequence = some range.lastSequence ∧ d.prunedTerminalHash = some hash ∧
        decodeHash hash = .ok range.terminalHash := by
  unfold metadataOfDto at h
  split at h
  · next hfirst hlast hhash =>
    split_ifs at h with hkind
    cases h
    exact .inl ⟨rfl, hkind, hfirst, hlast, hhash⟩
  · next first last hash hfirst hlast hhash =>
    split_ifs at h with hkind
    obtain ⟨terminalHash, hdecode, rfl⟩ := map_eq_ok.mp h
    exact .inr ⟨⟨first, last, terminalHash⟩, hash, rfl, hkind.1, hkind.2, hfirst, hlast, hhash,
      hdecode⟩
  · cases h

end Fields

section Payloads

variable {payload : Bytes} {record : AuditRecord} {metadata : Option RetentionMetadata}

/-- What the types of the fields say: numbers of 64 bits and a hash of 32 bytes. -/
def Typed (record : AuditRecord) (metadata : Option RetentionMetadata) : Prop :=
  record.context.receivedAtEpochSeconds < 2 ^ 64 ∧
    ∀ range ∈ metadata, range.lastSequence < 2 ^ 64 ∧ range.terminalHash.length = 32

/-- The payload is the compact object of all fields in their order, with the hash in lower case. -/
def Compact (payload : Bytes) : Prop :=
  ∃ d : RecordDto, d.Fits ∧ payload = d.toVec ∧
    ∀ hash ∈ d.prunedTerminalHash, toAsciiLowercase hash = hash

theorem readUnsigned_lt {bound n : ℕ} {value : Json.Scalar}
    (h : RecordDto.readUnsigned bound value = some n) : n < bound := by
  unfold RecordDto.readUnsigned at h
  split at h
  · split_ifs at h with hlt
    cases h
    exact hlt
  · cases h

theorem readOptional_lt {bound : ℕ} {n : Option ℕ} {value : Json.Scalar}
    (h : RecordDto.readOptional (RecordDto.readUnsigned bound) value = some n) :
    ∀ k ∈ n, k < bound := by
  unfold RecordDto.readOptional at h
  split at h
  · cases h
    nofun
  · obtain ⟨_, hread, rfl⟩ := Option.map_eq_some_iff.mp h
    rintro _ ⟨⟩
    exact readUnsigned_lt hread

theorem fits_of_ofValues {d : RecordDto} {values : List Json.Scalar}
    (h : RecordDto.ofValues values = some d) : d.Fits := by
  unfold RecordDto.ofValues at h
  split at h
  · obtain ⟨_, hversion, h⟩ := Option.bind_eq_some_iff.mp h
    iterate 11 obtain ⟨_, -, h⟩ := Option.bind_eq_some_iff.mp h
    obtain ⟨_, htime, h⟩ := Option.bind_eq_some_iff.mp h
    obtain ⟨_, hfirst, h⟩ := Option.bind_eq_some_iff.mp h
    obtain ⟨_, hlast, h⟩ := Option.bind_eq_some_iff.mp h
    obtain ⟨_, -, h⟩ := Option.bind_eq_some_iff.mp h
    cases h
    exact ⟨readUnsigned_lt hversion, readUnsigned_lt htime, readOptional_lt hfirst,
      readOptional_lt hlast⟩
  · cases h

theorem fits_of_fromSlice {d : RecordDto} (h : RecordDto.fromSlice payload = some d) : d.Fits := by
  obtain ⟨_, -, h⟩ := Option.bind_eq_some_iff.mp h
  obtain ⟨document, -, h⟩ := Option.bind_eq_some_iff.mp h
  cases document with
  | object =>
    obtain ⟨_, -, h⟩ := Option.bind_eq_some_iff.mp h
    exact fits_of_ofValues h
  | array => exact fits_of_ofValues h

theorem decodeRecord_eq_ok (h : decodeRecordWithRetention payload = .ok (record, metadata)) :
    ∃ d, RecordDto.fromSlice payload = some d ∧ recordOfDto d = .ok record ∧
      metadataOfDto d record.recordKind = .ok metadata := by
  rw [decodeRecordWithRetention] at h
  split at h
  · cases h
  · next d hd =>
    obtain ⟨_, hrecord, h⟩ := bind_eq_ok.mp h
    obtain ⟨_, hmetadata, h⟩ := bind_eq_ok.mp h
    cases h
    exact ⟨d, hd, hrecord, hmetadata⟩

theorem storable_of_decode (h : decodeRecordWithRetention payload = .ok (record, metadata))
    (htyped : Typed record metadata) : Storable record metadata := by
  obtain ⟨d, -, hrecord, hmetadata⟩ := decodeRecord_eq_ok h
  refine ⟨(recordOfDto_eq_ok hrecord).1, htyped.1, ?_, fun range hrange => ?_⟩
  all_goals
    rcases metadataOfDto_eq_ok hmetadata with ⟨rfl, hkind, -⟩ | ⟨_, _, rfl, hkind, hbounds, -⟩
  · simp [hkind]
  · simp [hkind]
  · cases hrange
  · cases hrange
    obtain ⟨hlast, hhash⟩ := htyped.2 _ rfl
    exact ⟨hbounds.1, hbounds.2, hlast, hhash⟩

theorem compact_encodeRecord (h : (recordDto record metadata).Fits) :
    Compact (encodeRecordWithRetention record metadata) := by
  refine ⟨recordDto record metadata, h, rfl, fun hash hhash => ?_⟩
  obtain ⟨range, -, rfl⟩ := Option.mem_map.mp hhash
  exact (encodeHash_decodePairs (decodePairs_encodeHash _)).symm

theorem fits_of_decode (h : decodeRecordWithRetention payload = .ok (record, metadata)) :
    (recordDto record metadata).Fits := by
  obtain ⟨d, hd, hrecord, hmetadata⟩ := decodeRecord_eq_ok h
  obtain ⟨hversion, htime, hfirst, hlast⟩ := fits_of_fromSlice hd
  have hdto := (recordOfDto_eq_ok hrecord).2
  refine ⟨(congrArg RecordDto.recordVersion hdto).trans_lt hversion,
    (congrArg RecordDto.timestampEpochSeconds hdto).trans_lt htime, ?_⟩
  rcases metadataOfDto_eq_ok hmetadata with ⟨rfl, -⟩ | ⟨_, _, rfl, -, -, hfirst', hlast', -⟩
  · exact ⟨nofun, nofun⟩
  · rw [hfirst'] at hfirst
    rw [hlast'] at hlast
    exact ⟨hfirst, hlast⟩

theorem encodeRecord_of_compact (hcompact : Compact payload)
    (h : decodeRecordWithRetention payload = .ok (record, metadata)) :
    encodeRecordWithRetention record metadata = payload := by
  obtain ⟨d, hfits, rfl, hlower⟩ := hcompact
  obtain ⟨_, hd, hrecord, hmetadata⟩ := decodeRecord_eq_ok h
  rw [RecordDto.fromSlice_toVec hfits] at hd
  cases hd
  have hdto : recordDto record metadata = { recordDto record none with
      prunedFirstSequence := metadata.map RetentionMetadata.firstSequence
      prunedLastSequence := metadata.map RetentionMetadata.lastSequence
      prunedTerminalHash := metadata.map fun range => encodeHash range.terminalHash } := rfl
  rw [encodeRecordWithRetention, hdto, (recordOfDto_eq_ok hrecord).2]
  refine congrArg RecordDto.toVec ?_
  rcases metadataOfDto_eq_ok hmetadata with ⟨rfl, -, hfirst, hlast, hhash⟩ |
    ⟨range, hash, rfl, -, -, hfirst, hlast, hhash, hdecode⟩
  · cases d
    simp_all
  · have hhex := (encodeHash_of_decodeHash hdecode).trans (hlower hash hhash)
    cases d
    simp_all

theorem length_encodeRecord_of_append {options : AuditLedgerOptions} {store : LedgerStore}
    (h : (append options record store).1.isOk = true) :
    (encodeRecord record).length ≤ options.maxPayloadBytes := by
  rcases hresult : append options record store with ⟨_ | head, store'⟩
  · rw [hresult] at h
    cases h
  · obtain ⟨_, _, -, hrest⟩ := Action.bind_eq_ok.mp hresult
    obtain ⟨_, _, hlift, -⟩ := Action.bind_eq_ok.mp hrest
    obtain ⟨rfl, -, hlength, -⟩ := checkRecord_eq_ok (liftLedger_eq_ok hlift).1
    exact hlength

/-- A valid record is read back with its range exactly if a range comes with a checkpoint and with
nothing else, is not empty and starts above zero. `append` keeps to the payload bound. A payload
that is read is read as a valid record, and is its encoding exactly if it is compact. -/
theorem payload_codec_exact_iff (record : AuditRecord) (metadata : Option RetentionMetadata) :
    (record.validate = .ok () → Typed record metadata →
      (decodeRecordWithRetention (encodeRecordWithRetention record metadata) =
          .ok (record, metadata) ↔
        (record.recordKind = .retentionCheckpoint ↔ metadata.isSome = true) ∧
          ∀ range ∈ metadata,
            0 < range.firstSequence ∧ range.firstSequence ≤ range.lastSequence)) ∧
    (∀ options store, (append options record store).1.isOk = true →
      (encodeRecord record).length ≤ options.maxPayloadBytes) ∧
    ∀ payload, decodeRecordWithRetention payload = .ok (record, metadata) →
      record.validate = .ok () ∧
        (encodeRecordWithRetention record metadata = payload ↔ Compact payload) := by
  refine ⟨fun hvalid htyped => ⟨fun h => ?_, fun h => ?_⟩,
    fun _ _ => length_encodeRecord_of_append, fun payload h => ?_⟩
  · have hstorable := storable_of_decode h htyped
    refine ⟨hstorable.kind, fun range hrange => ?_⟩
    exact ⟨(hstorable.metadata range hrange).pos, (hstorable.metadata range hrange).le⟩
  · obtain ⟨hkind, hbounds⟩ := h
    refine decodeRecord_encodeRecord ⟨hvalid, htyped.1, hkind, fun range hrange => ?_⟩
    obtain ⟨hpos, hle⟩ := hbounds range hrange
    exact ⟨hpos, hle, (htyped.2 range hrange).1, (htyped.2 range hrange).2⟩
  · obtain ⟨_, -, hrecord, -⟩ := decodeRecord_eq_ok h
    refine ⟨(recordOfDto_eq_ok hrecord).1, fun hpayload => ?_, fun hcompact => ?_⟩
    · exact hpayload ▸ compact_encodeRecord (fits_of_decode h)
    · exact encodeRecord_of_compact hcompact h

theorem payload_codec_exact_logout :
    decodeRecordWithRetention (encodeRecord logoutRecord) = .ok (logoutRecord, none) ∧
      Compact (encodeRecord logoutRecord) := by
  obtain ⟨hiff, -, hcompact⟩ := payload_codec_exact_iff logoutRecord none
  have hread := (hiff (by decide) ⟨by decide, by simp⟩).mpr ⟨by decide, by simp⟩
  exact ⟨hread, (hcompact _ hread).2.mp rfl⟩

theorem decodeRecord_space (record : AuditRecord) (metadata : Option RetentionMetadata) :
    decodeRecordWithRetention (32 :: encodeRecordWithRetention record metadata) =
      decodeRecordWithRetention (encodeRecordWithRetention record metadata) := by
  have hread (t : Text) : RecordDto.fromSlice (32 :: encode t) =
      RecordDto.fromSlice (encode t) := by
    have hspace : 32 :: encode t = encode (' ' :: t) := by rw [encode_cons]; rfl
    rw [RecordDto.fromSlice, RecordDto.fromSlice, hspace, decode_encode, decode_encode]
    rfl
  rw [decodeRecordWithRetention, decodeRecordWithRetention, encodeRecordWithRetention,
    RecordDto.toVec, hread]

def checkpointRecord : AuditRecord :=
  ⟨1, .retentionCheckpoint, ⟨sampleId, sampleId, .systemRecovery, 0⟩, .retentionCheckpoint,
    .auditLedger, sampleId, none, none, some .succeeded, none⟩

/-- A valid checkpoint without its range is encoded and not decoded, and a payload with a space
before it is decoded. -/
theorem checkpoint_lost_and_space_read : checkpointRecord.validate = .ok () ∧
    decodeRecordWithRetention (encodeRecordWithRetention checkpointRecord none) =
      .error auditCorrupt ∧
    decodeRecordWithRetention (32 :: encodeRecordWithRetention logoutRecord none) =
      .ok (logoutRecord, none) ∧
    ∀ record metadata, encodeRecordWithRetention record metadata ≠
      32 :: encodeRecordWithRetention logoutRecord none := by
  have hstorable : Storable logoutRecord none := ⟨by decide, by decide, by decide, by simp⟩
  refine ⟨by decide, ?_, ?_, fun record metadata h => ?_⟩
  · rw [decodeRecord_encodeRecord_eq (by decide)
      ⟨by decide, by decide, by simp [recordDto], by simp [recordDto]⟩]
    rfl
  · rw [decodeRecord_space]
    exact decodeRecord_encodeRecord hstorable
  have hhead : (encodeRecordWithRetention record metadata).head? = some 123 := rfl
  rw [h] at hhead
  exact absurd hhead (by decide)

end Payloads

end EdgeProxy

import EdgeProxy.Audit.Ledger

/-! # The size of a checkpoint

The fields of a checkpoint are names of the ledger's own, three 64-bit numbers and a hash. So its
record can always be built, and its payload has a bound that does not depend on what was removed.
-/

namespace EdgeProxy

open Rust List Json Bool

variable (names : List Text) (values : List Json.Scalar) (c : Char) (t : Text)

theorem byteLen_cons : byteLen (c :: t) = byteLen [c] + byteLen t := by
  simp [byteLen]

theorem byteLen_singleton_le : byteLen [c] ≤ 4 := by
  have hsize := c.utf8Size_le_four
  simpa [byteLen, encode, String.length_utf8EncodeChar] using hsize

theorem byteLen_escapeChar_le : byteLen (escapeChar c) ≤ 6 := by
  have hdigits : ∀ n < 0x20, byteLen ['\\', 'u', '0', '0', (n / 16).digitChar,
      (n % 16).digitChar] ≤ 6 := by decide +kernel
  have hchar := byteLen_singleton_le c
  rw [escapeChar]
  split_ifs with _ _ _ _ _ _ _ hcontrol
  · decide
  · decide
  · decide
  · decide
  · decide
  · decide
  · decide
  · exact hdigits c.toNat hcontrol
  · omega

theorem byteLen_writeString_le : byteLen (writeString t) ≤ 2 + 6 * t.length := by
  have hescaped : byteLen (t.flatMap escapeChar) ≤ 6 * t.length := by
    induction t with
    | nil => decide
    | cons c =>
      have hc := byteLen_escapeChar_le c
      rw [flatMap_cons, byteLen_append, length_cons]
      omega
  have hquote : byteLen ['"'] = 1 := by decide
  rw [writeString, byteLen_cons, byteLen_append, hquote]
  omega

theorem byteLen_writeRest_zip :
    byteLen (writeRest (names.zip values)) ≤
      1 + (names.map fun name => byteLen (writeString name) + 2).sum +
        (values.map fun value => byteLen (writeScalar value)).sum := by
  induction names generalizing values with
  | nil =>
    have hclose : byteLen ['}'] = 1 := by decide
    rw [zip_nil_left, writeRest, hclose]
    omega
  | cons _ _ ih =>
    cases values with
    | nil =>
      have hclose : byteLen ['}'] = 1 := by decide
      rw [zip_nil_right, writeRest, hclose]
      omega
    | cons _ values =>
      have hrest := ih values
      have hcomma : byteLen [','] = 1 := by decide
      have hcolon : byteLen [':'] = 1 := by decide
      rw [zip_cons_cons, writeRest, byteLen_cons, hcomma, byteLen_append,
        writeField, byteLen_append, byteLen_cons, hcolon]
      simp only [map_cons, sum_cons]
      omega

theorem byteLen_writeObject_zip :
    byteLen (writeObject (names.zip values)) ≤
      2 + (names.map fun name => byteLen (writeString name) + 2).sum +
        (values.map fun value => byteLen (writeScalar value)).sum := by
  have hrest := byteLen_writeRest_zip names values
  rcases hfields : names.zip values with _ | ⟨field, fields⟩
  · have hempty : byteLen ['{', '}'] = 2 := by decide
    rw [writeObject, hempty]
    omega
  · have hopen : byteLen ['{'] = 1 := by decide
    have hcomma : byteLen [','] = 1 := by decide
    rw [hfields, writeRest, byteLen_cons, hcomma] at hrest
    rw [writeObject, byteLen_cons, hopen]
    omega

theorem byteLen_digits_le {t : Text} (h : ∀ c ∈ t, c.isDigit = true) : byteLen t ≤ t.length := by
  induction t with
  | nil => decide
  | cons c _ ih =>
    have hc : byteLen [c] ≤ 1 := by
      have hdigit := h c mem_cons_self
      simp only [Char.isDigit, and_eq_true, decide_eq_true_eq] at hdigit
      have hsize : c.utf8Size = 1 := by
        rw [Char.utf8Size]
        exact if_pos (UInt32.le_trans hdigit.2 (by decide))
      simp [byteLen, encode, String.length_utf8EncodeChar, hsize]
    have ht := ih fun d hd => h d (mem_cons_of_mem _ hd)
    rw [byteLen_cons, length_cons]
    omega

variable {n : ℕ}

theorem length_toString_le (h : n < 2 ^ 64) : (toString n).toList.length ≤ 20 := by
  rw [toList_toString]
  exact Nat.toDigits_length 10 n 20 (by decide) (h.trans (by decide))

theorem byteLen_number_le (h : n < 2 ^ 64) : byteLen (writeScalar (.number n)) ≤ 20 :=
  (byteLen_digits_le fun _ hc => isDigit_of_mem_toString hc).trans (length_toString_le h)

namespace FileAuditLedger

def checkpointLimit : ℕ := 1280

theorem isAuditCharacter_of_isDigit {c : Char} (h : c.isDigit = true) :
    isAuditCharacter c = true := by
  simp only [Char.isDigit, and_eq_true, decide_eq_true_eq] at h
  have halnum : isAsciiAlphanumeric c = true := by
    simp only [isAsciiAlphanumeric, Char.le_def, or_eq_true, and_eq_true,
      decide_eq_true_eq]
    exact .inl (.inl h)
  rw [isAuditCharacter, halnum]
  rfl

theorem identifierOf_digits (front : Text) (h : n < 2 ^ 64) (hnonempty : front ≠ [])
    (hfront : front.all isAuditCharacter = true) (hlength : byteLen front ≤ 20) :
    ∃ id, identifierOf (front ++ (toString n).toList) = .ok id ∧
      id.value = front ++ (toString n).toList := by
  have hbytes : byteLen (toString n).toList ≤ 20 := byteLen_number_le h
  have hplain : PlainId (front ++ (toString n).toList) := by
    refine ⟨by simp [hnonempty], ?_⟩
    rw [all_append, hfront, Bool.true_and, all_eq_true]
    exact fun c hc => isAuditCharacter_of_isDigit (isDigit_of_mem_toString hc)
  have hvalid : validateAuditIdentifier (front ++ (toString n).toList) = .ok () := by
    refine hplain.validate fun limit hlimit => ?_
    cases hlimit
    rw [byteLen_append, auditIdentifierMaxBytes]
    omega
  refine ⟨⟨_, hvalid⟩, ?_, rfl⟩
  have hparse := AuditIdentifier.parse_value ⟨_, hvalid⟩
  rw [identifierOf, hparse]
  rfl

theorem retentionRecord_total (timestamp : ℕ) {segment : ℕ} (h : segment < 2 ^ 64) :
    ∃ operationId requestId targetId : AuditIdentifier,
      operationId.value = "retention-".toList ++ (toString segment).toList ∧
      requestId.value = "internal-".toList ++ (toString segment).toList ∧
      targetId.value = "ledger".toList ∧
      retentionRecord timestamp segment = .ok
        ⟨1, .retentionCheckpoint, ⟨operationId, requestId, .systemRecovery, timestamp⟩,
          .retentionCheckpoint, .auditLedger, targetId, none, none, some .succeeded, none⟩ := by
  obtain ⟨operationId, hoperation, hvalue⟩ :=
    identifierOf_digits "retention-".toList h (by decide) (by decide) (by decide)
  obtain ⟨requestId, hrequest, hvalue'⟩ :=
    identifierOf_digits "internal-".toList h (by decide) (by decide) (by decide)
  obtain ⟨targetId, htarget, hvalue''⟩ : ∃ id, identifierOf "ledger".toList = .ok id ∧
      id.value = "ledger".toList := ⟨⟨"ledger".toList, by decide⟩, by decide, rfl⟩
  refine ⟨operationId, requestId, targetId, hvalue, hvalue', hvalue'', ?_⟩
  unfold retentionRecord
  rw [hoperation, hrequest, htarget]
  rfl

theorem length_encodeHash (hash : Bytes) : (encodeHash hash).length = 2 * hash.length := by
  induction hash with
  | nil => rfl
  | cons _ _ ih =>
    rw [encodeHash, flatMap_cons, length_append, ← encodeHash, ih, length_cons]
    change 2 + _ = _
    omega

def checkpointValues (operationId requestId : Text) (timestamp : ℕ) (range : RetentionMetadata) :
    List Json.Scalar :=
  [.number 1, .string (AuditRecordKind.asStr .retentionCheckpoint).toList, .string operationId,
    .string requestId, .string (AuditActorKind.asStr .systemRecovery).toList,
    .string (AuditAction.asStr .retentionCheckpoint).toList,
    .string (AuditTargetKind.asStr .auditLedger).toList, .string "ledger".toList, .null, .null,
    .string (AuditOutcome.asStr .succeeded).toList, .null, .number timestamp,
    .number range.firstSequence, .number range.lastSequence,
    .string (encodeHash range.terminalHash)]

theorem sum_checkpointValues_le {operationId requestId : Text} {timestamp : ℕ}
    {range : RetentionMetadata} (hoperation : operationId.length ≤ 30)
    (hrequest : requestId.length ≤ 30) (htime : timestamp < 2 ^ 64) (hrange : range.Valid) :
    ((checkpointValues operationId requestId timestamp range).map fun value =>
      byteLen (writeScalar value)).sum ≤ 930 := by
  -- the texts that are the same in every checkpoint
  have htexts : ([.number 1, .string (AuditRecordKind.asStr .retentionCheckpoint).toList,
      .string (AuditActorKind.asStr .systemRecovery).toList,
      .string (AuditAction.asStr .retentionCheckpoint).toList,
      .string (AuditTargetKind.asStr .auditLedger).toList, .string "ledger".toList, .null, .null,
      .string (AuditOutcome.asStr .succeeded).toList, .null].map fun value =>
        byteLen (writeScalar value)).sum ≤ 120 := by decide +kernel
  have hop := byteLen_writeString_le operationId
  have hreq := byteLen_writeString_le requestId
  have hhash := byteLen_writeString_le (encodeHash range.terminalHash)
  have htimestamp := byteLen_number_le htime
  have hfirst := byteLen_number_le (hrange.le.trans_lt hrange.lt)
  have hlast := byteLen_number_le hrange.lt
  rw [length_encodeHash, hrange.hash] at hhash
  simp only [checkpointValues, map_cons, map_nil, sum_cons, sum_nil]
    at htexts ⊢
  change byteLen (writeScalar (.string operationId)) ≤ _ at hop
  change byteLen (writeScalar (.string requestId)) ≤ _ at hreq
  change byteLen (writeScalar (.string (encodeHash range.terminalHash))) ≤ _ at hhash
  linarith

theorem length_checkpoint_le {timestamp segment : ℕ} {template : AuditRecord}
    {range : RetentionMetadata} (h : retentionRecord timestamp segment = .ok template)
    (htime : timestamp < 2 ^ 64) (hsegment : segment < 2 ^ 64) (hrange : range.Valid) :
    (encodeRecordWithRetention template (some range)).length ≤ checkpointLimit := by
  obtain ⟨operationId, requestId, _, hoperation, hrequest, htarget, heq⟩ :=
    retentionRecord_total timestamp hsegment
  obtain rfl := Except.ok.inj (h.symm.trans heq)
  have hdigits := length_toString_le hsegment
  have hop : operationId.value.length ≤ 30 := by
    rw [hoperation, length_append]
    exact Nat.add_le_add (show "retention-".toList.length ≤ 10 by decide) hdigits
  have hreq : requestId.value.length ≤ 30 := by
    rw [hrequest, length_append]
    exact Nat.add_le_add (show "internal-".toList.length ≤ 10 by decide) hdigits
  have hnames : (RecordDto.fieldNames.map fun name => byteLen (writeString name) + 2).sum =
      277 := by decide +kernel
  have hvalues := sum_checkpointValues_le hop hreq htime hrange
  have hsize := byteLen_writeObject_zip RecordDto.fieldNames
    (checkpointValues operationId.value requestId.value timestamp range)
  rw [hnames] at hsize
  rw [encodeRecordWithRetention, RecordDto.toVec, ← byteLen, checkpointLimit, RecordDto.values,
    recordDto]
  simp only [htarget, RecordDto.optional, Option.map_some, Option.map_none]
  rw [checkpointValues] at hsize hvalues
  omega

end FileAuditLedger

end EdgeProxy

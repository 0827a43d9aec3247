import EdgeProxy.Lib.Text

/-! # UTF-8 text and byte strings

`encode` is `str::as_bytes` and `decode` is `str::from_utf8`; `splitHeaderEnd` cuts a byte
string at its first empty line, which is how an HTTP message is separated from its body.
-/

namespace Rust

open List

abbrev Bytes := List UInt8

/-- `str::as_bytes`. -/
def encode (t : Text) : Bytes := t.flatMap String.utf8EncodeChar

/-- `str::len`. -/
def byteLen (t : Text) : Nat := (encode t).length

/-- Decodes one character at a time; `fuel` bounds the characters still to come. -/
def decodeFuel : Nat → Bytes → Option Text
  | _, [] => some []
  | 0, _ :: _ => none
  | fuel + 1, b :: bs =>
    match ((b :: bs).take 4).toByteArray.utf8DecodeChar? 0 with
    | none => none
    | some c => (decodeFuel fuel ((b :: bs).drop c.utf8Size)).map (c :: ·)

/-- `str::from_utf8`. -/
def decode (bs : Bytes) : Option Text := decodeFuel bs.length bs

@[simp] theorem encode_nil : encode [] = [] := rfl

@[simp] theorem encode_cons (c : Char) (t : Text) :
    encode (c :: t) = String.utf8EncodeChar c ++ encode t := rfl

@[simp] theorem encode_append (s t : Text) : encode (s ++ t) = encode s ++ encode t := by
  simp [encode]

theorem take_four_utf8EncodeChar_append (c : Char) (bs : Bytes) :
    (String.utf8EncodeChar c ++ bs).take 4 =
      String.utf8EncodeChar c ++ bs.take (4 - c.utf8Size) := by
  rw [take_append, String.length_utf8EncodeChar, take_of_length_le]
  rw [String.length_utf8EncodeChar]
  exact c.utf8Size_le_four

theorem decodeFuel_encode (t : Text) {fuel : Nat} (h : t.length ≤ fuel) :
    decodeFuel fuel (encode t) = some t := by
  induction t generalizing fuel with
  | nil => simp [decodeFuel]
  | cons c t ih =>
    obtain ⟨fuel, rfl⟩ : ∃ n, fuel = n + 1 := ⟨fuel - 1, by simp at h; omega⟩
    have hdecode : ((encode (c :: t)).take 4).toByteArray.utf8DecodeChar? 0 = some c := by
      rw [encode_cons, take_four_utf8EncodeChar_append, toByteArray_append]
      exact ByteArray.utf8DecodeChar?_utf8EncodeChar_append
    have hdrop : (encode (c :: t)).drop c.utf8Size = encode t := by
      rw [encode_cons, ← String.length_utf8EncodeChar, drop_left]
    cases hbs : encode (c :: t) with
    | nil =>
      have := congrArg length hbs
      simp only [encode_cons, length_append, String.length_utf8EncodeChar, length_nil] at this
      have := c.utf8Size_pos
      omega
    | cons =>
      rw [hbs] at hdecode hdrop
      simp only [decodeFuel, hdecode, hdrop, ih (by simpa using h), Option.map_some]

theorem length_le_byteLen (t : Text) : t.length ≤ byteLen t := by
  induction t with
  | nil => simp [byteLen]
  | cons c _ ih =>
    have := c.utf8Size_pos
    simp only [byteLen, encode_cons, length_append, String.length_utf8EncodeChar,
      length_cons] at ih ⊢
    omega

@[simp] theorem decode_encode (t : Text) : decode (encode t) = some t :=
  decodeFuel_encode t (length_le_byteLen t)

variable {t : Text}

theorem encode_of_decodeFuel {fuel : Nat} {bs : Bytes}
    (h : decodeFuel fuel bs = some t) : encode t = bs := by
  fun_induction decodeFuel fuel bs generalizing t with
  | case1 =>
    cases h
    rfl
  | case2 => cases h
  | case3 => cases h
  | case4 fuel b bs c hchar ih =>
    obtain ⟨t, hrest, rfl⟩ := Option.map_eq_some_iff.mp h
    obtain ⟨l, hl⟩ := ByteArray.exists_of_utf8DecodeChar?_eq_some hchar
    have htake : (b :: bs).take 4 = String.utf8EncodeChar c ++ l.data.toList := by
      simpa using congrArg (·.data.toList) hl
    obtain ⟨rest, hbytes⟩ : String.utf8EncodeChar c <+: b :: bs :=
      (htake ▸ prefix_append _ _ : String.utf8EncodeChar c <+: (b :: bs).take 4).trans
        ( take_prefix _ _)
    have hsize : c.utf8Size = (String.utf8EncodeChar c).length := by simp
    rw [encode_cons, ih hrest, ← hbytes, hsize, drop_left]

theorem encode_of_decode {bs : Bytes} (h : decode bs = some t) : encode t = bs :=
  encode_of_decodeFuel h

variable {b : UInt8}

theorem toNat_eq_of_mem_utf8EncodeChar {c : Char}
    (hb : b ∈ String.utf8EncodeChar c) (h : b.toNat < 128) : c.toNat = b.toNat := by
  change c.val.toNat = _
  unfold String.utf8EncodeChar at hb
  simp only at hb
  split_ifs at hb <;> simp only [mem_cons, not_mem_nil, or_false] at hb
  · subst hb
    simp only [UInt8.toNat_ofNat'] at h ⊢
    omega
  · rcases hb with rfl | rfl <;> simp only [UInt8.toNat_ofNat'] at h ⊢ <;> omega
  · rcases hb with rfl | rfl | rfl <;> simp only [UInt8.toNat_ofNat'] at h ⊢ <;> omega
  · rcases hb with rfl | rfl | rfl | rfl <;> simp only [UInt8.toNat_ofNat'] at h ⊢ <;> omega

theorem mem_of_mem_encode (hb : b ∈ encode t) (h : b.toNat < 128) : ∃ c ∈ t, c.toNat = b.toNat := by
  obtain ⟨c, hc, hb⟩ := mem_flatMap.mp hb
  exact ⟨c, hc, toNat_eq_of_mem_utf8EncodeChar hb h⟩

theorem cr_notMem_encode (h : '\r' ∉ t) : (13 : UInt8) ∉ encode t := by
  intro hb
  obtain ⟨c, hc, hn⟩ := mem_of_mem_encode hb (by decide)
  obtain rfl : c = '\r' := by
    apply Char.ext
    apply UInt32.toNat_inj.mp
    exact hn
  exact h hc

theorem encode_eq_nil_iff : encode t = [] ↔ t = [] := by
  constructor
  · intro h
    have := length_le_byteLen t
    simp only [byteLen, h, length_nil, Nat.le_zero_eq, length_eq_zero_iff] at this
    exact this
  · rintro rfl
    rfl

/-- The bytes before and after the first empty line (`\r\n\r\n`), if there is one. -/
def splitHeaderEnd : Bytes → Option (Bytes × Bytes)
  | [] => none
  | 13 :: 10 :: 13 :: 10 :: bs => some ([], bs)
  | b :: bs => (splitHeaderEnd bs).map fun (l, r) => (b :: l, r)

theorem splitHeaderEnd_cons (bs : Bytes) (h : b ≠ 13) :
    splitHeaderEnd (b :: bs) = (splitHeaderEnd bs).map fun (l, r) => (b :: l, r) := by
  rw [splitHeaderEnd]
  rintro t rfl
  exact absurd rfl h

theorem splitHeaderEnd_append {l : Bytes} (h : (13 : UInt8) ∉ l) (bs : Bytes) :
    splitHeaderEnd (l ++ bs) = (splitHeaderEnd bs).map fun (l', r) => (l ++ l', r) := by
  induction l with
  | nil => simp
  | cons _ _ ih =>
    simp only [mem_cons, not_or] at h
    rw [cons_append, splitHeaderEnd_cons _ (fun e => h.1 e.symm), ih h.2, Option.map_map]
    rfl

theorem splitHeaderEnd_crlf (bs : Bytes) (h : b ≠ 13) :
    splitHeaderEnd (13 :: 10 :: b :: bs) =
      (splitHeaderEnd (b :: bs)).map fun (l, r) => (13 :: 10 :: l, r) := by
  have h₁ : splitHeaderEnd (13 :: 10 :: b :: bs) =
      (splitHeaderEnd (10 :: b :: bs)).map fun (l, r) => (13 :: l, r) := by
    rw [splitHeaderEnd]
    rintro t - ht
    simp only [cons.injEq, true_and] at ht
    exact absurd ht.1 h
  rw [h₁, splitHeaderEnd_cons _ (by decide), Option.map_map]
  rfl

theorem splitHeaderEnd_joinCrlf {ls : List Text} (hne : ls ≠ []) (hcr : ∀ l ∈ ls, '\r' ∉ l)
    (hls : ∀ l ∈ ls, l ≠ []) (body : Bytes) :
    splitHeaderEnd (encode (joinCrlf ls) ++ 13 :: 10 :: 13 :: 10 :: body) =
      some (encode (joinCrlf ls), body) := by
  fun_induction joinCrlf ls with
  | case1 => exact absurd rfl hne
  | case2 l =>
    rw [splitHeaderEnd_append (cr_notMem_encode (hcr l (by simp)))]
    simp [splitHeaderEnd]
  | case3 l ls hne' ih =>
    have hcrlf : encode ('\r' :: '\n' :: joinCrlf ls) = 13 :: 10 :: encode (joinCrlf ls) := rfl
    have hrest := ih hne' (fun l hl => hcr l (by simp [hl])) fun l hl => hls l (by simp [hl])
    -- the text after this line end starts with a character of the next, non-empty line
    obtain ⟨b, bs, hbs, hb⟩ : ∃ b bs, encode (joinCrlf ls) = b :: bs ∧ b ≠ 13 := by
      obtain ⟨m, ms, rfl⟩ := exists_cons_of_ne_nil hne'
      obtain ⟨b, bs, hm⟩ := exists_cons_of_ne_nil
        (mt encode_eq_nil_iff.mp (hls m (by simp)))
      have hb : b ≠ 13 := fun e =>
        cr_notMem_encode (hcr m (by simp)) (by rw [hm, e]; simp)
      cases ms with
      | nil => exact ⟨b, bs, hm, hb⟩
      | cons m' ms =>
        refine ⟨b, bs ++ encode ('\r' :: '\n' :: joinCrlf (m' :: ms)), ?_, hb⟩
        rw [joinCrlf, encode_append, hm]
        · rfl
        · simp
    rw [encode_append, hcrlf, append_assoc,
      splitHeaderEnd_append (cr_notMem_encode (hcr l (by simp)))]
    rw [hbs] at hrest ⊢
    rw [cons_append, cons_append, cons_append, splitHeaderEnd_crlf _ hb, ← cons_append, hrest]
    rfl

end Rust

import EdgeProxy.Lib.Utf8

/-! # Numbers in text and in bytes

The decimal form that `Display` gives an unsigned integer, read back by `digitsValue`, and the
big-endian form of a given width, `to_be_bytes` and `from_be_bytes`.
-/

namespace Rust

theorem toList_toString (n : ℕ) : (toString n).toList = Nat.toDigits 10 n := by
  rw [Nat.toString_eq_ofList_toDigits, String.toList_ofList]

theorem toDigit_digitChar {d : ℕ} (h : d < 10) : toDigit 10 d.digitChar = some d := by
  revert d
  decide

theorem digitsValue_append (radix acc : ℕ) (s t : Text) :
    digitsValue radix acc (s ++ t) =
      (digitsValue radix acc s).bind fun value => digitsValue radix value t := by
  induction s generalizing acc with
  | nil => rfl
  | cons c _ ih =>
    rw [List.cons_append, digitsValue, digitsValue]
    cases toDigit radix c with
    | none => rfl
    | some => exact ih _

theorem digitsValue_toDigits (n : ℕ) : digitsValue 10 0 (Nat.toDigits 10 n) = some n := by
  induction n using Nat.strong_induction_on with
  | _ n ih =>
    rw [Nat.toDigits_eq_if (by decide)]
    split_ifs with h
    · simp [digitsValue, toDigit_digitChar h]
    · have hmod : n % 10 < 10 := Nat.mod_lt _ (by decide)
      rw [digitsValue_append, ih (n / 10) (by omega)]
      simp only [Option.bind_some, digitsValue, toDigit_digitChar hmod, Option.some.injEq]
      omega

theorem isDigit_of_mem_toString {n : ℕ} {c : Char} (h : c ∈ (toString n).toList) :
    c.isDigit = true := by
  rw [toList_toString] at h
  exact Nat.isDigit_of_mem_toDigits (by decide) (by decide) h

theorem toList_toString_ne_nil (n : ℕ) : (toString n).toList ≠ [] := by
  rw [toList_toString]
  exact Nat.toDigits_ne_nil

/-- The last `width` bytes of a number, the most significant first. -/
def toBe : ℕ → ℕ → Bytes
  | 0, _ => []
  | width + 1, n => UInt8.ofNat (n / 256 ^ width) :: toBe width n

def ofBe : Bytes → ℕ
  | [] => 0
  | b :: bs => b.toNat * 256 ^ bs.length + ofBe bs

@[simp] theorem length_toBe (width n : ℕ) : (toBe width n).length = width := by
  induction width with
  | zero => rfl
  | succ _ ih => rw [toBe, List.length_cons, ih]

theorem ofBe_toBe (width n : ℕ) : ofBe (toBe width n) = n % 256 ^ width := by
  induction width with
  | zero => simp [toBe, ofBe, Nat.mod_one]
  | succ _ ih =>
    rw [toBe, ofBe, length_toBe, ih, Nat.mod_pow_succ, UInt8.toNat_ofNat']
    ring

theorem ofBe_toBe_of_lt {width n : ℕ} (h : n < 256 ^ width) : ofBe (toBe width n) = n := by
  rw [ofBe_toBe, Nat.mod_eq_of_lt h]

theorem ofBe_lt (bs : Bytes) : ofBe bs < 256 ^ bs.length := by
  induction bs with
  | nil => simp [ofBe]
  | cons b bs =>
    have hb : b.toNat + 1 ≤ 256 := b.toNat_lt
    calc ofBe (b :: bs) < b.toNat * 256 ^ bs.length + 256 ^ bs.length := by
          rw [ofBe]; omega
      _ = (b.toNat + 1) * 256 ^ bs.length := by ring
      _ ≤ 256 * 256 ^ bs.length := Nat.mul_le_mul_right _ hb
      _ = 256 ^ (b :: bs).length := by rw [List.length_cons, pow_succ]; ring

theorem toBe_mul_add (width a n : ℕ) : toBe width (a * 256 ^ width + n) = toBe width n := by
  induction width generalizing a with
  | zero => rfl
  | succ width ih =>
    have hpow : a * 256 ^ (width + 1) = a * 256 * 256 ^ width := by rw [pow_succ]; ring
    have hdiv : (a * 256 * 256 ^ width + n) / 256 ^ width = n / 256 ^ width + 256 * a := by
      rw [Nat.add_comm, Nat.add_mul_div_right _ _ (Nat.pow_pos (by decide)), Nat.mul_comm a]
    rw [toBe, toBe, hpow, ih, hdiv]
    congr 1
    apply UInt8.toNat_inj.mp
    rw [UInt8.toNat_ofNat', UInt8.toNat_ofNat', Nat.add_mul_mod_self_left]

theorem toBe_ofBe (bs : Bytes) : toBe bs.length (ofBe bs) = bs := by
  induction bs with
  | nil => rfl
  | cons b bs ih =>
    have hdiv : (b.toNat * 256 ^ bs.length + ofBe bs) / 256 ^ bs.length = b.toNat := by
      rw [Nat.add_comm, Nat.add_mul_div_right _ _ (Nat.pow_pos (by decide)),
        Nat.div_eq_of_lt (ofBe_lt bs),
        Nat.zero_add]
    rw [List.length_cons, toBe, ofBe, toBe_mul_add, ih, hdiv, UInt8.ofNat_toNat]

end Rust

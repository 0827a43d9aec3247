import EdgeProxy.Lib.Text

/-! # Strict reading of numbers

`str::trim` takes any white space and `from_str_radix` takes a plus sign. The strict reading has
spaces and tabs around digits only; the two agree exactly on the texts without the other forms.
-/

namespace Rust

open List Option Bool

def isBlank (c : Char) : Bool := c == ' ' || c == '\t'

def stripBlanks (t : Text) : Text := (t.dropWhile isBlank).rdropWhile isBlank

/-- All white space of the text is spaces and tabs. -/
def BlanksOnly (t : Text) : Prop := ∀ c ∈ t, isWhitespace c = true → isBlank c = true

instance (t : Text) : Decidable (BlanksOnly t) := by unfold BlanksOnly; infer_instance

/-- Blanks, at least one digit, blanks. -/
def strictNumber (radix : ℕ) (t : Text) : Option ℕ :=
  if (stripBlanks t).isEmpty then none else digitsValue radix 0 (stripBlanks t)

variable {t : Text}

theorem dropWhile_congr {p q : Char → Bool} (h : ∀ c ∈ t, p c = q c) :
    t.dropWhile p = t.dropWhile q := by
  induction t with
  | nil => rfl
  | cons _ _ ih =>
    rw [forall_mem_cons] at h
    rw [dropWhile_cons, dropWhile_cons, h.1, ih h.2]

theorem BlanksOnly.trim_eq (h : BlanksOnly t) : trim t = stripBlanks t := by
  have hsame : ∀ c ∈ t, isWhitespace c = isBlank c := by
    intro c hc
    rw [Bool.eq_iff_iff]
    refine ⟨h c hc, fun hb => ?_⟩
    rw [isBlank, Bool.or_eq_true, beq_iff_eq, beq_iff_eq] at hb
    rcases hb with rfl | rfl <;> decide
  rw [trim, trimEnd, trimStart, stripBlanks, dropWhile_congr hsame, rdropWhile,
    rdropWhile, dropWhile_congr fun c hc => hsame c
      ((dropWhile_suffix _).subset (mem_reverse.mp hc))]

theorem mem_stripBlanks_or {c : Char} (hc : c ∈ t) : isBlank c = true ∨ c ∈ stripBlanks t := by
  have hdrop : ∀ {t : Text}, c ∈ t → isBlank c = true ∨ c ∈ t.dropWhile isBlank := by
    intro t hc
    rw [← takeWhile_append_dropWhile (p := isBlank) (l := t), mem_append] at hc
    exact hc.imp_left mem_takeWhile_imp
  rcases hdrop hc with hb | hc
  · exact .inl hb
  · rw [stripBlanks, rdropWhile, mem_reverse]
    exact hdrop (mem_reverse.mpr hc)

variable {radix n : ℕ}

theorem toDigit_of_digitsValue {acc : ℕ} (h : digitsValue radix acc t = some n) :
    ∀ c ∈ t, (toDigit radix c).isSome = true := by
  induction t generalizing acc with
  | nil => exact fun _ hc => absurd hc not_mem_nil
  | cons _ _ ih =>
    obtain ⟨_, hd, hrest⟩ := bind_eq_some_iff.mp h
    exact forall_mem_cons.mpr ⟨by rw [hd]; rfl, ih hrest⟩

theorem strictNumber_eq_iff {bound : ℕ} (hblanks : BlanksOnly t)
    (h : parseUnsigned radix bound (trim t) = some n) :
    strictNumber radix t = some n ↔ '+' ∉ t := by
  constructor
  · intro hstrict hplus
    rw [strictNumber, ite_none_left_eq_some] at hstrict
    rcases mem_stripBlanks_or hplus with hb | hmem
    · exact absurd hb (by decide)
    · have hdigit := toDigit_of_digitsValue hstrict.2 '+' hmem
      have hnone : toDigit radix '+' = none := rfl
      rw [hnone] at hdigit
      exact absurd hdigit (by decide)
  · intro hplus
    rw [hblanks.trim_eq] at h
    have hsign : ∀ t', stripBlanks t ≠ '+' :: t' := by
      intro t' ht
      refine hplus (mem_of_mem_trim ?_)
      rw [hblanks.trim_eq, ht]
      exact mem_cons_self
    unfold parseUnsigned at h
    dsimp only at h
    split at h
    · next t' ht => exact absurd ht (hsign t')
    · rw [ite_none_left_eq_some, filter_eq_some_iff] at h
      rw [strictNumber, if_neg h.1]
      exact h.2.1

theorem blanksOnly_of_strictNumber (h : strictNumber radix t = some n) : BlanksOnly t := by
  rw [strictNumber, ite_none_left_eq_some] at h
  intro c hc hwhite
  refine (mem_stripBlanks_or hc).resolve_right fun hmem => ?_
  have halnum := isAsciiAlphanumeric_of_toDigit (toDigit_of_digitsValue h.2 c hmem)
  rw [(not_isWhitespace_of_isAsciiAlphanumeric halnum).1] at hwhite
  exact absurd hwhite false_ne_true

theorem splitWhitespace_three_iff {a b c : Text} (h : splitWhitespace t = [a, b, c]) :
    t = a ++ ' ' :: (b ++ ' ' :: c) ↔ t.filter isWhitespace = [' ', ' '] := by
  have hword : ∀ w ∈ [a, b, c], w.filter isWhitespace = [] := fun w hw =>
    filter_eq_nil_iff.mpr fun d hd => by
      rw [((mem_splitWhitespace (h ▸ hw)).2 d hd).2]
      exact false_ne_true
  constructor
  · rintro rfl
    rw [filter_append, filter_cons_of_pos (by decide), filter_append,
      filter_cons_of_pos (by decide), hword a (by simp), hword b (by simp),
      hword c (by simp)]
    rfl
  · intro hfilter
    obtain ⟨_, _, rfl, hl, -, hr⟩ := filter_eq_cons_iff.mp hfilter
    obtain ⟨_, _, rfl, hl', -, hr'⟩ := filter_eq_cons_iff.mp hr
    rw [filter_eq_nil_iff] at hr'
    have hwords : ∀ {w : Text}, (∀ d ∈ w, ¬ isWhitespace d = true) →
        splitWhitespace w = if w = [] then [] else [w] := by
      intro w hw
      split
      · next he => rw [he]; rfl
      · next he => exact splitWhitespace_word he fun d hd => eq_false_iff.mpr (hw d hd)
    rw [splitWhitespace_append (by decide), splitWhitespace_append (by decide), hwords hl,
      hwords hl', hwords hr'] at h
    -- three words need all three parts
    split_ifs at h <;> simp_all

end Rust

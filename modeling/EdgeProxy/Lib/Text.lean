import Mathlib.Algebra.Order.BigOperators.Group.List
import Mathlib.Data.Finset.Card
import Mathlib.Data.List.AList
import Mathlib.Data.List.DropRight
import Mathlib.Data.List.MinMax
import Mathlib.Data.Nat.Digits.Defs
import Mathlib.Data.Prod.Lex
import Mathlib.Data.String.Basic
import Mathlib.Tactic.Linarith
import Mathlib.Tactic.Ring

/-! # Rust strings as lists of characters

The operations of Rust's `str` that parsers are written with, over lists of
characters: trimming, splitting, case folding and integer parsing. White space is
the Unicode `White_Space` property, as in `char::is_whitespace`.
-/

namespace Rust

open List

/-- The characters of a Rust `str`. -/
abbrev Text := List Char

-- The type of characters is finite as well, and far too large to be searched.
instance (priority := high) (t : Text) (p : Char → Prop) [DecidablePred p] :
    Decidable (∀ c ∈ t, p c) := decidableBAll p t

instance : LawfulBEq Text := inferInstance

/-- `char::is_whitespace`: the Unicode property `White_Space`. -/
def isWhitespace (c : Char) : Bool :=
  let n := c.toNat
  (9 ≤ n && n ≤ 13) || n == 32 || n == 0x85 || n == 0xA0 || n == 0x1680 ||
    (0x2000 ≤ n && n ≤ 0x200A) || n == 0x2028 || n == 0x2029 || n == 0x202F || n == 0x205F ||
    n == 0x3000

/-- `char::is_control`: the Unicode general category `Cc`. -/
def isControl (c : Char) : Bool :=
  let n := c.toNat
  n < 32 || (127 ≤ n && n ≤ 159)

def isAsciiAlphanumeric (c : Char) : Bool :=
  ('0' ≤ c && c ≤ '9') || ('a' ≤ c && c ≤ 'z') || ('A' ≤ c && c ≤ 'Z')

variable {c : Char}

theorem isAsciiAlphanumeric_iff : isAsciiAlphanumeric c = true ↔
    48 ≤ c.toNat ∧ c.toNat ≤ 57 ∨ 97 ≤ c.toNat ∧ c.toNat ≤ 122 ∨ 65 ≤ c.toNat ∧ c.toNat ≤ 90 := by
  simp only [isAsciiAlphanumeric, Bool.or_eq_true, Bool.and_eq_true, decide_eq_true_eq, or_assoc]
  rfl

theorem not_isWhitespace_of_isAsciiAlphanumeric (h : isAsciiAlphanumeric c = true) :
    isWhitespace c = false ∧ isControl c = false := by
  rw [isAsciiAlphanumeric_iff] at h
  simp only [isWhitespace, isControl, Bool.or_eq_false_iff, Bool.and_eq_false_iff,
    decide_eq_false_iff_not, beq_eq_false_iff_ne]
  omega

def toAsciiLowercase (t : Text) : Text := t.map Char.toLower

def eqIgnoreAsciiCase (a b : Text) : Bool := toAsciiLowercase a == toAsciiLowercase b

theorem eqIgnoreAsciiCase_iff {a b : Text} :
    eqIgnoreAsciiCase a b = true ↔ toAsciiLowercase a = toAsciiLowercase b := by
  simp [eqIgnoreAsciiCase]

def trimStart (t : Text) : Text := t.dropWhile isWhitespace

def trimEnd (t : Text) : Text := t.rdropWhile isWhitespace

def trim (t : Text) : Text := trimEnd (trimStart t)

/-- `trim_end_matches` for one character. -/
def trimEndMatches (c : Char) (t : Text) : Text := t.rdropWhile (· == c)

/-- A text that `trim` does not change. -/
structure Trimmed (t : Text) : Prop where
  head : ∀ c ∈ t.head?, isWhitespace c = false
  last : ∀ c ∈ t.getLast?, isWhitespace c = false

variable {t : Text}

theorem trimStart_eq_self (h : ∀ c ∈ t.head?, isWhitespace c = false) : trimStart t = t := by
  cases t with
  | nil => rfl
  | cons c => simp [trimStart, h c rfl]

theorem trimEnd_eq_self (h : ∀ c ∈ t.getLast?, isWhitespace c = false) : trimEnd t = t := by
  refine rdropWhile_eq_self_iff.mpr fun hne => ?_
  simp [h _ (getLast?_eq_some_getLast hne)]

theorem Trimmed.trim_eq (h : Trimmed t) : trim t = t := by
  rw [trim, trimStart_eq_self h.head, trimEnd_eq_self h.last]

theorem mem_of_mem_trim (h : c ∈ trim t) : c ∈ t := by
  have h₁ : c ∈ trimStart t := ( rdropWhile_prefix _ _).subset h
  exact (dropWhile_suffix _).subset h₁

theorem prefix_mem_head? {α : Type*} {l l' : List α} (h : l <+: l') {a : α} (ha : a ∈ l.head?) :
    a ∈ l'.head? := by
  obtain ⟨_, rfl⟩ := h
  cases l with
  | nil => cases ha
  | cons => exact ha

theorem trimmed_trim (t : Text) : Trimmed (trim t) := by
  constructor
  · -- trimming the end either keeps the first character or leaves nothing
    intro c hc
    have hhead : c ∈ (trimStart t).head? := prefix_mem_head? ( rdropWhile_prefix _ _) hc
    have hnot := head?_dropWhile_not isWhitespace t
    rwa [← trimStart, hhead] at hnot
  · intro c hc
    have hnot := head?_dropWhile_not isWhitespace (trimStart t).reverse
    rw [trim, trimEnd, rdropWhile, getLast?_reverse] at hc
    rwa [hc] at hnot

theorem trimmed_of_forall (h : ∀ c ∈ t, isWhitespace c = false) : Trimmed t :=
  ⟨fun c hc => h c (mem_of_mem_head? hc), fun c hc => h c (mem_of_mem_getLast? hc)⟩

theorem trim_blank_cons (t : Text) : trim (' ' :: t) = trim t := by
  simp [trim, trimStart, show isWhitespace ' ' = true by decide]

section Trimming

theorem toLower_cases (c : Char) :
    c.toLower = c ∨ (65 ≤ c.toNat ∧ c.toNat ≤ 90) ∧ c.toLower.toNat = c.toNat + 32 := by
  unfold Char.toLower
  split
  · next h =>
    have h₁ : 65 ≤ c.toNat := UInt32.le_iff_toNat_le.mp h.1
    have h₂ : c.toNat ≤ 90 := UInt32.le_iff_toNat_le.mp h.2
    refine .inr ⟨⟨h₁, h₂⟩, (UInt32.toNat_add _ _).trans (Nat.mod_eq_of_lt ?_)⟩
    change c.toNat + 32 < _
    omega
  · exact .inl rfl

/-- White space stands before the `c`s that the text ends with. -/
def BlankBefore (c : Char) (t : Text) : Prop :=
  ∃ blank n, isWhitespace blank = true ∧ blank :: replicate n c <:+ t

variable {c : Char} {t : Text}

theorem trimmed_trimEndMatches_iff (hc : isWhitespace c = false) (h : Trimmed t) :
    Trimmed (trimEndMatches c t) ↔ ¬ BlankBefore c t := by
  constructor
  · rintro htrimmed ⟨blank, n, hblank, front, rfl⟩
    have hne : blank ≠ c := by
      rintro rfl
      simp [hc] at hblank
    have hlast := htrimmed.last blank (by
      simp [trimEndMatches, rdropWhile, dropWhile_append_of_pos, hne])
    simp [hlast] at hblank
  · intro hnone
    refine ⟨fun a ha => h.head a (prefix_mem_head? ( rdropWhile_prefix _ _) ha), fun a ha => ?_⟩
    by_contra hblank
    obtain ⟨front, hfront⟩ := getLast?_eq_some_iff.mp ha
    have hrest : t.rtakeWhile (· == c) = replicate _ c :=
      eq_replicate_of_mem fun a ha => by simpa using mem_rtakeWhile_imp ha
    refine hnone ⟨a, (t.rtakeWhile (· == c)).length, by simpa using hblank, front, ?_⟩
    rw [← hrest, ← singleton_append, ← append_assoc, ← hfront]
    exact rdropWhile_append_rtakeWhile

theorem blankBefore_cons_iff (hc : isWhitespace c = false) :
    BlankBefore c (c :: t) ↔ BlankBefore c t := by
  constructor
  · rintro ⟨blank, n, hblank, hsuffix⟩
    rcases suffix_cons_iff.mp hsuffix with heq | hsuffix
    · simp [(cons.inj heq).1, hc] at hblank
    · exact ⟨blank, n, hblank, hsuffix⟩
  · rintro ⟨blank, n, hblank, hsuffix⟩
    exact ⟨blank, n, hblank, hsuffix.trans (suffix_cons _ _)⟩

theorem trimmed_of_length_le (h : t.length ≤ (trim t).length) : Trimmed t := by
  have hsub : (trim t).Sublist t :=
    ( rdropWhile_prefix _ _).sublist.trans (dropWhile_suffix _).sublist
  exact hsub.eq_of_length_le h ▸ trimmed_trim t

theorem head?_trim_cons (hc : isWhitespace c = false) : (trim (c :: t)).head? = some c := by
  have hpre : trim (c :: t) <+: c :: t := by
    rw [trim, trimStart_eq_self (by simpa using hc)]
    exact rdropWhile_prefix _ _
  cases h : trim (c :: t) with
  | nil => simp [trim, trimStart, trimEnd, hc] at h
  | cons =>
    rw [h, cons_prefix_cons] at hpre
    rw [head?_cons, hpre.1]

theorem dropWhile_toAsciiLowercase {p : Char → Bool} (hp : ∀ c, p c.toLower = p c) (t : Text) :
    (toAsciiLowercase t).dropWhile p = toAsciiLowercase (t.dropWhile p) ∧
      (toAsciiLowercase t).rdropWhile p = toAsciiLowercase (t.rdropWhile p) := by
  have hcomp : p ∘ Char.toLower = p := funext hp
  simp [toAsciiLowercase, rdropWhile, ← map_reverse, dropWhile_map, hcomp]

theorem isWhitespace_toLower (c : Char) : isWhitespace c.toLower = isWhitespace c := by
  rcases toLower_cases c with h | ⟨h, hlower⟩
  · rw [h]
  · simp only [isWhitespace, hlower]
    grind

theorem trim_toAsciiLowercase (t : Text) :
    trim (toAsciiLowercase t) = toAsciiLowercase (trim t) := by
  rw [trim, trimStart, trimEnd, (dropWhile_toAsciiLowercase isWhitespace_toLower _).1,
    (dropWhile_toAsciiLowercase isWhitespace_toLower _).2]
  rfl

theorem trimEndMatches_toAsciiLowercase (t : Text) :
    trimEndMatches '.' (toAsciiLowercase t) = toAsciiLowercase (trimEndMatches '.' t) := by
  refine (dropWhile_toAsciiLowercase (fun c => ?_) t).2
  rcases toLower_cases c with h | ⟨h, hlower⟩
  · rw [h]
  · have hdot (d : Char) (hd : 65 ≤ d.toNat) : (d == '.') = false := by
      rw [beq_eq_false_iff_ne]
      rintro rfl
      exact absurd hd (by decide)
    rw [hdot c h.1, hdot c.toLower (by omega)]

theorem toAsciiLowercase_toAsciiLowercase (t : Text) :
    toAsciiLowercase (toAsciiLowercase t) = toAsciiLowercase t := by
  rw [toAsciiLowercase, toAsciiLowercase, map_map]
  refine map_congr_left fun c _ => ?_
  rcases toLower_cases c with h | ⟨_, hlower⟩
  · rw [Function.comp_apply, h, h]
  · rcases toLower_cases c.toLower with h | ⟨h, -⟩
    · exact h
    · omega

end Trimming

section Split

def stripPrefix (p t : Text) : Option Text :=
  if p.isPrefixOf t then some (t.drop p.length) else none

theorem stripPrefix_eq_some {p r : Text} (h : stripPrefix p t = some r) : t = p ++ r := by
  unfold stripPrefix at h
  split_ifs at h with hp
  obtain ⟨s, rfl⟩ := isPrefixOf_iff_prefix.mp hp
  obtain rfl : s = r := by simpa using h
  rfl

def stripSuffix (p t : Text) : Option Text :=
  if p.isSuffixOf t then some (t.take (t.length - p.length)) else none

def splitOnce (c : Char) : Text → Option (Text × Text)
  | [] => none
  | d :: t => if d = c then some ([], t) else (splitOnce c t).map fun (l, r) => (d :: l, r)

def rsplitOnce (c : Char) (t : Text) : Option (Text × Text) :=
  (splitOnce c t.reverse).map fun (l, r) => (r.reverse, l.reverse)

variable {l : Text}

theorem splitOnce_eq_some {r : Text} (h : splitOnce c t = some (l, r)) :
    t = l ++ c :: r ∧ c ∉ l := by
  induction t generalizing l with
  | nil => simp [splitOnce] at h
  | cons _ _ ih =>
    rw [splitOnce] at h
    split at h
    · next hd =>
      simp only [Option.some.injEq, Prod.mk.injEq] at h
      obtain ⟨rfl, rfl⟩ := h
      simp [hd]
    · next hd =>
      simp only [Option.map_eq_some_iff, Prod.mk.injEq, Prod.exists] at h
      obtain ⟨_, _, hl, rfl, rfl⟩ := h
      obtain ⟨rfl, hmem⟩ := ih hl
      refine ⟨rfl, ?_⟩
      simp only [mem_cons, not_or]
      exact ⟨fun h => hd h.symm, hmem⟩

theorem splitOnce_append (r : Text) (h : c ∉ l) : splitOnce c (l ++ c :: r) = some (l, r) := by
  induction l with
  | nil => simp [splitOnce]
  | cons d _ ih =>
    simp only [mem_cons, not_or] at h
    have hd : ¬ d = c := fun e => h.1 e.symm
    simp [splitOnce, hd, ih h.2]

/-- `split_once` for a text. -/
def splitOnceAt (needle : Text) : Text → Option (Text × Text)
  | [] => if needle.isEmpty then some ([], []) else none
  | c :: t =>
    match stripPrefix needle (c :: t) with
    | some r => some ([], r)
    | none => (splitOnceAt needle t).map fun (l, r) => (c :: l, r)

/-- `str::lines`: a line ends with a line feed, and a carriage return right before it is dropped. -/
def lines (t : Text) : List Text :=
  let parts := t.splitOn '\n'
  parts.dropLast.map (fun l => (stripSuffix ['\r'] l).getD l) ++
    (parts.getLast?.filter fun l => !l.isEmpty).toList

/-- `split` at each pair of the characters `a`, `b`, searched from the left. -/
def splitPair (a b : Char) : Text → List Text
  | [] => [[]]
  | [c] => [[c]]
  | c :: d :: t =>
    if c = a ∧ d = b then [] :: splitPair a b t
    else (splitPair a b (d :: t)).modifyHead (c :: ·)

def splitCrlf (t : Text) : List Text := splitPair '\r' '\n' t

variable {a b : Char}

theorem splitPair_ne_nil (t : Text) : splitPair a b t ≠ [] := by
  fun_induction splitPair a b t with
  | case1 => simp
  | case2 => simp
  | case3 => simp
  | case4 c d t _ ih =>
    intro h
    exact ih (by simpa using congrArg length h)

theorem splitPair_cons (h : c ≠ a) (t : Text) :
    splitPair a b (c :: t) = (splitPair a b t).modifyHead (c :: ·) := by
  cases t with
  | nil => rfl
  | cons => rw [splitPair, if_neg fun e => h e.1]

theorem splitPair_append (h : a ∉ l) (t : Text) :
    splitPair a b (l ++ t) = (splitPair a b t).modifyHead (l ++ ·) := by
  obtain ⟨_, _, hs⟩ := exists_cons_of_ne_nil (splitPair_ne_nil (a := a) (b := b) t)
  induction l with
  | nil => simp [hs]
  | cons _ _ ih =>
    simp only [mem_cons, not_or] at h
    rw [cons_append, splitPair_cons (fun e => h.1 e.symm), ih h.2, hs]
    simp

def joinCrlf : List Text → Text
  | [] => []
  | [l] => l
  | l :: ls => l ++ '\r' :: '\n' :: joinCrlf ls

theorem splitCrlf_joinCrlf {ls : List Text} (hne : ls ≠ []) (h : ∀ l ∈ ls, '\r' ∉ l) :
    splitCrlf (joinCrlf ls) = ls := by
  fun_induction joinCrlf ls with
  | case1 => exact absurd rfl hne
  | case2 l =>
    have := splitPair_append (b := '\n') (h l (by simp)) []
    simpa [splitCrlf, splitPair] using this
  | case3 l ls hls ih =>
    have ih := ih hls fun l hl => h l (by simp [hl])
    rw [splitCrlf] at ih ⊢
    rw [splitPair_append (h l (by simp)), splitPair, if_pos ⟨rfl, rfl⟩, ih]
    simp

theorem joinCrlf_append_crlf {ls : List Text} (hne : ls ≠ []) :
    joinCrlf ls ++ ['\r', '\n'] = ls.flatMap (· ++ ['\r', '\n']) := by
  fun_induction joinCrlf ls with
  | case1 => exact absurd rfl hne
  | case2 l => simp
  | case3 l ls hls ih =>
    rw [flatMap_cons, ← ih hls]
    simp

theorem length_le_length_joinCrlf (ls : List Text) : ls.length ≤ (joinCrlf ls).length + 1 := by
  fun_induction joinCrlf ls with
  | case1 => simp
  | case2 l => simp
  | case3 l ls _ ih => simp; omega

def splitWhitespace (t : Text) : List Text :=
  (t.splitOnP isWhitespace).filter fun p => !p.isEmpty

theorem splitWhitespace_append (hc : isWhitespace c = true) (s t : Text) :
    splitWhitespace (s ++ c :: t) = splitWhitespace s ++ splitWhitespace t := by
  simp [splitWhitespace, splitOnP_append_cons _ _ hc]

theorem splitWhitespace_word (hne : t ≠ []) (h : ∀ c ∈ t, isWhitespace c = false) :
    splitWhitespace t = [t] := by
  simp [splitWhitespace, splitOnP_eq_singleton h, hne]

theorem splitWhitespace_ne_nil (hc : c ∈ t) (h : isWhitespace c = false) :
    splitWhitespace t ≠ [] := by
  -- cut the text at its first blank, if it has one, and look for the character on both sides
  induction hn : t.length using Nat.strong_induction_on generalizing t with
  | _ n ih =>
    by_cases hws : ∃ d ∈ t, isWhitespace d = true
    · obtain ⟨d, hd, hdws⟩ := hws
      obtain ⟨l, r, rfl⟩ := append_of_mem hd
      rw [splitWhitespace_append hdws]
      simp only [length_append, length_cons] at hn
      have hcd : c ≠ d := by
        rintro rfl
        simp [h] at hdws
      have hcases : c ∈ l ∨ c ∈ r := by simpa [hcd] using hc
      rcases hcases with hcl | hcr
      · simp [ih l.length (by omega) hcl rfl]
      · simp [ih r.length (by omega) hcr rfl]
    · simp only [not_exists, not_and, Bool.not_eq_true] at hws
      rw [splitWhitespace_word (ne_nil_of_mem hc) hws]
      simp

theorem mem_splitOnP {p : Char → Bool} {w : Text} (hw : w ∈ t.splitOnP p) :
    ∀ c ∈ w, c ∈ t ∧ p c = false := by
  intro c hc
  induction t generalizing w with
  | nil =>
    obtain rfl : w = [] := by simpa using hw
    simp at hc
  | cons _ t ih =>
    obtain ⟨_, _, hs⟩ := exists_cons_of_ne_nil (splitOnP_ne_nil p t)
    rw [splitOnP_cons_eq_if_modifyHead, hs] at hw
    rw [hs] at ih
    split at hw
    · rcases mem_cons.mp hw with rfl | hw
      · simp at hc
      · exact (ih hw hc).imp_left (mem_cons_of_mem _)
    · next hd =>
      simp only [modifyHead_cons, mem_cons] at hw
      rcases hw with rfl | hw
      · rcases mem_cons.mp hc with rfl | hc
        · exact ⟨by simp, by simpa using hd⟩
        · exact (ih (by simp) hc).imp_left (mem_cons_of_mem _)
      · exact (ih (by simp [hw]) hc).imp_left (mem_cons_of_mem _)

theorem mem_splitWhitespace {w : Text} (hw : w ∈ splitWhitespace t) :
    w ≠ [] ∧ ∀ c ∈ w, c ∈ t ∧ isWhitespace c = false :=
  ⟨by simpa using of_mem_filter hw, mem_splitOnP (mem_of_mem_filter hw)⟩

end Split

def toDigit (radix : Nat) (c : Char) : Option Nat :=
  let value :=
    if '0' ≤ c ∧ c ≤ '9' then some (c.toNat - 48)
    else if 'a' ≤ c ∧ c ≤ 'z' then some (c.toNat - 87)
    else if 'A' ≤ c ∧ c ≤ 'Z' then some (c.toNat - 55)
    else none
  value.filter (· < radix)

theorem isAsciiAlphanumeric_of_toDigit {radix : ℕ} (h : (toDigit radix c).isSome = true) :
    isAsciiAlphanumeric c = true := by
  rw [isAsciiAlphanumeric_iff]
  unfold toDigit at h
  dsimp only at h
  split_ifs at h with h₁ h₂ h₃
  · exact .inl h₁
  · exact .inr (.inl h₂)
  · exact .inr (.inr h₃)
  · simp at h

/-- The value of a list of digits, read after the digits that gave `acc`. -/
def digitsValue (radix : Nat) : Nat → Text → Option Nat
  | acc, [] => some acc
  | acc, c :: t => (toDigit radix c).bind fun d => digitsValue radix (acc * radix + d) t

/-- `from_str_radix` of the unsigned types: one optional plus sign, at least one digit, and a
value below `bound`. -/
def parseUnsigned (radix bound : Nat) (t : Text) : Option Nat :=
  let digits := match t with
    | '+' :: t => t
    | t => t
  if digits.isEmpty then none else (digitsValue radix 0 digits).filter (· < bound)

/-- The number of values of `usize` on a 64-bit target. -/
def usizeBound : Nat := 2 ^ 64

def parseUsize (t : Text) : Option Nat := parseUnsigned 10 usizeBound t

def parseU16 (t : Text) : Option Nat := parseUnsigned 10 (2 ^ 16) t

def parseU8 (t : Text) : Option Nat := parseUnsigned 10 (2 ^ 8) t

theorem parseUnsigned_lt {radix bound n : Nat} (h : parseUnsigned radix bound t = some n) :
    n < bound := by
  unfold parseUnsigned at h
  simp only at h
  split_ifs at h
  simp only [Option.filter_eq_some_iff, decide_eq_true_eq] at h
  exact h.2

end Rust

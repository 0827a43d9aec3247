import EdgeProxy.Lib.Numbers

/-! # JSON records of scalars

The documents that a struct of strings, unsigned integers and options is read from: an object or
an array of scalars. Every other value is an error for such a struct, so the reader refuses it.
The writer is the compact form of `serde_json`, and the reader gives back what it wrote.
-/

namespace Rust.Json

open List Option

inductive Scalar where
  | null
  | number (n : ℕ)
  | string (t : Text)
  deriving DecidableEq

inductive Document where
  | object (fields : List (Text × Scalar))
  | array (values : List Scalar)
  deriving DecidableEq

def escapeChar (c : Char) : Text :=
  if c = '"' then ['\\', '"']
  else if c = '\\' then ['\\', '\\']
  else if c = '\x08' then ['\\', 'b']
  else if c = '\x0c' then ['\\', 'f']
  else if c = '\n' then ['\\', 'n']
  else if c = '\r' then ['\\', 'r']
  else if c = '\t' then ['\\', 't']
  else if c.toNat < 0x20 then
    ['\\', 'u', '0', '0', (c.toNat / 16).digitChar, (c.toNat % 16).digitChar]
  else [c]

def writeString (t : Text) : Text := '"' :: (t.flatMap escapeChar ++ ['"'])

def writeScalar : Scalar → Text
  | .null => "null".toList
  | .number n => (toString n).toList
  | .string t => writeString t

def writeField (field : Text × Scalar) : Text := writeString field.1 ++ ':' :: writeScalar field.2

def writeRest : List (Text × Scalar) → Text
  | [] => ['}']
  | field :: fields => ',' :: (writeField field ++ writeRest fields)

/-- `serde_json::to_vec` of a struct. -/
def writeObject : List (Text × Scalar) → Text
  | [] => ['{', '}']
  | field :: fields => '{' :: (writeField field ++ writeRest fields)

section Reader

def isSpace (c : Char) : Bool := c == ' ' || c == '\n' || c == '\t' || c == '\r'

def skipSpace (t : Text) : Text := t.dropWhile isSpace

def readHex (t : Text) : Option (ℕ × Text) :=
  if t.length < 4 then none else (digitsValue 16 0 (t.take 4)).map fun n => (n, t.drop 4)

def isHighSurrogate (n : ℕ) : Bool := 0xD800 ≤ n && n < 0xDC00

def isLowSurrogate (n : ℕ) : Bool := 0xDC00 ≤ n && n < 0xE000

def readLowSurrogate (high : ℕ) : Text → Option (Char × Text)
  | '\\' :: 'u' :: t => do
    let (low, t) ← readHex t
    if isLowSurrogate low then
      some (Char.ofNat (0x10000 + (high - 0xD800) * 0x400 + (low - 0xDC00)), t)
    else none
  | _ => none

def readUnicode (t : Text) : Option (Char × Text) := do
  let (n, t) ← readHex t
  if isHighSurrogate n then readLowSurrogate n t
  else if isLowSurrogate n then none
  else some (Char.ofNat n, t)

def readEscape : Text → Option (Char × Text)
  | [] => none
  | c :: t =>
    if c = 'u' then readUnicode t
    else (['"', '\\', '/', 'b', 'f', 'n', 'r', 't'].zip
      ['"', '\\', '/', '\x08', '\x0c', '\n', '\r', '\t']).lookup c |>.map fun c => (c, t)

def readChar : Text → Option (Char × Text)
  | [] => none
  | c :: t =>
    if c = '\\' then readEscape t else if c.toNat < 0x20 then none else some (c, t)

def readChars : ℕ → Text → Option (Text × Text)
  | 0, _ => none
  | fuel + 1, t =>
    if t.head? = some '"' then some ([], t.tail)
    else do
      let (c, t) ← readChar t
      let (s, t) ← readChars fuel t
      some (c :: s, t)

def readString : Text → Option (Text × Text)
  | '"' :: t => readChars t.length t
  | _ => none

def continuesNumber (t : Text) : Bool := t.head?.any fun c => c == '.' || c == 'e' || c == 'E'

/-- An unsigned 64-bit integer. -/
def readNumber (t : Text) : Option (ℕ × Text) :=
  let digits := t.takeWhile Char.isDigit
  let rest := t.dropWhile Char.isDigit
  if digits = [] ∨ (digits.head? = some '0' ∧ digits.length ≠ 1) ∨ continuesNumber rest then none
  else ((digitsValue 10 0 digits).filter (· < 2 ^ 64)).map fun n => (n, rest)

def readScalar (t : Text) : Option (Scalar × Text) :=
  if t.head? = some '"' then (readString t).map fun r => (.string r.1, r.2)
  else if t.head? = some 'n' then (stripPrefix "null".toList t).map fun t => (.null, t)
  else (readNumber t).map fun r => (.number r.1, r.2)

def readField (t : Text) : Option ((Text × Scalar) × Text) := do
  let (key, t) ← readString t
  match skipSpace t with
  | ':' :: t =>
    let (value, t) ← readScalar (skipSpace t)
    some ((key, value), t)
  | _ => none

variable {α : Type}

def readRest (item : Text → Option (α × Text)) (close : Char) : ℕ → Text → Option (List α × Text)
  | 0, _ => none
  | fuel + 1, t =>
    match skipSpace t with
    | [] => none
    | c :: t =>
      if c = close then some ([], t)
      else if c = ',' then do
        let (a, t) ← item (skipSpace t)
        let (as, t) ← readRest item close fuel t
        some (a :: as, t)
      else none

def readItems (item : Text → Option (α × Text)) (close : Char) (t : Text) :
    Option (List α × Text) :=
  if (skipSpace t).head? = some close then some ([], (skipSpace t).tail)
  else do
    let (a, t) ← item (skipSpace t)
    let (as, t) ← readRest item close t.length t
    some (a :: as, t)

def readAll {β : Type} (build : List α → β) (result : Option (List α × Text)) : Option β :=
  match result with
  | some (as, t) => if skipSpace t = [] then some (build as) else none
  | none => none

/-- `serde_json::from_slice` up to the fields of the struct. -/
def readDocument (t : Text) : Option Document :=
  match skipSpace t with
  | '{' :: t => readAll .object (readItems readField '}' t)
  | '[' :: t => readAll .array (readItems readScalar ']' t)
  | _ => none

end Reader

variable {t : Text}

theorem skipSpace_of_head (h : ∀ c ∈ t.head?, isSpace c = false) : skipSpace t = t := by
  cases t with
  | nil => rfl
  | cons c => simp [skipSpace, h c rfl]

theorem digitsValue_control : ∀ n < 0x20,
    digitsValue 16 0 ['0', '0', (n / 16).digitChar, (n % 16).digitChar] = some n := by
  decide

theorem readUnicode_control {c : Char} (h : c.toNat < 0x20) (t : Text) :
    readUnicode ('0' :: '0' :: (c.toNat / 16).digitChar :: (c.toNat % 16).digitChar :: t) =
      some (c, t) := by
  have hhigh : isHighSurrogate c.toNat = false := by simp [isHighSurrogate]; omega
  have hlow : isLowSurrogate c.toNat = false := by simp [isLowSurrogate]; omega
  have hhex : readHex ('0' :: '0' :: (c.toNat / 16).digitChar :: (c.toNat % 16).digitChar :: t) =
      some (c.toNat, t) := by
    rw [readHex, if_neg (by simp)]
    exact congrArg (Option.map _) (digitsValue_control _ h)
  simp [readUnicode, hhex, hhigh, hlow]

theorem readChar_escapeChar (c : Char) (t : Text) : readChar (escapeChar c ++ t) = some (c, t) := by
  unfold escapeChar
  split_ifs with hquote hbackslash hb hf hn hr ht hcontrol
  · subst hquote; rfl
  · subst hbackslash; rfl
  · subst hb; rfl
  · subst hf; rfl
  · subst hn; rfl
  · subst hr; rfl
  · subst ht; rfl
  · exact readUnicode_control hcontrol t
  · simp [readChar, hbackslash, hcontrol]

theorem head_escapeChar_append (c : Char) (t : Text) : (escapeChar c ++ t).head? ≠ some '"' := by
  unfold escapeChar
  split_ifs with hquote
  all_goals simp
  exact hquote

theorem readChars_escaped (s t : Text) {fuel : ℕ} (h : s.length < fuel) :
    readChars fuel (s.flatMap escapeChar ++ '"' :: t) = some (s, t) := by
  induction s generalizing fuel with
  | nil =>
    obtain ⟨fuel, rfl⟩ : ∃ n, fuel = n + 1 := ⟨fuel - 1, by simp at h; omega⟩
    simp [readChars]
  | cons c _ ih =>
    obtain ⟨fuel, rfl⟩ : ∃ n, fuel = n + 1 := ⟨fuel - 1, by simp at h; omega⟩
    rw [flatMap_cons, append_assoc, readChars, if_neg (head_escapeChar_append c _),
      readChar_escapeChar]
    simp [ih (by simpa using h)]

theorem length_le_escaped (s : Text) : s.length ≤ (s.flatMap escapeChar).length := by
  induction s with
  | nil => simp
  | cons c =>
    have hc : 1 ≤ (escapeChar c).length := by
      unfold escapeChar
      split_ifs
      all_goals simp
    rw [flatMap_cons, length_append, length_cons]
    omega

theorem readString_writeString (s t : Text) : readString (writeString s ++ t) = some (s, t) := by
  have hlength := length_le_escaped s
  rw [writeString, cons_append, append_assoc]
  refine readChars_escaped s t ?_
  simp only [length_append, cons_append, nil_append, length_cons]
  omega

/-- What stands after a scalar: it is not read as part of a number. -/
def EndsScalar (t : Text) : Prop := ∀ c ∈ t.head?, c.isDigit = false ∧ continuesNumber t = false

theorem digitChar_ne_zero : ∀ d < 10, d ≠ 0 → d.digitChar ≠ '0' := by decide

theorem toDigits_head {n : ℕ} (hn : n ≠ 0) : (Nat.toDigits 10 n).head? ≠ some '0' := by
  induction n using Nat.strong_induction_on with
  | _ n ih =>
    rw [Nat.toDigits_eq_if (by decide)]
    split_ifs with hlt
    · simpa using digitChar_ne_zero n hlt hn
    · rw [head?_append_of_ne_nil _ Nat.toDigits_ne_nil]
      exact ih (n / 10) (by omega) (by omega)

theorem readNumber_toString {n : ℕ} (hn : n < 2 ^ 64) (ht : EndsScalar t) :
    readNumber ((toString n).toList ++ t) = some (n, t) := by
  have hdigits : ∀ c ∈ (toString n).toList, c.isDigit = true := fun c => isDigit_of_mem_toString
  have hend : ∀ c ∈ t.head?, c.isDigit = false := fun c hc => (ht c hc).1
  have htake : ((toString n).toList ++ t).takeWhile Char.isDigit = (toString n).toList := by
    rw [takeWhile_append_of_pos hdigits]
    cases t with
    | nil => simp
    | cons c => simp [hend c rfl]
  have hdrop : ((toString n).toList ++ t).dropWhile Char.isDigit = t := by
    rw [dropWhile_append_of_pos hdigits]
    cases t with
    | nil => simp
    | cons c => simp [hend c rfl]
  have hzero : ¬ ((toString n).toList.head? = some '0' ∧ (toString n).toList.length ≠ 1) := by
    rintro ⟨hhead, hlength⟩
    by_cases h0 : n = 0
    · subst h0
      exact hlength rfl
    · rw [toList_toString] at hhead
      exact toDigits_head h0 hhead
  have hcontinue : continuesNumber t = false := by
    cases t with
    | nil => rfl
    | cons c => exact (ht c rfl).2
  rw [readNumber]
  simp only [htake, hdrop, toList_toString_ne_nil, false_or, hzero, hcontinue,
    Bool.false_eq_true, if_false]
  rw [toList_toString, digitsValue_toDigits, filter_some, if_pos (decide_eq_true hn)]
  rfl

/-- A number fits the integers of the format. -/
def Scalar.fits : Scalar → Prop
  | .number n => n < 2 ^ 64
  | _ => True

theorem head_toString_append (n : ℕ) (t : Text) :
    ∀ c ∈ ((toString n).toList ++ t).head?, c.isDigit = true := by
  intro c hc
  rw [head?_append_of_ne_nil _ (toList_toString_ne_nil n)] at hc
  exact isDigit_of_mem_toString (mem_of_mem_head? hc)

theorem readScalar_writeScalar {value : Scalar} (hvalue : value.fits)
    (ht : EndsScalar t) : readScalar (writeScalar value ++ t) = some (value, t) := by
  cases value with
  | null => rfl
  | number n =>
    have hhead (c : Char) (hc : c.isDigit = false) :
        ((toString n).toList ++ t).head? ≠ some c := by
      intro h
      rw [head_toString_append n t c h] at hc
      cases hc
    rw [writeScalar, readScalar, if_neg (hhead '"' rfl), if_neg (hhead 'n' rfl),
      readNumber_toString hvalue ht]
    rfl
  | string s =>
    have hquote : (writeString s ++ t).head? = some '"' := rfl
    rw [writeScalar, readScalar, if_pos hquote, readString_writeString]
    rfl

theorem isSpace_of_isDigit {c : Char} (h : c.isDigit = true) : isSpace c = false := by
  rw [isSpace]
  simp only [Bool.or_eq_false_iff, beq_eq_false_iff_ne]
  refine ⟨⟨⟨?_, ?_⟩, ?_⟩, ?_⟩
  all_goals
    rintro rfl
    cases h

theorem skipSpace_writeScalar (value : Scalar) (t : Text) :
    skipSpace (writeScalar value ++ t) = writeScalar value ++ t := by
  cases value with
  | null => rfl
  | number n =>
    exact skipSpace_of_head fun c hc => isSpace_of_isDigit (head_toString_append n t c hc)
  | string => rfl

theorem readField_writeField {field : Text × Scalar} (hfield : field.2.fits)
    (ht : EndsScalar t) : readField (writeField field ++ t) = some (field, t) := by
  have hcolon : skipSpace (':' :: (writeScalar field.2 ++ t)) = ':' :: (writeScalar field.2 ++ t) :=
    rfl
  rw [writeField, readField, append_assoc, readString_writeString]
  simp only [cons_append, bind_eq_bind, bind_some, hcolon,
    skipSpace_writeScalar, readScalar_writeScalar hfield ht]

theorem endsScalar_writeRest (fields : List (Text × Scalar)) (t : Text) :
    EndsScalar (writeRest fields ++ t) := by
  intro c hc
  cases fields with
  | nil =>
    obtain rfl : '}' = c := by simpa [writeRest] using hc
    exact ⟨rfl, rfl⟩
  | cons =>
    obtain rfl : ',' = c := by simpa [writeRest] using hc
    exact ⟨rfl, rfl⟩

theorem skipSpace_writeField (field : Text × Scalar) (t : Text) :
    skipSpace (writeField field ++ t) = writeField field ++ t := rfl

theorem readRest_writeRest {fields : List (Text × Scalar)} (h : ∀ field ∈ fields, field.2.fits)
    (t : Text) {fuel : ℕ} (hfuel : fields.length < fuel) :
    readRest readField '}' fuel (writeRest fields ++ t) = some (fields, t) := by
  induction fields generalizing fuel with
  | nil =>
    obtain ⟨fuel, rfl⟩ : ∃ n, fuel = n + 1 := ⟨fuel - 1, by simp at hfuel; omega⟩
    rfl
  | cons field fields ih =>
    obtain ⟨fuel, rfl⟩ : ∃ n, fuel = n + 1 := ⟨fuel - 1, by simp at hfuel; omega⟩
    have hcomma : skipSpace (writeRest (field :: fields) ++ t) =
        ',' :: (writeField field ++ (writeRest fields ++ t)) := by
      rw [writeRest, cons_append, append_assoc]
      rfl
    have hfield := readField_writeField (h field mem_cons_self)
      (endsScalar_writeRest fields t)
    rw [readRest, hcomma]
    simp [skipSpace_writeField, hfield, ih (fun f hf => h f (mem_cons_of_mem _ hf))
      (by simpa using hfuel)]

theorem length_le_writeRest (fields : List (Text × Scalar)) :
    fields.length < (writeRest fields).length := by
  induction fields with
  | nil => simp [writeRest]
  | cons =>
    simp only [writeRest, length_cons, length_append]
    omega

theorem readDocument_writeObject {fields : List (Text × Scalar)}
    (h : ∀ field ∈ fields, field.2.fits) :
    readDocument (writeObject fields) = some (.object fields) := by
  cases fields with
  | nil => rfl
  | cons field fields =>
    have hend : EndsScalar (writeRest fields) := by
      simpa using endsScalar_writeRest fields []
    have hrest := readRest_writeRest (fun f hf => h f (mem_cons_of_mem _ hf)) []
      (length_le_writeRest fields)
    rw [append_nil] at hrest
    have hopen : skipSpace (writeObject (field :: fields)) =
        '{' :: (writeField field ++ writeRest fields) := rfl
    rw [readDocument, hopen]
    simp only [readItems, skipSpace_writeField,
      readField_writeField (h field mem_cons_self) hend, bind_eq_bind,
      bind_some, hrest, readAll]
    rfl

end Rust.Json

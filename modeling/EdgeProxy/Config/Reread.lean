import EdgeProxy.Config.Parser
import EdgeProxy.Config.Render
import EdgeProxy.Lib.Numbers
import EdgeProxy.Lib.Result

/-! # Reading a rendered snapshot back

Every line that the renderer writes is empty, a header in brackets, or a key and a value around an
equals sign. The parser takes such a line back to the key and the value as long as no text of the
snapshot breaks the line, so it reads a rendered snapshot back to the draft that `draftOf` gives.
-/

namespace EdgeProxy

open Rust List

/-- What the parser makes of a value that the renderer wrote. -/
structure Reads {β : Type} (read : Text → Except AppError β) (t : Text) (b : β) : Prop where
  ne_nil : t ≠ []
  trimmed : Trimmed t
  unbroken : '\n' ∉ t
  read_eq : read t = .ok b

theorem getLast?_bracketed (c d : Char) (t : Text) : (c :: t ++ [d]).getLast? = some d := by
  rw [getLast?_append_of_ne_nil _ (by simp)]
  rfl

variable {c : Char}

theorem trimmed_bracketed {d : Char} (hc : isWhitespace c = false) (hd : isWhitespace d = false)
    (t : Text) : Trimmed (c :: t ++ [d]) := by
  constructor
  · intro e he
    obtain rfl : c = e := by simpa using he
    exact hc
  · intro e he
    rw [getLast?_bracketed] at he
    obtain rfl : d = e := by simpa using he
    exact hd

theorem tail_dropLast_bracketed (c d : Char) (t : Text) : (c :: t ++ [d]).tail.dropLast = t := by
  simp

def quoted (v : Text) : Text := '"' :: v ++ ['"']

theorem parseString_quoted (v : Text) : parseString (quoted v) = .ok v := by
  rw [parseString, quoted, (trimmed_bracketed rfl rfl v).trim_eq, getLast?_bracketed,
    tail_dropLast_bracketed]
  simp

variable {v : Text}

theorem reads_quoted (h : '\n' ∉ v) : Reads parseString (quoted v) v where
  ne_nil := by simp [quoted]
  trimmed := trimmed_bracketed rfl rfl v
  unbroken := by simpa [quoted] using h
  read_eq := parseString_quoted v

theorem splitOn_eq_singleton (h : c ∉ v) : v.splitOn c = [v] := by
  refine splitOnP_eq_singleton fun d hd => ?_
  rw [beq_eq_false_iff_ne]
  exact ne_of_mem_of_not_mem hd h

theorem splitOn_append_cons (h : c ∉ v) (t : Text) :
    (v ++ c :: t).splitOn c = v :: t.splitOn c := by
  rw [splitOn, splitOnP_append_cons _ _ (by simp)]
  exact congrArg (· ++ t.splitOn c) (splitOn_eq_singleton h)

variable {vs : List Text}

theorem map_trim_splitOn_intercalate (hv : ',' ∉ v) (hvs : ∀ v ∈ vs, ',' ∉ v) :
    ((", ".toList.intercalate (v :: vs)).splitOn ',').map trim = (v :: vs).map trim := by
  induction vs generalizing v with
  | nil => rw [intercalate_singleton, splitOn_eq_singleton hv]
  | cons w ws ih =>
    have hblank : (' ' :: ", ".toList.intercalate (w :: ws)).splitOn ',' =
        ((", ".toList.intercalate (w :: ws)).splitOn ',').modifyHead (' ' :: ·) := by
      simp [splitOn, splitOnP_cons_eq_if_modifyHead]
    have ih := ih (hvs w (by simp)) fun v hv => hvs v (by simp [hv])
    rw [intercalate_cons_cons, append_assoc]
    change ((v ++ ',' :: ' ' :: ", ".toList.intercalate (w :: ws)).splitOn ',').map trim = _
    rw [splitOn_append_cons hv, hblank, map_cons, map_cons, ← ih]
    cases (", ".toList.intercalate (w :: ws)).splitOn ',' with
    | nil => rfl
    | cons => simp [trim_blank_cons]

theorem quotedArray_cons (v : Text) (vs : List Text) :
    ∃ m, Render.quotedArray (v :: vs) = '"' :: m ++ ['"'] := by
  induction vs generalizing v with
  | nil => exact ⟨v, intercalate_singleton⟩
  | cons w ws ih =>
    obtain ⟨m, hm⟩ := ih w
    refine ⟨v ++ ['"'] ++ ", ".toList ++ '"' :: m, ?_⟩
    have hcons : Render.quotedArray (v :: w :: ws) =
        '"' :: v ++ ['"'] ++ ", ".toList ++ Render.quotedArray (w :: ws) :=
      intercalate_cons_cons
    rw [hcons, hm]
    simp

theorem notMem_quotedArray (h : ∀ v ∈ vs, '\n' ∉ v) : '\n' ∉ Render.quotedArray vs := by
  induction vs with
  | nil => decide
  | cons v vs ih =>
    have hv : '\n' ∉ quoted v := by simpa [quoted] using h v (by simp)
    have ih := ih fun v hv => h v (by simp [hv])
    cases vs with
    | nil => simpa [Render.quotedArray, quoted] using hv
    | cons w ws =>
      have hcons : Render.quotedArray (v :: w :: ws) =
          quoted v ++ ", ".toList ++ Render.quotedArray (w :: ws) := intercalate_cons_cons
      rw [hcons]
      simp only [mem_append, not_or]
      exact ⟨⟨hv, by decide⟩, ih⟩

def Listable (v : Text) : Prop := '\n' ∉ v ∧ ',' ∉ v

theorem mapM_quotedArray {β : Type} (read : Text → Except AppError β) (hne : vs ≠ [])
    (h : ∀ v ∈ vs, ',' ∉ v) : (trim (Render.quotedArray vs)).isEmpty = false ∧
      ((trim (Render.quotedArray vs)).splitOn ',').mapM (fun item => read (trim item)) =
        vs.mapM fun v => read (quoted v) := by
  obtain ⟨v, vs, rfl⟩ := exists_cons_of_ne_nil hne
  have hcomma : ∀ w ∈ (v :: vs).map quoted, ',' ∉ w := by
    intro w hw
    obtain ⟨u, hu, rfl⟩ := mem_map.mp hw
    simpa [quoted] using h u hu
  have htrim : ((v :: vs).map quoted).map trim = (v :: vs).map quoted := by
    rw [map_map]
    exact map_congr_left fun u _ => (trimmed_bracketed rfl rfl u).trim_eq
  have hitems : ((Render.quotedArray (v :: vs)).splitOn ',').map trim = (v :: vs).map quoted :=
    (map_trim_splitOn_intercalate (hcomma _ mem_cons_self) fun w hw =>
      hcomma w (mem_cons_of_mem _ hw)).trans htrim
  obtain ⟨m, hm⟩ := quotedArray_cons v vs
  have hinner : trim (Render.quotedArray (v :: vs)) = Render.quotedArray (v :: vs) := by
    rw [hm]
    exact (trimmed_bracketed rfl rfl m).trim_eq
  refine ⟨by rw [hinner, hm]; rfl, ?_⟩
  rw [hinner, ← Function.comp_def read quoted, ← mapM_map, ← hitems, mapM_map]
  rfl

theorem reads_array (h : ∀ v ∈ vs, Listable v) :
    Reads parseStringArray ('[' :: Render.quotedArray vs ++ [']']) vs where
  ne_nil := by simp
  trimmed := trimmed_bracketed rfl rfl _
  unbroken := by simpa using notMem_quotedArray fun v hv => (h v hv).1
  read_eq := by
    rw [parseStringArray, (trimmed_bracketed rfl rfl _).trim_eq, getLast?_bracketed,
      tail_dropLast_bracketed, if_neg (by simp)]
    cases vs with
    | nil => rfl
    | cons v vs =>
      obtain ⟨hne, hitems⟩ := mapM_quotedArray parseString (cons_ne_nil v vs) fun w hw => (h w hw).2
      have hread : (fun w => parseString (quoted w)) = fun w => pure (id w) :=
        funext parseString_quoted
      simp only [hne, hitems, Bool.false_eq_true, if_false, hread, mapM_pure, map_id]
      rfl

theorem notMem_toString (n : ℕ) (hc : c.isDigit = false) : c ∉ (toString n).toList :=
  fun h => by simp [isDigit_of_mem_toString h] at hc

theorem digitsValue_toString (n : ℕ) : digitsValue 10 0 (toString n).toList = some n := by
  rw [toList_toString]
  exact digitsValue_toDigits n

variable {n : ℕ}

theorem parseUnsigned_toString {bound : ℕ} (h : n < bound) :
    parseUnsigned 10 bound (toString n).toList = some n := by
  have hplus : ∀ t, (toString n).toList ≠ '+' :: t :=
    fun t ht => notMem_toString n rfl (ht ▸ mem_cons_self : '+' ∈ (toString n).toList)
  unfold parseUnsigned
  split
  next t ht => exact absurd ht (hplus t)
  next =>
    rw [if_neg (by simp), digitsValue_toString]
    simp [h]

theorem trimmed_toString (n : ℕ) : Trimmed (toString n).toList := by
  refine trimmed_of_forall fun c hc => ?_
  have hdigit := isDigit_of_mem_toString hc
  simp only [Char.isDigit, Bool.and_eq_true, decide_eq_true_eq, ge_iff_le,
    UInt32.le_iff_toNat_le] at hdigit
  simp only [isWhitespace]
  simp at hdigit ⊢
  omega

theorem reads_toString {β : Type} {read : Text → Except AppError β} {b : β}
    (h : read (toString n).toList = .ok b) : Reads read (toString n).toList b :=
  ⟨toList_toString_ne_nil n, trimmed_toString n, notMem_toString n rfl, h⟩

theorem reads_number (what : String) {bound : ℕ} (h : n < bound) :
    Reads (parseNumber what bound) (toString n).toList n :=
  reads_toString (by rw [parseNumber, (trimmed_toString n).trim_eq, parseUnsigned_toString h])

theorem reads_u32 (n : UInt32) : Reads parseConfigU32 (toString n.toNat).toList n := by
  refine reads_toString ?_
  rw [parseConfigU32, (reads_number _ n.toNat_lt).read_eq]
  simp [Except.map]

theorem reads_i32_of_nat (h : n < 2 ^ 31) :
    Reads parseConfigI32 (toString n).toList (Int32.ofInt n) := by
  have hsign : ∀ t, (toString n).toList ≠ '-' :: t :=
    fun t ht => notMem_toString n rfl (ht ▸ mem_cons_self : '-' ∈ (toString n).toList)
  have hparse : parseI32 (toString n).toList = some (Int32.ofInt n) := by
    unfold parseI32
    split
    next t ht => exact absurd ht (hsign t)
    next =>
      rw [parseUnsigned_toString h]
      rfl
  exact reads_toString (by rw [parseConfigI32, (trimmed_toString n).trim_eq, hparse])

theorem reads_i32_of_neg (h : n ≤ 2 ^ 31) :
    Reads parseConfigI32 ('-' :: (toString n).toList) (Int32.ofInt (-(n : ℤ))) := by
  have htrim : Trimmed ('-' :: (toString n).toList) := by
    refine ⟨by simp; decide, fun c hc => (trimmed_toString n).last c ?_⟩
    rwa [getLast?_cons_of_ne_nil (toList_toString_ne_nil n)] at hc
  have hparse : parseI32 ('-' :: (toString n).toList) = some (Int32.ofInt (-(n : ℤ))) := by
    rw [parseI32, if_neg (by simp), digitsValue_toString, Option.filter_some_pos (by simpa using h)]
    rfl
  refine ⟨by simp, htrim, not_mem_cons_of_ne_of_not_mem (by decide) (notMem_toString n rfl), ?_⟩
  rw [parseConfigI32, htrim.trim_eq, hparse]

theorem reads_i32 (n : Int32) : Reads parseConfigI32 (toString n.toInt).toList n := by
  have hle : -2 ^ 31 ≤ n.toInt := n.le_toInt
  have hlt : n.toInt < 2 ^ 31 := n.toInt_lt
  conv => arg 3; rw [← n.ofInt_toInt]
  generalize n.toInt = i at hle hlt
  cases i with
  | ofNat => exact reads_i32_of_nat (Int.ofNat_lt.mp hlt)
  | negSucc m =>
    have htext : (toString (Int.negSucc m)).toList = '-' :: (toString (m + 1)).toList := by
      change ("-" ++ toString (m + 1)).toList = _
      rw [String.toList_append]
      rfl
    rw [htext]
    exact reads_i32_of_neg (by omega)

theorem reads_bool (b : Bool) :
    Reads parseBool (if b then "true".toList else "false".toList) b := by
  cases b
  · exact ⟨by decide, trimmed_of_forall (by decide), by decide, rfl⟩
  · exact ⟨by decide, trimmed_of_forall (by decide), by decide, rfl⟩

def isKeyCharacter (c : Char) : Bool := ('a' ≤ c && c ≤ 'z') || c == '_'

def IsKey (key : Text) : Prop := key ≠ [] ∧ key.all isKeyCharacter

instance (key : Text) : Decidable (IsKey key) := inferInstanceAs (Decidable (_ ∧ _))

theorem isKeyCharacter_spec (h : isKeyCharacter c = true) :
    isWhitespace c = false ∧ c ≠ '=' ∧ c ≠ '[' ∧ c ≠ '#' := by
  simp only [isKeyCharacter, Char.le_def, Bool.or_eq_true, Bool.and_eq_true, decide_eq_true_eq,
    UInt32.le_iff_toNat_le, beq_iff_eq] at h
  rcases h with h | rfl
  · refine ⟨?_, ?_, ?_, ?_⟩
    · simp only [isWhitespace]
      simp at h ⊢
      omega
    all_goals
      rintro rfl
      revert h
      decide
  · decide

def pairLine (key value : Text) : Text := key ++ " = ".toList ++ value

section Pair

variable {β : Type} {read : Text → Except AppError β} {t : Text} {b : β} {key : Text}

def OneLine (line : Text) : Prop := '\n' ∉ line ∧ Trimmed line

theorem oneLine_of_all {line : Text} (h : line.all (fun c => !isWhitespace c) = true) :
    OneLine line := by
  have hall : ∀ c ∈ line, isWhitespace c = false := by simpa using h
  exact ⟨fun hmem => absurd (hall _ hmem) (by decide), trimmed_of_forall hall⟩

theorem oneLine_pairLine (hkey : IsKey key) (ht : Reads read t b) : OneLine (pairLine key t) := by
  have hchars : ∀ c ∈ key, isWhitespace c = false :=
    fun c hc => (isKeyCharacter_spec (all_eq_true.mp hkey.2 c hc)).1
  refine ⟨?_, ?_, ?_⟩
  · simp only [pairLine, mem_append, not_or]
    exact ⟨⟨fun h => absurd (hchars _ h) (by decide), by decide⟩, ht.unbroken⟩
  · intro c hc
    rw [pairLine, append_assoc, head?_append_of_ne_nil _ hkey.1] at hc
    exact hchars c (mem_of_mem_head? hc)
  · intro c hc
    rw [pairLine, getLast?_append_of_ne_nil _ ht.ne_nil] at hc
    exact ht.trimmed.last c hc

theorem splitOnce_pairLine (hkey : IsKey key) (t : Text) :
    splitOnce '=' (pairLine key t) = some (key ++ [' '], ' ' :: t) ∧
      trim (key ++ [' ']) = key := by
  have hchars : ∀ c ∈ key, isWhitespace c = false ∧ c ≠ '=' ∧ c ≠ '[' ∧ c ≠ '#' :=
    fun c hc => isKeyCharacter_spec (all_eq_true.mp hkey.2 c hc)
  constructor
  · have h : '=' ∉ key ++ [' '] := by
      simp only [mem_append, not_or]
      exact ⟨fun h => (hchars _ h).2.1 rfl, by decide⟩
    simpa [pairLine] using splitOnce_append (' ' :: t) h
  · have htrim : Trimmed key := trimmed_of_forall fun c hc => (hchars c hc).1
    have hhead : ∀ c ∈ (key ++ [' ']).head?, isWhitespace c = false := by
      rw [head?_append_of_ne_nil _ hkey.1]
      exact htrim.head
    rw [trim, trimStart_eq_self hhead, trimEnd, rdropWhile_concat_pos _ _ _ (by decide)]
    exact trimEnd_eq_self htrim.last

theorem parseLine_pair (hkey : IsKey key) (ht : Reads read t b) (state : ParserState) :
    parseLine state (pairLine key t) =
      (applyMvpConfigValue state.draft state.section_ key t).map fun draft =>
        { state with draft } := by
  have hchars : ∀ c ∈ key, isWhitespace c = false ∧ c ≠ '=' ∧ c ≠ '[' ∧ c ≠ '#' :=
    fun c hc => isKeyCharacter_spec (all_eq_true.mp hkey.2 c hc)
  obtain ⟨hsplit, hkeyTrim⟩ := splitOnce_pairLine hkey t
  have hvalueTrim : trim (' ' :: t) = t := by
    rw [trim_blank_cons, ht.trimmed.trim_eq]
  obtain ⟨c, rest, hc, hbracket, hhash⟩ :
      ∃ c rest, pairLine key t = c :: rest ∧ c ≠ '[' ∧ c ≠ '#' := by
    obtain ⟨c, _, rfl⟩ := exists_cons_of_ne_nil hkey.1
    exact ⟨c, _, rfl, (hchars c mem_cons_self).2.2⟩
  have hopen : ∀ p : Text, startsWith ('[' :: p) (pairLine key t) = false := by
    intro p
    simp [startsWith, stripPrefix, hc, hbracket.symm]
  have hcomment : ((pairLine key t).isEmpty || (pairLine key t).head? == some '#') = false := by
    simp [hc, hhash]
  simp only [parseLine, (oneLine_pairLine hkey ht).2.trim_eq, hcomment, Bool.false_eq_true,
    if_false,
    show "[[".toList = ['[', '['] from rfl, hopen, Bool.false_and, hsplit, hkeyTrim, hvalueTrim]
  rfl

end Pair

theorem lines_flatMap {ls : List Text} (h : ∀ l ∈ ls, OneLine l) :
    lines (ls.flatMap (· ++ ['\n'])) = ls := by
  have hsplit : (ls.flatMap (· ++ ['\n'])).splitOn '\n' = ls ++ [[]] := by
    induction ls with
    | nil => rfl
    | cons l _ ih =>
      rw [flatMap_cons, append_assoc, singleton_append,
        splitOn_append_cons (h l (by simp)).1, ih fun l hl => h l (by simp [hl])]
      rfl
  have hstrip : ls.map (fun l => (stripSuffix ['\r'] l).getD l) = ls := by
    conv_rhs => rw [← map_id ls]
    refine map_congr_left fun l hl => ?_
    rw [stripSuffix, if_neg]
    · rfl
    · intro hsuffix
      have hlast : '\r' ∈ l.getLast? := by
        obtain ⟨_, rfl⟩ := isSuffixOf_iff_suffix.mp hsuffix
        simp
      exact absurd ((h l hl).2.last _ hlast) (by decide)
  rw [lines, hsplit, dropLast_concat, hstrip]
  simp

/-- The parser passes from one state to another over lines that are read as they were written. -/
structure Passes (ls : List Text) (state state' : ParserState) : Prop where
  oneLine : ∀ l ∈ ls, OneLine l
  parse : parseLines ls state = .ok state'

section Passes

variable {ls ms : List Text} {line : Text} {state m state' : ParserState}

theorem Passes.nil : Passes [] state state := ⟨by simp, rfl⟩

theorem Passes.cons (hline : OneLine line) (h : parseLine state line = .ok m)
    (hs : Passes ls m state') : Passes (line :: ls) state state' :=
  ⟨forall_mem_cons.mpr ⟨hline, hs.oneLine⟩, by rw [parseLines, h, ok_bind, hs.parse]⟩

theorem Passes.blank (h : Passes ls state state') : Passes ([] :: ls) state state' :=
  .cons (oneLine_of_all rfl) rfl h

theorem Passes.header (h : parseLine state line = .ok m) (hs : Passes ls m state')
    (hline : line.all (fun c => !isWhitespace c) = true := by decide) :
    Passes (line :: ls) state state' :=
  .cons (oneLine_of_all hline) h hs

theorem Passes.append (h : Passes ls state m) (hs : Passes ms m state') :
    Passes (ls ++ ms) state state' := by
  induction ls generalizing state with
  | nil =>
    obtain rfl := Except.ok.inj h.parse
    exact hs
  | cons _ _ ih =>
    obtain ⟨_, hl, hrest⟩ := bind_eq_ok.mp h.parse
    obtain ⟨hone, hones⟩ := forall_mem_cons.mp h.oneLine
    exact .cons hone hl (ih ⟨hones, hrest⟩)

end Passes

section Blocks

open Render

variable {α β : Type} {read : Text → Except AppError β} {t : Text} {b : β} {key : Text}
  {d : MvpConfigDraft}

theorem stringLine_eq (key : String) (v : Text) :
    stringLine key v = pairLine key.toList (quoted v) := by
  simp [stringLine, pairLine, quoted]

theorem scalarLine_eq (key : String) (v : Text) : scalarLine key v = pairLine key.toList v := rfl

@[simp] theorem modifyLast_append_singleton (f : α → α) (l : List α) (a : α) :
    modifyLast f (l ++ [a]) = l ++ [f a] := by
  induction l with
  | nil => rfl
  | cons b l ih =>
    cases l with
    | nil => rfl
    | cons => exact congrArg (b :: ·) ih

theorem updateLast_append_singleton {f : α → Except AppError α} {a a' : α} (l : List α)
    (h : f a = .ok a') : updateLast f (l ++ [a]) = .ok (l ++ [a']) := by
  induction l with
  | nil => simp [updateLast, h, Except.map]
  | cons b l ih =>
    have hcons : updateLast f (b :: (l ++ [a])) = (updateLast f (l ++ [a])).map (b :: ·) := by
      cases l with
      | nil => rfl
      | cons => rfl
    rw [cons_append, hcons, ih]
    rfl

/-- The part of a draft that the keys of a section set: `put` places it in the draft, and `apply`
is what the parser does to it. -/
def SectionFocus (section_ : Section) (apply : Text → Text → α → Option (Except AppError α))
    (put : α → MvpConfigDraft) : Prop :=
  ∀ (key t : Text) (set : α → α) (a : α), (∀ a, apply key t a = some (.ok (set a))) →
    applyMvpConfigValue (put a) section_ key t = .ok (put (set a))

section Focus

variable {section_ : Section} {apply : Text → Text → α → Option (Except AppError α)}
  {put : α → MvpConfigDraft} {ls : List Text} {a : α} {state : ParserState}

theorem SectionFocus.pair_of_eq (hf : SectionFocus section_ apply put) {set : α → α}
    (ht : Reads read t b)
    (h : ∀ a, apply key t a = some (.ok (set a)))
    (hs : Passes ls ⟨section_, put (set a)⟩ state) (hkey : IsKey key := by decide) :
    Passes (pairLine key t :: ls) ⟨section_, put a⟩ state := by
  refine .cons (oneLine_pairLine hkey ht) ?_ hs
  rw [parseLine_pair hkey ht]
  exact congrArg (Except.map _) (hf key t set a h)

theorem SectionFocus.pair (hf : SectionFocus section_ apply put) {set : α → β → α}
    (ht : Reads read t b)
    (hs : Passes ls ⟨section_, put (set a b)⟩ state)
    (h : ∀ a, apply key t a = some (do return set a (← read t)) := by exact fun _ => rfl)
    (hkey : IsKey key := by decide) :
    Passes (pairLine key t :: ls) ⟨section_, put a⟩ state := by
  have hset : ∀ a, apply key t a = some (.ok (set a b)) := by
    intro a
    rw [h, ht.read_eq]
    rfl
  exact hf.pair_of_eq ht hset hs hkey

end Focus

def MvpConfigDraft.outside (d : MvpConfigDraft) : MvpConfigDraft :=
  { d with inService := false, inUpstream := false }

def withListener (d : MvpConfigDraft) (ls : List ListenerDraft) (l : ListenerDraft) :
    MvpConfigDraft :=
  { d with listeners := ls ++ [l] }

theorem focus_listener (d : MvpConfigDraft) (ls : List ListenerDraft) :
    SectionFocus .listeners applyListenerValue (withListener d ls) := by
  intro key t set l h
  have hupdate : updateLast (fun l => (applyListenerValue key t l).getD (.ok l)) (ls ++ [l]) =
      .ok (ls ++ [set l]) :=
    updateLast_append_singleton ls (by rw [h]; rfl)
  rw [applyMvpConfigValue, applyListenersValue, h]
  change (if _ ∧ _ then _ else updateLast _ (ls ++ [l]) >>= _) = _
  rw [if_neg (by simp [withListener]), hupdate]
  rfl

def ListenerDraft.ofListener (listener : Listener) : ListenerDraft :=
  let draft : ListenerDraft :=
    { id := listener.id, bind := listener.bind, protocol := listener.protocol }
  match listener.clientAuth with
  | .disabled => draft
  | .required trustBundleRef =>
    { draft with
      clientAuth := some "required".toList, trustBundleRef := some trustBundleRef.value }

structure Listener.Readable (l : Listener) : Prop where
  id : '\n' ∉ l.id
  bind : '\n' ∉ l.bind
  clientAuth : ∀ ref, l.clientAuth = .required ref → '\n' ∉ ref.value

theorem Listener.Readable.passes {l : Listener} (h : l.Readable) (state : ParserState) :
    Passes (listenerLines l) state ⟨.listeners,
      withListener state.draft.outside state.draft.listeners (.ofListener l)⟩ := by
  have hf := focus_listener state.draft.outside state.draft.listeners
  obtain ⟨id, bind, protocol, auth⟩ := l
  have hprotocol : ∀ a, applyListenerValue "protocol".toList
      (quoted (ListenerProtocol.asStr protocol)) a = some (.ok { a with protocol }) := by
    intro a
    cases protocol <;> rfl
  have hunbroken : '\n' ∉ ListenerProtocol.asStr protocol := by cases protocol <;> decide
  simp only [listenerLines, stringLine_eq, cons_append, nil_append]
  refine .header (m := ⟨.listeners, withListener state.draft.outside _ {}⟩) rfl ?_
  refine hf.pair (reads_quoted h.id) ?_
  refine hf.pair (reads_quoted h.bind) ?_
  refine hf.pair_of_eq (reads_quoted hunbroken) hprotocol ?_
  cases auth with
  | disabled => exact .blank .nil
  | required ref =>
    refine hf.pair (reads_quoted (by decide)) ?_
    refine hf.pair (reads_quoted (h.clientAuth ref rfl)) ?_
    exact .blank .nil

theorem arrayLine_eq (key : String) (vs : List Text) :
    arrayLine key vs = pairLine key.toList ('[' :: quotedArray vs ++ [']']) := by
  simp [arrayLine, pairLine]

def withRoute (d : MvpConfigDraft) (rs : List Route) (r : Route) : MvpConfigDraft :=
  { d with routes := rs ++ [r] }

theorem focus_route (d : MvpConfigDraft) (rs : List Route) :
    SectionFocus .routes applyRouteValue (withRoute d rs) := by
  intro key t set r h
  have hupdate : updateLast (fun r => (applyRouteValue key t r).getD (.ok r)) (rs ++ [r]) =
      .ok (rs ++ [set r]) :=
    updateLast_append_singleton rs (by rw [h]; rfl)
  rw [applyMvpConfigValue, applyRoutesValue, h]
  change updateLast _ (rs ++ [r]) >>= _ = _
  rw [hupdate]
  rfl

/-- What a route is read back to: the hosts and paths are normalized again, the paths that match
exactly come last, and the certificate resolver is lost. -/
def Route.reread (route : Route) : Route :=
  { route with
    routeMatch := ⟨(route.routeMatch.hosts.map HostMatch.normalized).map .exact,
      (pathTexts false route.routeMatch.paths).map .below ++
        (pathTexts true route.routeMatch.paths).map .exact⟩
    certificateResolverId := none }

structure Route.Readable (r : Route) : Prop where
  id : '\n' ∉ r.id
  serviceId : '\n' ∉ r.serviceId
  certificateRef : ∀ c ∈ r.certificateRef, '\n' ∉ c
  hosts : ∀ host ∈ r.routeMatch.hosts, Listable host.normalized
  paths : ∀ path ∈ r.routeMatch.paths, Listable path.pathText

theorem Route.Readable.passes {r : Route} (h : r.Readable) (state : ParserState) :
    Passes (routeLines r) state ⟨.routes,
      withRoute state.draft.outside state.draft.routes r.reread⟩ := by
  have hf := focus_route state.draft.outside state.draft.routes
  have hhosts : ∀ v ∈ r.routeMatch.hosts.map HostMatch.normalized, Listable v := by
    simpa using h.hosts
  have hpaths : ∀ isExact, ∀ v ∈ pathTexts isExact r.routeMatch.paths, Listable v := by
    intro isExact v hv
    obtain ⟨path, hpath, rfl⟩ := mem_map.mp hv
    exact h.paths path (mem_of_mem_filter hpath)
  -- the line of the exact paths is left out when there are none
  have hexact : ∀ (a : Route) (ls : List Text) (state' : ParserState),
      Passes ls ⟨.routes, withRoute state.draft.outside state.draft.routes { a with
        routeMatch.paths := a.routeMatch.paths ++
          (pathTexts true r.routeMatch.paths).map PathMatch.exact }⟩ state' →
      Passes ((if (pathTexts true r.routeMatch.paths).isEmpty then []
        else [arrayLine "exact_paths" (pathTexts true r.routeMatch.paths)]) ++ ls)
        ⟨.routes, withRoute state.draft.outside state.draft.routes a⟩ state' := by
    intro a ls state' hs
    split
    · next hempty => simpa [isEmpty_iff.mp hempty] using hs
    · rw [arrayLine_eq, singleton_append]
      exact hf.pair (reads_array (hpaths true)) hs
  obtain ⟨id, ⟨hosts, paths⟩, serviceId, priority, enabled, redirect, _, cert⟩ := r
  simp only [routeLines, stringLine_eq, boolLine, scalarLine_eq, arrayLine_eq "hosts",
    arrayLine_eq "paths", cons_append, nil_append, append_assoc]
  refine .header (m := ⟨.routes, withRoute state.draft.outside _ .empty⟩) rfl ?_
  refine hf.pair (reads_quoted h.id) ?_
  refine hf.pair (reads_array hhosts) ?_
  refine hf.pair (reads_array (hpaths false)) ?_
  refine hexact _ _ _ ?_
  refine hf.pair (reads_quoted h.serviceId) ?_
  refine hf.pair (reads_i32 priority) ?_
  refine hf.pair (reads_bool enabled) ?_
  cases cert with
  | none =>
    refine hf.pair (reads_bool redirect) ?_
    exact .blank .nil
  | some cert =>
    refine hf.pair (reads_quoted (h.certificateRef cert rfl)) ?_
    refine hf.pair (reads_bool redirect) ?_
    exact .blank .nil

section Services

def withService (d : MvpConfigDraft) (ss : List ServiceDraft) (inUpstream : Bool)
    (s : ServiceDraft) : MvpConfigDraft :=
  { d with services := ss ++ [s], inService := true, inUpstream }

variable {ss : List ServiceDraft} {s : ServiceDraft} {flag : Bool}

theorem applyServicePolicyValue_eq {γ : Type} {section_ : Section} {message : String}
    {get : ServiceDraft → Option γ} {empty : γ} {apply : γ → Option (Except AppError γ)}
    {set : γ → γ} (put : ServiceDraft → γ → ServiceDraft) (p : γ)
    (hget : get (put s p) = some p) (hput : put (put s p) (set p) = put s (set p))
    (h : ∀ p, apply p = some (.ok (set p))) :
    applyServicePolicyValue (withService d ss flag (put s p)) section_ key message get empty put
      apply = .ok (withService d ss flag (put s (set p))) := by
  have hupdate : updateLast (fun s => do
      let policy := (get s).getD empty
      return put s (← (apply policy).getD (.ok policy))) (ss ++ [put s p]) =
      .ok (ss ++ [put s (set p)]) := by
    refine updateLast_append_singleton ss ?_
    rw [hget]
    change (apply p).getD (.ok p) >>= (fun q => .ok (put (put s p) q)) = _
    rw [h]
    exact congrArg Except.ok hput
  rw [applyServicePolicyValue, if_neg (by simp [withService]), h]
  change updateLast _ (ss ++ [put s p]) >>= _ = _
  rw [hupdate]
  rfl

theorem focus_healthCheck (d : MvpConfigDraft) (ss : List ServiceDraft) (flag : Bool)
    (s : ServiceDraft) : SectionFocus .servicesHealthCheck applyHealthCheckValue
      fun p => withService d ss flag { s with healthCheck := some p } :=
  fun _ _ _ p h =>
    applyServicePolicyValue_eq (fun s p => { s with healthCheck := some p }) p rfl rfl h

theorem focus_retry (d : MvpConfigDraft) (ss : List ServiceDraft) (flag : Bool)
    (s : ServiceDraft) : SectionFocus .servicesRetry applyRetryValue
      fun p => withService d ss flag { s with retry := some p } :=
  fun _ _ _ p h => applyServicePolicyValue_eq (fun s p => { s with retry := some p }) p rfl rfl h

theorem focus_passiveHealth (d : MvpConfigDraft) (ss : List ServiceDraft) (flag : Bool)
    (s : ServiceDraft) : SectionFocus .servicesPassiveHealth applyPassiveHealthValue
      fun p => withService d ss flag { s with passiveHealth := some p } :=
  fun _ _ _ p h =>
    applyServicePolicyValue_eq (fun s p => { s with passiveHealth := some p }) p rfl rfl h

theorem parseLine_startPolicy {line : Text} {section_ : Section} {state : ParserState}
    {start : ServiceDraft → ServiceDraft} (hstate : state.draft = withService d ss flag s)
    (hline : parseLine state line =
      (startServicePolicy { state.draft with inUpstream := false } start).map (⟨section_, ·⟩)) :
    parseLine state line = .ok ⟨section_, withService d ss false (start s)⟩ := by
  rw [hline, hstate]
  change Except.ok (ParserState.mk section_ { d with
    services := modifyLast start (ss ++ [s]), inService := true, inUpstream := false }) = _
  rw [modifyLast_append_singleton]
  rfl

structure HttpHealthCheckPolicy.Readable (p : HttpHealthCheckPolicy) : Prop where
  path : '\n' ∉ p.path
  intervalMs : p.intervalMs < 2 ^ 64
  timeoutMs : p.timeoutMs < 2 ^ 64
  healthyThreshold : p.healthyThreshold < 2 ^ 32
  unhealthyThreshold : p.unhealthyThreshold < 2 ^ 32
  statusMin : p.statusMin < 2 ^ 16
  statusMax : p.statusMax < 2 ^ 16

def HttpHealthCheckDraft.ofPolicy (p : HttpHealthCheckPolicy) : HttpHealthCheckDraft :=
  ⟨some true, some p.path, some p.intervalMs, some p.timeoutMs, some p.healthyThreshold,
    some p.unhealthyThreshold, some p.statusMin, some p.statusMax⟩

theorem HttpHealthCheckPolicy.Readable.passes {p : HttpHealthCheckPolicy} (h : p.Readable)
    (hs : s.healthCheck = none) (section_ : Section) :
    Passes (healthCheckLines p) ⟨section_, withService d ss flag s⟩ ⟨.servicesHealthCheck,
      withService d ss false { s with healthCheck := some (.ofPolicy p) }⟩ := by
  have hf := focus_healthCheck d ss false s
  simp only [healthCheckLines, stringLine_eq, boolLine, natLine, scalarLine_eq]
  refine .header ((parseLine_startPolicy rfl rfl).trans (by rw [hs])) ?_
  refine hf.pair (reads_bool true) ?_
  refine hf.pair (reads_quoted h.path) ?_
  refine hf.pair (reads_number _ h.intervalMs) ?_
  refine hf.pair (reads_number _ h.timeoutMs) ?_
  refine hf.pair (reads_number _ h.healthyThreshold) ?_
  refine hf.pair (reads_number _ h.unhealthyThreshold) ?_
  refine hf.pair (reads_number _ h.statusMin) ?_
  refine hf.pair (reads_number _ h.statusMax) ?_
  exact .blank .nil

theorem passes_retryLines {p : RetryPolicy} (h : p.maxRetries < 2 ^ 8 ∧ p.maxReplayBytes < 2 ^ 64)
    (hs : s.retry = none) (section_ : Section) :
    Passes (retryLines p) ⟨section_, withService d ss flag s⟩ ⟨.servicesRetry,
      withService d ss false { s with
        retry := some ⟨some p.enabled, some p.maxRetries, some p.maxReplayBytes⟩ }⟩ := by
  have hf := focus_retry d ss false s
  simp only [retryLines, boolLine, natLine, scalarLine_eq]
  refine .header ((parseLine_startPolicy rfl rfl).trans (by rw [hs])) ?_
  refine hf.pair (reads_bool p.enabled) ?_
  refine hf.pair (reads_number _ h.1) ?_
  refine hf.pair (reads_number _ h.2) ?_
  exact .blank .nil

/-- What the passive health lines say: a disabled policy is written with the defaults. -/
def PassiveHealthMode.written : PassiveHealthMode → Bool × PassiveHealthPolicy
  | .disabled => (false, ⟨3, 30000⟩)
  | .enabled policy => (true, policy)

def PassiveHealthPolicyDraft.ofMode (mode : PassiveHealthMode) : PassiveHealthPolicyDraft :=
  ⟨some mode.written.1, some mode.written.2.failureThreshold, some mode.written.2.ejectionMs⟩

theorem passes_passiveHealthLines {mode : PassiveHealthMode}
    (h : mode.written.2.failureThreshold < 2 ^ 8 ∧ mode.written.2.ejectionMs < 2 ^ 64)
    (hs : s.passiveHealth = none) (section_ : Section) :
    Passes (passiveHealthLines mode) ⟨section_, withService d ss flag s⟩ ⟨.servicesPassiveHealth,
      withService d ss false { s with passiveHealth := some (.ofMode mode) }⟩ := by
  have hf := focus_passiveHealth d ss false s
  have hlines : passiveHealthLines mode = ["[services.passive_health]".toList,
      boolLine "enabled" mode.written.1,
      natLine "failure_threshold" mode.written.2.failureThreshold,
      natLine "ejection_ms" mode.written.2.ejectionMs, []] := by cases mode <;> rfl
  simp only [hlines, boolLine, natLine, scalarLine_eq]
  refine .header ((parseLine_startPolicy rfl rfl).trans (by rw [hs])) ?_
  refine hf.pair (reads_bool _) ?_
  refine hf.pair (reads_number _ h.1) ?_
  refine hf.pair (reads_number _ h.2) ?_
  exact .blank .nil

theorem focus_upstream (d : MvpConfigDraft) (ss : List ServiceDraft) (s : ServiceDraft)
    (us : List UpstreamDraft) :
    SectionFocus .servicesUpstreams (fun key t u => (applyUpstreamValue key t u).map Prod.snd)
      fun u => withService d ss true { s with upstreams := us ++ [u] } := by
  intro key t set u h
  have hupstreams : updateLast (fun u => ((applyUpstreamValue key t u).map Prod.snd).getD (.ok u))
      (us ++ [u]) = .ok (us ++ [set u]) :=
    updateLast_append_singleton us (congrArg (·.getD (.ok u)) (h u))
  have hservices : updateLast (fun s : ServiceDraft => do
      let upstreams ← updateLast
        (fun u => ((applyUpstreamValue key t u).map Prod.snd).getD (.ok u)) s.upstreams
      return { s with upstreams }) (ss ++ [{ s with upstreams := us ++ [u] }]) =
      .ok (ss ++ [{ s with upstreams := us ++ [set u] }]) := by
    refine updateLast_append_singleton ss ?_
    rw [hupstreams]
    rfl
  obtain ⟨⟨_, _⟩, hsome, -⟩ := Option.map_eq_some_iff.mp (h {})
  rw [applyMvpConfigValue, applyUpstreamsValue, hsome]
  change updateLast _ (ss ++ [_]) >>= _ = _
  rw [hservices]
  rfl

def UpstreamDraft.ofUpstream (upstream : Upstream) : UpstreamDraft :=
  let draft : UpstreamDraft :=
    { id := upstream.id, url := upstream.url, administrativeState := upstream.administrativeState }
  match upstream.tls with
  | .disabled => draft
  | .serverAuthenticated serverName httpHost trustBundleRef =>
    { draft with
      serverName := some serverName.value, httpHost := some httpHost.value
      trustBundleRef := some trustBundleRef.value }

structure Upstream.Readable (u : Upstream) : Prop where
  id : '\n' ∉ u.id
  url : '\n' ∉ u.url
  tls : ∀ name host ref, u.tls = .serverAuthenticated name host ref →
    '\n' ∉ name.value ∧ '\n' ∉ host.value ∧ '\n' ∉ ref.value

theorem Upstream.Readable.passes {u : Upstream} (h : u.Readable) (section_ : Section) :
    Passes (upstreamLines u) ⟨section_, withService d ss flag s⟩ ⟨.servicesUpstreams,
      withService d ss true { s with upstreams := s.upstreams ++ [.ofUpstream u] }⟩ := by
  have hf := focus_upstream d ss s s.upstreams
  have hstart : parseLine ⟨section_, withService d ss flag s⟩ "[[services.upstreams]]".toList =
      .ok ⟨.servicesUpstreams, withService d ss true
        { s with upstreams := s.upstreams ++ [{}] }⟩ := by
    change Except.ok (ParserState.mk .servicesUpstreams { d with
      services := modifyLast (fun s => { s with upstreams := s.upstreams ++ [{}] }) (ss ++ [s])
      inService := true, inUpstream := true }) = _
    rw [modifyLast_append_singleton]
    rfl
  obtain ⟨id, url, state, tls⟩ := u
  have hstate : ∀ a, (applyUpstreamValue "administrative_state".toList
      (quoted (UpstreamAdministrativeState.asStr state)) a).map Prod.snd =
        some (.ok { a with administrativeState := state }) := by
    intro a
    cases state <;> rfl
  have hunbroken : '\n' ∉ UpstreamAdministrativeState.asStr state := by cases state <;> decide
  simp only [upstreamLines, stringLine_eq, cons_append, nil_append]
  refine .header hstart ?_
  refine hf.pair (reads_quoted h.id) ?_
  refine hf.pair (reads_quoted h.url) ?_
  cases tls with
  | disabled => exact hf.pair_of_eq (reads_quoted hunbroken) hstate (.blank .nil)
  | serverAuthenticated name host ref =>
    obtain ⟨hname, hhost, href⟩ := h.tls name host ref rfl
    refine hf.pair (reads_quoted hname) ?_
    refine hf.pair (reads_quoted hhost) ?_
    refine hf.pair (reads_quoted href) ?_
    exact hf.pair_of_eq (reads_quoted hunbroken) hstate (.blank .nil)

theorem passes_upstreams {us : List Upstream} (h : ∀ u ∈ us, u.Readable) (section_ : Section) :
    ∃ section' flag', Passes (us.flatMap upstreamLines) ⟨section_, withService d ss flag s⟩
      ⟨section', withService d ss flag' { s with
        upstreams := s.upstreams ++ us.map .ofUpstream }⟩ := by
  induction us generalizing section_ flag s with
  | nil => exact ⟨section_, flag, by simpa using Passes.nil⟩
  | cons _ _ ih =>
    obtain ⟨hu, hus⟩ := forall_mem_cons.mp h
    obtain ⟨section', flag', hrest⟩ := ih hus .servicesUpstreams
    exact ⟨section', flag', by simpa using (hu.passes section_).append hrest⟩

structure Service.Readable (service : Service) : Prop where
  id : '\n' ∉ service.id
  healthCheck : ∀ p, service.policy.healthCheck = .http p → p.Readable
  retry : service.policy.retry.maxRetries < 2 ^ 8 ∧ service.policy.retry.maxReplayBytes < 2 ^ 64
  passiveHealth : ∀ p, service.policy.passiveHealth = .enabled p →
    p.failureThreshold < 2 ^ 8 ∧ p.ejectionMs < 2 ^ 64
  upstreams : ∀ u ∈ service.upstreams, u.Readable

def ServiceDraft.ofService (service : Service) : ServiceDraft where
  id := service.id
  loadBalancing := service.policy.loadBalancing
  healthCheck := match service.policy.healthCheck with
    | .disabled => none
    | .http p => some (.ofPolicy p)
  retry := some ⟨some service.policy.retry.enabled, some service.policy.retry.maxRetries,
    some service.policy.retry.maxReplayBytes⟩
  passiveHealth := some (.ofMode service.policy.passiveHealth)
  upstreams := service.upstreams.map .ofUpstream

theorem passes_serviceHead {id : Text} (hid : '\n' ∉ id) (policy : LoadBalancingPolicy)
    (state : ParserState) :
    Passes ["[[services]]".toList, stringLine "name" id,
      stringLine "load_balancer" policy.asStr, []]
      state ⟨.services, withService state.draft state.draft.services false
        { id, loadBalancing := policy }⟩ := by
  have hname : parseLine ⟨.services, withService state.draft state.draft.services false {}⟩
        (pairLine "name".toList (quoted id)) =
      .ok ⟨.services, withService state.draft state.draft.services false { id }⟩ := by
    rw [parseLine_pair (by decide) (reads_quoted hid)]
    change Except.map _ (parseString (quoted id) >>= fun id => Except.ok { state.draft with
      services := modifyLast (fun s => { s with id := id })
        (state.draft.services ++ [({} : ServiceDraft)])
      inService := true, inUpstream := false }) = _
    rw [parseString_quoted, ok_bind, modifyLast_append_singleton]
    rfl
  have hbalancer : parseLine ⟨.services, withService state.draft state.draft.services false { id }⟩
        (pairLine "load_balancer".toList (quoted policy.asStr)) =
      .ok ⟨.services, withService state.draft state.draft.services false
        { id, loadBalancing := policy }⟩ := by
    cases policy
    rw [parseLine_pair (by decide) (reads_quoted (by decide))]
    change Except.ok (ParserState.mk .services { state.draft with
      services := modifyLast (fun s => { s with loadBalancing := .roundRobin })
        (state.draft.services ++ [({ id } : ServiceDraft)])
      inService := true, inUpstream := false }) = _
    rw [modifyLast_append_singleton]
    rfl
  have hunbroken : '\n' ∉ policy.asStr := by cases policy; decide
  simp only [stringLine_eq]
  refine .header rfl ?_
  refine .cons (oneLine_pairLine (by decide) (reads_quoted hid)) hname ?_
  refine .cons (oneLine_pairLine (by decide) (reads_quoted hunbroken)) hbalancer ?_
  exact .blank .nil

theorem Service.Readable.passes {service : Service} (h : service.Readable) (state : ParserState) :
    ∃ section' flag', Passes (serviceLines service) state
      ⟨section', withService state.draft state.draft.services flag' (.ofService service)⟩ := by
  obtain ⟨id, upstreams, balancer, check, retry, passive⟩ := service
  have hpassive : passive.written.2.failureThreshold < 2 ^ 8 ∧
      passive.written.2.ejectionMs < 2 ^ 64 := by
    cases passive with
    | disabled => decide
    | enabled p => exact h.passiveHealth p rfl
  have hhead := passes_serviceHead h.id balancer state
  rw [serviceLines]
  cases check with
  | disabled =>
    obtain ⟨section', flag', hupstreams⟩ := passes_upstreams h.upstreams .servicesPassiveHealth
    exact ⟨section', flag', (((hhead.append .nil).append (passes_retryLines h.retry rfl _)).append
      (passes_passiveHealthLines hpassive rfl _)).append hupstreams⟩
  | http p =>
    obtain ⟨section', flag', hupstreams⟩ := passes_upstreams h.upstreams .servicesPassiveHealth
    exact ⟨section', flag', (((hhead.append ((h.healthCheck p rfl).passes rfl _)).append
      (passes_retryLines h.retry rfl _)).append
      (passes_passiveHealthLines hpassive rfl _)).append hupstreams⟩

end Services

section Snapshots

theorem focus_draft (section_ : Section) :
    SectionFocus section_ (fun key t d => some (applyMvpConfigValue d section_ key t)) id :=
  fun _ _ _ d h => Option.some.inj (h d)

def MvpConfigDraft.ofSnapshot (s : ConfigSnapshot) : MvpConfigDraft where
  schemaVersion := some s.schemaVersion
  adminBind := some s.admin.bind
  logMode := some s.logMode
  maxConnections := some s.runtime.maxConnections
  maxInflightPayloadBytes := some s.runtime.maxInflightPayloadBytes
  upstreamReadTimeoutMs := some s.runtime.upstreamReadTimeoutMs
  metricsEnabled := if s.runtime.metrics.enabled then some true else none
  metricsBind := if s.runtime.metrics.enabled then some s.runtime.metrics.bind else none
  listeners := s.listeners.map .ofListener
  services := s.services.map .ofService
  routes := s.routes.map Route.reread

/-- No text of the snapshot breaks its line or its place in an array, and the numbers fit their
types. -/
structure ConfigSnapshot.Readable (s : ConfigSnapshot) : Prop where
  admin : '\n' ∉ s.admin.bind
  metrics : s.runtime.metrics.enabled → '\n' ∉ s.runtime.metrics.bind
  maxConnections : s.runtime.maxConnections < usizeBound
  maxInflightPayloadBytes : s.runtime.maxInflightPayloadBytes < usizeBound
  upstreamReadTimeoutMs : s.runtime.upstreamReadTimeoutMs < 2 ^ 64
  listeners : ∀ l ∈ s.listeners, l.Readable
  services : ∀ v ∈ s.services, v.Readable
  routes : ∀ r ∈ s.routes, r.Readable

variable {s : ConfigSnapshot}

theorem ConfigSnapshot.Readable.passes_header (h : s.Readable) :
    ∃ section', Passes (headerLines s) {}
      ⟨section', { MvpConfigDraft.ofSnapshot s with
        listeners := [], services := [], routes := [] }⟩ := by
  have hmode : ∀ d : MvpConfigDraft, some (applyMvpConfigValue d .logging "mode".toList
      (quoted s.logMode.asStr)) = some (.ok { d with logMode := some s.logMode }) := by
    intro d
    cases s.logMode <;> rfl
  have hunbroken : '\n' ∉ s.logMode.asStr := by cases s.logMode <;> decide
  obtain ⟨hadmin, hmetrics, hmax, hinflight, htimeout, -, -, -⟩ := h
  have htables : ∀ ls state', Passes ls ⟨.runtime,
      { schemaVersion := some s.schemaVersion, adminBind := some s.admin.bind
        logMode := some s.logMode, maxConnections := some s.runtime.maxConnections
        maxInflightPayloadBytes := some s.runtime.maxInflightPayloadBytes
        upstreamReadTimeoutMs := some s.runtime.upstreamReadTimeoutMs }⟩ state' →
      Passes ([natLine "schema_version" s.schemaVersion.toNat, [],
        "[admin]".toList, stringLine "bind" s.admin.bind, boolLine "enabled" true, [],
        "[logging]".toList, stringLine "mode" s.logMode.asStr, [],
        "[runtime]".toList, natLine "max_connections" s.runtime.maxConnections,
        natLine "max_inflight_payload_bytes" s.runtime.maxInflightPayloadBytes,
        natLine "upstream_read_timeout_ms" s.runtime.upstreamReadTimeoutMs,
        []] ++ ls) {} state' := by
    intro ls state' hs
    simp only [stringLine_eq, natLine, boolLine, scalarLine_eq, cons_append, nil_append]
    refine (focus_draft .top).pair (reads_u32 s.schemaVersion) (.blank ?_)
    refine .header rfl ?_
    refine (focus_draft .admin).pair (reads_quoted hadmin) ?_
    refine (focus_draft .admin).pair_of_eq (reads_bool true) (fun _ => rfl) (.blank ?_)
    refine .header rfl ?_
    refine (focus_draft .logging).pair_of_eq (reads_quoted hunbroken) hmode (.blank ?_)
    refine .header rfl ?_
    refine (focus_draft .runtime).pair (reads_number _ hmax) ?_
    refine (focus_draft .runtime).pair (reads_number _ hinflight) ?_
    refine (focus_draft .runtime).pair (reads_number _ htimeout) ?_
    exact .blank hs
  rw [headerLines, MvpConfigDraft.ofSnapshot]
  rcases henabled : s.runtime.metrics.enabled
  · exact ⟨.runtime, htables _ _ .nil⟩
  · refine ⟨.metrics, htables _ _ ?_⟩
    simp only [stringLine_eq, boolLine, scalarLine_eq, if_true]
    refine .header rfl ?_
    refine (focus_draft .metrics).pair (reads_bool true) ?_
    refine (focus_draft .metrics).pair (reads_quoted (hmetrics henabled)) ?_
    exact .blank .nil

theorem passes_blocks {ι γ : Type} (block : ι → List Text) (f : ι → γ)
    (get : MvpConfigDraft → List γ) (put : MvpConfigDraft → List γ → MvpConfigDraft)
    (hget : ∀ d l, get (put d l) = l) (hput : ∀ d l l', put (put d l) l' = put d l')
    (hself : ∀ d, put d (get d) = d) (items : List ι)
    (h : ∀ i ∈ items, ∀ state, ∃ state', Passes (block i) state state' ∧
      state'.draft.outside = put state.draft.outside (get state.draft.outside ++ [f i]))
    (state : ParserState) :
    ∃ state', Passes (items.flatMap block) state state' ∧
      state'.draft.outside = put state.draft.outside (get state.draft.outside ++ items.map f) := by
  induction items generalizing state with
  | nil => exact ⟨state, .nil, by simp [hself]⟩
  | cons i _ ih =>
    obtain ⟨mid, hmid, hadd⟩ := h i (by simp) state
    obtain ⟨last, hlast, hadds⟩ := ih (fun j hj => h j (by simp [hj])) mid
    refine ⟨last, hmid.append hlast, ?_⟩
    rw [hadds, hadd, hget, hput]
    simp

theorem ConfigSnapshot.Readable.passes (h : s.Readable) :
    ∃ state, Passes (snapshotLines s) {} state ∧ state.draft.outside = .ofSnapshot s := by
  obtain ⟨section', hheader⟩ := h.passes_header
  obtain ⟨state₁, h₁, hd₁⟩ := passes_blocks listenerLines .ofListener MvpConfigDraft.listeners
    (fun d listeners => { d with listeners }) (fun _ _ => rfl) (fun _ _ _ => rfl) (fun _ => rfl)
    s.listeners (fun l hl state => ⟨_, (h.listeners l hl).passes state, rfl⟩)
    ⟨section', { MvpConfigDraft.ofSnapshot s with listeners := [], services := [], routes := [] }⟩
  obtain ⟨state₂, h₂, hd₂⟩ := passes_blocks serviceLines .ofService MvpConfigDraft.services
    (fun d services => { d with services }) (fun _ _ => rfl) (fun _ _ _ => rfl) (fun _ => rfl)
    s.services (fun v hv state => by
      obtain ⟨_, _, hpasses⟩ := (h.services v hv).passes state
      exact ⟨_, hpasses, rfl⟩) state₁
  obtain ⟨state₃, h₃, hd₃⟩ := passes_blocks routeLines Route.reread MvpConfigDraft.routes
    (fun d routes => { d with routes }) (fun _ _ => rfl) (fun _ _ _ => rfl) (fun _ => rfl)
    s.routes (fun r hr state => ⟨_, (h.routes r hr).passes state, rfl⟩) state₂
  refine ⟨state₃, ((hheader.append h₁).append h₂).append h₃, ?_⟩
  rw [hd₃, hd₂, hd₁]
  rfl

theorem ConfigSnapshot.Readable.parse_render (h : s.Readable) (revisionId : Text) :
    parseMvpConfig (renderMvpConfigSnapshot s) revisionId =
      finishDraft (.ofSnapshot s) revisionId := by
  obtain ⟨_, hpasses, hdraft⟩ := h.passes
  rw [parseMvpConfig, renderMvpConfigSnapshot, lines_flatMap hpasses.oneLine, hpasses.parse,
    ok_bind, ← hdraft]
  rfl

end Snapshots

end Blocks

end EdgeProxy

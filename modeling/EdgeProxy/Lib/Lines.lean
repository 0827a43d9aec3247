import EdgeProxy.Lib.Utf8

/-! # Lines ended by CRLF

What a split at CRLF says about the lines, and where the header of a message ends: at the first
empty line. A text may hold lone carriage returns, so a line is described by the absence of the
pair and not of the single characters.
-/

namespace Rust

open List Option

variable {l : Text}

section Pairs

variable {a b : Char}

theorem head_splitPair (c : Char) (t : Text) :
    ∃ p ps, splitPair a b (c :: t) = p :: ps ∧ (p = [] ∨ p.head? = some c) := by
  cases t with
  | nil => exact ⟨[c], [], rfl, .inr rfl⟩
  | cons d t =>
    rw [splitPair]
    split
    · exact ⟨[], _, rfl, .inl rfl⟩
    · obtain ⟨p, ps, hs⟩ := exists_cons_of_ne_nil (splitPair_ne_nil (a := a) (b := b) (d :: t))
      exact ⟨c :: p, ps, by rw [hs]; rfl, .inr rfl⟩

variable {t : Text}

theorem not_infix_of_mem_splitPair (hl : l ∈ splitPair a b t) : ¬ [a, b] <:+: l := by
  fun_induction splitPair a b t generalizing l with
  | case1 =>
    rw [mem_singleton.mp hl]
    exact fun h => by simpa using h.length_le
  | case2 c =>
    rw [mem_singleton.mp hl]
    exact fun h => by simpa using h.length_le
  | case3 c d t _ ih =>
    rcases mem_cons.mp hl with rfl | hl
    · exact fun h => by simpa using h.length_le
    · exact ih hl
  | case4 c d t hpair ih =>
    obtain ⟨p, _, hs, hhead⟩ := head_splitPair (a := a) (b := b) d t
    rw [hs, modifyHead_cons, mem_cons] at hl
    rcases hl with rfl | hl
    · rw [infix_cons_iff, not_or]
      refine ⟨fun h => ?_, ih (by rw [hs]; exact mem_cons_self)⟩
      rw [cons_prefix_cons] at h
      rcases hhead with rfl | hhead
      · exact absurd h.2.length_le (by simp)
      · obtain ⟨p', rfl⟩ : ∃ p', p = d :: p' := head?_eq_some_iff.mp hhead
        rw [cons_prefix_cons] at h
        exact hpair ⟨h.1.symm, h.2.1.symm⟩
    · exact ih (by rw [hs]; exact mem_cons_of_mem _ hl)

theorem splitPair_line (hab : a ≠ b) (h : ¬ [a, b] <:+: l) (t : Text) :
    splitPair a b (l ++ a :: b :: t) = l :: splitPair a b t := by
  induction l with
  | nil => rw [nil_append, splitPair, if_pos ⟨rfl, rfl⟩]
  | cons c l ih =>
    rw [infix_cons_iff, not_or] at h
    cases l with
    | nil =>
      rw [cons_append, nil_append, splitPair, if_neg fun e => hab e.2, splitPair, if_pos ⟨rfl, rfl⟩]
      rfl
    | cons d l =>
      have hne : ¬ (c = a ∧ d = b) := by
        rintro ⟨rfl, rfl⟩
        exact h.1 ⟨l, rfl⟩
      rw [cons_append, cons_append, splitPair, if_neg hne, ← cons_append, ih h.2]
      rfl

theorem splitPair_of_not_infix (h : ¬ [a, b] <:+: l) : splitPair a b l = [l] := by
  fun_induction splitPair a b l with
  | case1 => rfl
  | case2 => rfl
  | case3 c d t hpair _ =>
    rw [hpair.1, hpair.2] at h
    exact absurd ⟨[], t, rfl⟩ h
  | case4 c d t _ ih =>
    rw [ih fun hi => h (infix_cons hi)]
    rfl

theorem splitCrlf_joinCrlf_of_not_infix {ls : List Text} (hne : ls ≠ [])
    (h : ∀ l ∈ ls, ¬ ['\r', '\n'] <:+: l) : splitCrlf (joinCrlf ls) = ls := by
  fun_induction joinCrlf ls with
  | case1 => exact absurd rfl hne
  | case2 l => exact splitPair_of_not_infix (h l mem_cons_self)
  | case3 l ls hls ih =>
    have hrest := ih hls fun l hl => h l (mem_cons_of_mem _ hl)
    rw [splitCrlf] at hrest ⊢
    rw [splitPair_line (by decide) (h l mem_cons_self), hrest]

theorem infix_of_nil_mem_tail_splitPair (h : [] ∈ (splitPair a b t).tail) :
    [a, b, a, b] <:+: t ++ [a, b] := by
  fun_induction splitPair a b t with
  | case1 => simp at h
  | case2 => simp at h
  | case3 c d t hpair ih =>
    obtain ⟨rfl, rfl⟩ := hpair
    obtain ⟨p, ps, hs⟩ := exists_cons_of_ne_nil (splitPair_ne_nil (a := c) (b := d) t)
    rw [tail_cons, hs, mem_cons] at h
    rcases h with rfl | h
    · -- the next line is the empty one
      cases t with
      | nil => exact ⟨[], [], rfl⟩
      | cons e t =>
        cases t with
        | nil => cases hs
        | cons f t =>
          rw [splitPair] at hs
          split_ifs at hs with hef
          · obtain ⟨rfl, rfl⟩ := hef
            exact ⟨[], t ++ [e, f], rfl⟩
          · obtain ⟨q, qs, hq⟩ :=
              exists_cons_of_ne_nil (splitPair_ne_nil (a := c) (b := d) (f :: t))
            rw [hq] at hs
            cases hs
    · exact infix_cons (infix_cons (ih (by rw [hs]; exact h)))
  | case4 c d t _ ih =>
    obtain ⟨p, ps, hs⟩ := exists_cons_of_ne_nil (splitPair_ne_nil (a := a) (b := b) (d :: t))
    rw [hs, modifyHead_cons, tail_cons] at h
    exact infix_cons (ih (by rw [hs]; exact h))

theorem not_infix_of_notMem {c : Char} (h : c ∉ l) : ¬ c :: t <:+: l :=
  fun hi => h (hi.subset mem_cons_self)

theorem stripSuffix_eq_some_iff {p r : Text} : stripSuffix p t = some r ↔ t = r ++ p := by
  rw [stripSuffix, ite_none_right_eq_some]
  constructor
  · rintro ⟨hp, hr⟩
    obtain ⟨s, rfl⟩ := isSuffixOf_iff_suffix.mp hp
    obtain rfl : s = r := by simpa using hr
    rfl
  · rintro rfl
    exact ⟨isSuffixOf_iff_suffix.mpr ⟨r, rfl⟩, by simp⟩

end Pairs

abbrev emptyLine : Bytes := [13, 10, 13, 10]

variable {bs : Bytes}

theorem splitHeaderEnd_cons_skip {c : UInt8} (h : ¬ emptyLine <+: c :: bs) :
    splitHeaderEnd (c :: bs) = (splitHeaderEnd bs).map fun (l, r) => (c :: l, r) := by
  rw [splitHeaderEnd]
  rintro t rfl rfl
  exact h ⟨t, rfl⟩

theorem splitHeaderEnd_eq_none_iff : splitHeaderEnd bs = none ↔ ¬ emptyLine <:+: bs := by
  induction bs with
  | nil => exact ⟨fun _ => by decide, fun _ => rfl⟩
  | cons c bs ih =>
    rw [infix_cons_iff, not_or]
    by_cases h : emptyLine <+: c :: bs
    · obtain ⟨t, ht⟩ := h
      rw [← ht]
      exact ⟨fun e => by simp [splitHeaderEnd] at e, fun e => absurd ⟨t, rfl⟩ e.1⟩
    · rw [splitHeaderEnd_cons_skip h, map_eq_none_iff, ih]
      exact ⟨fun hn => ⟨h, hn⟩, fun hn => hn.2⟩

theorem prefix_emptyLine (l r : Bytes) : l ++ [13, 10, 13] <+: l ++ (emptyLine ++ r) :=
  ⟨10 :: r, by simp⟩

theorem splitHeaderEnd_eq_some_iff {l r : Bytes} :
    splitHeaderEnd bs = some (l, r) ↔
      bs = l ++ (emptyLine ++ r) ∧ ¬ emptyLine <:+: l ++ [13, 10, 13] := by
  induction bs generalizing l with
  | nil =>
    refine ⟨fun h => by simp [splitHeaderEnd] at h, fun h => ?_⟩
    exact absurd (congrArg length h.1) (by simp)
  | cons c bs ih =>
    by_cases h : emptyLine <+: c :: bs
    · constructor
      · intro hs
        obtain ⟨t, ht⟩ := h
        rw [← ht] at hs ⊢
        obtain ⟨rfl, rfl⟩ : [] = l ∧ t = r := by simpa [splitHeaderEnd] using hs
        exact ⟨rfl, by decide⟩
      · rintro ⟨heq, hno⟩
        rw [heq] at h ⊢
        cases l with
        | nil => rfl
        | cons d l =>
          -- an empty line at the start of a longer text lies in the part before its cut
          have hlen : emptyLine.length ≤ (d :: l ++ [13, 10, 13]).length := by simp
          exact absurd (prefix_of_prefix_length_le h (prefix_emptyLine (d :: l) r) hlen).isInfix hno
    · rw [splitHeaderEnd_cons_skip h, map_eq_some_iff]
      constructor
      · rintro ⟨⟨l', r'⟩, hs, he⟩
        obtain ⟨rfl, rfl⟩ := Prod.mk.inj he
        obtain ⟨rfl, hno⟩ := ih.mp hs
        refine ⟨rfl, ?_⟩
        rw [cons_append, infix_cons_iff, not_or]
        exact ⟨fun hp => h (hp.trans (prefix_emptyLine (c :: l') r')), hno⟩
      · rintro ⟨heq, hno⟩
        cases l with
        | nil => exact absurd ⟨r, heq.symm⟩ h
        | cons _ l =>
          obtain ⟨rfl, rfl⟩ := cons.inj heq
          rw [cons_append, infix_cons_iff, not_or] at hno
          exact ⟨(l, r), ih.mpr ⟨rfl, hno.2⟩, rfl⟩

theorem lf_eq_of_mem_encode {c : Char} (h : (10 : UInt8) ∈ String.utf8EncodeChar c) : c = '\n' := by
  apply Char.ext
  apply UInt32.toNat_inj.mp
  exact toNat_eq_of_mem_utf8EncodeChar h (by decide)

theorem not_crlf_prefix_encode (h : ¬ ['\r', '\n'] <+: '\r' :: l) (bs : Bytes) :
    ¬ [13, 10] <+: 13 :: (encode l ++ 13 :: bs) := by
  intro hp
  rw [cons_prefix_cons] at hp
  cases l with
  | nil => exact absurd (cons_prefix_cons.mp hp.2).1 (by decide)
  | cons d l =>
    have hne : String.utf8EncodeChar d ≠ [] := fun e => absurd (congrArg length e)
      (by rw [String.length_utf8EncodeChar]; exact d.utf8Size_pos.ne')
    obtain ⟨_, _, hb⟩ := exists_cons_of_ne_nil hne
    have hd : d ≠ '\n' := by
      rintro rfl
      exact h ⟨l, rfl⟩
    rw [encode_cons, hb, cons_append, cons_append, cons_prefix_cons] at hp
    exact hd (lf_eq_of_mem_encode (by rw [hb, hp.2.1]; exact mem_cons_self))

theorem splitHeaderEnd_encode_append (h : ¬ ['\r', '\n'] <:+: l) (bs : Bytes) :
    splitHeaderEnd (encode l ++ 13 :: bs) =
      (splitHeaderEnd (13 :: bs)).map fun (l', r) => (encode l ++ l', r) := by
  induction l with
  | nil => simp
  | cons c l ih =>
    rw [infix_cons_iff, not_or] at h
    rw [encode_cons, append_assoc]
    by_cases hc : c = '\r'
    · subst hc
      have hnot : ¬ emptyLine <+: 13 :: (encode l ++ 13 :: bs) := fun hp =>
        not_crlf_prefix_encode h.1 bs ((prefix_append [13, 10] [13, 10]).trans hp)
      have hcr : String.utf8EncodeChar '\r' = [13] := by decide
      rw [hcr, singleton_append, splitHeaderEnd_cons_skip hnot, ih h.2, Option.map_map]
      rfl
    · have hcr : (13 : UInt8) ∉ String.utf8EncodeChar c := by
        have := cr_notMem_encode (t := [c]) fun hm => hc (mem_singleton.mp hm).symm
        rwa [encode_cons, encode_nil, append_nil] at this
      rw [splitHeaderEnd_append hcr, ih h.2, Option.map_map]
      refine congrFun (congrArg Option.map (funext fun p => ?_)) _
      exact congrArg (fun l' => (l', p.2)) (append_assoc _ _ p.1).symm

theorem splitHeaderEnd_line (h : ¬ ['\r', '\n'] <:+: l) {c : UInt8} (hc : c ≠ 13)
    (bs : Bytes) : splitHeaderEnd (encode l ++ 13 :: 10 :: c :: bs) =
      (splitHeaderEnd (c :: bs)).map fun (l', r) => (encode l ++ 13 :: 10 :: l', r) := by
  rw [splitHeaderEnd_encode_append h, splitHeaderEnd_crlf _ hc, Option.map_map]
  rfl

theorem splitHeaderEnd_last (h : ¬ ['\r', '\n'] <:+: l) (bs : Bytes) :
    splitHeaderEnd (encode l ++ (emptyLine ++ bs)) = some (encode l, bs) := by
  have hsplit := splitHeaderEnd_encode_append h (10 :: 13 :: 10 :: bs)
  have hempty : splitHeaderEnd (13 :: 10 :: 13 :: 10 :: bs) = some ([], bs) := rfl
  rw [hempty, map_some] at hsplit
  dsimp only at hsplit
  rwa [append_nil] at hsplit

theorem splitHeaderEnd_lines {ls : List Text} (h : ¬ ['\r', '\n'] <:+: l)
    (hcr : ∀ m ∈ ls, '\r' ∉ m) (hne : ∀ m ∈ ls, m ≠ []) (bs : Bytes) :
    splitHeaderEnd (encode (joinCrlf (l :: ls)) ++ (emptyLine ++ bs)) =
      some (encode (joinCrlf (l :: ls)), bs) := by
  cases ls with
  | nil => exact splitHeaderEnd_last h bs
  | cons m ms =>
    have hrest := splitHeaderEnd_joinCrlf (cons_ne_nil m ms) hcr hne bs
    have hjoin : encode (joinCrlf (l :: m :: ms)) =
        encode l ++ 13 :: 10 :: encode (joinCrlf (m :: ms)) := encode_append _ _
    obtain ⟨c, t, hc⟩ := exists_cons_of_ne_nil
      (mt encode_eq_nil_iff.mp (hne m mem_cons_self))
    obtain ⟨rest, hm⟩ : ∃ rest, encode (joinCrlf (m :: ms)) = c :: rest := by
      cases ms with
      | nil => exact ⟨t, hc⟩
      | cons =>
        exact ⟨_, (encode_append m _).trans (by rw [hc, cons_append])⟩
    have hc13 : c ≠ 13 := by
      rintro rfl
      exact cr_notMem_encode (hcr m mem_cons_self) (by rw [hc]; exact mem_cons_self)
    rw [hm, cons_append] at hrest
    have hline := splitHeaderEnd_line h hc13 (rest ++ (emptyLine ++ bs))
    rw [hjoin, hm, append_assoc]
    exact hline.trans ((congrArg _ hrest).trans rfl)

end Rust

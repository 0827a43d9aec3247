import Mathlib.Tactic.Common

/-! # Results

`Except` as Rust's `Result`: what an `Ok` outcome of a computation built with `?` says about its
parts.
-/

namespace Rust

universe u

variable {ε : Type*} {α β : Type u}

theorem ok_bind (a : α) (f : α → Except ε β) : (.ok a >>= f) = f a := rfl

variable {x : Except ε α} {γ : Type*} {f : γ → Except ε α} {l : List γ} {r : List α}

theorem bind_eq_ok {f : α → Except ε β} {b : β} :
    (x >>= f) = .ok b ↔ ∃ a, x = .ok a ∧ f a = .ok b := by
  cases x <;> simp [bind, Except.bind]

theorem of_return {f : α → β} {b : β} {P : β → Prop} (h : (do return f (← x)) = .ok b)
    (hf : ∀ a, x = .ok a → P (f a)) : P b := by
  obtain ⟨a, ha, hb⟩ := bind_eq_ok.mp h
  cases hb
  exact hf a ha

theorem map_eq_ok {f : α → β} {b : β} : x.map f = .ok b ↔ ∃ a, x = .ok a ∧ f a = b := by
  cases x <;> simp [Except.map]

theorem ite_error_eq_ok {c : Prop} [Decidable c] {e : ε} {a : α} :
    (if c then .error e else x) = .ok a ↔ ¬ c ∧ x = .ok a := by
  split <;> simp_all

theorem exists_mapM_ok_iff : (∃ r, l.mapM f = .ok r) ↔ ∀ a ∈ l, ∃ b, f a = .ok b := by
  induction l with
  | nil => simp [pure, Except.pure]
  | cons _ _ ih =>
    simp only [List.mapM_cons, List.forall_mem_cons, ← ih, bind_eq_ok]
    constructor
    · rintro ⟨_, b, hb, rs, hrs, -⟩
      exact ⟨⟨b, hb⟩, rs, hrs⟩
    · rintro ⟨⟨b, hb⟩, rs, hrs⟩
      exact ⟨b :: rs, b, hb, rs, hrs, rfl⟩

theorem exists_of_mem_mapM_ok (h : l.mapM f = .ok r) {b : α} (hb : b ∈ r) :
    ∃ a ∈ l, f a = .ok b := by
  induction l generalizing r with
  | nil =>
    cases h
    simp at hb
  | cons a _ ih =>
    rw [List.mapM_cons] at h
    obtain ⟨_, hb', h⟩ := bind_eq_ok.mp h
    obtain ⟨_, hrs, h⟩ := bind_eq_ok.mp h
    cases h
    rcases List.mem_cons.mp hb with rfl | hb
    · exact ⟨a, by simp, hb'⟩
    · obtain ⟨c, hc, hfc⟩ := ih hrs hb
      exact ⟨c, by simp [hc], hfc⟩

theorem mapM_ok_of_imp {f g : γ → Except ε α} (hfg : ∀ a b, f a = .ok b → g a = .ok b)
    (h : l.mapM f = .ok r) : l.mapM g = .ok r := by
  induction l generalizing r with
  | nil => exact h
  | cons a _ ih =>
    rw [List.mapM_cons] at h ⊢
    obtain ⟨b, hb, h⟩ := bind_eq_ok.mp h
    obtain ⟨_, hrs, h⟩ := bind_eq_ok.mp h
    rw [hfg a b hb, ok_bind, ih hrs, ok_bind]
    exact h

theorem map_of_mapM_ok {γ δ : Type*} {f : γ → Except ε α} {p : α → δ} {q : γ → δ} {l : List γ}
    (hf : ∀ a b, f a = .ok b → p b = q a) (h : l.mapM f = .ok r) :
    r.map p = l.map q := by
  induction l generalizing r with
  | nil =>
    cases h
    rfl
  | cons a _ ih =>
    rw [List.mapM_cons] at h
    obtain ⟨b, hb, h⟩ := bind_eq_ok.mp h
    obtain ⟨_, hrs, h⟩ := bind_eq_ok.mp h
    cases h
    rw [List.map_cons, List.map_cons, hf a b hb, ih hrs]

end Rust

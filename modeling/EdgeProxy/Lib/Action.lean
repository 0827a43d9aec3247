import Mathlib.Tactic.Common

/-! # Computations with state and failure

`Action σ ε α` is a method that takes `&mut self` and returns `Result`: it may change the state
and may fail, and a failure keeps the state reached so far. `Action.Holds` is its rule of
preconditions and postconditions, with one postcondition for each way to end.
-/

namespace Rust

universe u

/-- A computation on a state `σ` that returns `α` or fails with `ε`. -/
def Action (σ ε α : Type u) : Type u := σ → Except ε α × σ

namespace Action

variable {σ τ ε α β : Type u}

protected def pure (a : α) : Action σ ε α := fun s => (.ok a, s)

protected def bind (x : Action σ ε α) (f : α → Action σ ε β) : Action σ ε β := fun s =>
  match x s with
  | (.ok a, t) => f a t
  | (.error e, t) => (.error e, t)

instance : Monad (Action σ ε) where
  pure := Action.pure
  bind := Action.bind

def fail (e : ε) : Action σ ε α := fun s => (.error e, s)

def read : Action σ ε σ := fun s => (.ok s, s)

def modify (f : σ → σ) : Action σ ε PUnit := fun s => (.ok ⟨⟩, f s)

/-- Runs an action and returns how it ended: `match x` and `let _ = x` on a `Result`. -/
def attempt (x : Action σ ε α) : Action σ ε (Except ε α) := fun s =>
  match x s with
  | (r, t) => (.ok r, t)

/-- Runs an action on a part of a larger state. -/
def zoom (get : τ → σ) (set : σ → τ → τ) (x : Action σ ε α) : Action τ ε α := fun t =>
  match x (get t) with
  | (r, s) => (r, set s t)

@[simp] theorem pure_apply (a : α) (s : σ) : (pure a : Action σ ε α) s = (.ok a, s) := rfl

theorem bind_apply (x : Action σ ε α) (f : α → Action σ ε β) (s : σ) :
    (x >>= f) s = match x s with
      | (.ok a, t) => f a t
      | (.error e, t) => (.error e, t) := rfl

@[simp] theorem fail_apply (e : ε) (s : σ) : (fail e : Action σ ε α) s = (.error e, s) := rfl

@[simp] theorem read_apply (s : σ) : (read : Action σ ε σ) s = (.ok s, s) := rfl

@[simp] theorem modify_apply (f : σ → σ) (s : σ) :
    (modify f : Action σ ε PUnit) s = (.ok ⟨⟩, f s) := rfl

variable {x : Action σ ε α} {f : α → Action σ ε β} {s : σ}

theorem bind_ok {t : σ} {a : α} (h : x s = (.ok a, t)) : (x >>= f) s = f a t := by
  rw [bind_apply, h]

theorem bind_error {t : σ} {e : ε} (h : x s = (.error e, t)) : (x >>= f) s = (.error e, t) := by
  rw [bind_apply, h]

theorem bind_eq_ok {u : σ} {b : β} :
    (x >>= f) s = (.ok b, u) ↔ ∃ a t, x s = (.ok a, t) ∧ f a t = (.ok b, u) := by
  rw [bind_apply]
  rcases x s with ⟨_ | _, _⟩
  · simp
  · simp

theorem bind_bind {γ : Type u} (x : Action σ ε α) (f : α → Action σ ε β) (g : β → Action σ ε γ) :
    x >>= f >>= g = x >>= fun a => f a >>= g := by
  funext s
  simp only [bind_apply]
  rcases x s with ⟨_ | _, _⟩
  · rfl
  · rfl

@[simp] theorem read_bind (f : σ → Action σ ε β) (s : σ) : (read >>= f) s = f s s := rfl

theorem attempt_apply (x : Action σ ε α) (s : σ) : attempt x s = (.ok (x s).1, (x s).2) := rfl

theorem zoom_apply (get : τ → σ) (set : σ → τ → τ) (x : Action σ ε α) (t : τ) :
    zoom get set x t = ((x (get t)).1, set (x (get t)).2 t) := rfl

section Holds

variable {P P' : σ → Prop} {Q Q' : α → σ → Prop} {R : β → σ → Prop} {E E' : ε → σ → Prop}
  {x : Action σ ε α} {k : α → Action σ ε β}

/-- From a state with `P`, the action returns with `Q` or fails with `E`. -/
def Holds (P : σ → Prop) (x : Action σ ε α) (Q : α → σ → Prop) (E : ε → σ → Prop) : Prop :=
  ∀ s, P s → match x s with
    | (.ok a, t) => Q a t
    | (.error e, t) => E e t

/-- However the action ends, `P'` holds then. -/
abbrev Ensures (P : σ → Prop) (x : Action σ ε α) (P' : σ → Prop) : Prop :=
  Holds P x (fun _ => P') fun _ => P'

/-- How one run of an action ended meets `Q` or `E`. -/
def Ends (Q : α → σ → Prop) (E : ε → σ → Prop) : Except ε α × σ → Prop
  | (.ok a, t) => Q a t
  | (.error e, t) => E e t

theorem holds_of_ends (h : ∀ s, P s → Ends Q E (x s)) : Holds P x Q E := h

theorem Holds.ends (h : Holds P x Q E) (hs : P s) : Ends Q E (x s) := h s hs

theorem ends_mono {r : Except ε α × σ} (h : Ends Q E r) (hQ : ∀ a s, Q a s → Q' a s)
    (hE : ∀ e s, E e s → E' e s) : Ends Q' E' r := by
  rcases r with ⟨e | a, s⟩
  · exact hE e s h
  · exact hQ a s h

theorem state_of_ends {r : Except ε α × σ} (h : Ends (fun _ => P) (fun _ => P) r) : P r.2 := by
  rcases r with ⟨_ | _, _⟩
  · exact h
  · exact h

theorem ends_bind (h : Ends Q E (x s)) (hk : ∀ a t, Q a t → Ends R E (k a t)) :
    Ends R E ((x >>= k) s) := by
  rw [bind_apply]
  rcases hx : x s with ⟨_ | a, t⟩
  · rw [hx] at h
    exact h
  · rw [hx] at h
    exact hk a t h

theorem ends_then (h : Ends Q E (x s)) (hE : ∀ e t, E e t → E' e t)
    (hk : ∀ a t, Q a t → Ends R E' (k a t)) : Ends R E' ((x >>= k) s) :=
  ends_bind (ends_mono h (fun _ _ hQ => hQ) hE) hk

theorem Holds.pre (h : Holds P x Q E) (hP : ∀ s, P' s → P s) : Holds P' x Q E :=
  fun s hs => h s (hP s hs)

theorem Holds.post (h : Holds P x Q E) (hQ : ∀ a s, Q a s → Q' a s) : Holds P x Q' E :=
  fun _ hs => ends_mono (h.ends hs) hQ fun _ _ hE => hE

theorem Holds.weakenError (h : Holds P x Q E) (hE : ∀ e s, E e s → E' e s) : Holds P x Q E' :=
  fun _ hs => ends_mono (h.ends hs) (fun _ _ hQ => hQ) hE

theorem Holds.and (h : Holds P x Q E) (h' : Holds P x Q' E') :
    Holds P x (fun a s => Q a s ∧ Q' a s) fun e s => E e s ∧ E' e s := by
  intro s hs
  have h₁ := h s hs
  have h₂ := h' s hs
  revert h₁ h₂
  rcases x s with ⟨_ | _, _⟩
  · exact And.intro
  · exact And.intro

theorem holds_trivial : Holds P x (fun _ _ => True) fun _ _ => True := by
  intro s _
  split <;> trivial

theorem holds_of_fact {F : Prop} (h : F → Holds P x Q E) : Holds (fun s => F ∧ P s) x Q E :=
  fun s hs => h hs.1 s hs.2

theorem holds_of_exists {ι : Sort v} {P : ι → σ → Prop} (h : ∀ i, Holds (P i) x Q E) :
    Holds (fun s => ∃ i, P i s) x Q E :=
  fun s ⟨i, hs⟩ => h i s hs

theorem holds_pure {a : α} (h : ∀ s, P s → Q a s) : Holds P (pure a : Action σ ε α) Q E := h

theorem holds_fail {e : ε} (h : ∀ s, P s → E e s) : Holds P (fail e : Action σ ε α) Q E := h

theorem holds_modify {f : σ → σ} {Q : PUnit → σ → Prop} (h : ∀ s, P s → Q ⟨⟩ (f s)) :
    Holds P (modify f : Action σ ε PUnit) Q E := h

theorem Holds.bind (hx : Holds P x Q E) (hk : ∀ a, Holds (Q a) (k a) R E) :
    Holds P (x >>= k) R E :=
  fun _ hs => ends_bind (hx.ends hs) fun a _ => (hk a).ends

theorem holds_read {k : σ → Action σ ε β} (h : ∀ s, P s → Holds (fun t => t = s) (k s) R E) :
    Holds P (read >>= k) R E :=
  fun s hs => h s hs s rfl

theorem holds_read_at {k : σ → Action σ ε β} (h : Holds (fun t => t = s) (k s) R E) :
    Holds (fun t => t = s) (read >>= k) R E :=
  holds_read fun _ hs => hs ▸ h

theorem holds_attempt (h : Holds P x Q E) :
    Holds P (attempt x) (fun r s => match r with
      | .ok a => Q a s
      | .error e => E e s) E' := by
  intro s hs
  have := h s hs
  revert this
  rw [attempt_apply]
  rcases x s with ⟨_ | _, _⟩
  · exact id
  · exact id

theorem Holds.ite {c : Prop} [Decidable c] {y : Action σ ε α} (hx : c → Holds P x Q E)
    (hy : ¬c → Holds P y Q E) : Holds P (if c then x else y) Q E := by
  split
  · next h => exact hx h
  · next h => exact hy h

end Holds

end Action

end Rust

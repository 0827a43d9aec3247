import EdgeProxy.Lib.Action

/-! # Effects that can fail or be cut short

A program that changes a durable state by single effects. Every effect has a `Fate`: it is done, it
fails, or the process stops in it. A failure is an error the program sees and may handle; a stop
ends the program with the state it reached. `Extent` says how far an effect got before that.
-/

namespace Rust

/-- How far an effect got: whether its one change was made, and, for an effect that removes many
entries, which of them are still there. -/
structure Extent (κ : Type) where
  applied : Bool
  kept : κ → Bool

inductive Fate (κ : Type) where
  | done
  | failed (extent : Extent κ)
  | stopped (extent : Extent κ)

namespace Fate

variable {κ : Type}

def isDone : Fate κ → Bool
  | done => true
  | _ => false

def isFailed : Fate κ → Bool
  | failed _ => true
  | _ => false

/-- The change of an atomic effect was made. -/
def takesEffect : Fate κ → Bool
  | done => true
  | failed _ => false
  | stopped extent => extent.applied

theorem takesEffect_of_isDone {fate : Fate κ} (h : fate.isDone = true) :
    fate.takesEffect = true := by
  cases fate with
  | done => rfl
  | failed => cases h
  | stopped => cases h

theorem isDone_of_takesEffect {fate : Fate κ} (h : fate.takesEffect = false) :
    fate.isDone = false := by
  cases fate with
  | done => cases h
  | failed => rfl
  | stopped => rfl

/-- The effect was not done, and yet its change was made. -/
def leavesChange : Fate κ → Bool
  | done => false
  | failed extent | stopped extent => extent.applied

end Fate

/-- Why a program ended without a result. -/
inductive Stop (ε : Type) where
  | error (e : ε)
  | crash
  deriving DecidableEq

namespace Action

variable {κ σ ε α β : Type}

/-- One effect, with its change when it is done and what it leaves when it is not. -/
def effect (fate : Fate κ) (change : σ → σ) (onFailure onStop : Extent κ → σ → σ) (e : ε) :
    Action σ (Stop ε) PUnit := fun s =>
  match fate with
  | .done => (.ok ⟨⟩, change s)
  | .failed extent => (.error (.error e), onFailure extent s)
  | .stopped extent => (.error .crash, onStop extent s)

/-- An atomic change: when it fails, nothing changed. -/
def atomically (fate : Fate κ) (change : σ → σ) (e : ε) : Action σ (Stop ε) PUnit :=
  effect fate change (fun _ => id) (fun extent s => if extent.applied then change s else s) e

/-- A change followed by a step that can fail on its own. -/
def durably (fate : Fate κ) (change : σ → σ) (e : ε) : Action σ (Stop ε) PUnit :=
  let outcome (extent : Extent κ) (s : σ) := if extent.applied then change s else s
  effect fate change outcome outcome e

def touch (fate : Fate κ) (e : ε) : Action σ (Stop ε) PUnit :=
  effect fate id (fun _ => id) (fun _ => id) e

def gradually (fate : Fate κ) (change : σ → σ) (part : (κ → Bool) → σ → σ) (e : ε) :
    Action σ (Stop ε) PUnit :=
  effect fate change (fun extent => part extent.kept) (fun extent => part extent.kept) e

def raise (e : ε) : Action σ (Stop ε) α := fail (.error e)

def ofExcept (result : Except ε α) : Action σ (Stop ε) α :=
  match result with
  | .ok a => pure a
  | .error e => raise e

/-- How a program ended, unless it stopped: an error can be handled, a stop cannot. -/
def rescue (x : Action σ (Stop ε) α) : Action σ (Stop ε) (Except ε α) := fun s =>
  match x s with
  | (.ok a, t) => (.ok (.ok a), t)
  | (.error (.error e), t) => (.ok (.error e), t)
  | (.error .crash, t) => (.error .crash, t)

section Ends

variable {fate : Fate κ} {change : σ → σ} {e : ε} {s : σ} {Q : α → σ → Prop}
  {E : Stop ε → σ → Prop} {k : PUnit → Action σ (Stop ε) α}

@[simp] theorem ends_ok_iff {a : α} : Ends Q E (.ok a, s) ↔ Q a s := Iff.rfl

@[simp] theorem ends_error_iff {stop : Stop ε} : Ends Q E (.error stop, s) ↔ E stop s := Iff.rfl

variable {r : Except (Stop ε) α × σ} {f : β → Action σ (Stop ε) α} {x : Action σ (Stop ε) β}

theorem ends_of_forall (hQ : ∀ a t, Q a t) (hE : ∀ e t, E e t) : Ends Q E r := by
  rcases r with ⟨e | a, t⟩
  · exact hE e t
  · exact hQ a t

theorem ofExcept_ok_bind {a : β} {result : Except ε β} (h : result = .ok a) :
    (ofExcept result >>= f) s = f a s := by
  subst h
  rfl

theorem ends_atomically (hdone : Ends Q E (k ⟨⟩ (change s)))
    (hfailed : fate.isFailed → fate.isDone = false → E (.error e) s)
    (hstopped : fate.isDone = false → E .crash s ∧ E .crash (change s)) :
    Ends Q E ((atomically fate change e >>= k) s) := by
  rw [bind_apply]
  rcases fate with _ | extent | extent
  · exact hdone
  · exact hfailed rfl rfl
  · rcases h : extent.applied
    · simpa [atomically, effect, h] using (hstopped rfl).1
    · simpa [atomically, effect, h] using (hstopped rfl).2

theorem ends_atomically_of_fate (hdone : fate.isDone = true → Ends Q E (k ⟨⟩ (change s)))
    (hkept : fate.takesEffect = false → ∀ stop, E stop s)
    (hstopped : fate.isDone = false → fate.takesEffect = true → E .crash (change s)) :
    Ends Q E ((atomically fate change e >>= k) s) := by
  rw [bind_apply]
  rcases fate with _ | extent | extent
  · exact hdone rfl
  · exact hkept rfl _
  · rcases h : extent.applied
    · simpa [atomically, effect, h] using hkept h .crash
    · simpa [atomically, effect, h] using hstopped rfl h

theorem ends_touch (hdone : fate.isDone = true → Ends Q E (k ⟨⟩ s))
    (hstop : fate.isDone = false → ∀ stop, E stop s) :
    Ends Q E ((touch fate e >>= k) s) := by
  rcases fate with _ | extent | extent
  · exact hdone rfl
  · exact hstop rfl _
  · exact hstop rfl _

theorem ends_ofExcept {result : Except ε β} (hok : ∀ b, result = .ok b → Ends Q E (f b s))
    (herror : ∀ e, result = .error e → E (.error e) s) :
    Ends Q E ((ofExcept result >>= f) s) := by
  rcases result with e | b
  · exact herror e rfl
  · exact hok b rfl

theorem touch_keeps :
    Ends (fun _ t => t = s)
      (fun stop t => t = s ∧ fate.isDone = false ∧ (stop ≠ .crash → fate.isFailed))
      ((touch fate e : Action σ (Stop ε) PUnit) s) := by
  rcases fate with _ | extent | extent
  · rfl
  · exact ⟨rfl, rfl, fun _ => rfl⟩
  · exact ⟨rfl, rfl, fun h => absurd rfl h⟩

theorem ends_durably :
    Ends (fun _ t => t = change s)
      (fun stop t => fate.isDone = false ∧ (stop ≠ .crash → fate.isFailed) ∧
        (t = s ∨ t = change s))
      ((durably fate change e : Action σ (Stop ε) PUnit) s) := by
  have hextent (extent : Extent κ) : (if extent.applied then change s else s) = s ∨
      (if extent.applied then change s else s) = change s := by
    split
    · exact .inr rfl
    · exact .inl rfl
  rcases fate with _ | extent | extent
  · rfl
  · exact ⟨rfl, fun _ => rfl, hextent extent⟩
  · exact ⟨rfl, fun h => absurd rfl h, hextent extent⟩

theorem ends_rescue {f : Except ε β → Action σ (Stop ε) α}
    (h : Ends (fun b t => Ends Q E (f (.ok b) t))
      (fun stop t => match stop with
        | .error e => Ends Q E (f (.error e) t)
        | .crash => E .crash t) (x s)) :
    Ends Q E ((rescue x >>= f) s) := by
  rw [bind_apply, rescue]
  rcases hx : x s with ⟨(_ | _) | _, _⟩
  · rw [hx] at h
    exact h
  · rw [hx] at h
    exact h
  · rw [hx] at h
    exact h

end Ends

end Action

end Rust

import EdgeProxy.Core.Conservation

/-! # Pressure that does not stick

A refused call may write `Exhausted` without a change of the total, and the pressure is recomputed
only when the total changes. As long as no single call asks for more than 40 percent of the limit,
a call is refused only above the low watermark, so the state that it writes is recomputed before
the total is low again.
-/

namespace EdgeProxy

open Rust Action

/-- The call asks for at most 40 percent of the limit, beyond what its charge holds already. -/
def LedgerCall.Modest : LedgerCall → PayloadBudgetLedger → Prop
  | .reserve _ _ bytes _, l => bytes * 100 ≤ l.limitBytes * 40
  | .commit id bytes _, l | .resize id bytes _, l =>
    ∀ charge ∈ l.charges.lookup id, bytes * 100 ≤ charge.chargedBytes * 100 + l.limitBytes * 40
  | .grow _ additionalBytes _, l => additionalBytes * 100 ≤ l.limitBytes * 40
  | .transfer .., _ | .release .., _ | .releaseAfterAllocationFailure .., _ => True

instance : (call : LedgerCall) → (l : PayloadBudgetLedger) → Decidable (call.Modest l)
  | .reserve _ _ _ _, _ | .grow _ _ _, _ => inferInstanceAs (Decidable (_ ≤ _))
  | .commit id _ _, l | .resize id _ _, l =>
    inferInstanceAs (Decidable (∀ charge ∈ l.charges.lookup id, _))
  | .transfer .., _ | .release .., _ | .releaseAfterAllocationFailure .., _ =>
    inferInstanceAs (Decidable True)

namespace PayloadBudgetLedger

def Modestly : List LedgerCall → PayloadBudgetLedger → Prop
  | [], _ => True
  | call :: calls, l => call.Modest l ∧ Modestly calls (call.run l).2

/-- At or below the low watermark the pressure is normal, unless admission is closed. -/
def Calm (l : PayloadBudgetLedger) : Prop :=
  l.usedBytes ≤ l.limitBytes * 60 / 100 →
    l.pressureState = .normal ∨ l.pressureState = .failedClosed

variable {l : PayloadBudgetLedger}

theorem calm_closed (l : PayloadBudgetLedger) : Calm { l with pressureState := .failedClosed } :=
  fun _ => .inr rfl

theorem calm_refresh (hlimit : minMaxInflightPayloadBytes ≤ l.limitBytes) :
    Calm (refreshPressureAfterUsageChange l) := by
  intro hlow
  change l.usedBytes ≤ l.limitBytes * 60 / 100 at hlow
  have hhigh : l.usedBytes < l.limitBytes * 80 / 100 := by
    rw [minMaxInflightPayloadBytes] at hlimit
    omega
  change l.refreshedPressure = .normal ∨ l.refreshedPressure = .failedClosed
  unfold refreshedPressure
  split
  · exact .inr rfl
  · exact .inl (if_pos hhigh)
  · exact .inl (if_pos hlow)
  · exact .inl (if_pos hlow)

theorem calm_exhausted {bytes : ℕ} (hmodest : bytes * 100 ≤ l.limitBytes * 40)
    (hfull : l.limitBytes < l.usedBytes + bytes) :
    Calm { l with pressureState := .exhausted } := by
  intro hlow
  change l.usedBytes ≤ l.limitBytes * 60 / 100 at hlow
  omega

section Calls

variable (hlimit : minMaxInflightPayloadBytes ≤ l.limitBytes) (hcalm : Calm l)

include hlimit hcalm

variable {bytes : ℕ} {id : ResourceChargeId}

theorem calm_reserve (connectionId : ℕ) (payloadClass : PayloadClass)
    (hmodest : bytes * 100 ≤ l.limitBytes * 40) (generation : ℕ) :
    Ensures (· = l) (reserve connectionId payloadClass bytes generation) Calm := by
  refine holds_of_ends ?_
  rintro _ rfl
  unfold reserve
  split_ifs with _ _ _ _ hfull
  · exact hcalm
  · exact calm_closed _
  · exact calm_closed _
  · exact hcalm
  · exact calm_exhausted hmodest hfull
  · exact calm_closed _
  · exact calm_refresh hlimit

theorem calm_replaceChargeBytes {charge : PayloadCharge}
    (hlookup : l.charges.lookup id = some charge)
    (hmodest : bytes * 100 ≤ charge.chargedBytes * 100 + l.limitBytes * 40) :
    Ensures (· = l) (replaceChargeBytes id bytes) Calm := by
  refine holds_of_ends ?_
  rintro l rfl
  unfold replaceChargeBytes
  simp only [hlookup]
  split_ifs with _ hbelow _ hfull
  · exact calm_closed _
  · exact calm_closed _
  · exact hcalm
  · have hgrowth : (bytes - charge.chargedBytes) * 100 ≤ l.limitBytes * 40 := by omega
    exact calm_exhausted hgrowth (by omega)
  · exact calm_refresh hlimit

theorem calm_commit (generation : ℕ) (hmodest : (LedgerCall.commit id bytes generation).Modest l) :
    Ensures (· = l) (commit id bytes generation) Calm := by
  refine holds_acting (fun _ => calm_closed _) fun charge hlookup => ?_
  refine holds_unless (fun _ => calm_closed _) ?_
  refine Holds.bind (calm_replaceChargeBytes hlimit hcalm hlookup (hmodest charge hlookup))
    fun _ => ?_
  -- Only the state of the charge changes after its bytes.
  refine holds_of_ends fun s hs => ?_
  unfold setState
  split
  · exact calm_closed s
  · exact hs

theorem calm_resize (generation : ℕ) (hmodest : (LedgerCall.resize id bytes generation).Modest l) :
    Ensures (· = l) (resize id bytes generation) Calm := by
  refine holds_acting (fun _ => calm_closed _) fun charge hlookup => ?_
  refine holds_unless (fun _ => calm_closed _) ?_
  exact calm_replaceChargeBytes hlimit hcalm hlookup (hmodest charge hlookup)

theorem calm_grow (hconserved : Conserved l) (hhard : l.limitBytes ≤ hardMaxInflightPayloadBytes)
    (id : ResourceChargeId) (generation : ℕ) (hmodest : bytes * 100 ≤ l.limitBytes * 40) :
    Ensures (· = l) (grow id bytes generation) Calm := by
  refine Holds.bind (holds_requireGeneration (fun _ => calm_closed _) _) fun _ => ?_
  refine Holds.ite (fun _ => ?_) fun _ => ?_
  · rintro _ rfl
    exact hcalm
  refine Holds.bind (holds_liveCharge (fun _ => calm_closed _) _ _) fun charge => ?_
  rintro l ⟨rfl, hlookup⟩
  have hcharge : charge.chargedBytes ≤ l.usedBytes := by
    rw [hconserved.used]
    exact Table.le_total hlookup
  have hused := hconserved.limit
  have hword : ¬ charge.chargedBytes + bytes ≥ usizeBound := by
    rw [hardMaxInflightPayloadBytes] at hhard
    rw [usizeBound]
    omega
  rw [if_neg hword]
  refine calm_resize hlimit hcalm generation (fun other hother => ?_) l rfl
  cases hlookup.symm.trans hother
  omega

omit hlimit in
theorem calm_transfer (id : ResourceChargeId) (nextConnectionId : ℕ)
    (nextPayloadClass : PayloadClass) (generation : ℕ) :
    Ensures (· = l) (transfer id nextConnectionId nextPayloadClass generation) Calm := by
  refine holds_acting (fun _ => calm_closed _) fun charge hlookup => ?_
  refine holds_unless (fun _ => calm_closed _) (holds_of_ends ?_)
  rintro s rfl
  simp only [hlookup]
  exact hcalm

omit hcalm in
theorem calm_release (id : ResourceChargeId) (generation : ℕ) :
    Ensures (· = l) (release id generation) Calm := by
  refine holds_acting (fun _ => calm_closed _) fun charge _ => holds_of_ends ?_
  rintro s rfl
  split
  · exact calm_closed s
  · exact calm_refresh hlimit

theorem calm_run (hconserved : Conserved l) (hhard : l.limitBytes ≤ hardMaxInflightPayloadBytes)
    (call : LedgerCall) (hmodest : call.Modest l) : Calm (call.run l).2 := by
  have hholds : Ensures (· = l) call.run Calm := by
    cases call with
    | reserve =>
      exact Holds.bind (calm_reserve hlimit hcalm _ _ hmodest _) fun _ => fun _ h => h
    | commit => exact Holds.bind (calm_commit hlimit hcalm _ hmodest) fun _ => fun _ h => h
    | resize => exact Holds.bind (calm_resize hlimit hcalm _ hmodest) fun _ => fun _ h => h
    | grow =>
      exact Holds.bind (calm_grow hlimit hcalm hconserved hhard _ _ hmodest)
        fun _ => fun _ h => h
    | transfer =>
      exact Holds.bind (calm_transfer hcalm _ _ _ _) fun _ => fun _ h => h
    | release | releaseAfterAllocationFailure =>
      exact Holds.bind (calm_release hlimit _ _) fun _ => fun _ h => h
  have hends := hholds.ends rfl
  rcases hrun : call.run l with ⟨_ | _, _⟩ <;> rw [hrun] at hends
  · exact hends
  · exact hends

end Calls

theorem run_limit (call : LedgerCall) (l : PayloadBudgetLedger) :
    (call.run l).2.limitBytes = l.limitBytes := after_limit [call] l

theorem calm_after (calls : List LedgerCall) (hcalm : Calm l) (hconserved : Conserved l)
    (hlimit : minMaxInflightPayloadBytes ≤ l.limitBytes)
    (hhard : l.limitBytes ≤ hardMaxInflightPayloadBytes) (hmodest : Modestly calls l) :
    Calm (after calls l) := by
  induction calls generalizing l with
  | nil => exact hcalm
  | cons call _ ih =>
    obtain ⟨hcall, hcalls⟩ := hmodest
    refine ih (calm_run hlimit hcalm hconserved hhard call hcall) (hconserved.run call) ?_ ?_ hcalls
    · rw [run_limit]
      exact hlimit
    · rw [run_limit]
      exact hhard

/-- After every history of modest calls that does not end closed, refused calls included, a total
at or below the low watermark means normal pressure, and connections are accepted again. -/
theorem pressure_never_sticks (policy : RuntimeResourcePolicy) (generation : ℕ)
    (calls : List LedgerCall) (hmodest : Modestly calls (new policy generation))
    (hopen : (after calls (new policy generation)).pressureState ≠ .failedClosed)
    (hlow : (after calls (new policy generation)).usedBytes ≤
      policy.maxInflightPayloadBytes * 60 / 100) :
    (after calls (new policy generation)).pressureState = .normal ∧
      ∀ activeConnections < policy.maxConnections,
        connectionAdmissionDecision (after calls (new policy generation)).pressureState
          activeConnections policy.maxConnections = .accepted := by
  have hcalm : Calm (after calls (new policy generation)) :=
    calm_after calls (fun _ => .inl rfl) (conserved_new policy generation) policy.payload_mem.1
      policy.payload_mem.2 hmodest
  have hlimit : (after calls (new policy generation)).limitBytes =
      policy.maxInflightPayloadBytes := after_limit calls _
  rw [← hlimit] at hlow
  have hnormal := (hcalm hlow).resolve_right hopen
  refine ⟨hnormal, fun activeConnections hactive => ?_⟩
  rw [hnormal, connectionAdmissionDecision, if_neg (Nat.not_le.mpr hactive)]

/-- A reservation is refused at 12 of 16 MiB, and a release ends the pressure. -/
theorem pressure_recovers_after_refusal :
    let sixMiB := 6 * 1024 * 1024
    let calls : List LedgerCall := [.reserve 1 .request sixMiB 0, .reserve 2 .request sixMiB 0,
      .reserve 3 .request sixMiB 0, .release 1 0]
    (after (calls.take 3) (new .least 0)).pressureState = .exhausted ∧
      (after calls (new .least 0)).pressureState = .normal ∧
        ∀ activeConnections < RuntimeResourcePolicy.least.maxConnections,
          connectionAdmissionDecision (after calls (new .least 0)).pressureState
            activeConnections RuntimeResourcePolicy.least.maxConnections = .accepted := by
  intro sixMiB calls
  refine ⟨by decide, pressure_never_sticks .least 0 calls ?_ ?_ ?_⟩
  · exact ⟨by decide, by decide, by decide, trivial, trivial⟩
  · decide
  · decide

end PayloadBudgetLedger

end EdgeProxy

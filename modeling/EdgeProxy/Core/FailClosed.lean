import EdgeProxy.Core.Conservation

/-! # Leaving the closed state

A ledger that failed closed refuses every reservation. The calls that find the accounts in disorder
close it again, and the pressure is not recomputed while it is closed; but a call that asks for
more than the limit writes `Exhausted` over whatever the state was. `Overruns` says which calls do
this, in terms of the call and the ledger it meets.
-/

namespace EdgeProxy

open Rust Action List

namespace PayloadBudgetLedger

variable {l : PayloadBudgetLedger}

/-- The charge can be given `bytes`, but the total would be beyond the limit. -/
def BeyondLimit (l : PayloadBudgetLedger) (charge : PayloadCharge) (bytes : ℕ) : Prop :=
  bytes ≠ 0 ∧ charge.chargedBytes ≤ l.usedBytes ∧
    l.usedBytes - charge.chargedBytes + bytes < usizeBound ∧
    l.limitBytes < l.usedBytes - charge.chargedBytes + bytes

instance (charge : PayloadCharge) (bytes : ℕ) : Decidable (l.BeyondLimit charge bytes) :=
  inferInstanceAs (Decidable (_ ∧ _))

def actsOn (l : PayloadBudgetLedger) (id : ResourceChargeId) (generation : ℕ) :
    Option PayloadCharge :=
  if generation = l.generation then
    (l.charges.lookup id).filter fun charge =>
      charge.generation = generation && !charge.state.isTerminal
  else none

end PayloadBudgetLedger

/-- The call asks for more than the limit with a charge that it may resize. -/
def LedgerCall.Overruns : LedgerCall → PayloadBudgetLedger → Prop
  | .commit id bytes generation, l => ∃ charge ∈ l.actsOn id generation,
    charge.state = .granted ∧ l.BeyondLimit charge bytes
  | .resize id bytes generation, l => ∃ charge ∈ l.actsOn id generation,
    PayloadBudgetLedger.isMovable charge.state = true ∧ l.BeyondLimit charge bytes
  | .grow id additionalBytes generation, l => ∃ charge ∈ l.actsOn id generation,
    additionalBytes ≠ 0 ∧ (usizeBound ≤ charge.chargedBytes + additionalBytes ∨
      PayloadBudgetLedger.isMovable charge.state = true ∧
        l.BeyondLimit charge (charge.chargedBytes + additionalBytes))
  | _, _ => False

namespace PayloadBudgetLedger

variable {l : PayloadBudgetLedger}

section Steps

variable (hclosed : l.pressureState = .failedClosed)

include hclosed

theorem failAccounting_closed {α : Type} (message : String) :
    (failAccounting message : LedgerAction α) l =
      (.error (resourceAccountingError message), l) := by
  rw [failAccounting, ← hclosed]

theorem refreshPressure_closed (used : ℕ) (charges : Table PayloadCharge) :
    (refreshPressureAfterUsageChange { l with usedBytes := used, charges }).pressureState =
      .failedClosed := by
  simp [refreshPressureAfterUsageChange, refreshedPressure, hclosed]

variable (id : ResourceChargeId) (connectionId : ℕ) (payloadClass : PayloadClass) (generation : ℕ)

theorem requireGeneration_closed :
    (requireGeneration generation l).2.pressureState = .failedClosed := by
  rw [requireGeneration]
  split_ifs
  · rfl
  · exact hclosed

theorem acting_closed_iff {α : Type}
    {f : PayloadCharge → LedgerAction α} {opens : PayloadCharge → Prop}
    (hf : ∀ charge, l.actsOn id generation = some charge → l.charges.lookup id = some charge →
      ((f charge l).2.pressureState = .failedClosed ↔ ¬ opens charge)) :
    ((requireGeneration generation >>= fun _ => liveCharge id generation >>= f) l).2.pressureState =
        .failedClosed ↔ ¬ ∃ charge ∈ l.actsOn id generation, opens charge := by
  by_cases hgeneration : generation = l.generation
  · subst hgeneration
    rw [bind_ok requireGeneration_self, actsOn, if_pos rfl]
    rcases hlookup : l.charges.lookup id with _ | charge
    · have hlive : liveCharge id l.generation l =
          (.error (resourceAccountingError "resource charge is not live"), l) := by
        simp only [liveCharge, hlookup, failAccounting_closed hclosed]
      rw [bind_error hlive]
      simp [hclosed]
    · by_cases hlive : charge.generation ≠ l.generation || charge.state.isTerminal
      · have hinvalid : liveCharge id l.generation l =
            (.error (resourceAccountingError "resource charge identity is invalid"), l) := by
          simp only [liveCharge, hlookup, hlive, if_true, failAccounting_closed hclosed]
        have hfilter : (charge.generation = l.generation && !charge.state.isTerminal) = false := by
          simpa [imp_iff_not_or] using hlive
        rw [bind_error hinvalid, Option.filter_some, hfilter]
        simp [hclosed]
      · have hok : liveCharge id l.generation l = (.ok charge, l) := by
          simp only [liveCharge, hlookup, hlive, Bool.false_eq_true, if_false]
        have hfilter : (charge.generation = l.generation && !charge.state.isTerminal) = true := by
          simpa using hlive
        have hacts : l.actsOn id l.generation = some charge := by
          rw [actsOn, if_pos rfl, hlookup, Option.filter_some, hfilter, if_pos rfl]
        rw [bind_ok hok, Option.filter_some, hfilter, hf charge hacts hlookup]
        simp
  · have hstale : requireGeneration generation l =
        (.error (resourceAccountingError "resource generation is stale"), l) := by
      rw [requireGeneration, if_pos hgeneration, failAccounting_closed hclosed]
    rw [bind_error hstale, actsOn, if_neg hgeneration]
    simp [hclosed]

theorem replaceChargeBytes_closed_iff {id : ResourceChargeId} {charge : PayloadCharge}
    (hlookup : l.charges.lookup id = some charge) (bytes : ℕ) :
    (replaceChargeBytes id bytes l).2.pressureState = .failedClosed ↔
      ¬ l.BeyondLimit charge bytes := by
  simp only [replaceChargeBytes, hlookup, BeyondLimit]
  split_ifs with hzero hused hword hlimit
  · simp [hzero, failAccounting]
  · simp [failAccounting, Nat.not_le.mpr hused]
  · simp [hclosed, Nat.not_lt.mpr hword]
  · simp only [failCapacity, reduceCtorEq, false_iff, not_not]
    exact ⟨hzero, Nat.le_of_not_lt hused, Nat.lt_of_not_le hword, hlimit⟩
  · simp only [refreshPressure_closed hclosed, true_iff]
    exact fun h => hlimit h.2.2.2

theorem resize_closed_iff (bytes generation : ℕ) :
    (resize id bytes generation l).2.pressureState = .failedClosed ↔
      ¬ (LedgerCall.resize id bytes generation).Overruns l := by
  refine acting_closed_iff hclosed id generation fun charge _ hlookup => ?_
  by_cases hmovable : isMovable charge.state
  · simp [hmovable, replaceChargeBytes_closed_iff hclosed hlookup]
  · simp [hmovable, failAccounting]

theorem commit_closed_iff (bytes generation : ℕ) :
    (commit id bytes generation l).2.pressureState = .failedClosed ↔
      ¬ (LedgerCall.commit id bytes generation).Overruns l := by
  refine acting_closed_iff hclosed id generation fun charge _ hlookup => ?_
  by_cases hgranted : charge.state = .granted
  · have hresized := (holds_replaceChargeBytes id bytes hlookup).ends rfl
    simp only [hgranted, ne_eq, not_true_eq_false, if_false, true_and,
      ← replaceChargeBytes_closed_iff hclosed hlookup]
    rcases hrun : replaceChargeBytes id bytes l with ⟨_ | _, _⟩
    · rw [bind_error hrun]
    · -- the charge is still there, so its state is set and the pressure stays as it is
      rw [hrun] at hresized
      obtain ⟨_, _, _, _, _, rfl⟩ := hresized
      rw [bind_ok hrun]
      simp [setState]
  · simp [hgranted, failAccounting]

theorem grow_closed_iff (additionalBytes generation : ℕ) :
    (grow id additionalBytes generation l).2.pressureState = .failedClosed ↔
      ¬ (LedgerCall.grow id additionalBytes generation).Overruns l := by
  rw [grow]
  by_cases hzero : additionalBytes = 0
  · simp only [hzero, if_true, LedgerCall.Overruns, ne_eq, not_true_eq_false, false_and, and_false,
      exists_false, not_false_eq_true, iff_true]
    have hstate := requireGeneration_closed hclosed generation
    rcases hgeneration : requireGeneration generation l with ⟨_ | _, _⟩
    · rw [hgeneration] at hstate
      rw [bind_error hgeneration]
      exact hstate
    · rw [hgeneration] at hstate
      rw [bind_ok hgeneration]
      exact hstate
  · simp only [hzero, if_false]
    refine acting_closed_iff hclosed id generation fun charge hacts _ => ?_
    have hresize := resize_closed_iff hclosed id (charge.chargedBytes + additionalBytes) generation
    by_cases hword : usizeBound ≤ charge.chargedBytes + additionalBytes
    · simp [hword, hzero, failCapacity]
    · simp [hword, hzero, hresize, LedgerCall.Overruns, hacts]

theorem transfer_closed :
    (transfer id connectionId payloadClass generation l).2.pressureState = .failedClosed := by
  have hnever : ¬ ∃ charge ∈ l.actsOn id generation, False := by simp
  refine (acting_closed_iff hclosed id generation fun charge _ hlookup => ?_).mpr hnever
  by_cases hmovable : isMovable charge.state
  · simp [hmovable, hlookup, hclosed]
  · simp [hmovable, failAccounting]

theorem release_closed :
    (release id generation l).2.pressureState = .failedClosed := by
  have hnever : ¬ ∃ charge ∈ l.actsOn id generation, False := by simp
  refine (acting_closed_iff hclosed id generation fun charge _ hlookup => ?_).mpr hnever
  split_ifs
  · simp [failAccounting]
  · simp [refreshPressure_closed hclosed]

theorem reserve_closed (requestedBytes generation : ℕ) :
    reserve connectionId payloadClass requestedBytes generation l =
      (.error (resourceAccountingError "resource admission is failed closed"), l) := by
  rw [reserve, if_pos hclosed]

theorem run_closed_iff (call : LedgerCall) :
    (call.run l).2.pressureState = .failedClosed ↔ ¬ call.Overruns l := by
  have hstate {α : Type} (x : LedgerAction α) (r : α → Option ResourceChargeId) :
      ((x >>= fun a => pure (r a)) l).2 = (x l).2 := by
    rw [bind_apply]
    rcases x l with ⟨_ | _, _⟩
    · rfl
    · rfl
  cases call with
  | reserve =>
    simp only [LedgerCall.run, LedgerCall.Overruns, hstate, reserve_closed hclosed, hclosed,
      not_false_eq_true]
  | commit =>
    simp only [LedgerCall.run, hstate, commit_closed_iff hclosed]
  | resize =>
    simp only [LedgerCall.run, hstate, resize_closed_iff hclosed]
  | grow =>
    simp only [LedgerCall.run, hstate, grow_closed_iff hclosed]
  | transfer =>
    simp only [LedgerCall.run, LedgerCall.Overruns, hstate, transfer_closed hclosed,
      not_false_eq_true]
  | release =>
    simp only [LedgerCall.run, LedgerCall.Overruns, hstate, release_closed hclosed,
      not_false_eq_true]
  | releaseAfterAllocationFailure id generation =>
    simp only [LedgerCall.run, LedgerCall.Overruns, hstate]
    exact iff_of_true (release_closed hclosed id generation) not_false

end Steps

structure AdmitsNothing (l : PayloadBudgetLedger) : Prop where
  closed : l.pressureState = .failedClosed
  reserve_fails : ∀ connectionId payloadClass requestedBytes generation, ∃ e,
    reserve connectionId payloadClass requestedBytes generation l = (.error e, l)
  admission : ∀ activeConnections maxConnections,
    connectionAdmissionDecision l.pressureState activeConnections maxConnections ≠ .accepted

theorem admitsNothing_iff : AdmitsNothing l ↔ l.pressureState = .failedClosed := by
  refine ⟨AdmitsNothing.closed, fun hclosed => ⟨hclosed, ?_, ?_⟩⟩
  · intro connectionId payloadClass requestedBytes generation
    exact ⟨_, reserve_closed hclosed connectionId payloadClass requestedBytes generation⟩
  · intro activeConnections maxConnections
    simp [connectionAdmissionDecision, hclosed]

theorem after_append (calls calls' : List LedgerCall) (l : PayloadBudgetLedger) :
    after (calls ++ calls') l = after calls' (after calls l) := by
  induction calls generalizing l with
  | nil => rfl
  | cons _ _ ih => exact ih _

/-- From the moment the ledger fails closed it admits nothing, after every further call of a
history, exactly when no call of the history overruns the limit. -/
theorem failedClosed_final_iff (hclosed : l.pressureState = .failedClosed)
    (calls : List LedgerCall) :
    (∀ earlier, earlier <+: calls → AdmitsNothing (after earlier l)) ↔
      ∀ earlier call, earlier ++ [call] <+: calls → ¬ call.Overruns (after earlier l) := by
  simp only [admitsNothing_iff]
  constructor
  · intro h earlier call hcall
    have hnext := h _ hcall
    rw [after_append] at hnext
    exact (run_closed_iff (h earlier ((prefix_append _ _).trans hcall)) call).mp hnext
  · intro h earlier hearlier
    induction earlier using reverseRecOn with
    | nil => exact hclosed
    | append_singleton earlier call ih =>
      rw [after_append]
      exact (run_closed_iff (ih ((prefix_append _ _).trans hearlier)) call).mpr
        (h earlier call hearlier)

theorem failedClosed_final_release :
    (after [.reserve 1 .request 1024 0, .reserve 1 .request 0 0]
        (new .least 0)).pressureState = .failedClosed ∧
      ∀ earlier, earlier <+: [LedgerCall.release 1 0] → AdmitsNothing (after earlier
        (after [.reserve 1 .request 1024 0, .reserve 1 .request 0 0] (new .least 0))) := by
  refine ⟨by decide, (failedClosed_final_iff (by decide) _).mpr ?_⟩
  intro earlier call hcall
  obtain ⟨_, hrest⟩ := hcall
  rcases earlier with _ | ⟨_, earlier⟩
  · obtain ⟨rfl, _⟩ := cons.inj hrest
    exact not_false
  · simp at hrest

/-- The ledger failed closed with one live charge. A resize beyond the limit is refused, the charge
is released, and the ledger admits again. -/
theorem resize_beyond_limit_reopens :
    (after [.reserve 1 .request 1024 0, .reserve 1 .request 0 0]
        (new .least 0)).pressureState = .failedClosed ∧
      connectionAdmissionDecision (after [.reserve 1 .request 1024 0, .reserve 1 .request 0 0,
        .resize 1 (32 * 1024 * 1024) 0, .release 1 0] (new .least 0)).pressureState 0 1 =
          .accepted ∧
      (reserve 2 .request 1024 0 (after [.reserve 1 .request 1024 0, .reserve 1 .request 0 0,
        .resize 1 (32 * 1024 * 1024) 0, .release 1 0] (new .least 0))).1 = .ok 2 := by
  decide

end PayloadBudgetLedger

end EdgeProxy

import EdgeProxy.Core.Ledger

/-! # The payload ledger over whole histories

A history is any sequence of calls with arbitrary ids, sizes and generations, refused calls
included. A refused call changes nothing but the pressure state, a successful one admits, replaces
or removes one charge (`Done`), and this keeps the total equal to the sum of the live charges.
-/

namespace EdgeProxy

open Rust Action AList

namespace PayloadBudgetLedger

def transfer (id : ResourceChargeId) (nextConnectionId : ℕ) (nextPayloadClass : PayloadClass)
    (generation : ℕ) : LedgerAction PUnit := do
  requireGeneration generation
  let charge ← liveCharge id generation
  if !isMovable charge.state then
    failAccounting "charge cannot be transferred in its current state"
  else fun l =>
    match l.charges.lookup id with
    | none => failAccounting "transferred resource charge disappeared" l
    | some charge =>
      (.ok ⟨⟩, { l with charges := l.charges.insert id { charge with
        connectionId := nextConnectionId
        payloadClass := nextPayloadClass
        state := .transferred } })

end PayloadBudgetLedger

inductive LedgerCall where
  | reserve (connectionId : ℕ) (payloadClass : PayloadClass) (requestedBytes generation : ℕ)
  | commit (id : ResourceChargeId) (actualLogicalBytes generation : ℕ)
  | resize (id : ResourceChargeId) (nextLogicalBytes generation : ℕ)
  | grow (id : ResourceChargeId) (additionalBytes generation : ℕ)
  | transfer (id : ResourceChargeId) (nextConnectionId : ℕ) (nextPayloadClass : PayloadClass)
      (generation : ℕ)
  | release (id : ResourceChargeId) (generation : ℕ)
  | releaseAfterAllocationFailure (id : ResourceChargeId) (generation : ℕ)

def LedgerCall.run : LedgerCall → LedgerAction (Option ResourceChargeId)
  | .reserve connectionId payloadClass requestedBytes generation => do
    let id ← PayloadBudgetLedger.reserve connectionId payloadClass requestedBytes generation
    return some id
  | .commit id actualLogicalBytes generation => do
    PayloadBudgetLedger.commit id actualLogicalBytes generation
    return none
  | .resize id nextLogicalBytes generation => do
    PayloadBudgetLedger.resize id nextLogicalBytes generation
    return none
  | .grow id additionalBytes generation => do
    PayloadBudgetLedger.grow id additionalBytes generation
    return none
  | .transfer id nextConnectionId nextPayloadClass generation => do
    PayloadBudgetLedger.transfer id nextConnectionId nextPayloadClass generation
    return none
  | .release id generation => do
    PayloadBudgetLedger.release id generation
    return none
  | .releaseAfterAllocationFailure id generation => do
    PayloadBudgetLedger.releaseAfterAllocationFailure id generation
    return none

namespace PayloadBudgetLedger

def after : List LedgerCall → PayloadBudgetLedger → PayloadBudgetLedger
  | [], l => l
  | call :: calls, l => after calls (call.run l).2

def issued : List LedgerCall → PayloadBudgetLedger → List ResourceChargeId
  | [], _ => []
  | call :: calls, l =>
    match call.run l with
    | (.ok (some id), l') => id :: issued calls l'
    | (_, l') => issued calls l'

variable {l l' : PayloadBudgetLedger}

section Calls

structure Refused (l l' : PayloadBudgetLedger) : Prop where
  limit : l'.limitBytes = l.limitBytes
  used : l'.usedBytes = l.usedBytes
  next : l'.nextChargeId = l.nextChargeId
  charges : l'.charges = l.charges

/-- What a successful call does; the returned id is that of the admitted charge. -/
inductive Done (l : PayloadBudgetLedger) : Option ResourceChargeId → PayloadBudgetLedger → Prop
  | idle : Done l none l
  | admitted (charge : PayloadCharge) (pressureState : ResourcePressureState)
      (hpos : 0 < charge.chargedBytes)
      (hroom : l.usedBytes + charge.chargedBytes ≤ l.limitBytes) :
      Done l (some l.nextChargeId) { l with
        nextChargeId := l.nextChargeId + 1
        usedBytes := l.usedBytes + charge.chargedBytes
        charges := l.charges.insert l.nextChargeId charge
        pressureState }
  | replaced (id : ResourceChargeId) (old new : PayloadCharge) (usedBytes : ℕ)
      (pressureState : ResourcePressureState) (hold : l.charges.lookup id = some old)
      (hpos : 0 < old.chargedBytes → 0 < new.chargedBytes)
      (hused : usedBytes + old.chargedBytes = l.usedBytes + new.chargedBytes)
      (hroom : l.usedBytes ≤ l.limitBytes → usedBytes ≤ l.limitBytes) :
      Done l none { l with usedBytes, charges := l.charges.insert id new, pressureState }
  | removed (id : ResourceChargeId) (old : PayloadCharge) (usedBytes : ℕ)
      (pressureState : ResourcePressureState) (hold : l.charges.lookup id = some old)
      (hused : usedBytes + old.chargedBytes = l.usedBytes) :
      Done l none { l with charges := l.charges.erase id, usedBytes, pressureState }

theorem refused_pressure (pressureState : ResourcePressureState) :
    Refused l { l with pressureState } :=
  ⟨rfl, rfl, rfl, rfl⟩

section Acting

variable {E : AppError → PayloadBudgetLedger → Prop}
  (hclosed : ∀ e, E e { l with pressureState := .failedClosed })

include hclosed

theorem holds_requireGeneration (generation : ℕ) :
    Holds (· = l) (requireGeneration generation) (fun _ => (· = l)) E := by
  refine holds_of_ends ?_
  rintro _ rfl
  unfold requireGeneration
  split
  · exact hclosed _
  · exact rfl

theorem holds_liveCharge (id : ResourceChargeId) (generation : ℕ) :
    Holds (· = l) (liveCharge id generation)
      (fun charge s => s = l ∧ l.charges.lookup id = some charge) E := by
  refine holds_of_ends ?_
  rintro _ rfl
  unfold liveCharge
  split
  · exact hclosed _
  · next charge hlookup =>
    split
    · exact hclosed _
    · exact ⟨rfl, hlookup⟩

variable {α : Type} {Q : α → PayloadBudgetLedger → Prop}

theorem holds_acting {id : ResourceChargeId} {generation : ℕ} {f : PayloadCharge → LedgerAction α}
    (hf : ∀ charge, l.charges.lookup id = some charge → Holds (· = l) (f charge) Q E) :
    Holds (· = l) (do requireGeneration generation; let charge ← liveCharge id generation; f charge)
      Q E := by
  refine Holds.bind (holds_requireGeneration hclosed _) fun _ => ?_
  refine Holds.bind (holds_liveCharge hclosed _ _) fun charge => ?_
  rintro s ⟨rfl, hlookup⟩
  exact hf charge hlookup s rfl

theorem holds_unless {c : Prop} [Decidable c] {message : String} {x : LedgerAction α}
    (hx : Holds (· = l) x Q E) : Holds (· = l) (if c then failAccounting message else x) Q E := by
  refine Holds.ite (fun _ => ?_) fun _ => hx
  rintro _ rfl
  exact hclosed _

end Acting

theorem holds_reserve (connectionId : ℕ) (payloadClass : PayloadClass)
    (requestedBytes generation : ℕ) :
    Holds (· = l) (reserve connectionId payloadClass requestedBytes generation)
      (fun id => Done l (some id)) fun _ => Refused l := by
  refine holds_of_ends ?_
  rintro _ rfl
  unfold reserve
  repeat' split
  all_goals first
    | exact refused_pressure _
    | skip
  next hpos _ hroom _ =>
    exact .admitted ⟨connectionId, payloadClass, requestedBytes, generation, .granted⟩ _
      (Nat.pos_of_ne_zero hpos) (Nat.le_of_not_lt hroom)

structure Resized (l : PayloadBudgetLedger) (id : ResourceChargeId) (charge : PayloadCharge)
    (bytes : ℕ) (l' : PayloadBudgetLedger) : Prop where
  pos : 0 < bytes
  used : l'.usedBytes + charge.chargedBytes = l.usedBytes + bytes
  room : l'.usedBytes ≤ l.limitBytes
  eq : ∃ usedBytes pressureState, l' = { l with
    usedBytes, pressureState, charges := l.charges.insert id { charge with chargedBytes := bytes } }

variable (id : ResourceChargeId)

theorem holds_replaceChargeBytes (bytes : ℕ) {charge : PayloadCharge}
    (hlookup : l.charges.lookup id = some charge) :
    Holds (· = l) (replaceChargeBytes id bytes) (fun _ => Resized l id charge bytes)
      fun _ => Refused l := by
  refine holds_of_ends ?_
  rintro _ rfl
  unfold replaceChargeBytes
  simp only [hlookup]
  repeat' split
  all_goals first
    | exact refused_pressure _
    | skip
  refine ⟨Nat.pos_of_ne_zero ‹_›, ?_, Nat.le_of_not_lt ‹_›, _, _, rfl⟩
  change _ - _ + _ + _ = _
  omega

theorem Resized.done {id : ResourceChargeId} {charge : PayloadCharge} {bytes : ℕ}
    (h : Resized l id charge bytes l') (hlookup : l.charges.lookup id = some charge) :
    Done l none l' := by
  obtain ⟨hpos, hused, hroom, _, _, rfl⟩ := h
  exact .replaced id charge _ _ _ hlookup (fun _ => hpos) hused fun _ => hroom

theorem Resized.setState {id : ResourceChargeId} {charge : PayloadCharge} {bytes : ℕ}
    (h : Resized l id charge bytes l') (hlookup : l.charges.lookup id = some charge)
    (state : ResourceChargeState) (message : String) :
    Ends (fun _ => Done l none) (fun _ => Refused l)
      (PayloadBudgetLedger.setState id state message l') := by
  obtain ⟨hpos, hused, hroom, _, _, rfl⟩ := h
  simp only [PayloadBudgetLedger.setState, lookup_insert, insert_insert]
  exact .replaced id charge _ _ _ hlookup (fun _ => hpos) hused fun _ => hroom

theorem holds_commit (actualLogicalBytes generation : ℕ) :
    Holds (· = l) (commit id actualLogicalBytes generation) (fun _ => Done l none)
      fun _ => Refused l := by
  refine holds_acting (fun _ => refused_pressure _) fun charge hlookup => ?_
  refine holds_unless (fun _ => refused_pressure _) ?_
  refine Holds.bind (holds_replaceChargeBytes id _ hlookup) fun _ => ?_
  exact holds_of_ends fun _ h => h.setState hlookup _ _

theorem holds_resize (nextLogicalBytes generation : ℕ) :
    Holds (· = l) (resize id nextLogicalBytes generation) (fun _ => Done l none)
      fun _ => Refused l := by
  refine holds_acting (fun _ => refused_pressure _) fun charge hlookup => ?_
  refine holds_unless (fun _ => refused_pressure _) ?_
  exact (holds_replaceChargeBytes id _ hlookup).post fun _ _ h => h.done hlookup

theorem holds_grow (additionalBytes generation : ℕ) :
    Holds (· = l) (grow id additionalBytes generation) (fun _ => Done l none)
      fun _ => Refused l := by
  refine Holds.bind (holds_requireGeneration (fun _ => refused_pressure _) _) fun _ => ?_
  refine Holds.ite (fun _ => ?_) fun _ => ?_
  · rintro _ rfl
    exact .idle
  refine Holds.bind (holds_liveCharge (fun _ => refused_pressure _) _ _) fun charge => ?_
  refine Holds.ite (fun _ => ?_) fun _ => ?_
  · rintro _ ⟨rfl, -⟩
    exact refused_pressure _
  · exact (holds_resize id _ _).pre fun _ h => h.1

theorem holds_transfer (nextConnectionId : ℕ) (nextPayloadClass : PayloadClass) (generation : ℕ) :
    Holds (· = l) (transfer id nextConnectionId nextPayloadClass generation)
      (fun _ => Done l none) fun _ => Refused l := by
  refine holds_acting (fun _ => refused_pressure _) fun charge hlookup => ?_
  refine holds_unless (fun _ => refused_pressure _) (holds_of_ends ?_)
  rintro s rfl
  simp only [hlookup]
  exact .replaced id charge _ _ _ hlookup (fun h => h) rfl fun h => h

theorem holds_release (generation : ℕ) :
    Holds (· = l) (release id generation) (fun _ => Done l none) fun _ => Refused l := by
  refine holds_acting (fun _ => refused_pressure _) fun charge hlookup => holds_of_ends ?_
  rintro s rfl
  split
  · exact refused_pressure _
  · exact .removed id charge _ _ hlookup (Nat.sub_add_cancel (Nat.le_of_not_lt ‹_›))

theorem holds_run (call : LedgerCall) : Holds (· = l) call.run (Done l) fun _ => Refused l := by
  cases call with
  | reserve => exact Holds.bind (holds_reserve _ _ _ _) fun _ => fun _ h => h
  | commit => exact Holds.bind (holds_commit _ _ _) fun _ => fun _ h => h
  | resize => exact Holds.bind (holds_resize _ _ _) fun _ => fun _ h => h
  | grow => exact Holds.bind (holds_grow _ _ _) fun _ => fun _ h => h
  | transfer => exact Holds.bind (holds_transfer _ _ _ _) fun _ => fun _ h => h
  | release | releaseAfterAllocationFailure =>
    exact Holds.bind (holds_release _ _) fun _ => fun _ h => h

end Calls

/-- The total is the sum of the live charges, each of them positive and with an id used up. -/
structure Conserved (l : PayloadBudgetLedger) : Prop where
  used : l.usedBytes = l.charges.total PayloadCharge.chargedBytes
  limit : l.usedBytes ≤ l.limitBytes
  positive : ∀ id charge, l.charges.lookup id = some charge → 0 < charge.chargedBytes
  fresh : ∀ id ∈ l.charges, id < l.nextChargeId

theorem conserved_new (policy : RuntimeResourcePolicy) (generation : ℕ) :
    Conserved (new policy generation) where
  used := rfl
  limit := Nat.zero_le _
  positive := nofun
  fresh := nofun

theorem Refused.conserved (h : Refused l l') (hl : Conserved l) : Conserved l' := by
  obtain ⟨hlimit, hused, hnext, hcharges⟩ := h
  refine ⟨?_, ?_, ?_, ?_⟩
  · rw [hused, hcharges, hl.used]
  · rw [hused, hlimit]
    exact hl.limit
  · rw [hcharges]
    exact hl.positive
  · rw [hcharges, hnext]
    exact hl.fresh

theorem positive_insert {charges : Rust.Table PayloadCharge} {k : ℕ} {new : PayloadCharge}
    (h : ∀ id charge, charges.lookup id = some charge → 0 < charge.chargedBytes)
    (hnew : 0 < new.chargedBytes) (id : ℕ) (charge : PayloadCharge)
    (hlookup : (charges.insert k new).lookup id = some charge) : 0 < charge.chargedBytes := by
  by_cases hk : id = k
  · subst hk
    rw [lookup_insert] at hlookup
    exact Option.some.inj hlookup ▸ hnew
  · rw [lookup_insert_ne hk] at hlookup
    exact h id charge hlookup

variable {r : Option ResourceChargeId}

theorem Done.conserved (h : Done l r l') (hl : Conserved l) : Conserved l' := by
  cases h with
  | idle => exact hl
  | admitted _ _ hpos hroom =>
    have hnone : l.charges.lookup l.nextChargeId = none :=
      lookup_eq_none.mpr fun hmem => (hl.fresh _ hmem).false
    refine ⟨?_, hroom, positive_insert hl.positive hpos, ?_⟩
    · change l.usedBytes + _ = Table.total _ _
      rw [Table.total_insert_of_lookup_none hnone, hl.used, Nat.add_comm]
    · intro id hid
      rcases (mem_insert _).mp hid with rfl | hid
      · exact Nat.lt_succ_self _
      · exact Nat.lt_succ_of_lt (hl.fresh id hid)
  | replaced id old new usedBytes _ hold hpos _ hroom =>
    refine ⟨?_, hroom hl.limit, positive_insert hl.positive (hpos (hl.positive id old hold)), ?_⟩
    · have htotal := Table.total_insert_of_lookup (f := PayloadCharge.chargedBytes) (v := new) hold
      have := hl.used
      change usedBytes = Table.total _ (l.charges.insert id new)
      omega
    · intro id' hid
      rcases (mem_insert _).mp hid with rfl | hid
      · exact hl.fresh _ (lookup_isSome.mp (by rw [hold]; rfl))
      · exact hl.fresh id' hid
  | removed id _ usedBytes _ hold =>
    refine ⟨?_, ?_, ?_, ?_⟩
    · have htotal := Table.total_erase (f := PayloadCharge.chargedBytes) hold
      have := hl.used
      change usedBytes = Table.total _ (l.charges.erase id)
      omega
    · have := hl.limit
      change usedBytes ≤ l.limitBytes
      omega
    · intro id' charge hlookup
      by_cases hk : id' = id
      · subst hk
        rw [lookup_erase] at hlookup
        nomatch hlookup
      · rw [lookup_erase_ne hk] at hlookup
        exact hl.positive id' charge hlookup
    · intro id' hid
      exact hl.fresh id' (mem_erase.mp hid).2

theorem Conserved.run (call : LedgerCall) (hl : Conserved l) : Conserved (call.run l).2 := by
  have h := (holds_run call).ends (s := l) rfl
  rcases hrun : call.run l with ⟨_ | _, _⟩ <;> rw [hrun] at h
  · exact Refused.conserved h hl
  · exact Done.conserved h hl

theorem Conserved.after (calls : List LedgerCall) (hl : Conserved l) :
    Conserved (after calls l) := by
  induction calls generalizing l with
  | nil => exact hl
  | cons call _ ih => exact ih (hl.run call)

theorem Done.limit (h : Done l r l') : l'.limitBytes = l.limitBytes := by
  cases h <;> rfl

theorem after_limit (calls : List LedgerCall) (l : PayloadBudgetLedger) :
    (after calls l).limitBytes = l.limitBytes := by
  induction calls generalizing l with
  | nil => rfl
  | cons call _ ih =>
    refine (ih _).trans ?_
    have h := (holds_run call).ends (s := l) rfl
    rcases hrun : call.run l with ⟨_ | _, _⟩ <;> rw [hrun] at h
    · exact Refused.limit h
    · exact Done.limit h

theorem Done.next (h : Done l r l') :
    l.nextChargeId ≤ l'.nextChargeId ∧
      ∀ id ∈ r, id = l.nextChargeId ∧ l.nextChargeId < l'.nextChargeId := by
  cases h with
  | admitted =>
    exact ⟨Nat.le_succ _, fun id hid => ⟨(Option.some.inj hid).symm, Nat.lt_succ_self _⟩⟩
  | idle | replaced | removed => exact ⟨le_rfl, nofun⟩

theorem issued_sorted (calls : List LedgerCall) (l : PayloadBudgetLedger) :
    (issued calls l).Pairwise (· < ·) ∧ ∀ id ∈ issued calls l, l.nextChargeId ≤ id := by
  induction calls generalizing l with
  | nil => exact ⟨.nil, nofun⟩
  | cons call _ ih =>
    have h := (holds_run call).ends (s := l) rfl
    rcases hrun : call.run l with ⟨_ | r, l'⟩ <;> rw [hrun] at h
    · have hnext : l'.nextChargeId = l.nextChargeId := Refused.next h
      simp only [issued, hrun]
      exact hnext ▸ ih l'
    · obtain ⟨hle, hid⟩ := Done.next h
      obtain ⟨hsorted, hbound⟩ := ih l'
      cases r with
      | none =>
        simp only [issued, hrun]
        exact ⟨hsorted, fun id h => hle.trans (hbound id h)⟩
      | some id =>
        obtain ⟨rfl, hlt⟩ := hid id rfl
        simp only [issued, hrun]
        refine ⟨List.pairwise_cons.mpr ⟨fun id h => hlt.trans_le (hbound id h), hsorted⟩, ?_⟩
        intro id h
        rcases List.mem_cons.mp h with rfl | h
        · exact le_rfl
        · exact hle.trans (hbound id h)

/-- Conservation over every history: the total is the sum of the live charges and stays within the
limit, live charges are positive, no id is issued twice, and a refused call changes neither. -/
theorem payload_budget_conserved (policy : RuntimeResourcePolicy) (generation : ℕ)
    (calls : List LedgerCall) :
    (after calls (new policy generation)).usedBytes =
        (after calls (new policy generation)).charges.total PayloadCharge.chargedBytes ∧
      (after calls (new policy generation)).usedBytes ≤ policy.maxInflightPayloadBytes ∧
      (∀ id charge, (after calls (new policy generation)).charges.lookup id = some charge →
        0 < charge.chargedBytes) ∧
      (issued calls (new policy generation)).Nodup ∧
      ∀ (call : LedgerCall) e l', call.run (after calls (new policy generation)) = (.error e, l') →
        l'.usedBytes = (after calls (new policy generation)).usedBytes ∧
          l'.charges = (after calls (new policy generation)).charges := by
  have hl := (conserved_new policy generation).after calls
  have hlimit := hl.limit.trans_eq (after_limit calls _)
  refine ⟨hl.used, hlimit, hl.positive, (issued_sorted calls _).1.imp ne_of_lt, ?_⟩
  intro call e l' hrun
  have h := (holds_run call).ends (s := after calls (new policy generation)) rfl
  rw [hrun] at h
  exact ⟨Refused.used h, Refused.charges h⟩

end PayloadBudgetLedger

end EdgeProxy

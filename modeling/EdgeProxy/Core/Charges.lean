import EdgeProxy.Core.Ledger

/-! # The payload charges of a connection

A connection holds at most one charge of each payload class. The operations keep the slots and the
ledger together: they reserve and commit, resize, hand over and release.
-/

namespace EdgeProxy

open Rust Action
open PayloadBudgetLedger (reserve commit resize grow release releaseAfterAllocationFailure
  failAccounting)

/-- One slot for each class of payload; `none` means that no charge is installed. -/
structure ConnectionPayloadCharges where
  slot : PayloadClass → Option ResourceChargeId := fun _ => none

namespace ConnectionPayloadCharges

variable (c : ConnectionPayloadCharges) (p : PayloadClass) (id : Option ResourceChargeId)

def set : ConnectionPayloadCharges :=
  ⟨Function.update c.slot p id⟩

@[simp] theorem slot_set_self :
    (c.set p id).slot p = id := by
  simp [set]

end ConnectionPayloadCharges

/-- The slots of one connection and the ledger that all connections share. -/
structure PayloadAccounts where
  charges : ConnectionPayloadCharges
  ledger : PayloadBudgetLedger

abbrev AccountAction (α : Type) := Action PayloadAccounts AppError α

/-- What changed when client response bytes were prepared, for the commit or the rollback. -/
structure ClientResponseChargeChange where
  chargeId : ResourceChargeId
  previousBytes : Option ℕ
  nextBytes : ℕ

def chargeBytes (ledger : PayloadBudgetLedger) (id : Option ResourceChargeId) : ℕ :=
  ((id.bind ledger.charges.lookup).map PayloadCharge.chargedBytes).getD 0

namespace PayloadAccounts

def onLedger {α : Type} (x : LedgerAction α) : AccountAction α :=
  zoom ledger (fun l a => { a with ledger := l }) x

variable (change : ClientResponseChargeChange) (p : PayloadClass) (replacement : ResourceChargeId)
  (connectionId nextBytes : ℕ)

def setSlot (id : Option ResourceChargeId) : AccountAction PUnit :=
  modify fun a => { a with charges := a.charges.set p id }

def bytes (a : PayloadAccounts) : ℕ := chargeBytes a.ledger (a.charges.slot p)

def clientResponseBytes (a : PayloadAccounts) : ℕ := a.bytes .clientResponse

def releaseSlot : AccountAction PUnit := do
  let a ← read
  match a.charges.slot p with
  | none => return ⟨⟩
  | some id =>
    onLedger (release id a.ledger.generation)
    setSlot p none

def growRequest (connectionId additionalBytes : ℕ) : AccountAction PUnit := do
  if additionalBytes = 0 then return ⟨⟩
  else
    let a ← read
    match a.charges.slot .request with
    | some id => onLedger (grow id additionalBytes a.ledger.generation)
    | none =>
      let id ← onLedger (reserve connectionId .request additionalBytes a.ledger.generation)
      setSlot .request (some id)

/-- `payload_charge_slot::sync`: makes a slot hold exactly `nextBytes`. -/
def sync : AccountAction Bool := do
  let a ← read
  if a.bytes p = nextBytes then return false
  else if nextBytes = 0 then
    releaseSlot p
    return true
  else
    let generation := a.ledger.generation
    match a.charges.slot p with
    | some id =>
      onLedger (resize id nextBytes generation)
      return true
    | none =>
      let id ← onLedger (reserve connectionId p nextBytes generation)
      match ← attempt (onLedger (commit id nextBytes generation)) with
      | .error e =>
        let _ ← attempt (onLedger (release id generation))
        fail e
      | .ok _ =>
        setSlot p (some id)
        return true

def resizeClientResponseInUse (nextBytes : ℕ) : AccountAction PUnit := do
  let a ← read
  match a.charges.slot .clientResponse with
  | none => onLedger (failAccounting "client response charge is not installed")
  | some id =>
    if nextBytes = 0 then
      onLedger (release id a.ledger.generation)
      setSlot .clientResponse none
    else onLedger (resize id nextBytes a.ledger.generation)

def prepareClientResponseBytes : AccountAction ClientResponseChargeChange := do
  let a ← read
  let generation := a.ledger.generation
  match a.charges.slot .clientResponse with
  | some chargeId =>
    match a.ledger.charges.lookup chargeId with
    | none => fail (resourceAccountingError "client response charge disappeared")
    | some charge =>
      onLedger (resize chargeId nextBytes generation)
      return { chargeId, previousBytes := some charge.chargedBytes, nextBytes }
  | none =>
    let chargeId ← onLedger (reserve connectionId .clientResponse nextBytes generation)
    setSlot .clientResponse (some chargeId)
    return { chargeId, previousBytes := none, nextBytes }

def commitClientResponseBytes : AccountAction PUnit := do
  let a ← read
  if a.charges.slot .clientResponse ≠ some change.chargeId then
    onLedger (failAccounting "client response change is not current")
  else if change.previousBytes.isNone then
    onLedger (commit change.chargeId change.nextBytes a.ledger.generation)
  else return ⟨⟩

def rollbackClientResponseAllocation : AccountAction PUnit := do
  let a ← read
  if a.charges.slot .clientResponse ≠ some change.chargeId then
    onLedger (failAccounting "client response rollback is not current")
  else
    match change.previousBytes with
    | some previousBytes =>
      onLedger (resize change.chargeId previousBytes a.ledger.generation)
    | none =>
      onLedger (releaseAfterAllocationFailure change.chargeId a.ledger.generation)
      setSlot .clientResponse none

def reserveUpstreamAndRetry (connectionId upstreamBytes retryReplayBytes : ℕ) :
    AccountAction PUnit := do
  let a ← read
  if (a.charges.slot .upstreamRequest).isSome || (a.charges.slot .retryReplay).isSome then
    onLedger (failAccounting "upstream payload charges are already installed")
  else
    let generation := a.ledger.generation
    let upstream ← onLedger (reserve connectionId .upstreamRequest upstreamBytes generation)
    match ← attempt
        (onLedger (reserve connectionId .retryReplay retryReplayBytes generation)) with
    | .error e =>
      onLedger (release upstream generation)
      fail e
    | .ok retryReplay =>
      setSlot .upstreamRequest (some upstream)
      setSlot .retryReplay (some retryReplay)

def commitUpstreamAndRetry (upstreamBytes retryReplayBytes : ℕ) : AccountAction PUnit := do
  let a ← read
  let generation := a.ledger.generation
  match a.charges.slot .upstreamRequest, a.charges.slot .retryReplay with
  | none, _ => onLedger (failAccounting "upstream charge is not installed")
  | some _, none => onLedger (failAccounting "retry replay charge is not installed")
  | some upstream, some retryReplay =>
    onLedger (commit upstream upstreamBytes generation)
    onLedger (commit retryReplay retryReplayBytes generation)

def reserveUpstreamReplacement (connectionId upstreamBytes : ℕ) :
    AccountAction ResourceChargeId := do
  let a ← read
  if (a.charges.slot .upstreamRequest).isNone then
    onLedger (failAccounting "current upstream charge is not installed")
  else onLedger (reserve connectionId .upstreamRequest upstreamBytes a.ledger.generation)

def commitUpstreamReplacement (upstreamBytes : ℕ) : AccountAction PUnit := do
  let a ← read
  let generation := a.ledger.generation
  match a.charges.slot .upstreamRequest with
  | none => onLedger (failAccounting "current upstream charge is not installed")
  | some current =>
    if current = replacement then
      onLedger (failAccounting "replacement upstream charge must be distinct")
    else
      match a.ledger.charges.lookup replacement with
      | none => onLedger (failAccounting "replacement upstream charge is not live")
      | some charge =>
        if charge.payloadClass ≠ .upstreamRequest then
          onLedger (failAccounting "replacement charge has the wrong payload class")
        else
          onLedger (commit replacement upstreamBytes generation)
          match ← attempt (onLedger (release current generation)) with
          | .error e =>
            let _ ← attempt (onLedger (release replacement generation))
            fail e
          | .ok _ => setSlot .upstreamRequest (some replacement)

def releaseUpstreamReplacementAfterAllocationFailure : AccountAction PUnit := do
  let a ← read
  if a.charges.slot .upstreamRequest = some replacement then
    onLedger (failAccounting "current upstream charge cannot be failed as pending")
  else onLedger (releaseAfterAllocationFailure replacement a.ledger.generation)

def releaseUpstreamAllocationFailure : AccountAction PUnit := do
  let a ← read
  let generation := a.ledger.generation
  match a.charges.slot .upstreamRequest with
  | none => pure ⟨⟩
  | some upstream =>
    onLedger (releaseAfterAllocationFailure upstream generation)
    setSlot .upstreamRequest none
  match a.charges.slot .retryReplay with
  | none => pure ⟨⟩
  | some retryReplay =>
    onLedger (release retryReplay generation)
    setSlot .retryReplay none

def releaseRequest : AccountAction PUnit := releaseSlot .request

def releaseAll : AccountAction PUnit := do
  releaseRequest
  releaseSlot .upstreamRequest
  releaseSlot .retryReplay
  releaseSlot .clientResponse
  releaseSlot .tlsPending
  releaseSlot .webSocketClientToUpstream
  releaseSlot .webSocketUpstreamToClient

section Holding

variable {a : PayloadAccounts} {used n next : ℕ}

/-- The client response slot holds a committed charge of `n` bytes, on top of `used` bytes of
others; for `n = 0` it is empty. -/
structure Holding (a : PayloadAccounts) (used n : ℕ) : Prop where
  pressure : a.ledger.pressureState ≠ .failedClosed
  limit : a.ledger.limitBytes ≤ hardMaxInflightPayloadBytes
  used_eq : a.ledger.usedBytes = used + n
  empty : a.charges.slot .clientResponse = none → n = 0
  installed : ∀ id, a.charges.slot .clientResponse = some id → n ≠ 0 ∧
    ∃ charge, a.ledger.charges.lookup id = some charge ∧ charge.chargedBytes = n ∧
      charge.generation = a.ledger.generation ∧ charge.state = .inUse

theorem Holding.clientResponseBytes (h : a.Holding used n) : a.clientResponseBytes = n := by
  unfold PayloadAccounts.clientResponseBytes bytes chargeBytes
  cases hslot : a.charges.slot .clientResponse with
  | none => simp [h.empty hslot]
  | some id =>
    obtain ⟨-, _, hlookup, hbytes, -⟩ := h.installed id hslot
    simp [hlookup, hbytes]

theorem onLedger_eq {α : Type} {x : LedgerAction α} {r : Except AppError α}
    {l : PayloadBudgetLedger}
    (h : x a.ledger = (r, l)) : onLedger x a = (r, { a with ledger := l }) := by
  cases r <;> simp [onLedger, zoom_apply, h]

def Prepared (a : PayloadAccounts) (used next : ℕ) (change : ClientResponseChargeChange) : Prop :=
  ∃ a', commitClientResponseBytes change a = (.ok ⟨⟩, a') ∧ a'.Holding used next ∧
    a'.ledger.limitBytes = a.ledger.limitBytes

theorem Holding.prepare (connectionId : ℕ) (h : a.Holding used n) (hnext : next ≠ 0)
    (hroom : used + next ≤ a.ledger.limitBytes)
    (hid : a.charges.slot .clientResponse = none → a.ledger.nextChargeId + 1 < 2 ^ 64) :
    ∃ change a', prepareClientResponseBytes connectionId next a = (.ok change, a') ∧
      a'.Prepared used next change ∧ a'.ledger.limitBytes = a.ledger.limitBytes := by
  have hused := h.used_eq
  have hlimit : a.ledger.limitBytes < usizeBound := h.limit.trans_lt (by decide)
  unfold prepareClientResponseBytes
  rw [bind_ok (read_apply a)]
  cases hslot : a.charges.slot .clientResponse with
  | none =>
    obtain rfl := h.empty hslot
    have hroom' : a.ledger.HasRoom next := ⟨by omega, h.limit⟩
    obtain ⟨l₁, h₁, hp₁, hu₁, hl₁, hg₁, hc₁⟩ :=
      PayloadBudgetLedger.reserve_ok connectionId .clientResponse h.pressure hnext hroom'
        (hid hslot)
    have hlookup : l₁.charges.lookup a.ledger.nextChargeId = some
        ⟨connectionId, .clientResponse, next, a.ledger.generation, .granted⟩ := by
      rw [hc₁, AList.lookup_insert]
    obtain ⟨l₂, h₂, hp₂, hu₂, hl₂, hg₂, hc₂⟩ := PayloadBudgetLedger.commit_ok hlookup hnext hp₁
      (by simp only; omega) (by simp only; omega) (by omega) hg₁.symm rfl
    dsimp only
    rw [bind_ok (onLedger_eq h₁)]
    refine ⟨_, _, rfl, ?_, hl₁⟩
    refine ⟨⟨a.charges.set .clientResponse (some a.ledger.nextChargeId), l₂⟩, ?_, ?_, hl₂⟩
    · unfold commitClientResponseBytes
      rw [bind_ok (read_apply _)]
      simp only [ConnectionPayloadCharges.slot_set_self, ne_eq, not_true_eq_false, if_false,
        Option.isNone_none, if_true]
      exact onLedger_eq h₂
    · refine ⟨hp₂, by rw [hl₂, hl₁]; exact h.limit, by simp only at hu₂ ⊢; omega, by simp, ?_⟩
      rintro id hid'
      obtain rfl : a.ledger.nextChargeId = id := by simpa using hid'
      exact ⟨hnext, _, hc₂, rfl, by rw [hg₂, hg₁], rfl⟩
  | some id =>
    obtain ⟨hn, charge, hlookup, hbytes, hgen, hstate⟩ := h.installed id hslot
    obtain ⟨_, h₁, hp₁, hu₁, hl₁, hg₁, hc₁⟩ := PayloadBudgetLedger.resize_ok hlookup hnext
      h.pressure (by omega) (by omega) hlimit hgen (by rw [hstate]; rfl)
    simp only [hlookup]
    rw [bind_ok (onLedger_eq h₁)]
    refine ⟨_, _, rfl, ⟨_, ?_, ?_, rfl⟩, hl₁⟩
    · unfold commitClientResponseBytes
      rw [bind_ok (read_apply _)]
      simp only [hslot, ne_eq, not_true_eq_false, if_false, Option.isNone_some, Bool.false_eq_true]
      rfl
    · refine ⟨hp₁, by rw [hl₁]; exact h.limit, by simp only at hu₁ ⊢; omega, by simp [hslot], ?_⟩
      rintro id' hid'
      obtain rfl : id = id' := by simpa [hslot] using hid'
      exact ⟨hnext, { charge with chargedBytes := next }, by rw [hc₁, AList.lookup_insert], rfl,
        hgen.trans hg₁.symm, hstate⟩

theorem prepare_error (connectionId : ℕ) (hslot : a.charges.slot .clientResponse = none)
    (h : next = 0 ∨ 2 ^ 64 ≤ a.ledger.nextChargeId + 1) :
    ∃ e a', prepareClientResponseBytes connectionId next a = (.error e, a') := by
  obtain ⟨_, _, hreserve⟩ := PayloadBudgetLedger.reserve_error connectionId .clientResponse
    a.ledger.generation h
  unfold prepareClientResponseBytes
  rw [bind_ok (read_apply a), hslot]
  dsimp only
  rw [bind_error (onLedger_eq hreserve)]
  exact ⟨_, _, rfl⟩

end Holding

end PayloadAccounts

end EdgeProxy

import EdgeProxy.Domain.Upstream
import EdgeProxy.Lib.Action
import EdgeProxy.Lib.Table

/-! # The payload budget ledger

The process-wide account of payload bytes that connections hold: charges are reserved, committed,
resized and released under one generation, the total stays below a limit, and any inconsistency
closes admission (`FailedClosed`). The charge slots of a connection are the `Option` ids it keeps.
-/

namespace EdgeProxy

open Rust Action

inductive ResourcePressureState where
  | normal | pressured | exhausted | failedClosed
  deriving DecidableEq

inductive ConnectionAdmissionDecision where
  | accepted | rejectedConnectionLimit | rejectedPayloadPressure | rejectedFailedClosed
  deriving DecidableEq

def connectionAdmissionDecision (pressureState : ResourcePressureState)
    (activeConnections maxConnections : ℕ) : ConnectionAdmissionDecision :=
  match pressureState with
  | .failedClosed => .rejectedFailedClosed
  | .pressured | .exhausted => .rejectedPayloadPressure
  | .normal => if activeConnections ≥ maxConnections then .rejectedConnectionLimit else .accepted

inductive ResourceChargeState where
  | requested | granted | inUse | transferred | released | rejectedCapacity | allocationFailed
  deriving DecidableEq

def ResourceChargeState.isTerminal : ResourceChargeState → Bool
  | .released | .rejectedCapacity | .allocationFailed => true
  | _ => false

inductive PayloadClass where
  | request | upstreamRequest | retryReplay | clientResponse
  | webSocketClientToUpstream | webSocketUpstreamToClient | tlsPending
  deriving DecidableEq

abbrev ResourceChargeId := ℕ

structure PayloadCharge where
  connectionId : ℕ
  payloadClass : PayloadClass
  chargedBytes : ℕ
  generation : ℕ
  state : ResourceChargeState

def minMaxConnections : ℕ := 1

def hardMaxConnections : ℕ := 4096

def minMaxInflightPayloadBytes : ℕ := 16 * 1024 * 1024

def hardMaxInflightPayloadBytes : ℕ := 512 * 1024 * 1024

/-- The bytes that every connection may need at once: request header and response buffer. -/
def perConnectionReserve : ℕ := 16 * 1024 + 64 * 1024

/-- A policy that `RuntimeResourcePolicy::try_new` accepts. -/
structure RuntimeResourcePolicy where
  maxConnections : ℕ
  maxInflightPayloadBytes : ℕ
  connections_mem : minMaxConnections ≤ maxConnections ∧ maxConnections ≤ hardMaxConnections
  payload_mem : minMaxInflightPayloadBytes ≤ maxInflightPayloadBytes ∧
    maxInflightPayloadBytes ≤ hardMaxInflightPayloadBytes
  reserve_le : maxConnections * perConnectionReserve ≤ maxInflightPayloadBytes

def RuntimeResourcePolicy.least : RuntimeResourcePolicy where
  maxConnections := 1
  maxInflightPayloadBytes := 16 * 1024 * 1024
  connections_mem := by decide
  payload_mem := by decide
  reserve_le := by decide

structure PayloadBudgetLedger where
  limitBytes : ℕ
  usedBytes : ℕ
  generation : ℕ
  nextChargeId : ℕ
  charges : Table PayloadCharge
  pressureState : ResourcePressureState

abbrev LedgerAction (α : Type) := Action PayloadBudgetLedger AppError α

def resourceCapacityError : AppError :=
  ⟨.resourcePayloadCapacityReached, "logical payload capacity reached"⟩

def resourceAccountingError (message : String) : AppError :=
  ⟨.resourceAccountingInvariantFailed, message⟩

namespace PayloadBudgetLedger

def new (policy : RuntimeResourcePolicy) (generation : ℕ) : PayloadBudgetLedger where
  limitBytes := policy.maxInflightPayloadBytes
  usedBytes := 0
  generation := generation
  nextChargeId := 1
  charges := ∅
  pressureState := .normal

/-- `fail_accounting`: closes admission for the whole process. -/
def failAccounting {α : Type} (message : String) : LedgerAction α := fun l =>
  (.error (resourceAccountingError message), { l with pressureState := .failedClosed })

def failCapacity {α : Type} : LedgerAction α := fun l =>
  (.error resourceCapacityError, { l with pressureState := .exhausted })

def refreshedPressure (l : PayloadBudgetLedger) : ResourcePressureState :=
  match l.pressureState with
  | .failedClosed => .failedClosed
  | .normal => if l.usedBytes < l.limitBytes * 80 / 100 then .normal else .pressured
  | .pressured | .exhausted =>
    if l.usedBytes ≤ l.limitBytes * 60 / 100 then .normal else .pressured

def refreshPressureAfterUsageChange (l : PayloadBudgetLedger) : PayloadBudgetLedger :=
  { l with pressureState := l.refreshedPressure }

def requireGeneration (generation : ℕ) : LedgerAction PUnit := fun l =>
  if generation ≠ l.generation then failAccounting "resource generation is stale" l
  else (.ok ⟨⟩, l)

variable (id : ResourceChargeId)

def liveCharge (generation : ℕ) : LedgerAction PayloadCharge := fun l =>
  match l.charges.lookup id with
  | none => failAccounting "resource charge is not live" l
  | some charge =>
    if charge.generation ≠ generation || charge.state.isTerminal then
      failAccounting "resource charge identity is invalid" l
    else (.ok charge, l)

def reserve (connectionId : ℕ) (payloadClass : PayloadClass) (requestedBytes generation : ℕ) :
    LedgerAction ResourceChargeId := fun l =>
  if l.pressureState = .failedClosed then
    (.error (resourceAccountingError "resource admission is failed closed"), l)
  else if generation ≠ l.generation then failAccounting "resource generation is stale" l
  else if requestedBytes = 0 then failAccounting "zero-byte resource charge is not allowed" l
  else if l.usedBytes + requestedBytes ≥ usizeBound then (.error resourceCapacityError, l)
  else if l.usedBytes + requestedBytes > l.limitBytes then failCapacity l
  else if l.nextChargeId + 1 ≥ 2 ^ 64 then failAccounting "resource charge identity exhausted" l
  else
    let charge := { connectionId, payloadClass, chargedBytes := requestedBytes, generation,
                    state := .granted }
    (.ok l.nextChargeId, refreshPressureAfterUsageChange
      { l with nextChargeId := l.nextChargeId + 1
               usedBytes := l.usedBytes + requestedBytes
               charges := l.charges.insert l.nextChargeId charge })

def replaceChargeBytes (nextLogicalBytes : ℕ) : LedgerAction PUnit :=
  fun l =>
    if nextLogicalBytes = 0 then
      failAccounting "live resource charge cannot be resized to zero" l
    else
      match l.charges.lookup id with
      | none => failAccounting "resized resource charge disappeared" l
      | some charge =>
        if l.usedBytes < charge.chargedBytes then
          failAccounting "resource total is below live charge" l
        else
          let nextUsed := l.usedBytes - charge.chargedBytes + nextLogicalBytes
          if nextUsed ≥ usizeBound then (.error resourceCapacityError, l)
          else if nextUsed > l.limitBytes then failCapacity l
          else
            (.ok ⟨⟩, refreshPressureAfterUsageChange
              { l with usedBytes := nextUsed
                       charges := l.charges.insert id
                         { charge with chargedBytes := nextLogicalBytes } })

def setState (state : ResourceChargeState) (message : String) :
    LedgerAction PUnit := fun l =>
  match l.charges.lookup id with
  | none => failAccounting message l
  | some charge => (.ok ⟨⟩, { l with charges := l.charges.insert id { charge with state } })

def commit (actualLogicalBytes generation : ℕ) : LedgerAction PUnit := do
  requireGeneration generation
  let charge ← liveCharge id generation
  if charge.state ≠ .granted then failAccounting "only granted charges can be committed"
  else do
    replaceChargeBytes id actualLogicalBytes
    setState id .inUse "committed resource charge disappeared"

def isMovable (state : ResourceChargeState) : Bool :=
  state == .granted || state == .inUse || state == .transferred

def resize (nextLogicalBytes generation : ℕ) : LedgerAction PUnit := do
  requireGeneration generation
  let charge ← liveCharge id generation
  if !isMovable charge.state then
    failAccounting "charge cannot be resized in its current state"
  else replaceChargeBytes id nextLogicalBytes

def grow (additionalBytes generation : ℕ) : LedgerAction PUnit := do
  requireGeneration generation
  if additionalBytes = 0 then return ⟨⟩
  else do
    let charge ← liveCharge id generation
    if charge.chargedBytes + additionalBytes ≥ usizeBound then failCapacity
    else resize id (charge.chargedBytes + additionalBytes) generation

def removeLiveCharge (generation : ℕ) : LedgerAction PUnit := do
  let charge ← liveCharge id generation
  fun l =>
    if l.usedBytes < charge.chargedBytes then
      failAccounting "resource release exceeds current total" l
    else
      (.ok ⟨⟩, refreshPressureAfterUsageChange
        { l with charges := l.charges.erase id
                 usedBytes := l.usedBytes - charge.chargedBytes })

def release (generation : ℕ) : LedgerAction PUnit := do
  requireGeneration generation
  removeLiveCharge id generation

def releaseAfterAllocationFailure (generation : ℕ) :
    LedgerAction PUnit := do
  requireGeneration generation
  removeLiveCharge id generation

section Success

variable {l : PayloadBudgetLedger} {id n : ℕ} {charge : PayloadCharge}

def HasRoom (l : PayloadBudgetLedger) (n : ℕ) : Prop :=
  l.usedBytes + n ≤ l.limitBytes ∧ l.limitBytes ≤ hardMaxInflightPayloadBytes

theorem refreshedPressure_ne_failedClosed (h : l.pressureState ≠ .failedClosed) :
    l.refreshedPressure ≠ .failedClosed := by
  unfold refreshedPressure
  split
  · contradiction
  all_goals split <;> decide

theorem reserve_ok (connectionId : ℕ) (payloadClass : PayloadClass)
    (hpressure : l.pressureState ≠ .failedClosed) (hn : n ≠ 0) (hroom : l.HasRoom n)
    (hid : l.nextChargeId + 1 < 2 ^ 64) :
    ∃ l', reserve connectionId payloadClass n l.generation l = (.ok l.nextChargeId, l') ∧
      l'.pressureState ≠ .failedClosed ∧ l'.usedBytes = l.usedBytes + n ∧
      l'.limitBytes = l.limitBytes ∧ l'.generation = l.generation ∧
      l'.charges = l.charges.insert l.nextChargeId
        ⟨connectionId, payloadClass, n, l.generation, .granted⟩ := by
  have hused := hroom.1
  have hlimit : l.limitBytes < usizeBound := hroom.2.trans_lt (by decide)
  unfold reserve
  rw [if_neg hpressure, if_neg (by simp), if_neg hn, if_neg (by omega), if_neg (by omega),
    if_neg (by omega)]
  exact ⟨_, rfl, refreshedPressure_ne_failedClosed hpressure, rfl, rfl, rfl, rfl⟩

theorem reserve_error (connectionId : ℕ) (payloadClass : PayloadClass) (generation : ℕ)
    (h : n = 0 ∨ 2 ^ 64 ≤ l.nextChargeId + 1) :
    ∃ e l', reserve connectionId payloadClass n generation l = (.error e, l') := by
  unfold reserve
  repeat' split
  all_goals first
    | exact ⟨_, _, rfl⟩
    | omega

theorem requireGeneration_self : requireGeneration l.generation l = (.ok ⟨⟩, l) := by
  simp [requireGeneration]

variable (hlookup : l.charges.lookup id = some charge)

include hlookup

theorem liveCharge_ok (hgeneration : charge.generation = l.generation)
    (hlive : charge.state.isTerminal = false) : liveCharge id l.generation l = (.ok charge, l) := by
  simp [liveCharge, hlookup, hgeneration, hlive]

variable (hn : n ≠ 0) (hpressure : l.pressureState ≠ .failedClosed)
  (hcharge : charge.chargedBytes ≤ l.usedBytes)
  (hroom : l.usedBytes - charge.chargedBytes + n ≤ l.limitBytes)
  (hlimit : l.limitBytes < usizeBound)

include hn hpressure hcharge hroom hlimit

theorem replaceChargeBytes_ok :
    ∃ l', replaceChargeBytes id n l = (.ok ⟨⟩, l') ∧ l'.pressureState ≠ .failedClosed ∧
      l'.usedBytes = l.usedBytes - charge.chargedBytes + n ∧ l'.limitBytes = l.limitBytes ∧
      l'.generation = l.generation ∧
      l'.charges = l.charges.insert id { charge with chargedBytes := n } := by
  unfold replaceChargeBytes
  rw [if_neg hn]
  simp only [hlookup]
  rw [if_neg (by omega), if_neg (by omega), if_neg (by omega)]
  exact ⟨_, rfl, refreshedPressure_ne_failedClosed hpressure, rfl, rfl, rfl, rfl⟩

theorem resize_ok (hgeneration : charge.generation = l.generation)
    (hmovable : isMovable charge.state = true) :
    ∃ l', resize id n l.generation l = (.ok ⟨⟩, l') ∧ l'.pressureState ≠ .failedClosed ∧
      l'.usedBytes = l.usedBytes - charge.chargedBytes + n ∧ l'.limitBytes = l.limitBytes ∧
      l'.generation = l.generation ∧
      l'.charges = l.charges.insert id { charge with chargedBytes := n } := by
  have hlive : charge.state.isTerminal = false := by
    cases hs : charge.state <;> simp_all [isMovable, ResourceChargeState.isTerminal]
  unfold resize
  rw [bind_ok requireGeneration_self, bind_ok (liveCharge_ok hlookup hgeneration hlive),
    if_neg (by simp [hmovable])]
  exact replaceChargeBytes_ok hlookup hn hpressure hcharge hroom hlimit

theorem commit_ok (hgeneration : charge.generation = l.generation)
    (hgranted : charge.state = .granted) :
    ∃ l', commit id n l.generation l = (.ok ⟨⟩, l') ∧ l'.pressureState ≠ .failedClosed ∧
      l'.usedBytes = l.usedBytes - charge.chargedBytes + n ∧ l'.limitBytes = l.limitBytes ∧
      l'.generation = l.generation ∧
      l'.charges.lookup id = some { charge with chargedBytes := n, state := .inUse } := by
  obtain ⟨l₁, h₁, hpressure₁, hused, hlimit₁, hgeneration₁, hcharges⟩ :=
    replaceChargeBytes_ok hlookup hn hpressure hcharge hroom hlimit
  have hlookup₁ : l₁.charges.lookup id = some { charge with chargedBytes := n } := by
    rw [hcharges, AList.lookup_insert]
  unfold commit
  rw [bind_ok requireGeneration_self, bind_ok (liveCharge_ok hlookup hgeneration
    (by rw [hgranted]; rfl)), if_neg (by simp [hgranted]), bind_ok h₁]
  simp only [setState, hlookup₁]
  exact ⟨_, rfl, hpressure₁, hused, hlimit₁, hgeneration₁, AList.lookup_insert _⟩

end Success

end PayloadBudgetLedger

end EdgeProxy

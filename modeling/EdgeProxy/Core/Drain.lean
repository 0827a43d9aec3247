import EdgeProxy.Config.Snapshot
import EdgeProxy.Lib.Dictionary

/-! # Drain references

`UpstreamDrainTracker` counts the connections that use an upstream. An entry belongs to one
generation of the configuration and one upstream, whatever the configuration is by now.
-/

namespace EdgeProxy

open Rust

structure UpstreamHealthKey where
  serviceId : Text
  upstreamId : Text
  deriving DecidableEq

def ConfigSnapshot.keyedUpstreams (snapshot : ConfigSnapshot) :
    List (UpstreamHealthKey × Upstream) :=
  snapshot.services.flatMap fun service =>
    service.upstreams.map fun upstream => (⟨service.id, upstream.id⟩, upstream)

abbrev DrainGeneration := ℕ

structure DrainReference where
  generation : DrainGeneration
  key : UpstreamHealthKey
  leaseId : ℕ
  deriving DecidableEq

inductive UpstreamDrainState where
  | active | draining | drained | removed
  deriving DecidableEq

structure UpstreamDrainStatus where
  state : UpstreamDrainState
  connectionCount : ℕ

structure DrainEntry where
  state : UpstreamDrainState
  leases : Finset ℕ

inductive RuntimeDrainState where
  | active | draining | drained | removed
  deriving DecidableEq

structure RuntimeUpstreamStatus where
  key : UpstreamHealthKey
  state : RuntimeDrainState
  connectionCount : ℕ
  deriving DecidableEq

structure RuntimeUpstreamStatusSnapshot where
  revisionId : Text
  generation : DrainGeneration
  upstreams : List RuntimeUpstreamStatus
  deriving DecidableEq

structure UpstreamDrainTracker where
  currentGeneration : Option DrainGeneration
  entries : Dictionary (DrainGeneration × UpstreamHealthKey) DrainEntry

namespace UpstreamDrainTracker

def default : UpstreamDrainTracker := ⟨none, ∅⟩

variable (snapshot : ConfigSnapshot) (generation : DrainGeneration) (key : UpstreamHealthKey)
  (tracker : UpstreamDrainTracker)

def desired : Dictionary UpstreamHealthKey UpstreamAdministrativeState :=
  .ofPairs (snapshot.keyedUpstreams.map fun keyed => (keyed.1, keyed.2.administrativeState))

def retire (desired : Dictionary UpstreamHealthKey UpstreamAdministrativeState)
    (key : UpstreamHealthKey) (entry : DrainEntry) : DrainEntry :=
  { entry with
    state :=
      if desired.lookup key = some .draining then
        if entry.leases = ∅ then .drained else .draining
      else .removed }

def openEntry : UpstreamAdministrativeState → DrainEntry
  | .active => ⟨.active, ∅⟩
  | .draining => ⟨.drained, ∅⟩

def reconcile : UpstreamDrainTracker :=
  let desired := desired snapshot
  let retired :=
    match tracker.currentGeneration with
    | none => tracker.entries
    | some current => tracker.entries.mapValues fun (entryGeneration, key) entry =>
      if entryGeneration ≠ current then entry else retire desired key entry
  { tracker with
    currentGeneration := some generation
    entries := desired.foldl (fun entries key administrativeState =>
      entries.insert (generation, key) (openEntry administrativeState)) retired }

def fromSnapshot : UpstreamDrainTracker :=
  default.reconcile snapshot generation

def status : Option UpstreamDrainStatus :=
  (tracker.entries.lookup (generation, key)).map fun entry => ⟨entry.state, entry.leases.card⟩

/-- The leases of an upstream in the generations that ended, as far as they still count. -/
def oldCount : ℕ :=
  ((tracker.entries.entries.filter fun e =>
      e.1.1 ≠ generation ∧ e.1.2 = key ∧ (e.2.state = .draining ∨ e.2.state = .removed)).map
    fun e => e.2.leases.card).sum

def operationalSnapshot : RuntimeUpstreamStatusSnapshot where
  revisionId := snapshot.revisionId
  generation := tracker.currentGeneration.getD 0
  upstreams := snapshot.keyedUpstreams.map fun (key, upstream) =>
    let generation := tracker.currentGeneration.getD 0
    let current := (tracker.status generation key).getD ⟨.removed, 0⟩
    let connectionCount :=
      min (current.connectionCount + tracker.oldCount generation key) (2 ^ 64 - 1)
    ⟨key,
      if upstream.administrativeState = .draining then
        if connectionCount = 0 then .drained else .draining
      else .active,
      connectionCount⟩

end UpstreamDrainTracker

end EdgeProxy

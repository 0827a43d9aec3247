import EdgeProxy.Core.Drain

/-! # The upstream selector and the commands that activate a configuration

`RuntimeUpstreamSelector` holds what the core needs to choose an upstream: the cursor, the endpoint
and the availability of each, and the drain tracker. Three commands activate a configuration with
its availability, and with TLS sessions for its listeners and upstreams. Each works on a copy of
the selector; the copy shares the status publisher with the selector it was made from.
-/

namespace EdgeProxy

open Rust

inductive UpstreamAvailability where
  | disabled | unknown | healthy | unhealthy

abbrev HealthGeneration := ℕ

structure HealthAvailabilitySnapshot where
  revisionId : Text
  generation : HealthGeneration
  entries : Dictionary UpstreamHealthKey UpstreamAvailability

inductive CommandAck where
  | accepted
  | rejected (error : AppError)
  deriving DecidableEq

def CommandAck.isSuccess : CommandAck → Bool
  | .accepted => true
  | .rejected _ => false

variable (snapshot : ConfigSnapshot)

def ConfigSnapshot.findService (serviceId : Text) : Option Service :=
  snapshot.services.find? (·.id == serviceId)

def runtimeAvailabilityError (message : String) : AppError := ⟨.runtimeCommandRejected, message⟩

structure RuntimeUpstreamSelector where
  sequences : Dictionary Text ℕ
  endpoints : Dictionary UpstreamHealthKey UpstreamEndpoint
  availability : Dictionary Text (Dictionary Text UpstreamAvailability)
  availabilityGeneration : Option HealthGeneration
  drainGeneration : DrainGeneration
  drainTracker : UpstreamDrainTracker
  drainSnapshot : ConfigSnapshot
  runtimeStatusPublisher : Bool

def parseEndpoint (keyed : UpstreamHealthKey × Upstream) :
    Except AppError (UpstreamHealthKey × UpstreamEndpoint) :=
  match UpstreamEndpoint.parse keyed.2.url with
  | .ok endpoint => .ok (keyed.1, endpoint)
  | .error error => .error ⟨error.code, error.message⟩

def normalizedEndpointMap : Except AppError (Dictionary UpstreamHealthKey UpstreamEndpoint) :=
  (snapshot.keyedUpstreams.mapM parseEndpoint).map .ofPairs

/-- The cursor of a service is kept while its policy and its upstreams are the same. -/
def keepsSequence (current next : ConfigSnapshot) (serviceId : Text) : Bool :=
  match current.findService serviceId, next.findService serviceId with
  | some currentService, some nextService =>
    currentService.policy.loadBalancing == nextService.policy.loadBalancing &&
      currentService.upstreams.map Upstream.id == nextService.upstreams.map Upstream.id
  | _, _ => false

def initialAvailabilitySnapshot : HealthAvailabilitySnapshot where
  revisionId := snapshot.revisionId
  generation := 0
  entries := .ofPairs (snapshot.services.flatMap fun service =>
    service.upstreams.map fun upstream => (⟨service.id, upstream.id⟩,
      match service.policy.healthCheck with
      | .disabled => UpstreamAvailability.disabled
      | .http _ => UpstreamAvailability.unknown))

def availabilityByService (entries : Dictionary UpstreamHealthKey UpstreamAvailability) :
    Dictionary Text (Dictionary Text UpstreamAvailability) :=
  entries.foldl (fun availability key value =>
    availability.insert key.serviceId
      (((availability.lookup key.serviceId).getD ∅).insert key.upstreamId value)) ∅

namespace RuntimeUpstreamSelector

/-- The statuses that a publication hands to the publisher. -/
def publishRuntimeStatus (selector : RuntimeUpstreamSelector) :
    List RuntimeUpstreamStatusSnapshot :=
  if selector.runtimeStatusPublisher then
    [selector.drainTracker.operationalSnapshot selector.drainSnapshot]
  else []

/-- The selector for the next configuration, with what was published on the way. -/
def reconcile (current next : ConfigSnapshot) (selector : RuntimeUpstreamSelector) :
    Except AppError (RuntimeUpstreamSelector × List RuntimeUpstreamStatusSnapshot) := do
  let endpoints ← normalizedEndpointMap next
  let drainGeneration := (selector.drainGeneration + 1) % 2 ^ 64
  let selector := { selector with
    sequences := selector.sequences.retain fun serviceId _ => keepsSequence current next serviceId
    endpoints
    drainGeneration
    drainTracker := selector.drainTracker.reconcile next drainGeneration
    drainSnapshot := next }
  let statuses := selector.publishRuntimeStatus
  if current.revisionId ≠ next.revisionId then
    return ({ selector with availability := ∅, availabilityGeneration := none }, statuses)
  else return (selector, statuses)

def applyAvailability (current : ConfigSnapshot) (snapshot : HealthAvailabilitySnapshot)
    (selector : RuntimeUpstreamSelector) : Except AppError RuntimeUpstreamSelector :=
  if snapshot.revisionId ≠ current.revisionId then
    .error (runtimeAvailabilityError "availability revision does not match active config")
  else if selector.availabilityGeneration.any (snapshot.generation < ·) then
    .error (runtimeAvailabilityError "availability generation is stale")
  else if snapshot.entries.keys.length ≠ (current.services.map (·.upstreams.length)).sum ∨
      current.keyedUpstreams.any fun keyed => keyed.1 ∉ snapshot.entries.keys then
    .error (runtimeAvailabilityError "availability keys do not match active config")
  else
    .ok { selector with
      availability := availabilityByService snapshot.entries
      availabilityGeneration := some snapshot.generation }

def fromSnapshot (snapshot : ConfigSnapshot) : Except AppError RuntimeUpstreamSelector := do
  let endpoints ← normalizedEndpointMap snapshot
  applyAvailability snapshot (initialAvailabilitySnapshot snapshot) {
    sequences := ∅
    endpoints
    availability := ∅
    availabilityGeneration := none
    drainGeneration := 1
    drainTracker := .fromSnapshot snapshot 1
    drainSnapshot := snapshot
    runtimeStatusPublisher := false }

end RuntimeUpstreamSelector

section Commands

structure RegisteredSnapshotListener (F : Type) where
  localAddr : Option SocketAddr
  tlsSessionFactory : Option F

/-- What the commands act on: `F` are the session factories of the listeners, `G` those of the
upstreams. `published` are the statuses handed to the publisher, the last one is shown. -/
structure CoreRuntime (F G : Type) where
  snapshot : ConfigSnapshot
  listeners : List (RegisteredSnapshotListener F)
  upstreamSelector : RuntimeUpstreamSelector
  clientTlsRegistry : Dictionary UpstreamHealthKey G
  published : List RuntimeUpstreamStatusSnapshot

abbrev PreparedServerTlsRegistry (F : Type) := Dictionary SocketAddr F

abbrev PreparedClientTlsRegistry (G : Type) := Dictionary UpstreamHealthKey G

def noTlsListener : AppError := ⟨.runtimeCommandRejected, "runtime has no TLS listener"⟩

def upstreamTlsRegistryError : AppError :=
  ⟨.upstreamTlsProfileInvalid, "prepared upstream TLS profile is invalid"⟩

def runtimeGenerationError : AppError :=
  ⟨.runtimeCommandRejected, "prepared TLS runtime generation does not match the active snapshot"⟩

variable {F G : Type}

def ConfigSnapshot.tlsUpstreams (snapshot : ConfigSnapshot) : List UpstreamHealthKey :=
  (snapshot.keyedUpstreams.filter fun keyed => keyed.2.tls != .disabled).map Prod.fst

def PreparedClientTlsRegistry.validateForSnapshot (registry : PreparedClientTlsRegistry G)
    (snapshot : ConfigSnapshot) : Except AppError Unit :=
  if snapshot.tlsUpstreams.any fun key => key ∉ registry.keys then .error upstreamTlsRegistryError
  else if registry.keys.length ≠ snapshot.tlsUpstreams.length then .error upstreamTlsRegistryError
  else .ok ()

def nextServerFactories (registry : PreparedServerTlsRegistry F)
    (listeners : List (RegisteredSnapshotListener F)) : Except AppError (List (Option F)) :=
  listeners.mapM fun listener =>
    if listener.tlsSessionFactory.isNone then .ok none
    else
      match listener.localAddr.bind registry.lookup with
      | none => .error runtimeGenerationError
      | some factory => .ok (some factory)

namespace CoreRuntime

def publish (statuses : List RuntimeUpstreamStatusSnapshot) (core : CoreRuntime F G) :
    CoreRuntime F G :=
  { core with published := core.published ++ statuses }

/-- The reconciled copy of the selector with the availability; what reconciling publishes is
published whether or not the availability fits. -/
def candidate (next : ConfigSnapshot) (availability : HealthAvailabilitySnapshot)
    (core : CoreRuntime F G) : Except AppError RuntimeUpstreamSelector × CoreRuntime F G :=
  match core.upstreamSelector.reconcile core.snapshot next with
  | .error error => (.error error, core)
  | .ok (candidate, statuses) =>
    (candidate.applyAvailability next availability, core.publish statuses)

variable (next : ConfigSnapshot) (availability : HealthAvailabilitySnapshot) (factory : F)
  (core : CoreRuntime F G)

def installFactory (listener : RegisteredSnapshotListener F) : RegisteredSnapshotListener F :=
  if listener.tlsSessionFactory.isSome then { listener with tlsSessionFactory := some factory }
  else listener

def installFactories (listeners : List (RegisteredSnapshotListener F))
    (factories : List (Option F)) : List (RegisteredSnapshotListener F) :=
  listeners.zipWith (fun listener factory =>
    if factory.isSome then { listener with tlsSessionFactory := factory } else listener) factories

def hasTlsListener : Bool :=
  core.listeners.any (·.tlsSessionFactory.isSome)

def tlsListenerCount : ℕ :=
  core.listeners.countP (·.tlsSessionFactory.isSome)

def activateSnapshot : CommandAck × CoreRuntime F G :=
  match core.candidate next availability with
  | (.error error, core) => (.rejected error, core)
  | (.ok candidate, core) =>
    (.accepted, { core with upstreamSelector := candidate, snapshot := next })

def activateSnapshotAndTlsFactory : CommandAck × CoreRuntime F G :=
  if !core.hasTlsListener then (.rejected noTlsListener, core)
  else
    match core.candidate next availability with
    | (.error error, core) => (.rejected error, core)
    | (.ok candidate, core) => (.accepted, { core with
        listeners := core.listeners.map (installFactory factory)
        upstreamSelector := candidate
        snapshot := next })

def activateRuntimeGeneration (serverTlsRegistry : PreparedServerTlsRegistry F)
    (nextClientTlsRegistry : PreparedClientTlsRegistry G) (core : CoreRuntime F G) :
    CommandAck × CoreRuntime F G :=
  match core.candidate next availability with
  | (.error error, core) => (.rejected error, core)
  | (.ok candidate, core) =>
    match nextClientTlsRegistry.validateForSnapshot next with
    | .error error => (.rejected error, core)
    | .ok _ =>
      if serverTlsRegistry.keys.length ≠ core.tlsListenerCount then
        (.rejected runtimeGenerationError, core)
      else
        match nextServerFactories serverTlsRegistry core.listeners with
        | .error error => (.rejected error, core)
        | .ok factories => (.accepted, { core with
            listeners := installFactories core.listeners factories
            upstreamSelector := candidate
            clientTlsRegistry := nextClientTlsRegistry
            snapshot := next })

/-- `ApplyConfigSnapshot`, without availability. -/
def applyConfigSnapshot : CommandAck × CoreRuntime F G :=
  match core.upstreamSelector.reconcile core.snapshot next with
  | .error error => (.rejected error, core)
  | .ok (selector, statuses) => (.accepted, { core.publish statuses with
      upstreamSelector := selector
      snapshot := next })

def replaceTlsListenerFactories : CommandAck × CoreRuntime F G :=
  if core.tlsListenerCount = 0 then (.rejected noTlsListener, core)
  else (.accepted, { core with listeners := core.listeners.map (installFactory factory) })

def replaceTlsListenerRegistry (registry : PreparedServerTlsRegistry F) (core : CoreRuntime F G) :
    CommandAck × CoreRuntime F G :=
  if registry.keys.length ≠ core.tlsListenerCount then (.rejected runtimeGenerationError, core)
  else
    match nextServerFactories registry core.listeners with
    | .error error => (.rejected error, core)
    | .ok factories =>
      (.accepted, { core with listeners := installFactories core.listeners factories })

end CoreRuntime

end Commands

end EdgeProxy

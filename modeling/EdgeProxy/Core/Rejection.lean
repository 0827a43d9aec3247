import EdgeProxy.Core.Selector
import EdgeProxy.Lib.Result

/-! # Rejected activations

An activation is rejected before the copy of the selector is reconciled, or after it. A rejection
before that has no effect; one after it leaves the snapshot and the selector as they were, but the
status of the configuration that was not activated has been published.
-/

namespace EdgeProxy

open Rust List

section Candidate

variable {F G : Type} {next : ConfigSnapshot} {availability : HealthAvailabilitySnapshot}

def ConfigSnapshot.EndpointsParse (snapshot : ConfigSnapshot) : Prop :=
  ∀ keyed ∈ snapshot.keyedUpstreams, ∃ endpoint, UpstreamEndpoint.parse keyed.2.url = .ok endpoint

theorem normalizedEndpointMap_ok_iff :
    (∃ endpoints, normalizedEndpointMap next = .ok endpoints) ↔ next.EndpointsParse := by
  have hparse (keyed : UpstreamHealthKey × Upstream) :
      (∃ pair, parseEndpoint keyed = .ok pair) ↔
        ∃ endpoint, UpstreamEndpoint.parse keyed.2.url = .ok endpoint := by
    rw [parseEndpoint]
    rcases UpstreamEndpoint.parse keyed.2.url with error | endpoint
    · simp
    · simp
  simp only [normalizedEndpointMap, map_eq_ok, ConfigSnapshot.EndpointsParse, ← hparse]
  rw [← exists_mapM_ok_iff]
  constructor
  · rintro ⟨_, pairs, hpairs, -⟩
    exact ⟨pairs, hpairs⟩
  · rintro ⟨pairs, hpairs⟩
    exact ⟨_, pairs, hpairs, rfl⟩

/-- The availability belongs to the configuration, and is not older than the one in use if the
configuration keeps its revision. -/
structure AvailabilityFits (current next : ConfigSnapshot) (selector : RuntimeUpstreamSelector)
    (availability : HealthAvailabilitySnapshot) : Prop where
  revision : availability.revisionId = next.revisionId
  fresh : current.revisionId = next.revisionId →
    ∀ generation ∈ selector.availabilityGeneration, generation ≤ availability.generation
  count : availability.entries.keys.length = (next.services.map (·.upstreams.length)).sum
  keys : ∀ keyed ∈ next.keyedUpstreams, keyed.1 ∈ availability.entries

def RuntimeUpstreamSelector.HasAvailability (selector : RuntimeUpstreamSelector)
    (availability : HealthAvailabilitySnapshot) : Prop :=
  selector.availability = availabilityByService availability.entries ∧
    selector.availabilityGeneration = some availability.generation

variable {selector : RuntimeUpstreamSelector}

theorem RuntimeUpstreamSelector.hasAvailability_of_apply {selector' : RuntimeUpstreamSelector}
    (h : selector.applyAvailability next availability = .ok selector') :
    selector'.HasAvailability availability := by
  rw [applyAvailability] at h
  simp only [ite_error_eq_ok, Except.ok.injEq] at h
  obtain ⟨-, -, -, rfl⟩ := h
  exact ⟨rfl, rfl⟩

theorem RuntimeUpstreamSelector.applyAvailability_ok_iff :
    (∃ selector', selector.applyAvailability next availability = .ok selector') ↔
      availability.revisionId = next.revisionId ∧
        (∀ generation ∈ selector.availabilityGeneration, generation ≤ availability.generation) ∧
        availability.entries.keys.length = (next.services.map (·.upstreams.length)).sum ∧
        ∀ keyed ∈ next.keyedUpstreams, keyed.1 ∈ availability.entries := by
  rw [applyAvailability]
  simp only [ite_error_eq_ok, exists_and_left, Except.ok.injEq, exists_eq', and_true, not_not,
    Option.any_eq_true, decide_eq_true_eq, any_eq_true, not_or, not_exists, not_and,
    not_lt, AList.mem_keys, ne_eq, Option.mem_def]

/-- The generation of the availability is kept with the revision. -/
def RuntimeUpstreamSelector.Reconciled (reconciled : RuntimeUpstreamSelector)
    (current next : ConfigSnapshot) (selector : RuntimeUpstreamSelector) : Prop :=
  reconciled.availabilityGeneration =
    if current.revisionId ≠ next.revisionId then none else selector.availabilityGeneration

theorem RuntimeUpstreamSelector.Reconciled.applies_iff
    {reconciled : RuntimeUpstreamSelector} {current : ConfigSnapshot}
    (h : reconciled.Reconciled current next selector) :
    (∃ selector', reconciled.applyAvailability next availability = .ok selector') ↔
      AvailabilityFits current next selector availability := by
  rw [applyAvailability_ok_iff, h]
  constructor
  · rintro ⟨hrevision, hfresh, hcount, hkeys⟩
    refine ⟨hrevision, fun hsame generation hmem => hfresh generation ?_, hcount, hkeys⟩
    rwa [if_neg (not_not.mpr hsame)]
  · rintro ⟨hrevision, hfresh, hcount, hkeys⟩
    refine ⟨hrevision, fun generation hmem => ?_, hcount, hkeys⟩
    split_ifs at hmem with hsame
    · nomatch hmem
    · exact hfresh (not_not.mp hsame) generation hmem

theorem reconcile_cases (current next : ConfigSnapshot) (selector : RuntimeUpstreamSelector) :
    ¬ next.EndpointsParse ∧ (∃ error, selector.reconcile current next = .error error) ∨
      next.EndpointsParse ∧ ∃ selector' statuses,
        selector.reconcile current next = .ok (selector', statuses) ∧
        (statuses = [] ↔ selector.runtimeStatusPublisher = false) ∧
        selector'.Reconciled current next selector := by
  rcases hmap : normalizedEndpointMap next with error | endpoints
  · refine .inl ⟨fun h => ?_, error, ?_⟩
    · obtain ⟨endpoints, hok⟩ := normalizedEndpointMap_ok_iff.mpr h
      rw [hmap] at hok
      cases hok
    · rw [RuntimeUpstreamSelector.reconcile, hmap]
      rfl
  · refine .inr ⟨normalizedEndpointMap_ok_iff.mp ⟨endpoints, hmap⟩, ?_⟩
    rw [RuntimeUpstreamSelector.reconcile, hmap, ok_bind]
    simp only
    split_ifs with hrevision
    · exact ⟨_, _, rfl, by simp [RuntimeUpstreamSelector.publishRuntimeStatus],
        (if_pos hrevision).symm⟩
    · exact ⟨_, _, rfl, by simp [RuntimeUpstreamSelector.publishRuntimeStatus],
        (if_neg hrevision).symm⟩

/-- The copy cannot be reconciled; or it can, and the availability fits or not. -/
inductive CoreRuntime.Candidate (core : CoreRuntime F G) (next : ConfigSnapshot)
    (availability : HealthAvailabilitySnapshot) :
    Except AppError RuntimeUpstreamSelector × CoreRuntime F G → Prop
  | unreconciled (error : AppError) (h : ¬ next.EndpointsParse) :
      Candidate core next availability (.error error, core)
  | unfit (error : AppError) (statuses : List RuntimeUpstreamStatusSnapshot)
      (hparse : next.EndpointsParse)
      (hfits : ¬ AvailabilityFits core.snapshot next core.upstreamSelector availability)
      (hstatuses : statuses = [] ↔ core.upstreamSelector.runtimeStatusPublisher = false) :
      Candidate core next availability (.error error, core.publish statuses)
  | fit (selector : RuntimeUpstreamSelector) (statuses : List RuntimeUpstreamStatusSnapshot)
      (hparse : next.EndpointsParse)
      (hfits : AvailabilityFits core.snapshot next core.upstreamSelector availability)
      (hstatuses : statuses = [] ↔ core.upstreamSelector.runtimeStatusPublisher = false)
      (hselector : selector.HasAvailability availability) :
      Candidate core next availability (.ok selector, core.publish statuses)

theorem CoreRuntime.candidate_spec (core : CoreRuntime F G) (next : ConfigSnapshot)
    (availability : HealthAvailabilitySnapshot) :
    core.Candidate next availability (core.candidate next availability) := by
  rw [CoreRuntime.candidate]
  rcases reconcile_cases core.snapshot next core.upstreamSelector with
    ⟨hparse, error, hreconcile⟩ | ⟨hparse, selector, statuses, hreconcile, hstatuses, hreconciled⟩
  · rw [hreconcile]
    exact .unreconciled error hparse
  · rw [hreconcile]
    simp only
    have hiff : (∃ selector', selector.applyAvailability next availability = .ok selector') ↔
        AvailabilityFits core.snapshot next core.upstreamSelector availability :=
      hreconciled.applies_iff
    rcases happly : selector.applyAvailability next availability with error | selector'
    · refine .unfit error statuses hparse (fun hfits => ?_) hstatuses
      obtain ⟨selector', hok⟩ := hiff.mpr hfits
      rw [happly] at hok
      cases hok
    · exact .fit selector' statuses hparse (hiff.mp ⟨selector', happly⟩) hstatuses
        (RuntimeUpstreamSelector.hasAvailability_of_apply happly)

end Candidate

section Frame

variable {F G : Type}

inductive ActivationCommand (F G : Type) where
  | activateSnapshot (next : ConfigSnapshot) (availability : HealthAvailabilitySnapshot)
  | activateSnapshotAndTlsFactory (next : ConfigSnapshot)
      (availability : HealthAvailabilitySnapshot) (factory : F)
  | activateRuntimeGeneration (next : ConfigSnapshot) (availability : HealthAvailabilitySnapshot)
      (serverTlsRegistry : PreparedServerTlsRegistry F)
      (nextClientTlsRegistry : PreparedClientTlsRegistry G)

namespace ActivationCommand

variable (command : ActivationCommand F G) (core : CoreRuntime F G)

def run : ActivationCommand F G → CommandAck × CoreRuntime F G
  | activateSnapshot next availability => core.activateSnapshot next availability
  | activateSnapshotAndTlsFactory next availability factory =>
    core.activateSnapshotAndTlsFactory next availability factory
  | activateRuntimeGeneration next availability serverTlsRegistry nextClientTlsRegistry =>
    core.activateRuntimeGeneration next availability serverTlsRegistry nextClientTlsRegistry

def next : ActivationCommand F G → ConfigSnapshot
  | activateSnapshot next _ | activateSnapshotAndTlsFactory next _ _
  | activateRuntimeGeneration next _ _ _ => next

def availability : ActivationCommand F G → HealthAvailabilitySnapshot
  | activateSnapshot _ availability | activateSnapshotAndTlsFactory _ availability _
  | activateRuntimeGeneration _ availability _ _ => availability

def Reconciles : Prop :=
  command.next.EndpointsParse ∧
    match command with
    | activateSnapshotAndTlsFactory _ _ _ => core.hasTlsListener = true
    | _ => True

def Fits : Prop :=
  AvailabilityFits core.snapshot command.next core.upstreamSelector command.availability ∧
    match command with
    | activateRuntimeGeneration next _ serverTlsRegistry nextClientTlsRegistry =>
      ((∀ key ∈ next.tlsUpstreams, key ∈ nextClientTlsRegistry) ∧
        nextClientTlsRegistry.keys.length = next.tlsUpstreams.length) ∧
      serverTlsRegistry.keys.length = core.tlsListenerCount ∧
      ∀ listener ∈ core.listeners, listener.tlsSessionFactory.isSome = true →
        ∃ address ∈ listener.localAddr, address ∈ serverTlsRegistry
    | _ => True

end ActivationCommand

theorem validateForSnapshot_ok_iff {registry : PreparedClientTlsRegistry G}
    {snapshot : ConfigSnapshot} :
    registry.validateForSnapshot snapshot = .ok () ↔
      (∀ key ∈ snapshot.tlsUpstreams, key ∈ registry) ∧
        registry.keys.length = snapshot.tlsUpstreams.length := by
  simp only [PreparedClientTlsRegistry.validateForSnapshot, ite_error_eq_ok, any_eq_true,
    decide_eq_true_eq, not_exists, not_and, not_not, ne_eq, and_true, AList.mem_keys]

theorem nextServerFactories_ok_iff {registry : PreparedServerTlsRegistry F}
    {listeners : List (RegisteredSnapshotListener F)} :
    (∃ factories, nextServerFactories registry listeners = .ok factories) ↔
      ∀ listener ∈ listeners, listener.tlsSessionFactory.isSome = true →
        ∃ address ∈ listener.localAddr, address ∈ registry := by
  rw [nextServerFactories, exists_mapM_ok_iff]
  refine forall₂_congr fun listener _ => ?_
  rcases listener.tlsSessionFactory with _ | factory
  · simp
  · rcases listener.localAddr with _ | address
    · simp
    · rcases hlookup : registry.lookup address with _ | factory'
      · simp [hlookup, AList.lookup_eq_none.mp hlookup]
      · simp [hlookup, AList.lookup_isSome.mp (Option.isSome_of_eq_some hlookup)]

structure ActivationCommand.Activated (command : ActivationCommand F G)
    (core core' : CoreRuntime F G) : Prop where
  snapshot : core'.snapshot = command.next
  availability : core'.upstreamSelector.HasAvailability command.availability
  sessions :
    match command with
    | activateRuntimeGeneration _ _ serverTlsRegistry nextClientTlsRegistry =>
      core'.clientTlsRegistry = nextClientTlsRegistry ∧ ∃ factories,
        nextServerFactories serverTlsRegistry core.listeners = .ok factories ∧
          core'.listeners = CoreRuntime.installFactories core.listeners factories
    | _ => core'.clientTlsRegistry = core.clientTlsRegistry

inductive ActivationCommand.Ran (command : ActivationCommand F G) (core : CoreRuntime F G) :
    CommandAck × CoreRuntime F G → Prop
  | unreconciled (error : AppError) (h : ¬ command.Reconciles core) :
      Ran command core (.rejected error, core)
  | unfit (error : AppError) (statuses : List RuntimeUpstreamStatusSnapshot)
      (hreconciles : command.Reconciles core) (hfits : ¬ command.Fits core)
      (hstatuses : statuses = [] ↔ core.upstreamSelector.runtimeStatusPublisher = false) :
      Ran command core (.rejected error, core.publish statuses)
  | accepted (core' : CoreRuntime F G) (hreconciles : command.Reconciles core)
      (hfits : command.Fits core) (hactivated : command.Activated core core') :
      Ran command core (.accepted, core')

theorem ActivationCommand.ran (command : ActivationCommand F G) (core : CoreRuntime F G) :
    command.Ran core (command.run core) := by
  have hspec := core.candidate_spec command.next command.availability
  cases command with
  | activateSnapshot next availability =>
    rw [run, CoreRuntime.activateSnapshot]
    simp only [ActivationCommand.next, ActivationCommand.availability] at hspec
    generalize core.candidate next availability = candidate at hspec
    cases hspec with
    | unreconciled error hparse => exact .unreconciled error fun h => hparse h.1
    | unfit error statuses hparse hfits hstatuses =>
      exact .unfit error statuses ⟨hparse, trivial⟩ (fun h => hfits h.1) hstatuses
    | fit _ _ hparse hfits _ hselector =>
      exact .accepted _ ⟨hparse, trivial⟩ ⟨hfits, trivial⟩ ⟨rfl, hselector, rfl⟩
  | activateSnapshotAndTlsFactory next availability =>
    rw [run, CoreRuntime.activateSnapshotAndTlsFactory]
    simp only [ActivationCommand.next, ActivationCommand.availability] at hspec
    rcases hlistener : core.hasTlsListener
    · exact .unreconciled _ fun h => by simp [Reconciles, hlistener] at h
    · generalize core.candidate next availability = candidate at hspec
      cases hspec with
      | unreconciled error hparse => exact .unreconciled error fun h => hparse h.1
      | unfit error statuses hparse hfits hstatuses =>
        exact .unfit error statuses ⟨hparse, hlistener⟩ (fun h => hfits h.1) hstatuses
      | fit _ _ hparse hfits _ hselector =>
        exact .accepted _ ⟨hparse, hlistener⟩ ⟨hfits, trivial⟩ ⟨rfl, hselector, rfl⟩
  | activateRuntimeGeneration next availability serverTlsRegistry nextClientTlsRegistry =>
    rw [run, CoreRuntime.activateRuntimeGeneration]
    simp only [ActivationCommand.next, ActivationCommand.availability] at hspec
    generalize core.candidate next availability = candidate at hspec
    cases hspec with
    | unreconciled error hparse => exact .unreconciled error fun h => hparse h.1
    | unfit error statuses hparse hfits hstatuses =>
      exact .unfit error statuses ⟨hparse, trivial⟩ (fun h => hfits h.1) hstatuses
    | fit _ statuses hparse hfits hstatuses hselector =>
      -- each later check refuses exactly if its part does not fit
      simp only
      rcases hclient : nextClientTlsRegistry.validateForSnapshot next with error | _
      · refine .unfit error statuses ⟨hparse, trivial⟩ (fun h => ?_) hstatuses
        rw [validateForSnapshot_ok_iff.mpr h.2.1] at hclient
        cases hclient
      · simp only
        split_ifs with hcount
        · exact .unfit _ statuses ⟨hparse, trivial⟩ (fun h => hcount h.2.2.1) hstatuses
        · rcases hserver : nextServerFactories serverTlsRegistry
            (core.publish statuses).listeners with error | factories
          · refine .unfit error statuses ⟨hparse, trivial⟩ (fun h => ?_) hstatuses
            obtain ⟨factories, hok⟩ := nextServerFactories_ok_iff.mpr h.2.2.2
            rw [CoreRuntime.publish, hok] at hserver
            cases hserver
          · exact .accepted _ ⟨hparse, trivial⟩ ⟨hfits, validateForSnapshot_ok_iff.mp hclient,
              not_not.mp hcount, nextServerFactories_ok_iff.mp ⟨factories, hserver⟩⟩
              ⟨rfl, hselector, rfl, factories, hserver, rfl⟩

/-- The active snapshot, the selector and the published statuses are as before. -/
structure CoreRuntime.Unaffected (core core' : CoreRuntime F G) : Prop where
  snapshot : core'.snapshot = core.snapshot
  upstreamSelector : core'.upstreamSelector = core.upstreamSelector
  published : core'.published = core.published

/-- A rejected activation has no effect exactly if nobody is told of the copy, the command is
rejected before the copy is reconciled, or it is not rejected at all. -/
theorem rejected_activation_unaffected_iff (command : ActivationCommand F G)
    (core : CoreRuntime F G) :
    (∀ error, (command.run core).1 = .rejected error → core.Unaffected (command.run core).2) ↔
      core.upstreamSelector.runtimeStatusPublisher = false ∨ ¬ command.Reconciles core ∨
        command.Fits core := by
  have hran := command.ran core
  generalize command.run core = outcome at hran
  cases hran with
  | unreconciled _ h => exact iff_of_true (fun _ _ => ⟨rfl, rfl, rfl⟩) (.inr (.inl h))
  | unfit error _ hreconciles hfits hstatuses =>
    constructor
    · intro h
      refine .inl (hstatuses.mp ?_)
      exact append_right_eq_self.mp (h error rfl).published
    · intro h
      have hpublisher := h.resolve_right (not_or.mpr ⟨not_not.mpr hreconciles, hfits⟩)
      refine fun _ _ => ⟨rfl, rfl, ?_⟩
      rw [CoreRuntime.publish, hstatuses.mpr hpublisher, append_nil]
  | accepted _ _ hfits => exact iff_of_true nofun (.inr (.inr hfits))

def observedCore : CoreRuntime Unit Unit where
  snapshot := seedSnapshot "active".toList
  listeners := []
  upstreamSelector := {
    sequences := ∅
    endpoints := ∅
    availability := ∅
    availabilityGeneration := none
    drainGeneration := 1
    drainTracker := .fromSnapshot (seedSnapshot "active".toList) 1
    drainSnapshot := seedSnapshot "active".toList
    runtimeStatusPublisher := true }
  clientTlsRegistry := ∅
  published := [⟨"active".toList, 1, []⟩]

/-- The availability is of another revision: the command is rejected, and the status that is shown
is the one of the configuration that was not activated. -/
theorem rejected_activation_published :
    let outcome := observedCore.activateSnapshot (seedSnapshot "next".toList)
      (initialAvailabilitySnapshot (seedSnapshot "other".toList))
    outcome.1.isSuccess = false ∧
      outcome.2.snapshot = observedCore.snapshot ∧
      observedCore.published.getLast? = some ⟨"active".toList, 1, []⟩ ∧
      outcome.2.published.getLast? = some ⟨"next".toList, 2, []⟩ := by
  decide

end Frame

end EdgeProxy

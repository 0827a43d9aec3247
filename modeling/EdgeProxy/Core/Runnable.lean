import EdgeProxy.Config.Validation
import EdgeProxy.Core.Rejection

/-! # Running a validated configuration

The health runtime prepares the availability of a configuration: one entry for each upstream, with
the health that an unchanged upstream had before. The core takes a configuration only with an entry
for every upstream and no others. The validator looks at the upstreams of one service at a time.
-/

namespace EdgeProxy

open Rust List ConfigValidator

inductive UpstreamHealthState where
  | disabled
  | unknown (consecutiveSuccesses consecutiveFailures : ℕ)
  | healthy (consecutiveFailures : ℕ)
  | unhealthy (consecutiveSuccesses : ℕ)

namespace UpstreamHealthState

def forPolicy : HealthCheckPolicy → UpstreamHealthState
  | .disabled => .disabled
  | .http _ => .unknown 0 0

def availability : UpstreamHealthState → UpstreamAvailability
  | .disabled => .disabled
  | .unknown _ _ => .unknown
  | .healthy _ => .healthy
  | .unhealthy _ => .unhealthy

end UpstreamHealthState

structure HealthEntry where
  endpoint : UpstreamEndpoint
  tls : UpstreamTlsPolicy
  policy : Option HttpHealthCheckPolicy
  health : UpstreamHealthState

structure HealthSupervisor where
  revisionId : Text
  generation : HealthGeneration
  entries : Dictionary UpstreamHealthKey HealthEntry

namespace HealthSupervisor

def entry (service : Service) (upstream : Upstream) :
    Except AppError (UpstreamHealthKey × HealthEntry) :=
  match UpstreamEndpoint.parse upstream.url with
  | .error error => .error ⟨error.code, error.message⟩
  | .ok endpoint =>
    if !ConfigValidator.policyMatches endpoint.scheme upstream.tls then
      .error ⟨.upstreamTlsProfileInvalid, "upstream TLS profile is invalid"⟩
    else
      .ok (⟨service.id, upstream.id⟩, {
        endpoint
        tls := upstream.tls
        policy :=
          match service.policy.healthCheck with
          | .disabled => none
          | .http policy => some policy
        health := .forPolicy service.policy.healthCheck })

def activate (snapshot : ConfigSnapshot) (generation : HealthGeneration) :
    Except AppError HealthSupervisor := do
  let entries ← (snapshot.services.flatMap fun service =>
    service.upstreams.map fun upstream => (service, upstream)).mapM fun (service, upstream) =>
      entry service upstream
  return ⟨snapshot.revisionId, generation, .ofPairs entries⟩

def keepHealth (previous : Dictionary UpstreamHealthKey HealthEntry) (key : UpstreamHealthKey)
    (entry : HealthEntry) : HealthEntry :=
  match previous.lookup key with
  | none => entry
  | some prior =>
    if entry.endpoint = prior.endpoint ∧ entry.tls = prior.tls ∧ entry.policy = prior.policy then
      { entry with health := prior.health }
    else entry

def activateReconciled (snapshot : ConfigSnapshot) (generation : HealthGeneration)
    (previous : Option (Dictionary UpstreamHealthKey HealthEntry)) :
    Except AppError HealthSupervisor := do
  let supervisor ← activate snapshot generation
  match previous with
  | none => return supervisor
  | some previous =>
    return { supervisor with entries := supervisor.entries.mapValues (keepHealth previous) }

def availabilitySnapshot (supervisor : HealthSupervisor) : HealthAvailabilitySnapshot where
  revisionId := supervisor.revisionId
  generation := supervisor.generation
  entries := supervisor.entries.mapValues fun _ entry => entry.health.availability

end HealthSupervisor

section Validated

variable {snapshot : ConfigSnapshot}

/-- What the validator has checked of the upstreams of one service. -/
structure ValidUpstreams (ids : List Text) (upstreams : List Upstream) : Prop where
  fresh : ∀ upstream ∈ upstreams, upstream.id ∉ ids
  nodup : (upstreams.map Upstream.id).Nodup
  parses : ∀ upstream ∈ upstreams, ∃ endpoint, UpstreamEndpoint.parse upstream.url = .ok endpoint ∧
    ConfigValidator.policyMatches endpoint.scheme upstream.tls = true

theorem reportIf_eq_nil {condition : Bool} {code : ErrorCode} {message : String} :
    reportIf condition code message = [] ↔ condition = false := by
  rcases condition <;> simp [reportIf]

theorem endpointErrors_eq_nil {schemaVersion : UInt32} {seen : List UpstreamEndpoint}
    {upstream : Upstream} (h : (endpointErrors schemaVersion seen upstream).1 = []) :
    ∃ endpoint, UpstreamEndpoint.parse upstream.url = .ok endpoint ∧
      policyMatches endpoint.scheme upstream.tls = true := by
  rw [endpointErrors] at h
  rcases hparse : UpstreamEndpoint.parse upstream.url with error | endpoint
  · simp [hparse] at h
  · refine ⟨endpoint, rfl, ?_⟩
    by_contra hmatches
    simp only [hparse] at h
    split_ifs at h with hschema hpolicy
    exact hpolicy (by simpa using hmatches)

theorem validUpstreams_of_errors {schemaVersion : UInt32} {serviceId : Text} {ids : List Text}
    {endpoints : List UpstreamEndpoint} {upstreams : List Upstream}
    (h : upstreamErrors schemaVersion serviceId ids endpoints upstreams = []) :
    ValidUpstreams ids upstreams := by
  induction upstreams generalizing ids endpoints with
  | nil => exact ⟨nofun, .nil, nofun⟩
  | cons upstream upstreams ih =>
    rw [upstreamErrors] at h
    simp only [append_eq_nil_iff] at h
    obtain ⟨⟨hid, hendpoint⟩, hrest⟩ := h
    have hnonempty : upstream.id.isEmpty = false := by
      by_contra hempty
      rw [if_pos (by simpa using hempty)] at hid
      cases hid
    simp only [hnonempty, Bool.false_eq_true, if_false, reportIf_eq_nil] at hid hrest
    obtain ⟨hfresh, hnodup, hparses⟩ := ih hrest
    have hnotin : upstream.id ∉ upstreams.map Upstream.id := by
      rintro hmem
      obtain ⟨other, hother, heq⟩ := mem_map.mp hmem
      exact hfresh other hother (by rw [heq]; exact mem_cons_self ..)
    refine ⟨?_, nodup_cons.mpr ⟨hnotin, hnodup⟩, ?_⟩
    · rintro other (_ | ⟨_, hother⟩)
      · simpa using hid
      · exact fun hmem => hfresh other hother (mem_cons_of_mem _ hmem)
    · rintro other (_ | ⟨_, hother⟩)
      · exact endpointErrors_eq_nil hendpoint
      · exact hparses other hother

theorem validUpstreams_of_valid {validator : ConfigValidator}
    (h : validator.validateSnapshot snapshot = []) {service : Service}
    (hservice : service ∈ snapshot.services) : ValidUpstreams [] service.upstreams := by
  simp only [validateSnapshot, append_eq_nil_iff, flatMap_eq_nil_iff]
    at h
  have hservices := h.1.2 service hservice
  simp only [serviceErrors, append_eq_nil_iff] at hservices
  exact validUpstreams_of_errors hservices.2

/-- Services with the same id have no upstream id in common. -/
def ConfigSnapshot.KeysDistinct (snapshot : ConfigSnapshot) : Prop :=
  snapshot.services.Pairwise fun a b =>
    a.id = b.id → (a.upstreams.map Upstream.id).Disjoint (b.upstreams.map Upstream.id)

def ConfigSnapshot.upstreamKeys (snapshot : ConfigSnapshot) : List UpstreamHealthKey :=
  snapshot.services.flatMap fun service =>
    service.upstreams.map fun upstream => ⟨service.id, upstream.id⟩

theorem keyedUpstreams_fst : snapshot.keyedUpstreams.map Prod.fst = snapshot.upstreamKeys := by
  simp [ConfigSnapshot.keyedUpstreams, ConfigSnapshot.upstreamKeys, map_flatMap, Function.comp_def]

theorem upstreamKeys_length :
    snapshot.upstreamKeys.length = (snapshot.services.map (·.upstreams.length)).sum := by
  simp [ConfigSnapshot.upstreamKeys, length_flatMap]

theorem upstreamKeys_nodup_iff
    (hvalid : ∀ service ∈ snapshot.services, ValidUpstreams [] service.upstreams) :
    snapshot.upstreamKeys.Nodup ↔ snapshot.KeysDistinct := by
  have hinjective (service : Service) :
      Function.Injective fun id : Text => (⟨service.id, id⟩ : UpstreamHealthKey) :=
    fun _ _ h => (UpstreamHealthKey.mk.inj h).2
  have hmap (service : Service) :
      (service.upstreams.map fun upstream => (⟨service.id, upstream.id⟩ : UpstreamHealthKey)) =
        (service.upstreams.map Upstream.id).map fun id => ⟨service.id, id⟩ := by
    rw [map_map]
    rfl
  rw [ConfigSnapshot.upstreamKeys, nodup_flatMap, ConfigSnapshot.KeysDistinct,
    and_iff_right fun service hservice => by
      rw [hmap]
      exact (hvalid service hservice).nodup.map (hinjective service)]
  refine List.Pairwise.iff fun a b => ?_
  simp only [Function.onFun, hmap, List.Disjoint, mem_map]
  constructor
  · rintro h hid _ ⟨u, hu, rfl⟩ ⟨v, hv, hsame⟩
    exact h ⟨_, ⟨u, hu, rfl⟩, rfl⟩ ⟨_, ⟨v, hv, rfl⟩, by rw [hsame, hid]⟩
  · rintro h _ ⟨_, ⟨u, hu, rfl⟩, rfl⟩ ⟨_, ⟨v, hv, rfl⟩, hsame⟩
    obtain ⟨hid, hid'⟩ := UpstreamHealthKey.mk.inj hsame
    exact h hid.symm ⟨u, hu, rfl⟩ ⟨v, hv, hid'⟩

end Validated

section Runs

variable {snapshot : ConfigSnapshot}

theorem HealthSupervisor.entry_key {service : Service} {upstream : Upstream}
    {keyed : UpstreamHealthKey × HealthEntry} (h : entry service upstream = .ok keyed) :
    keyed.1 = ⟨service.id, upstream.id⟩ := by
  rw [entry] at h
  split at h
  · cases h
  · split_ifs at h
    cases h
    rfl

variable {generation : HealthGeneration} {supervisor : HealthSupervisor}

theorem HealthSupervisor.activate_keys (h : activate snapshot generation = .ok supervisor) :
    ∃ pairs, supervisor = ⟨snapshot.revisionId, generation, .ofPairs pairs⟩ ∧
      pairs.map Prod.fst = snapshot.upstreamKeys := by
  obtain ⟨pairs, hpairs, h⟩ := bind_eq_ok.mp h
  refine ⟨pairs, (Except.ok.inj h).symm, ?_⟩
  have hkeys := map_of_mapM_ok (p := Prod.fst)
    (q := fun x : Service × Upstream => (⟨x.1.id, x.2.id⟩ : UpstreamHealthKey))
    (fun _ _ h => entry_key h) hpairs
  rw [hkeys, ConfigSnapshot.upstreamKeys, map_flatMap]
  simp [Function.comp_def]

/-- What the core sees of a supervisor. -/
structure HealthSupervisor.Covers (supervisor : HealthSupervisor) (snapshot : ConfigSnapshot)
    (generation : HealthGeneration) : Prop where
  revision : supervisor.availabilitySnapshot.revisionId = snapshot.revisionId
  generation : supervisor.availabilitySnapshot.generation = generation
  keys : ∃ pairs : List (UpstreamHealthKey × HealthEntry),
    supervisor.availabilitySnapshot.entries.keys = (Dictionary.ofPairs pairs).keys ∧
      pairs.map Prod.fst = snapshot.upstreamKeys

theorem HealthSupervisor.covers {previous : Option (Dictionary UpstreamHealthKey HealthEntry)}
    (h : activateReconciled snapshot generation previous = .ok supervisor) :
    supervisor.Covers snapshot generation := by
  obtain ⟨_, hactivate, h⟩ := bind_eq_ok.mp h
  obtain ⟨pairs, rfl, hkeys⟩ := activate_keys hactivate
  rcases previous with _ | previous
  · cases h
    exact ⟨rfl, rfl, pairs, Dictionary.keys_mapValues _ _, hkeys⟩
  · cases h
    refine ⟨rfl, rfl, pairs, ?_, hkeys⟩
    rw [availabilitySnapshot, Dictionary.keys_mapValues, Dictionary.keys_mapValues]

theorem HealthSupervisor.Covers.mem_entries (h : supervisor.Covers snapshot generation)
    {key : UpstreamHealthKey} :
    key ∈ supervisor.availabilitySnapshot.entries ↔ key ∈ snapshot.upstreamKeys := by
  obtain ⟨_, hentries, hpairs⟩ := h.keys
  rw [AList.mem_keys, hentries, ← AList.mem_keys, Dictionary.mem_ofPairs, hpairs]

theorem HealthSupervisor.Covers.count_iff (h : supervisor.Covers snapshot generation) :
    supervisor.availabilitySnapshot.entries.keys.length =
      (snapshot.services.map (·.upstreams.length)).sum ↔ snapshot.upstreamKeys.Nodup := by
  obtain ⟨_, hentries, hpairs⟩ := h.keys
  rw [hentries, ← upstreamKeys_length, ← hpairs, length_map, Dictionary.length_keys_ofPairs_eq]

theorem HealthSupervisor.activateReconciled_valid (generation : HealthGeneration)
    (previous : Option (Dictionary UpstreamHealthKey HealthEntry))
    (hvalid : ∀ service ∈ snapshot.services, ValidUpstreams [] service.upstreams) :
    ∃ supervisor, activateReconciled snapshot generation previous = .ok supervisor := by
  obtain ⟨pairs, hpairs⟩ : ∃ pairs, (snapshot.services.flatMap fun service =>
      service.upstreams.map fun upstream => (service, upstream)).mapM
        (fun (service, upstream) => entry service upstream) = .ok pairs := by
    refine exists_mapM_ok_iff.mpr ?_
    rintro ⟨service, upstream⟩ hmem
    obtain ⟨_, hservice, hmem⟩ := mem_flatMap.mp hmem
    obtain ⟨_, hupstream, heq⟩ := mem_map.mp hmem
    cases heq
    obtain ⟨_, hparse, hmatches⟩ := (hvalid service hservice).parses upstream hupstream
    simp [entry, hparse, hmatches]
  rw [activateReconciled, activate, hpairs, ok_bind]
  rcases previous with _ | previous
  · exact ⟨_, rfl⟩
  · exact ⟨_, rfl⟩

def RuntimeUpstreamSelector.Takes (selector : RuntimeUpstreamSelector)
    (current next : ConfigSnapshot) (availability : HealthAvailabilitySnapshot) : Prop :=
  ∃ reconciled statuses selector', selector.reconcile current next = .ok (reconciled, statuses) ∧
    reconciled.applyAvailability next availability = .ok selector'

theorem RuntimeUpstreamSelector.takes_iff {selector : RuntimeUpstreamSelector}
    {current next : ConfigSnapshot} {availability : HealthAvailabilitySnapshot} :
    selector.Takes current next availability ↔
      next.EndpointsParse ∧ AvailabilityFits current next selector availability := by
  rcases reconcile_cases current next selector with
    ⟨hparse, error, hreconcile⟩ | ⟨hparse, reconciled, statuses, hreconcile, -, hreconciled⟩
  · simp [Takes, hreconcile, hparse]
  · simp only [Takes, hreconcile, hparse, true_and, ← hreconciled.applies_iff]
    constructor
    · rintro ⟨_, _, selector', heq, happly⟩
      cases heq
      exact ⟨selector', happly⟩
    · rintro ⟨selector', happly⟩
      exact ⟨_, _, selector', rfl, happly⟩

/-- The health runtime prepares an availability for every configuration that the validator accepts.
The core takes it exactly if no upstream id is repeated under one service id, and the availability
is not older than the one that the core has for the same revision. -/
theorem validated_configuration_runs_iff (validator : ConfigValidator)
    (selector : RuntimeUpstreamSelector) (current next : ConfigSnapshot)
    (hvalid : validator.validateSnapshot next = []) (generation : HealthGeneration)
    (previous : Option (Dictionary UpstreamHealthKey HealthEntry)) :
    ∃ supervisor, HealthSupervisor.activateReconciled next generation previous = .ok supervisor ∧
      (selector.Takes current next supervisor.availabilitySnapshot ↔
        next.KeysDistinct ∧ (current.revisionId = next.revisionId →
          ∀ used ∈ selector.availabilityGeneration, used ≤ generation)) := by
  have hservices : ∀ service ∈ next.services, ValidUpstreams [] service.upstreams :=
    fun _ hservice => validUpstreams_of_valid hvalid hservice
  obtain ⟨supervisor, hactivate⟩ :=
    HealthSupervisor.activateReconciled_valid generation previous hservices
  have hcovers := HealthSupervisor.covers hactivate
  refine ⟨supervisor, hactivate, ?_⟩
  have hparse : next.EndpointsParse := by
    intro keyed hkeyed
    obtain ⟨service, hservice, hmem⟩ := mem_flatMap.mp hkeyed
    obtain ⟨upstream, hupstream, rfl⟩ := mem_map.mp hmem
    obtain ⟨endpoint, hendpoint, -⟩ := (hservices service hservice).parses upstream hupstream
    exact ⟨endpoint, hendpoint⟩
  have hkeys : ∀ keyed ∈ next.keyedUpstreams,
      keyed.1 ∈ supervisor.availabilitySnapshot.entries := by
    intro keyed hkeyed
    rw [hcovers.mem_entries, ← keyedUpstreams_fst]
    exact mem_map_of_mem hkeyed
  have hcount : supervisor.availabilitySnapshot.entries.keys.length =
      (next.services.map (·.upstreams.length)).sum ↔ next.KeysDistinct := by
    rw [hcovers.count_iff, upstreamKeys_nodup_iff hservices]
  rw [RuntimeUpstreamSelector.takes_iff, and_iff_right hparse]
  constructor
  · intro h
    exact ⟨hcount.mp h.count, hcovers.generation ▸ h.fresh⟩
  · rintro ⟨hdistinct, hfresh⟩
    exact ⟨hcovers.revision, hcovers.generation.symm ▸ hfresh, hcount.mpr hdistinct, hkeys⟩

def localService (id : Text) : Service where
  id := id
  upstreams := [⟨"main".toList, "http://127.0.0.1:3000".toList, .active, .disabled⟩]
  policy := {}

def snapshotOf (services : List Service) : ConfigSnapshot :=
  { seedSnapshot "next".toList with services }

theorem validated_configuration_runs :
    let next := snapshotOf [localService "web".toList, localService "api".toList]
    ∃ supervisor, HealthSupervisor.activateReconciled next 1 none = .ok supervisor ∧
      observedCore.upstreamSelector.Takes observedCore.snapshot next
        supervisor.availabilitySnapshot := by
  intro next
  obtain ⟨supervisor, hactivate, htakes⟩ := validated_configuration_runs_iff {}
    observedCore.upstreamSelector observedCore.snapshot next (by decide) 1 none
  exact ⟨supervisor, hactivate, htakes.mpr
    ⟨by simp [next, snapshotOf, localService, ConfigSnapshot.KeysDistinct], by decide⟩⟩

/-- The validator does not compare the ids of services: a configuration with the same service twice
is accepted, and the core refuses it with the availability that was prepared for it. -/
theorem repeated_service_refused :
    ConfigValidator.validateSnapshot {}
        (snapshotOf [localService "web".toList, localService "web".toList]) = [] ∧
      ((HealthSupervisor.activateReconciled
          (snapshotOf [localService "web".toList, localService "web".toList]) 1 none).map
        fun supervisor => (observedCore.activateSnapshot
          (snapshotOf [localService "web".toList, localService "web".toList])
          supervisor.availabilitySnapshot).1) =
      .ok (.rejected
        (runtimeAvailabilityError "availability keys do not match active config")) := by
  decide

end Runs

end EdgeProxy

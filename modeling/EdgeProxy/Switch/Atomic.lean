import EdgeProxy.Switch.Mirror
import EdgeProxy.Switch.Sessions

/-! # A switch is all or nothing

The core, its session factories, the health runtime and the copies that the client keeps belong to
one configuration. A command that is rejected leaves them with the configuration they had, also
when the core had already switched and had to be switched back; one that is accepted leaves them
with the new one. The way back is refused by the core's queue only: the core itself always takes it.
-/

namespace EdgeProxy

open Rust Action List

section Belonging

variable {env : SwitchEnv} {config : ConfigSnapshot} {tls : Option TlsRuntimeSnapshot}
  {s s' : MirroredRuntime}

def SwitchCommand.next (config : ConfigSnapshot) : SwitchCommand → ConfigSnapshot
  | .applyConfigSnapshot snapshot => snapshot
  | .installCertificate _ => config

namespace MirroredRuntime

def Supervises (config : ConfigSnapshot) (registry : ClientRegistry)
    (controller : HealthRuntimeController) : Prop :=
  ∃ active ∈ controller.active, active.snapshot = config ∧
    active.supervisor.revisionId = config.revisionId ∧ active.tlsRegistry = registry

structure Serves (s : MirroredRuntime) : Prop where
  tlsInstall : ∃ install ∈ s.tlsInstall, install.trustBundles = true
  installer : s.runtimeTlsInstaller = true
  health : ∃ controller, s.healthRuntime = some controller

structure Belongs (config : ConfigSnapshot) (tls : Option TlsRuntimeSnapshot)
    (s : MirroredRuntime) : Prop where
  serves : s.Serves
  mirror : s.snapshot = config
  kept : s.currentTls = tls
  certificates : tls.isSome = true → httpsListeners config ≠ []
  active : s.core.snapshot = config
  availability : ∃ availability : HealthAvailabilitySnapshot,
    availability.revisionId = config.revisionId ∧
      (∀ key, key ∈ availability.entries ↔ key ∈ config.upstreamKeys) ∧
      s.core.upstreamSelector.HasAvailability availability
  sessions : ∃ generation registry, generationOf config tls = .ok generation ∧
    generation.serverRegistry = .ok registry ∧ s.core.Installed registry ∧
      s.core.clientTlsRegistry = generation.requestRegistry ∧
      ∃ controller ∈ s.healthRuntime, Supervises config generation.healthRegistry controller

/-- Nothing has changed but the statuses published and the generations used up. -/
structure SameRun (s s' : MirroredRuntime) : Prop where
  snapshot : s'.snapshot = s.snapshot
  tlsInstall : s'.tlsInstall = s.tlsInstall
  installer : s'.runtimeTlsInstaller = s.runtimeTlsInstaller
  core : ∃ statuses, s'.core = s.core.publish statuses
  health : ∀ controller ∈ s.healthRuntime, ∃ generations,
    s'.healthRuntime = some { controller with generations }

theorem SameRun.refl (s : MirroredRuntime) : SameRun s s where
  snapshot := rfl
  tlsInstall := rfl
  installer := rfl
  core := ⟨[], by simp [CoreRuntime.publish]⟩
  health := fun controller h => ⟨controller.generations, h⟩

theorem Belongs.sameRun (h : s.Belongs config tls) (hsame : SameRun s s') :
    s'.Belongs config tls := by
  obtain ⟨_, hcore⟩ := hsame.core
  refine ⟨⟨?_, hsame.installer.trans h.serves.installer, ?_⟩, hsame.snapshot.trans h.mirror, ?_,
    h.certificates, ?_, ?_, ?_⟩
  · rw [hsame.tlsInstall]
    exact h.serves.tlsInstall
  · obtain ⟨controller, hcontroller⟩ := h.serves.health
    obtain ⟨generations, hsame'⟩ := hsame.health controller hcontroller
    exact ⟨_, hsame'⟩
  · rw [currentTls, hsame.tlsInstall]
    exact h.kept
  · rw [hcore]
    exact h.active
  · rw [hcore]
    exact h.availability
  · obtain ⟨generation, registry, hgeneration, hregistry, hinstalled, hclient, controller,
      hcontroller, hhealth⟩ := h.sessions
    obtain ⟨_, hsame'⟩ := hsame.health controller hcontroller
    refine ⟨generation, registry, hgeneration, hregistry, ?_, ?_, _, hsame', hhealth⟩
    · rw [hcore]
      exact ⟨hinstalled.count, hinstalled.factories⟩
    · rw [hcore]
      exact hclient

variable {controller : HealthRuntimeController}

section Preparing

variable {attempt : ℕ} {generation : PreparedTlsRuntimeGeneration}

theorem holds_result {α : Type} {P : MirroredRuntime → Prop} (x : Except AppError α) :
    Holds P (result x) (fun a t => x = .ok a ∧ P t) (fun _ t => P t) := by
  intro t ht
  rcases x with error | a
  · exact ht
  · exact ⟨rfl, ht⟩

theorem Serves.prepareGeneration_ok (h : s.Serves) {prepared : Option PreparedTlsRuntimeGeneration}
    (hprepared : s.prepareGeneration env attempt config tls = .ok prepared) :
    ∃ generation, prepared = some generation ∧ generationOf config tls = .ok generation := by
  obtain ⟨_, hinstall, htrust⟩ := h.tlsInstall
  rw [prepareGeneration, Option.mem_def.mp hinstall, Option.any_some, htrust, if_pos rfl]
    at hprepared
  obtain ⟨_, hlisteners, hprepared⟩ := bind_eq_ok.mp hprepared
  obtain ⟨generation, hgeneration, hprepared⟩ := bind_eq_ok.mp hprepared
  refine ⟨generation, (Except.ok.inj hprepared).symm, ?_⟩
  rw [generationOf, hlisteners, ok_bind]
  exact prepareTlsRuntimeGeneration_reliable hgeneration

structure Prepares (config : ConfigSnapshot) (used : HealthGeneration) (registry : ClientRegistry)
    (health : HealthRuntime) : Prop where
  snapshot : health.snapshot = config
  covers : health.supervisor.Covers config used
  registry : health.tlsRegistry = registry

theorem prepareWithTlsRegistry_cases (env : SwitchEnv) (attempt : ℕ) (config : ConfigSnapshot)
    (registry : ClientRegistry) (controller : HealthRuntimeController) :
    ∃ prepared generations, controller.prepareWithTlsRegistry env attempt config registry =
        (prepared, { controller with generations }) ∧
      ∀ health, prepared = .ok health → ∃ used, controller.generations = some used ∧
        generations = HealthRuntimeController.nextGeneration used ∧
        Prepares config used registry health := by
  rw [HealthRuntimeController.prepareWithTlsRegistry]
  rcases controller with ⟨_ | used, _, _⟩
  · exact ⟨.error generationsExhausted, none, rfl, nofun⟩
  · simp only
    split
    · exact ⟨_, _, rfl, nofun⟩
    · exact ⟨_, _, rfl, nofun⟩
    · next supervisor hactivate _ =>
      refine ⟨_, _, rfl, fun health hhealth => ⟨used, rfl, rfl, ?_⟩⟩
      cases hhealth
      exact ⟨rfl, HealthSupervisor.covers hactivate, rfl⟩

def usedUp (s : MirroredRuntime) (controller : HealthRuntimeController)
    (generations : Option HealthGeneration) : MirroredRuntime :=
  { s with healthRuntime := some { controller with generations } }

theorem sameRun_usedUp
    (hcontroller : s.healthRuntime = some controller) (generations : Option HealthGeneration) :
    SameRun s (s.usedUp controller generations) where
  snapshot := rfl
  tlsInstall := rfl
  installer := rfl
  core := (SameRun.refl s).core
  health := fun other hother => by
    obtain rfl : controller = other := Option.some.inj (hcontroller.symm.trans hother)
    exact ⟨generations, rfl⟩

theorem holds_prepareHealth (s : MirroredRuntime) (controller : HealthRuntimeController)
    (generations : Option HealthGeneration) :
    Holds (fun t => t = s.usedUp controller generations)
      (prepareHealth env attempt config (some generation))
      (fun prepared t => ∃ health used, (prepared = some health ∧ generations = some used ∧
        Prepares config used generation.healthRegistry health) ∧
        t = s.usedUp controller (HealthRuntimeController.nextGeneration used))
      (fun _ t => ∃ generations, t = s.usedUp controller generations) := by
  apply holds_of_ends
  rintro _ rfl
  obtain ⟨prepared, generations', hprepare, hok⟩ := prepareWithTlsRegistry_cases env attempt config
    generation.healthRegistry { controller with generations }
  simp only [prepareHealth, usedUp, Option.map_some, Option.getD_some, hprepare]
  rcases prepared with error | health
  · exact ⟨generations', rfl⟩
  · obtain ⟨used, hused, rfl, hprepares⟩ := hok health rfl
    exact ⟨health, used, ⟨rfl, hused, hprepares⟩, rfl⟩

structure Parts where
  tls : Option TlsRuntimeSnapshot
  generation : PreparedTlsRuntimeGeneration
  rollback : PreparedTlsRuntimeGeneration
  health : HealthRuntime
  rollbackHealth : HealthRuntime

def Parts.prepared (parts : Parts) : Prepared :=
  ⟨parts.tls, some parts.generation, some parts.rollback, some parts.health,
    some parts.rollbackHealth⟩

structure Ready (env : SwitchEnv) (snapshot : ConfigSnapshot) (s : MirroredRuntime)
    (parts : Parts) : Prop where
  tls : s.nextTls env (.applyConfigSnapshot snapshot) = .ok parts.tls
  generation : generationOf snapshot parts.tls = .ok parts.generation
  rollback : generationOf s.snapshot s.currentTls = .ok parts.rollback
  health : ∃ used, Prepares snapshot used parts.generation.healthRegistry parts.health ∧
    Prepares s.snapshot (used + 1) parts.rollback.healthRegistry parts.rollbackHealth

theorem Serves.holds_prepareApply (h : s.Serves)
    (hcontroller : s.healthRuntime = some controller) (env : SwitchEnv)
    (snapshot : ConfigSnapshot) :
    Holds (fun t => t = s) (prepareApply env snapshot)
      (fun prepared t => ∃ parts generations, (prepared = parts.prepared ∧
        Ready env snapshot s parts) ∧ t = s.usedUp controller generations)
      (fun _ t => ∃ generations, t = s.usedUp controller generations) := by
  have hstart : s = s.usedUp controller controller.generations := by
    rw [usedUp, ← hcontroller]
  apply holds_read_at
  have hkept (_ : AppError) (t : MirroredRuntime) (ht : t = s) :
      ∃ generations, t = s.usedUp controller generations := ⟨_, ht.trans hstart⟩
  refine ((holds_result _).weakenError hkept).bind fun tls => holds_of_fact fun htls => ?_
  refine ((holds_result _).weakenError hkept).bind fun _ =>
    holds_of_fact fun hprepared => ?_
  obtain ⟨generation, rfl, hgeneration⟩ := h.prepareGeneration_ok hprepared
  refine ((holds_result _).weakenError hkept).bind fun _ =>
    holds_of_fact fun hprepared => ?_
  rw [prepareRollback, Option.isSome_some, if_pos rfl] at hprepared
  obtain ⟨rollback, rfl, hrollback⟩ := h.prepareGeneration_ok hprepared
  refine ((holds_prepareHealth s controller controller.generations).pre
    fun t ht => ht.trans hstart).bind fun health? => ?_
  refine holds_of_exists fun health => holds_of_exists fun used =>
    holds_of_fact fun ⟨hprepared, _, hhealth⟩ => ?_
  rw [prepareRollbackHealth, Option.isSome_some, if_pos rfl]
  refine (holds_prepareHealth s controller _).bind fun rollbackHealth? => ?_
  refine holds_of_exists fun rollbackHealth => holds_of_exists fun used' =>
    holds_of_fact fun ⟨hprepared', hused', hback⟩ => holds_pure fun t ht => ?_
  obtain rfl : used + 1 = used' := by
    rw [HealthRuntimeController.nextGeneration] at hused'
    split_ifs at hused'
    exact Option.some.inj hused'
  refine ⟨⟨tls, generation, rollback, health, rollbackHealth⟩, _, ⟨?_, htls, hgeneration, hrollback,
    used, hhealth, hback⟩, ht⟩
  rw [hprepared, hprepared']
  rfl

end Preparing

section Switching

variable {attempt : ℕ} {generation : PreparedTlsRuntimeGeneration} {health : HealthRuntime}
  {used : HealthGeneration} {registry : PreparedServerTlsRegistry ServerTlsFactory}
  {core core' : CoreRuntime ServerTlsFactory ClientTlsFactory}

def activation (config : ConfigSnapshot) (health : HealthRuntime)
    (generation : PreparedTlsRuntimeGeneration)
    (registry : PreparedServerTlsRegistry ServerTlsFactory) :
    ActivationCommand ServerTlsFactory ClientTlsFactory :=
  .activateRuntimeGeneration config health.supervisor.availabilitySnapshot registry
    generation.requestRegistry

theorem activation_fits (hgeneration : generationOf config tls = .ok generation)
    (hhealth : Prepares config used generation.healthRegistry health)
    (hfresh : ∀ generation ∈ core.upstreamSelector.availabilityGeneration, generation ≤ used)
    (hcount : registry.keys.length = core.tlsListenerCount)
    (haddresses : ∀ listener ∈ core.listeners, listener.tlsSessionFactory.isSome = true →
      ∃ address ∈ listener.localAddr, address ∈ registry) :
    (activation config health generation registry).Reconciles core ∧
      (activation config health generation registry).Fits core := by
  obtain ⟨requirements, hplan, hrequest, -⟩ := (generationFits hgeneration).upstreams
  obtain ⟨hparse, hnodup, hkeys⟩ := upstreamsPlanned hplan
  refine ⟨⟨hparse, trivial⟩, ⟨hhealth.covers.revision, fun _ => ?_,
    hhealth.covers.count_iff.mpr hnodup, fun keyed hkeyed => ?_⟩, ⟨fun key hkey => ?_, ?_⟩,
    hcount, haddresses⟩
  · change ∀ generation ∈ core.upstreamSelector.availabilityGeneration,
      generation ≤ health.supervisor.availabilitySnapshot.generation
    rw [hhealth.covers.generation]
    exact hfresh
  · refine hhealth.covers.mem_entries.mpr ?_
    rw [← keyedUpstreams_fst]
    exact mem_map_of_mem hkeyed
  · rw [hrequest, Dictionary.mem_ofPairs]
    exact hkeys.mem_iff.mpr hkey
  · have hnodup' : (requirements.map Prod.fst).Nodup := by
      refine hkeys.nodup_iff.mpr ?_
      rw [ConfigSnapshot.tlsUpstreams]
      refine List.Nodup.sublist (filter_sublist.map _) ?_
      rwa [keyedUpstreams_fst]
    rw [hrequest, Dictionary.length_keys_ofPairs_eq.mpr hnodup', ← hkeys.length_eq, length_map]

structure Switched (config : ConfigSnapshot) (health : HealthRuntime)
    (generation : PreparedTlsRuntimeGeneration)
    (registry : PreparedServerTlsRegistry ServerTlsFactory)
    (core core' : CoreRuntime ServerTlsFactory ClientTlsFactory) : Prop where
  snapshot : core'.snapshot = config
  availability : core'.upstreamSelector.HasAvailability health.supervisor.availabilitySnapshot
  client : core'.clientTlsRegistry = generation.requestRegistry
  installed : core'.Installed registry
  places : core.SamePlaces core'

theorem holds_activateGeneration (env : SwitchEnv) (attempt : ℕ) (config : ConfigSnapshot)
    (health : HealthRuntime) (generation : PreparedTlsRuntimeGeneration) (s : MirroredRuntime) :
    Holds (fun t => t = s)
      (activateGeneration env attempt config health.supervisor.availabilitySnapshot generation)
      (fun _ t => ∃ registry core', (generation.serverRegistry = .ok registry ∧
        Switched config health generation registry s.core core') ∧ t = { s with core := core' })
      (fun _ t => (∃ statuses, t = { s with core := s.core.publish statuses }) ∧
        (env.queueRejects attempt = none → ∀ registry, generation.serverRegistry = .ok registry →
          ¬((activation config health generation registry).Reconciles s.core ∧
            (activation config health generation registry).Fits s.core))) := by
  have hunchanged : s = { s with core := s.core.publish [] } := by simp [CoreRuntime.publish]
  apply holds_of_ends
  intro t ht
  obtain rfl := ht.symm
  rw [activateGeneration]
  rcases hregistry : generation.serverRegistry with error | registry
  · exact ⟨⟨[], hunchanged⟩, by rintro - _ ⟨⟩⟩
  · change Ends _ _
      (coreCommand env attempt (activation config health generation registry).run s)
    rw [coreCommand]
    rcases hqueue : env.queueRejects attempt with _ | error
    · simp only
      have hran := (activation config health generation registry).ran s.core
      generalize (activation config health generation registry).run s.core = outcome at hran
      cases hran with
      | unreconciled _ h =>
        refine ⟨⟨[], hunchanged⟩, fun _ registry' hregistry' hok => h ?_⟩
        rw [Except.ok.inj hregistry']
        exact hok.1
      | unfit _ statuses _ hfits =>
        refine ⟨⟨statuses, rfl⟩, fun _ registry' hregistry' hok => hfits ?_⟩
        rw [Except.ok.inj hregistry']
        exact hok.2
      | accepted core' _ hfits hactivated =>
        obtain ⟨hclient, _, hfactories, hlisteners⟩ := hactivated.sessions
        obtain ⟨hinstalled, hplaces⟩ :=
          CoreRuntime.installed_of_factories hfits.2.2.1 hfactories hlisteners
        exact ⟨registry, core', ⟨rfl, hactivated.snapshot, hactivated.availability, hclient,
          hinstalled, hplaces⟩, rfl⟩
    · exact ⟨⟨[], hunchanged⟩, by rintro ⟨⟩⟩

theorem commit_eq (h : s.healthRuntime = some controller) :
    commit env attempt health (some generation) s =
      match env.healthCommitFails attempt with
      | some error => (.error error, s)
      | none => (.ok ⟨⟩, { s with healthRuntime := some { controller with
          active := some health
          tlsRegistry := generation.healthRegistry } }) := by
  simp only [commit, h, HealthRuntimeController.commitWithTlsRegistry, Option.map_some,
    Option.getD_some]
  rcases env.healthCommitFails attempt with _ | error
  · rfl
  · simp only
    rw [← h]

theorem Switched.belongs (h : Switched config health generation registry core s.core)
    (hserves : s.Serves) (hgeneration : generationOf config tls = .ok generation)
    (hregistry : generation.serverRegistry = .ok registry)
    (hhealth : Prepares config used generation.healthRegistry health)
    (hcontroller : ∃ controller ∈ s.healthRuntime, controller.active = some health)
    (hmirror : s.snapshot = config) (htls : s.currentTls = tls)
    (hcertificates : tls.isSome = true → httpsListeners config ≠ []) : s.Belongs config tls where
  serves := hserves
  mirror := hmirror
  kept := htls
  certificates := hcertificates
  active := h.snapshot
  availability := ⟨_, hhealth.covers.revision, fun _ => hhealth.covers.mem_entries, h.availability⟩
  sessions := by
    obtain ⟨controller, hmem, hactive⟩ := hcontroller
    exact ⟨generation, registry, hgeneration, hregistry, h.installed, h.client, controller, hmem,
      health, hactive, hhealth.snapshot, hhealth.covers.revision, hhealth.registry⟩

variable {snapshot : ConfigSnapshot} {parts : Parts} {controller : HealthRuntimeController}
  {generations : Option HealthGeneration}

section Ready

variable (h : Ready env snapshot s parts) (hbelongs : s.Belongs config tls)
  (hswitched : Switched snapshot parts.health parts.generation registry s.core core)

include h hbelongs hswitched

theorem Ready.rollback_fits :
    ∃ registry, parts.rollback.serverRegistry = .ok registry ∧
      (activation s.snapshot parts.rollbackHealth parts.rollback registry).Reconciles core ∧
      (activation s.snapshot parts.rollbackHealth parts.rollback registry).Fits core := by
  obtain ⟨used, hhealth, hback⟩ := h.health
  obtain ⟨generation, registry', hgeneration, hregistry, hinstalled, -⟩ := hbelongs.sessions
  obtain rfl : parts.rollback = generation := by
    have hrollback := h.rollback
    rw [hbelongs.mirror, hbelongs.kept, hgeneration] at hrollback
    exact (Except.ok.inj hrollback).symm
  refine ⟨registry', hregistry, activation_fits h.rollback hback (fun generation hmem => ?_) ?_ ?_⟩
  · rw [hswitched.availability.2, hhealth.covers.generation] at hmem
    cases hmem
    exact Nat.le_succ used
  · exact hinstalled.count.trans hswitched.places.count.symm
  · exact hinstalled.addresses hswitched.places

variable (hqueue : env.queueRejects 1 = none) (hcommit : env.healthCommitFails 1 = none)

include hqueue hcommit

theorem Ready.holds_compensate :
    Holds (fun t => t = { s.usedUp controller generations with core })
      (compensate env s.snapshot parts.prepared) (fun _ t => t.Belongs config tls)
      (fun _ _ => False) := by
  obtain ⟨registry', hregistry', hfits⟩ := h.rollback_fits hbelongs hswitched
  obtain ⟨_, -, hback⟩ := h.health
  apply holds_read_at
  simp only [usedUp, hbelongs.serves.installer, Parts.prepared]
  refine (holds_attempt (holds_activateGeneration env 1 _ _ _ _)).bind fun outcome => ?_
  rcases outcome with error | _
  · refine fun t ⟨_, hrefused⟩ => hrefused hqueue registry' hregistry' hfits
  · refine holds_of_exists fun registry'' => holds_of_exists fun core' =>
      holds_of_fact fun ⟨hregistry'', hback'⟩ => ?_
    apply holds_of_ends
    rintro _ rfl
    simp only [bind_apply, attempt_apply]
    rw [commit_eq rfl, hcommit]
    obtain rfl := hbelongs.mirror
    obtain rfl := hbelongs.kept
    exact hback'.belongs ⟨hbelongs.serves.tlsInstall, rfl, _, rfl⟩ h.rollback hregistry'' hback
      ⟨_, rfl, rfl⟩ rfl rfl hbelongs.certificates

theorem Ready.holds_commitHealth :
    Holds (fun t => t = { s.usedUp controller generations with core })
      (commitHealth env s.snapshot parts.prepared)
      (fun _ t => ∃ next ∈ t.healthRuntime, next.active = some parts.health ∧
        t = { s with core, healthRuntime := some next })
      (fun _ t => t.Belongs config tls) := by
  have hfollows : Holds (fun t => t = { s.usedUp controller generations with core })
      (commit env 0 parts.health (some parts.generation))
      (fun _ t => ∃ next ∈ t.healthRuntime, next.active = some parts.health ∧
        t = { s with core, healthRuntime := some next })
      (fun _ t => t = { s.usedUp controller generations with core }) := by
    apply holds_of_ends
    rintro _ rfl
    rw [commit_eq rfl]
    rcases env.healthCommitFails 0 with _ | error
    · exact ⟨_, rfl, rfl, rfl⟩
    · rfl
  rw [commitHealth, Parts.prepared]
  refine (holds_attempt hfollows).bind fun outcome => ?_
  rcases outcome with error | _
  · refine Holds.bind ?_ fun _ => holds_fail fun _ => id
    exact (h.holds_compensate hbelongs hswitched hqueue hcommit).weakenError
      fun _ _ => False.elim
  · exact holds_pure fun _ => id

end Ready

variable {next : Option TlsRuntimeSnapshot} {config? : Option ConfigSnapshot}

theorem nextTls_apply_cases (h : s.nextTls env (.applyConfigSnapshot snapshot) = .ok next) :
    s.currentTls = none ∧ next = none ∨
      s.currentTls.isSome = true ∧ next = none ∧ httpsListeners snapshot = [] ∨
      s.currentTls.isSome = true ∧ next.isSome = true ∧ httpsListeners snapshot ≠ [] := by
  rw [nextTls] at h
  split_ifs at h with hsome
  · rw [prepareTlsRuntimeSnapshotForSnapshot] at h
    split_ifs at h with hlisteners hrefs
    · cases h
      exact .inr (.inl ⟨hsome, rfl, isEmpty_iff.mp hlisteners⟩)
    · obtain ⟨_, -, h⟩ := bind_eq_ok.mp h
      obtain ⟨_, -, h⟩ := bind_eq_ok.mp h
      cases h
      exact .inr (.inr ⟨hsome, rfl, fun hempty => hlisteners (isEmpty_iff.mpr hempty)⟩)
  · cases h
    exact .inl ⟨by simpa using hsome, rfl⟩

theorem Belongs.tls_of_switched (hbelongs : s.Belongs config tls)
    (hnext : s.nextTls env (.applyConfigSnapshot snapshot) = .ok next)
    (hgeneration : generationOf snapshot next = .ok generation)
    (hregistry : generation.serverRegistry = .ok registry)
    (hcount : registry.keys.length = s.core.tlsListenerCount) :
    (next.isSome = true ↔ s.currentTls.isSome = true) ∧
      (next.isSome = true → httpsListeners snapshot ≠ []) := by
  rcases nextTls_apply_cases hnext with ⟨hnone, rfl⟩ | ⟨hsome, rfl, hempty⟩ | ⟨hsome, hnext, hne⟩
  · simp [hnone]
  · exfalso
    obtain ⟨_, _, hgeneration', hregistry', hinstalled, -⟩ := hbelongs.sessions
    rw [hbelongs.kept] at hsome
    have hlength : (httpsListeners config).length = (httpsListeners snapshot).length := by
      rw [← (generationFits hgeneration').listeners, ← serverRegistry_length hregistry',
        hinstalled.count, ← hcount, serverRegistry_length hregistry,
        (generationFits hgeneration).listeners]
    rw [hempty, length_nil, length_eq_zero_iff] at hlength
    exact hbelongs.certificates hsome hlength
  · exact ⟨⟨fun _ => hsome, fun _ => hnext⟩, fun _ => hne⟩

theorem currentTls_mirror (h : next.isSome = true ↔ s.currentTls.isSome = true) :
    currentTls (mirror config? next s).2 = next := by
  rw [currentTls] at h
  simp only [mirror, modify_apply, currentTls]
  rcases hinstall : s.tlsInstall with _ | install
  · rw [hinstall] at h
    rcases next with _ | next
    · rfl
    · simp at h
  · rw [hinstall] at h
    simp only [Option.bind_some] at h
    simp only [Option.map_some, Option.bind_some]
    split_ifs with hboth
    · rfl
    · rcases next with _ | next
      · simpa using h
      · simp_all

theorem serves_mirror (h : s.Serves) : Serves (mirror config? next s).2 := by
  obtain ⟨_, hinstall, htrust⟩ := h.tlsInstall
  refine ⟨⟨_, Option.mem_map_of_mem _ hinstall, ?_⟩, h.installer, h.health⟩
  split_ifs
  · exact htrust
  · exact htrust

theorem Serves.holds_activate (hserves : s.Serves) (hcontroller : s.healthRuntime = some controller)
    (parts : Parts) (generations : Option HealthGeneration) :
    Holds (fun t => t = s.usedUp controller generations)
      (activate env snapshot parts.prepared)
      (fun combined t => ∃ registry core, (combined = true ∧
          parts.generation.serverRegistry = .ok registry ∧
          Switched snapshot parts.health parts.generation registry s.core core) ∧
        t = { s.usedUp controller generations with core })
      (fun _ t => SameRun s t) := by
  apply holds_read_at
  simp only [usedUp, hserves.installer, Parts.prepared, Option.map_some]
  refine ((holds_activateGeneration env 0 _ _ _ _).weakenError ?_).bind fun _ => ?_
  · rintro _ _ ⟨⟨statuses, rfl⟩, -⟩
    exact ⟨rfl, rfl, hserves.installer.symm, ⟨statuses, rfl⟩,
      (sameRun_usedUp hcontroller generations).health⟩
  · refine holds_pure fun t => ?_
    rintro ⟨registry, core, ⟨hregistry, hswitched⟩, rfl⟩
    exact ⟨registry, core, ⟨rfl, hregistry, hswitched⟩, rfl⟩

theorem Belongs.holds_apply (hbelongs : s.Belongs config tls) (snapshot : ConfigSnapshot)
    (hqueue : env.queueRejects 1 = none) (hcommit : env.healthCommitFails 1 = none) :
    Holds (fun t => t = s) (send env (.applyConfigSnapshot snapshot))
      (fun _ t => ∃ next, s.nextTls env (.applyConfigSnapshot snapshot) = .ok next ∧
        t.Belongs snapshot next)
      (fun _ t => t.Belongs config tls) := by
  obtain ⟨_, hcontroller⟩ := hbelongs.serves.health
  apply holds_read_at
  have hprepare := hbelongs.serves.holds_prepareApply hcontroller env snapshot
  refine (hprepare.weakenError ?_).bind fun prepared => ?_
  · rintro _ _ ⟨generations, rfl⟩
    exact hbelongs.sameRun (sameRun_usedUp hcontroller generations)
  refine holds_of_exists fun parts => holds_of_exists fun generations =>
    holds_of_fact fun ⟨hprepared, hready⟩ => ?_
  subst hprepared
  refine ((hbelongs.serves.holds_activate hcontroller parts generations).weakenError
    fun _ _ hsame => hbelongs.sameRun hsame).bind fun combined => ?_
  refine holds_of_exists fun registry => holds_of_exists fun core =>
    holds_of_fact fun ⟨hcombined, hregistry, hswitched⟩ => ?_
  subst hcombined
  refine (hready.holds_commitHealth hbelongs hswitched hqueue hcommit).bind fun _ => ?_
  refine holds_of_exists fun next => ?_
  -- the listeners have their factories, so only the copies are left
  apply holds_of_ends
  rintro _ ⟨hnext, hactive, rfl⟩
  obtain ⟨_, hhealth, -⟩ := hready.health
  obtain ⟨hiff, hcertificates⟩ := hbelongs.tls_of_switched hready.tls hready.generation hregistry
    (hswitched.installed.count.trans hswitched.places.count)
  refine ⟨parts.tls, hready.tls, ?_⟩
  exact hswitched.belongs
    (serves_mirror ⟨hbelongs.serves.tlsInstall, hbelongs.serves.installer, _, rfl⟩)
    hready.generation hregistry hhealth ⟨next, rfl, hactive⟩ rfl
    (currentTls_mirror (s := { s with core, healthRuntime := some next }) hiff) hcertificates

theorem nextTls_install_isSome {certificateRef : Text}
    (h : s.nextTls env (.installCertificate certificateRef) = .ok next) :
    next.isSome = true ↔ s.currentTls.isSome = true := by
  rcases hcurrent : s.currentTls with _ | current
  · simp only [nextTls, hcurrent] at h
    cases h
    rfl
  · simp only [nextTls, hcurrent] at h
    obtain ⟨_, -, h⟩ := bind_eq_ok.mp h
    split at h
    · cases h
      rfl
    · exact absurd h nofun

theorem Serves.holds_install (hserves : s.Serves) (generation : PreparedTlsRuntimeGeneration) :
    Holds (fun t => t = s) (install env (some generation))
      (fun combined t => ∃ registry core, (combined = true ∧
          generation.serverRegistry = .ok registry ∧ core.Installed registry ∧
          core = { s.core with listeners := core.listeners }) ∧
        t = { s with core })
      (fun _ t => t = s) := by
  apply holds_read_at
  refine Holds.ite (fun hmissing => ?_) fun _ => ?_
  · rw [hserves.installer] at hmissing
    cases hmissing
  refine (holds_result _).bind fun registry => holds_of_fact fun hregistry => ?_
  apply holds_of_ends
  intro t ht
  obtain rfl := ht.symm
  rw [bind_apply, coreCommand]
  rcases env.queueRejects 0 with _ | error
  · simp only [CoreRuntime.replaceTlsListenerRegistry]
    split_ifs with hcount
    · rfl
    · rcases hfactories : nextServerFactories registry s.core.listeners with error | factories
      · rfl
      · exact ⟨registry, _, ⟨rfl, hregistry,
          (CoreRuntime.installed_of_factories (not_not.mp hcount) hfactories rfl).1, rfl⟩, rfl⟩
  · rfl

theorem generationOf_registries {tls' : Option TlsRuntimeSnapshot}
    {generation' : PreparedTlsRuntimeGeneration} (h : generationOf config tls = .ok generation)
    (h' : generationOf config tls' = .ok generation') :
    generation'.requestRegistry = generation.requestRegistry ∧
      generation'.healthRegistry = generation.healthRegistry := by
  obtain ⟨requirements, hplan, hrequest, hhealth⟩ := (generationFits h).upstreams
  obtain ⟨requirements', hplan', hrequest', hhealth'⟩ := (generationFits h').upstreams
  obtain rfl : requirements = requirements' := Except.ok.inj (hplan.symm.trans hplan')
  exact ⟨hrequest'.trans hrequest.symm, hhealth'.trans hhealth.symm⟩

theorem Belongs.holds_installCertificate (hbelongs : s.Belongs config tls) (certificateRef : Text) :
    Holds (fun t => t = s) (send env (.installCertificate certificateRef))
      (fun _ t => ∃ next, s.nextTls env (.installCertificate certificateRef) = .ok next ∧
        t.Belongs config next)
      (fun _ t => t.Belongs config tls) := by
  have hkept (_ : AppError) (t : MirroredRuntime) (ht : t = s) : t.Belongs config tls :=
    ht ▸ hbelongs
  apply holds_read_at
  refine ((holds_result _).weakenError hkept).bind fun next =>
    holds_of_fact fun hnext => ?_
  refine ((holds_result _).weakenError hkept).bind fun _ =>
    holds_of_fact fun hprepared => ?_
  obtain ⟨generation, rfl, hgeneration⟩ := hbelongs.serves.prepareGeneration_ok hprepared
  refine ((hbelongs.serves.holds_install generation).weakenError hkept).bind fun combined => ?_
  refine holds_of_exists fun registry => holds_of_exists fun core =>
    holds_of_fact fun ⟨hcombined, hregistry, hinstalled, hcore⟩ => ?_
  subst hcombined
  apply holds_of_ends
  rintro _ rfl
  have hiff := nextTls_install_isSome hnext
  obtain rfl := hbelongs.mirror
  obtain rfl := hbelongs.kept
  obtain ⟨_, _, hgeneration', _, _, hclient, controller, hcontroller, hsupervises⟩ :=
    hbelongs.sessions
  obtain ⟨hrequest, hhealth⟩ := generationOf_registries hgeneration' hgeneration
  refine ⟨next, hnext, serves_mirror (s := { s with core }) ⟨hbelongs.serves.tlsInstall,
      hbelongs.serves.installer, hbelongs.serves.health⟩, rfl,
    currentTls_mirror (s := { s with core }) hiff,
    fun hsome => hbelongs.certificates (hiff.mp hsome), ?_, ?_, generation, registry, hgeneration,
    hregistry, hinstalled, ?_, controller, hcontroller, ?_⟩
  · change core.snapshot = s.snapshot
    rw [hcore]
    exact hbelongs.active
  · change ∃ availability : HealthAvailabilitySnapshot, _ ∧ _ ∧
      core.upstreamSelector.HasAvailability availability
    rw [hcore]
    exact hbelongs.availability
  · change core.clientTlsRegistry = _
    rw [hcore, hrequest]
    exact hclient
  · rwa [hhealth]

end Switching

theorem Belongs.ends (hbelongs : s.Belongs config tls) (hqueue : env.queueRejects 1 = none)
    (hcommit : env.healthCommitFails 1 = none) (command : SwitchCommand) :
    Ends
      (fun _ s' => ∃ next, s.nextTls env command = .ok next ∧ s'.Belongs (command.next config) next)
      (fun _ s' => s'.Belongs config tls) (send env command s) := by
  cases command with
  | applyConfigSnapshot snapshot => exact (hbelongs.holds_apply snapshot hqueue hcommit).ends rfl
  | installCertificate certificateRef =>
    exact (hbelongs.holds_installCertificate certificateRef).ends rfl

/-- A command that is rejected leaves everything with the configuration and the certificates it had;
one that is accepted leaves everything with the new ones. Any of the stores, the queue and the
health runtime may fail; only the way back is not refused. -/
theorem switch_atomic (env : SwitchEnv) (hqueue : env.queueRejects 1 = none)
    (hcommit : env.healthCommitFails 1 = none) (hbelongs : s.Belongs config tls)
    (command : SwitchCommand) :
    (∀ error s', send env command s = (.error error, s') → s'.Belongs config tls) ∧
      ∀ s', send env command s = (.ok ⟨⟩, s') →
        ∃ next, s.nextTls env command = .ok next ∧ s'.Belongs (command.next config) next := by
  have hends := hbelongs.ends hqueue hcommit command
  refine ⟨fun error s' hsent => ?_, fun s' hsent => ?_⟩
  · rwa [hsent] at hends
  · rwa [hsent] at hends

def sendAll (commands : List (SwitchEnv × SwitchCommand)) (s : MirroredRuntime) : MirroredRuntime :=
  commands.foldl (fun s sent => (send sent.1 sent.2 s).2) s

/-- After any commands, accepted or rejected, everything belongs to one configuration: the one it
started with or one of those sent. -/
theorem sendAll_belongs {commands : List (SwitchEnv × SwitchCommand)}
    (hback : ∀ sent ∈ commands, sent.1.queueRejects 1 = none ∧ sent.1.healthCommitFails 1 = none)
    (hbelongs : s.Belongs config tls) :
    ∃ config' tls', (sendAll commands s).Belongs config' tls' ∧
      (config' = config ∨ .applyConfigSnapshot config' ∈ commands.map Prod.snd) := by
  refine foldlRecOn (motive := fun s => ∃ config' tls', Belongs config' tls' s ∧
    (config' = config ∨ .applyConfigSnapshot config' ∈ commands.map Prod.snd)) commands _
    ⟨config, tls, hbelongs, .inl rfl⟩ ?_
  rintro s ⟨config', tls', hbelongs', horigin⟩ sent hsent
  have hends := hbelongs'.ends (hback sent hsent).1 (hback sent hsent).2 sent.2
  generalize send sent.1 sent.2 s = outcome at hends ⊢
  rcases outcome with ⟨_ | _, _⟩
  · exact ⟨config', tls', hends, horigin⟩
  · obtain ⟨next, -, hnext⟩ := hends
    refine ⟨_, next, hnext, ?_⟩
    rcases hcommand : sent.2 with snapshot | _
    · exact .inr (mem_map.mpr ⟨sent, hsent, hcommand⟩)
    · exact horigin

def servedRuntime : MirroredRuntime where
  snapshot := seedSnapshot "active".toList
  tlsInstall := some ⟨none, true⟩
  runtimeTlsInstaller := true
  healthRuntime := some {
    generations := some 2
    active := some ⟨seedSnapshot "active".toList, ⟨"active".toList, 1, ∅⟩, ∅⟩
    tlsRegistry := ∅ }
  core := {
    snapshot := seedSnapshot "active".toList
    listeners := []
    upstreamSelector := {
      sequences := ∅
      endpoints := ∅
      availability := ∅
      availabilityGeneration := some 1
      drainGeneration := 1
      drainTracker := .fromSnapshot (seedSnapshot "active".toList) 1
      drainSnapshot := seedSnapshot "active".toList
      runtimeStatusPublisher := true }
    clientTlsRegistry := ∅
    published := [] }

theorem servedRuntime_belongs : servedRuntime.Belongs (seedSnapshot "active".toList) none where
  serves := ⟨⟨_, rfl, rfl⟩, rfl, _, rfl⟩
  mirror := rfl
  kept := rfl
  certificates := by rintro ⟨⟩
  active := rfl
  availability := ⟨⟨"active".toList, 1, ∅⟩, rfl, by
    intro key
    simp [ConfigSnapshot.upstreamKeys, seedSnapshot], rfl, rfl⟩
  sessions := by
    refine ⟨⟨∅, ∅, []⟩, ∅, ?_, rfl, ⟨rfl, by rintro _ ⟨⟩⟩, rfl, _, rfl, _, rfl, rfl, rfl, rfl⟩
    have hplan : planUpstreamTlsPreparation (seedSnapshot "active".toList) = .ok [] := by
      simp [planUpstreamTlsPreparation, ConfigSnapshot.keyedUpstreams, seedSnapshot,
        tlsRequirements, Except.map]
    rw [generationOf]
    change prepareTlsRuntimeGeneration .reliable 0 (seedSnapshot "active".toList) [] none = _
    rw [prepareTlsRuntimeGeneration, hplan]
    rfl

/-- The health runtime cannot be started; the core has been switched and is switched back. -/
theorem switch_atomic_compensated :
    let env := { SwitchEnv.reliable with
      healthCommitFails := fun attempt => if attempt = 0 then some generationsExhausted else none }
    let sent := send env (.applyConfigSnapshot (seedSnapshot "next".toList)) servedRuntime
    sent.1 = .error generationsExhausted ∧
      sent.2.core.published.map (·.revisionId) = ["next".toList, "active".toList] ∧
      sent.2.Belongs (seedSnapshot "active".toList) none := by
  intro env sent
  have hrejected : sent.1 = .error generationsExhausted := by decide +kernel
  refine ⟨hrejected, by decide +kernel, ?_⟩
  exact (switch_atomic env rfl rfl servedRuntime_belongs _).1 _ _ (Prod.ext hrejected rfl)

theorem sendAll_belongs_one :
    let commands := [(SwitchEnv.reliable, .applyConfigSnapshot (seedSnapshot "next".toList))]
    ∃ config' tls', (sendAll commands servedRuntime).Belongs config' tls' ∧
      (config' = seedSnapshot "active".toList ∨
        .applyConfigSnapshot config' ∈ commands.map Prod.snd) :=
  sendAll_belongs (forall_mem_singleton.mpr ⟨rfl, rfl⟩) servedRuntime_belongs

end MirroredRuntime

end Belonging

end EdgeProxy

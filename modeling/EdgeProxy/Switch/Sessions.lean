import EdgeProxy.Switch.Generation

/-! # The session factories of a configuration

What is prepared depends on the stores only in whether it can be prepared. So every configuration
prescribes its session factories, and what the core is given fits the configuration it is given
with.
-/

namespace EdgeProxy

open Rust List AList Prod

section Generations

variable {env : SwitchEnv} {attempt : ℕ} {config : ConfigSnapshot}
  {tls : Option TlsRuntimeSnapshot} {generation : PreparedTlsRuntimeGeneration}

def SwitchEnv.reliable : SwitchEnv where
  certificate := fun _ => .ok none
  trustBundle := fun _ _ => .ok ()
  sniServerConfig := fun _ => .ok ()
  queueRejects := fun _ => none
  healthPrepareFails := fun _ => none
  healthCommitFails := fun _ => none

/-- The session factories that a configuration prescribes. -/
def generationOf (config : ConfigSnapshot) (tls : Option TlsRuntimeSnapshot) :
    Except AppError PreparedTlsRuntimeGeneration := do
  let listeners ← httpsListenerConfigs config
  prepareTlsRuntimeGeneration .reliable 0 config listeners tls

theorem prepareListener_reliable {snapshot : TlsRuntimeSnapshot}
    (listener : SocketAddr × ClientAuthPolicy) (p : SocketAddr × ServerTlsFactory)
    (h : prepareListener env attempt snapshot listener = .ok p) :
    prepareListener .reliable 0 snapshot listener = .ok p := by
  rcases listener with ⟨_, _ | _⟩
  · exact h
  · obtain ⟨_, -, h⟩ := bind_eq_ok.mp h
    exact h

theorem prepareHttpsListeners_reliable {listeners : List (SocketAddr × ClientAuthPolicy)}
    {prepared : List (SocketAddr × ServerTlsFactory)}
    (h : prepareHttpsListeners env attempt listeners tls = .ok prepared) :
    prepareHttpsListeners .reliable 0 listeners tls = .ok prepared := by
  unfold prepareHttpsListeners at h ⊢
  split_ifs at h ⊢
  · exact h
  · rcases tls with _ | snapshot
    · exact h
    · obtain ⟨_, -, h⟩ := bind_eq_ok.mp h
      exact mapM_ok_of_imp prepareListener_reliable h

theorem forM_ok {α ε : Type} (l : List α) :
    (l.forM fun _ => (.ok () : Except ε Unit)) = .ok () := by
  induction l with
  | nil => rfl
  | cons _ _ ih => exact ih

theorem prepareTlsRuntimeGeneration_reliable {listeners : List (SocketAddr × ClientAuthPolicy)}
    (h : prepareTlsRuntimeGeneration env attempt config listeners tls = .ok generation) :
    prepareTlsRuntimeGeneration .reliable 0 config listeners tls = .ok generation := by
  obtain ⟨requirements, hplan, h⟩ := bind_eq_ok.mp h
  obtain ⟨_, -, h⟩ := bind_eq_ok.mp h
  obtain ⟨_, hprepared, h⟩ := bind_eq_ok.mp h
  rw [prepareTlsRuntimeGeneration, hplan, ok_bind]
  change (requirements.forM fun _ => (.ok () : Except AppError Unit)) >>= _ = _
  rw [forM_ok, ok_bind, prepareHttpsListeners_reliable hprepared, ok_bind]
  exact h

theorem tlsRequirements_ok {seen : List UpstreamHealthKey}
    {l : List (UpstreamHealthKey × Upstream)} {r : List (UpstreamHealthKey × ClientTlsFactory)}
    (h : tlsRequirements seen l = .ok r) :
    (∀ keyed ∈ l, ∃ endpoint, UpstreamEndpoint.parse keyed.2.url = .ok endpoint) ∧
      (∀ keyed ∈ l, keyed.1 ∉ seen) ∧ (l.map fst).Nodup ∧
      r.map fst = (l.filter fun keyed => keyed.2.tls != .disabled).map fst := by
  induction l generalizing seen r with
  | nil =>
    cases h
    exact ⟨nofun, nofun, .nil, rfl⟩
  | cons keyed l ih =>
    obtain ⟨requirement, hrequirement, h⟩ := bind_eq_ok.mp h
    obtain ⟨hseen, h⟩ := ite_error_eq_ok.mp h
    obtain ⟨_, hrest, h⟩ := bind_eq_ok.mp h
    cases h
    obtain ⟨hparses, hfresh, hnodup, hkeys⟩ := ih hrest
    have hnotin : keyed.1 ∉ l.map fst := by
      intro hmem
      obtain ⟨other, hother, heq⟩ := mem_map.mp hmem
      exact hfresh other hother (by rw [heq]; exact mem_cons_self ..)
    have hhead : (∃ endpoint, UpstreamEndpoint.parse keyed.2.url = .ok endpoint) ∧
        requirement.toList.map fst =
          if keyed.2.tls != .disabled then [keyed.1] else [] := by
      rw [tlsRequirement] at hrequirement
      split at hrequirement
      · cases hrequirement
      · next endpoint hendpoint =>
        refine ⟨⟨endpoint, hendpoint⟩, ?_⟩
        split at hrequirement
        · next htls =>
          cases hrequirement
          simp [htls]
        · next htls =>
          cases hrequirement
          simp [htls]
        · cases hrequirement
    refine ⟨?_, ?_, nodup_cons.mpr ⟨hnotin, hnodup⟩, ?_⟩
    · rintro other (_ | ⟨_, hother⟩)
      · exact hhead.1
      · exact hparses other hother
    · rintro other (_ | ⟨_, hother⟩)
      · simpa using hseen
      · exact fun hmem => hfresh other hother (mem_cons_of_mem _ hmem)
    · rw [map_append, hhead.2, hkeys, filter_cons]
      split_ifs
      · rfl
      · rfl

structure UpstreamsPlanned (config : ConfigSnapshot)
    (requirements : List (UpstreamHealthKey × ClientTlsFactory)) : Prop where
  parse : config.EndpointsParse
  nodup : config.upstreamKeys.Nodup
  keys : (requirements.map fst).Perm config.tlsUpstreams

theorem upstreamsPlanned {requirements : List (UpstreamHealthKey × ClientTlsFactory)}
    (h : planUpstreamTlsPreparation config = .ok requirements) :
    UpstreamsPlanned config requirements := by
  obtain ⟨_, hunsorted, rfl⟩ := map_eq_ok.mp h
  obtain ⟨hparses, -, hnodup, hkeys⟩ := tlsRequirements_ok hunsorted
  refine ⟨hparses, ?_, ?_⟩
  · rwa [← keyedUpstreams_fst]
  · rw [ConfigSnapshot.tlsUpstreams, ← hkeys]
    exact (mergeSort_perm _ _).map _

structure GenerationFits (config : ConfigSnapshot) (tls : Option TlsRuntimeSnapshot)
    (generation : PreparedTlsRuntimeGeneration) : Prop where
  upstreams : ∃ requirements, planUpstreamTlsPreparation config = .ok requirements ∧
    generation.requestRegistry = .ofPairs requirements ∧
    generation.healthRegistry = .ofPairs requirements
  listeners : generation.httpsListeners.length = (httpsListeners config).length
  certificates : httpsListeners config ≠ [] → tls.isSome = true

theorem length_of_mapM_ok {α β ε : Type} {f : α → Except ε β} {l : List α} {r : List β}
    (h : l.mapM f = .ok r) : r.length = l.length := by
  have := map_of_mapM_ok (p := fun _ => ()) (q := fun _ => ()) (fun _ _ _ => rfl) h
  simpa using congrArg length this

theorem generationFits (h : generationOf config tls = .ok generation) :
    GenerationFits config tls generation := by
  obtain ⟨listeners, hlisteners, h⟩ := bind_eq_ok.mp h
  obtain ⟨requirements, hplan, h⟩ := bind_eq_ok.mp h
  obtain ⟨_, -, h⟩ := bind_eq_ok.mp h
  obtain ⟨_, hprepared, h⟩ := bind_eq_ok.mp h
  cases h
  have hlength : listeners.length = (httpsListeners config).length := length_of_mapM_ok hlisteners
  unfold prepareHttpsListeners at hprepared
  refine ⟨⟨requirements, hplan, rfl, rfl⟩, ?_, fun hne => ?_⟩
  · split_ifs at hprepared with hempty
    · cases hprepared
      exact (congrArg length (List.isEmpty_iff.mp hempty)).symm.trans hlength
    · rcases tls with _ | snapshot
      · cases hprepared
      · obtain ⟨_, -, hprepared⟩ := bind_eq_ok.mp hprepared
        rw [← hlength]
        exact length_of_mapM_ok hprepared
  · have hne : listeners.isEmpty = false := by
      rw [← Bool.not_eq_true, List.isEmpty_iff, ← List.length_eq_zero_iff, hlength,
        List.length_eq_zero_iff]
      exact hne
    rw [hne] at hprepared
    rcases tls with _ | snapshot
    · cases hprepared
    · rfl

theorem addListeners_length {listeners : List (SocketAddr × ServerTlsFactory)}
    {start registry : PreparedServerTlsRegistry ServerTlsFactory}
    (h : listeners.foldlM addListener start = .ok registry) :
    registry.keys.length = start.keys.length + listeners.length := by
  induction listeners generalizing start with
  | nil =>
    cases h
    rfl
  | cons _ _ ih =>
    rw [foldlM_cons] at h
    obtain ⟨_, hnext, hrest⟩ := bind_eq_ok.mp h
    obtain ⟨hfresh, hnext⟩ := ite_error_eq_ok.mp hnext
    cases hnext
    rw [ih hrest, keys_insert, erase_of_not_mem hfresh, length_cons, length_cons]
    omega

theorem serverRegistry_length {registry : PreparedServerTlsRegistry ServerTlsFactory}
    (h : generation.serverRegistry = .ok registry) :
    registry.keys.length = generation.httpsListeners.length := by
  rw [addListeners_length h, keys_empty, length_nil, Nat.zero_add]

end Generations

section Sessions

variable {F G : Type}

/-- Every TLS listener has the factory that the registry has for its address, and the registry has
no others. -/
structure CoreRuntime.Installed (core : CoreRuntime F G) (registry : PreparedServerTlsRegistry F) :
    Prop where
  count : registry.keys.length = core.tlsListenerCount
  factories : ∀ listener ∈ core.listeners, listener.tlsSessionFactory.isSome = true →
    ∃ address ∈ listener.localAddr, listener.tlsSessionFactory = registry.lookup address

/-- What no command changes about a listener. -/
def RegisteredSnapshotListener.place (listener : RegisteredSnapshotListener F) :
    Option SocketAddr × Bool :=
  (listener.localAddr, listener.tlsSessionFactory.isSome)

theorem installFactories_spec {registry : PreparedServerTlsRegistry F}
    {listeners : List (RegisteredSnapshotListener F)} {factories : List (Option F)}
    (h : nextServerFactories registry listeners = .ok factories) :
    (CoreRuntime.installFactories listeners factories).map (·.place) = listeners.map (·.place) ∧
      ∀ listener ∈ CoreRuntime.installFactories listeners factories,
        listener.tlsSessionFactory.isSome = true →
          ∃ address ∈ listener.localAddr, listener.tlsSessionFactory = registry.lookup address := by
  induction listeners generalizing factories with
  | nil =>
    cases h
    exact ⟨rfl, nofun⟩
  | cons listener _ ih =>
    rw [nextServerFactories, mapM_cons] at h
    obtain ⟨_, hfactory, h⟩ := bind_eq_ok.mp h
    obtain ⟨_, hrest, h⟩ := bind_eq_ok.mp h
    cases h
    obtain ⟨hplaces, hfactories⟩ := ih hrest
    rw [CoreRuntime.installFactories, zipWith_cons_cons]
    rcases hsome : listener.tlsSessionFactory with _ | old
    · rw [hsome] at hfactory
      cases hfactory
      refine ⟨congrArg₂ cons rfl hplaces, ?_⟩
      rintro other (_ | ⟨_, hother⟩) hother'
      · simp [hsome] at hother'
      · exact hfactories other hother hother'
    · rw [hsome] at hfactory
      simp only [Option.isNone_some, Bool.false_eq_true, if_false] at hfactory
      split at hfactory
      · cases hfactory
      · next new hnew =>
        cases hfactory
        refine ⟨congrArg₂ cons ?_ hplaces, ?_⟩
        · simp [RegisteredSnapshotListener.place, hsome]
        · rintro other (_ | ⟨_, hother⟩) hother'
          · obtain ⟨address, haddress, hlookup⟩ := Option.bind_eq_some_iff.mp hnew
            exact ⟨address, haddress, hlookup.symm⟩
          · exact hfactories other hother hother'

namespace CoreRuntime

variable {core core' : CoreRuntime F G} {registry : PreparedServerTlsRegistry F}

def SamePlaces (core core' : CoreRuntime F G) : Prop :=
  core'.listeners.map (·.place) = core.listeners.map (·.place)

theorem tlsListenerCount_eq (core : CoreRuntime F G) :
    core.tlsListenerCount = (core.listeners.map (·.place)).countP (·.2) := by
  rw [countP_map]
  rfl

theorem SamePlaces.count (h : core.SamePlaces core') :
    core'.tlsListenerCount = core.tlsListenerCount := by
  rw [tlsListenerCount_eq, tlsListenerCount_eq, h]

theorem Installed.addresses (h : core.Installed registry) (hplaces : core.SamePlaces core') :
    ∀ listener ∈ core'.listeners, listener.tlsSessionFactory.isSome = true →
      ∃ address ∈ listener.localAddr, address ∈ registry := by
  intro listener hlistener htls
  have hplace : listener.place ∈ core.listeners.map (·.place) := by
    rw [← hplaces]
    exact mem_map_of_mem hlistener
  obtain ⟨before, hbefore, heq⟩ := mem_map.mp hplace
  obtain ⟨haddr, hsome⟩ := Prod.mk.inj heq
  rw [htls] at hsome
  obtain ⟨address, haddress, hlookup⟩ := h.factories before hbefore hsome
  refine ⟨address, haddr ▸ haddress, lookup_isSome.mp ?_⟩
  rw [← hlookup]
  exact hsome

theorem installed_of_factories {factories : List (Option F)}
    (hcount : registry.keys.length = core.tlsListenerCount)
    (hfactories : nextServerFactories registry core.listeners = .ok factories)
    (hlisteners : core'.listeners = installFactories core.listeners factories) :
    core'.Installed registry ∧ core.SamePlaces core' := by
  obtain ⟨hplaces, hspec⟩ := installFactories_spec hfactories
  have hsame : core.SamePlaces core' := by
    rw [SamePlaces, hlisteners, hplaces]
  exact ⟨⟨hcount.trans hsame.count.symm, by rwa [hlisteners]⟩, hsame⟩

end CoreRuntime

end Sessions

end EdgeProxy

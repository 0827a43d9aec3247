import EdgeProxy.Core.Runnable

/-! # What a configuration needs to run

The certificates of the HTTPS listeners, the session factories of listeners and upstreams, and the
health runtime that probes the upstreams. A session factory stands for what it was built from. All
of it is prepared before the core is asked to switch; the stores that it is prepared from answer as
`SwitchEnv` says, which tells the two preparations of one command apart.
-/

namespace EdgeProxy

open Rust List AList

/-- What the environment answers while one command is sent; a number is that of the attempt: `0`
for the command, `1` for its compensation. -/
structure SwitchEnv where
  /-- A stored certificate, loaded; `none` if there is none. -/
  certificate : Text → Except AppError (Option (List Text × ℕ))
  /-- Loading a trust bundle and building a session factory with it. -/
  trustBundle : ℕ → TrustBundleRef → Except AppError Unit
  sniServerConfig : ℕ → Except AppError Unit
  queueRejects : ℕ → Option AppError
  healthPrepareFails : ℕ → Option AppError
  healthCommitFails : ℕ → Option AppError

/-- A loaded certificate; the key stands for its key pair. -/
structure LoadedRustlsServerConfig where
  certificateRef : Text
  domains : List Text
  certifiedKey : ℕ

structure TlsRuntimeSnapshot where
  configs : Dictionary Text LoadedRustlsServerConfig
  certificateRefsByHostname : Dictionary Text Text

def normalizeTlsHostname (hostname : Text) : Option Text :=
  let normalized := normalizeHost hostname
  if normalized.isEmpty then none else some normalized

def duplicateHostname (hostname existing certificateRef : Text) : AppError :=
  ⟨.certificateStoreFailed, "duplicate TLS SNI hostname " ++ String.ofList hostname ++
    " for certificate refs " ++ String.ofList existing ++ " and " ++ String.ofList certificateRef⟩

variable (env : SwitchEnv) (certificateRef : Text) (attempt : ℕ)

def addHostnames (domains : List Text) (hostnames : Dictionary Text Text) :
    Except AppError (Dictionary Text Text) :=
  domains.foldlM (fun hostnames domain =>
    match normalizeTlsHostname domain with
    | none => .ok hostnames
    | some hostname =>
      match hostnames.lookup hostname with
      | some existing => .error (duplicateHostname hostname existing certificateRef)
      | none => .ok (hostnames.insert hostname certificateRef)) hostnames

namespace TlsRuntimeSnapshot

def addConfig (snapshot : TlsRuntimeSnapshot) (config : LoadedRustlsServerConfig) :
    Except AppError TlsRuntimeSnapshot := do
  let hostnames ←
    addHostnames config.certificateRef config.domains snapshot.certificateRefsByHostname
  if config.certificateRef ∈ snapshot.configs.keys then
    .error ⟨.certificateStoreFailed, "duplicate loaded TLS certificate config: " ++
      String.ofList config.certificateRef⟩
  else return ⟨snapshot.configs.insert config.certificateRef config, hostnames⟩

/-- The certificate that is used without a hostname is left out. -/
def fromConfigs (configs : List LoadedRustlsServerConfig) : Except AppError TlsRuntimeSnapshot :=
  if configs.isEmpty then
    .error ⟨.certificateNotFound, "TLS runtime snapshot requires at least one certificate config"⟩
  else configs.foldlM addConfig ⟨∅, ∅⟩

def replaceConfig (config : LoadedRustlsServerConfig) :
    Action TlsRuntimeSnapshot AppError Unit := do
  let kept := (← Action.read).certificateRefsByHostname.retain fun _ existing =>
    existing != config.certificateRef
  match addHostnames config.certificateRef config.domains kept with
  | .error e => Action.fail e
  | .ok next =>
    Action.modify fun snapshot => { snapshot with certificateRefsByHostname := next }
    Action.modify fun snapshot =>
      { snapshot with configs := snapshot.configs.insert config.certificateRef config }

end TlsRuntimeSnapshot

def SwitchEnv.loadCertificate : Except AppError LoadedRustlsServerConfig := do
  match ← env.certificate certificateRef with
  | none => .error ⟨.certificateNotFound, "certificate not found: " ++ String.ofList certificateRef⟩
  | some (domains, certifiedKey) => return ⟨certificateRef, domains, certifiedKey⟩

variable (snapshot : ConfigSnapshot)

def httpsListeners : List Listener :=
  snapshot.listeners.filter (·.protocol == .https)

def httpsCertificateRefs : List Text :=
  ((snapshot.routes.filter (·.enabled)).filterMap Route.certificateRef).dedup.mergeSort
    fun a b => decide (a ≤ b)

def prepareTlsRuntimeSnapshotForSnapshot : Except AppError (Option TlsRuntimeSnapshot) :=
  if (httpsListeners snapshot).isEmpty then .ok none
  else if (httpsCertificateRefs snapshot).isEmpty then
    .error ⟨.certificateNotFound, "HTTPS listener requires at least one route certificate_ref"⟩
  else do
    let loaded ← (httpsCertificateRefs snapshot).mapM env.loadCertificate
    return some (← TlsRuntimeSnapshot.fromConfigs loaded)

section Hostnames

open Action

def LoadedRustlsServerConfig.hostnames (config : LoadedRustlsServerConfig) : List Text :=
  config.domains.filterMap normalizeTlsHostname

theorem addHostnames_lookup {certificateRef : Text} {domains : List Text}
    {hostnames next : Dictionary Text Text}
    (h : addHostnames certificateRef domains hostnames = .ok next) {name ref : Text} :
    next.lookup name = some ref ↔ hostnames.lookup name = some ref ∨
      ref = certificateRef ∧ name ∈ domains.filterMap normalizeTlsHostname := by
  induction domains generalizing hostnames with
  | nil =>
    cases h
    simp
  | cons domain _ ih =>
    rw [addHostnames, foldlM_cons] at h
    obtain ⟨_, hstep, h⟩ := bind_eq_ok.mp h
    rw [ih h]
    cases hname : normalizeTlsHostname domain with
    | none =>
      rw [hname] at hstep
      cases hstep
      rw [filterMap_cons_none hname]
    | some hostname =>
      rw [hname] at hstep
      rw [filterMap_cons_some hname, mem_cons]
      cases hfree : hostnames.lookup hostname with
      | some => simp [hfree] at hstep
      | none =>
        obtain rfl : hostnames.insert hostname certificateRef = _ := by simpa [hfree] using hstep
        by_cases heq : name = hostname
        · subst heq
          rw [lookup_insert, hfree, Option.some_inj, eq_comm]
          tauto
        · rw [lookup_insert_ne heq]
          simp [heq]

namespace TlsRuntimeSnapshot

/-- A hostname belongs to a certificate exactly if the entry of that certificate lists it. -/
def Consistent (snapshot : TlsRuntimeSnapshot) : Prop :=
  ∀ name ref, snapshot.certificateRefsByHostname.lookup name = some ref ↔
    ∃ config, snapshot.configs.lookup ref = some config ∧ name ∈ config.hostnames

variable {snapshot next : TlsRuntimeSnapshot} {config : LoadedRustlsServerConfig}

theorem Consistent.insert {hostnames : Dictionary Text Text}
    (hkept : ∀ name ref, hostnames.lookup name = some ref ↔ ref ≠ config.certificateRef ∧
      ∃ config, snapshot.configs.lookup ref = some config ∧ name ∈ config.hostnames)
    {names : Dictionary Text Text}
    (h : addHostnames config.certificateRef config.domains hostnames = .ok names) :
    Consistent ⟨snapshot.configs.insert config.certificateRef config, names⟩ := by
  intro name ref
  rw [addHostnames_lookup h, hkept]
  by_cases heq : ref = config.certificateRef
  · subst heq
    simp [lookup_insert, LoadedRustlsServerConfig.hostnames]
  · simp [lookup_insert_ne heq, heq]

theorem Consistent.addConfig (h : snapshot.Consistent)
    (hadd : snapshot.addConfig config = .ok next) : next.Consistent := by
  obtain ⟨_, hnames, hadd⟩ := bind_eq_ok.mp hadd
  obtain ⟨hnew, hadd⟩ := ite_error_eq_ok.mp hadd
  cases hadd
  refine .insert (fun name ref => ?_) hnames
  rw [h, iff_and_self]
  rintro ⟨_, hmem, -⟩ rfl
  exact hnew (lookup_isSome.mp (by rw [hmem]; rfl))

theorem replaceConfig_apply : replaceConfig config snapshot =
    match addHostnames config.certificateRef config.domains
      (snapshot.certificateRefsByHostname.retain fun _ existing =>
        existing != config.certificateRef) with
    | .ok next => (.ok (), ⟨snapshot.configs.insert config.certificateRef config, next⟩)
    | .error e => (.error e, snapshot) := by
  rw [replaceConfig, read_bind]
  cases addHostnames config.certificateRef config.domains _ <;> rfl

theorem Consistent.replaceConfig (h : snapshot.Consistent) :
    (replaceConfig config snapshot).2.Consistent := by
  rw [replaceConfig_apply]
  split
  · rename_i hnames
    refine .insert (fun name ref => ?_) hnames
    rw [Dictionary.lookup_retain, h, bne_iff_ne, and_comm]
  · exact h

theorem fromConfigs_consistent {configs : List LoadedRustlsServerConfig}
    (h : fromConfigs configs = .ok snapshot) : snapshot.Consistent := by
  rw [fromConfigs, ite_error_eq_ok] at h
  obtain ⟨-, h⟩ := h
  have hfirst : Consistent ⟨∅, ∅⟩ := by
    intro name ref
    simp
  generalize (⟨∅, ∅⟩ : TlsRuntimeSnapshot) = first at h hfirst
  induction configs generalizing first with
  | nil =>
    cases h
    exact hfirst
  | cons _ _ ih =>
    rw [foldlM_cons] at h
    obtain ⟨_, hadd, h⟩ := bind_eq_ok.mp h
    exact ih _ h (hfirst.addConfig hadd)

/-- However certificates are replaced, the two indexes agree and no hostname has two certificates;
a refused replacement changes nothing. -/
theorem hostnames_consistent {configs : List LoadedRustlsServerConfig}
    (h : fromConfigs configs = .ok snapshot) (replacements : List LoadedRustlsServerConfig) :
    let snapshot := replacements.foldl
      (fun snapshot config => (replaceConfig config snapshot).2) snapshot
    snapshot.Consistent ∧
      (∀ name ref ref' config config', snapshot.configs.lookup ref = some config →
        snapshot.configs.lookup ref' = some config' → name ∈ config.hostnames →
          name ∈ config'.hostnames → ref = ref') ∧
      ∀ config e, (replaceConfig config snapshot).1 = .error e →
        (replaceConfig config snapshot).2 = snapshot := by
  extract_lets last
  have hlast : last.Consistent :=
    foldlRecOn replacements _ (fromConfigs_consistent h) fun _ h _ _ => h.replaceConfig
  refine ⟨hlast, ?_, ?_⟩
  · intro name ref ref' config config' hconfig hconfig' hname hname'
    have hfirst := (hlast name ref).mpr ⟨config, hconfig, hname⟩
    have hsecond := (hlast name ref').mpr ⟨config', hconfig', hname'⟩
    exact Option.some.inj (hfirst.symm.trans hsecond)
  · intro config e
    rw [replaceConfig_apply]
    split <;> simp

/-- With two certificates: the name of the other one is refused, a new name is taken. -/
theorem conflicting_replacement_refused :
    ∃ snapshot, fromConfigs [⟨"c".toList, ["A.".toList], 1⟩, ⟨"d".toList, ["b".toList], 2⟩] =
        .ok snapshot ∧
      let renewed := (replaceConfig ⟨"c".toList, ["e".toList], 3⟩ snapshot).2
      renewed.certificateRefsByHostname.lookup "e".toList = some "c".toList ∧
        renewed.Consistent ∧
        (replaceConfig ⟨"c".toList, ["b".toList], 3⟩ renewed).2 = renewed := by
  have h : fromConfigs [⟨"c".toList, ["A.".toList], 1⟩, ⟨"d".toList, ["b".toList], 2⟩] = .ok _ :=
    rfl
  obtain ⟨hconsistent, -, hrefused⟩ := hostnames_consistent h [⟨"c".toList, ["e".toList], 3⟩]
  exact ⟨_, h, by decide, hconsistent, hrefused ⟨"c".toList, ["b".toList], 3⟩ _ rfl⟩

end TlsRuntimeSnapshot

end Hostnames

/-- A factory for the sessions of a listener: its certificates and what it asks of clients. -/
structure ServerTlsFactory where
  tls : TlsRuntimeSnapshot
  clientAuth : ClientAuthPolicy

/-- A factory for the sessions with an upstream, by the trust bundle. -/
abbrev ClientTlsFactory := TrustBundleRef

abbrev ClientRegistry := PreparedClientTlsRegistry ClientTlsFactory

def upstreamTlsPlanInvalid : AppError :=
  ⟨.upstreamTlsProfileInvalid, "upstream TLS preparation plan is invalid"⟩

def tlsRequirement (keyed : UpstreamHealthKey × Upstream) :
    Except AppError (Option (UpstreamHealthKey × ClientTlsFactory)) :=
  match UpstreamEndpoint.parse keyed.2.url with
  | .error _ => .error upstreamTlsPlanInvalid
  | .ok endpoint =>
    match endpoint.scheme, keyed.2.tls with
    | .http, .disabled => .ok none
    | .https, .serverAuthenticated _ _ trustBundleRef => .ok (some (keyed.1, trustBundleRef))
    | _, _ => .error upstreamTlsPlanInvalid

/-- The requirements of the upstreams; no key occurs twice. -/
def tlsRequirements : List UpstreamHealthKey → List (UpstreamHealthKey × Upstream) →
    Except AppError (List (UpstreamHealthKey × ClientTlsFactory))
  | _, [] => .ok []
  | seen, keyed :: rest => do
    let requirement ← tlsRequirement keyed
    if seen.contains keyed.1 then .error upstreamTlsPlanInvalid
    else return requirement.toList ++ (← tlsRequirements (keyed.1 :: seen) rest)

def keyLe (a b : UpstreamHealthKey × ClientTlsFactory) : Bool :=
  a.1.serviceId < b.1.serviceId ||
    (a.1.serviceId == b.1.serviceId && decide (a.1.upstreamId ≤ b.1.upstreamId))

def planUpstreamTlsPreparation : Except AppError (List (UpstreamHealthKey × ClientTlsFactory)) :=
  (tlsRequirements [] snapshot.keyedUpstreams).map (·.mergeSort keyLe)

def invalidHttpsBind : AppError := ⟨.configInvalidBindAddress, "HTTPS listener bind is invalid"⟩

def httpsListenerConfigs : Except AppError (List (SocketAddr × ClientAuthPolicy)) :=
  (httpsListeners snapshot).mapM fun listener =>
    match parseSocketAddr listener.bind with
    | none => .error invalidHttpsBind
    | some bind => .ok (bind, listener.clientAuth)

structure PreparedTlsRuntimeGeneration where
  requestRegistry : ClientRegistry
  healthRegistry : ClientRegistry
  httpsListeners : List (SocketAddr × ServerTlsFactory)

def addListener (registry : PreparedServerTlsRegistry ServerTlsFactory)
    (listener : SocketAddr × ServerTlsFactory) :
    Except AppError (PreparedServerTlsRegistry ServerTlsFactory) :=
  if listener.1 ∈ registry.keys then .error runtimeGenerationError
  else .ok (registry.insert listener.1 listener.2)

def PreparedTlsRuntimeGeneration.serverRegistry (generation : PreparedTlsRuntimeGeneration) :
    Except AppError (PreparedServerTlsRegistry ServerTlsFactory) :=
  generation.httpsListeners.foldlM addListener ∅

def prepareListener (tls : TlsRuntimeSnapshot)
    (listener : SocketAddr × ClientAuthPolicy) : Except AppError (SocketAddr × ServerTlsFactory) :=
  match listener.2 with
  | .disabled => .ok (listener.1, ⟨tls, .disabled⟩)
  | .required trustBundleRef => do
    env.trustBundle attempt trustBundleRef
    return (listener.1, ⟨tls, .required trustBundleRef⟩)

def prepareHttpsListeners
    (listeners : List (SocketAddr × ClientAuthPolicy)) (tls : Option TlsRuntimeSnapshot) :
    Except AppError (List (SocketAddr × ServerTlsFactory)) :=
  if listeners.isEmpty then .ok []
  else
    match tls with
    | none => .error
        ⟨.certificateNotFound, "HTTPS listener requires a prepared TLS certificate snapshot"⟩
    | some tls => do
      env.sniServerConfig attempt
      listeners.mapM (prepareListener env attempt tls)

def prepareTlsRuntimeGeneration
    (listeners : List (SocketAddr × ClientAuthPolicy)) (tls : Option TlsRuntimeSnapshot) :
    Except AppError PreparedTlsRuntimeGeneration := do
  let requirements ← planUpstreamTlsPreparation snapshot
  requirements.forM fun requirement => env.trustBundle attempt requirement.2
  let httpsListeners ← prepareHttpsListeners env attempt listeners tls
  return ⟨.ofPairs requirements, .ofPairs requirements, httpsListeners⟩

/-- A health runtime: what it supervises, and the factories its probes use. -/
structure HealthRuntime where
  snapshot : ConfigSnapshot
  supervisor : HealthSupervisor
  tlsRegistry : ClientRegistry

structure HealthRuntimeController where
  generations : Option HealthGeneration
  active : Option HealthRuntime
  tlsRegistry : ClientRegistry

def generationsExhausted : AppError := ⟨.internalBug, "health generation space is exhausted"⟩

namespace HealthRuntimeController

/-- `checked_add` ends at the largest `u64`. -/
def nextGeneration (generation : HealthGeneration) : Option HealthGeneration :=
  if generation + 1 < 2 ^ 64 then some (generation + 1) else none

/-- A generation is used up whether or not the runtime can be prepared. -/
def prepareWithTlsRegistry (env : SwitchEnv) (attempt : ℕ) (snapshot : ConfigSnapshot)
    (tlsRegistry : ClientRegistry) (controller : HealthRuntimeController) :
    Except AppError HealthRuntime × HealthRuntimeController :=
  match controller.generations with
  | none => (.error generationsExhausted, controller)
  | some generation =>
    let next := { controller with generations := nextGeneration generation }
    match HealthSupervisor.activateReconciled snapshot generation
        (controller.active.map (·.supervisor.entries)), env.healthPrepareFails attempt with
    | .error error, _ => (.error error, next)
    | .ok _, some error => (.error error, next)
    | .ok supervisor, none => (.ok ⟨snapshot, supervisor, tlsRegistry⟩, next)

/-- The runtime that was active goes on if the prepared one cannot be started. -/
def commitWithTlsRegistry (env : SwitchEnv) (attempt : ℕ) (prepared : HealthRuntime)
    (tlsRegistry : ClientRegistry) (controller : HealthRuntimeController) :
    Except AppError Unit × HealthRuntimeController :=
  match env.healthCommitFails attempt with
  | some error => (.error error, controller)
  | none => (.ok (), { controller with active := some prepared, tlsRegistry })

end HealthRuntimeController

end EdgeProxy

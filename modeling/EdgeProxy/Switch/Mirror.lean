import EdgeProxy.Switch.Generation

/-! # Switching to another configuration

`MirroredSnapshotCommandClient::send` for the two commands that change what runs: a configuration
is applied, or a certificate is installed. Everything is prepared first, for the new configuration
and for the way back; then the core switches, the health runtime follows, and last the copies are
replaced that the client keeps. If the health runtime cannot follow, the core is switched back.
-/

namespace EdgeProxy

open Rust Action

structure TlsInstallState where
  tls : Option TlsRuntimeSnapshot
  /-- Whether a trust store is configured. -/
  trustBundles : Bool

/-- The client with its collaborators, each of which may be missing, and the core. -/
structure MirroredRuntime where
  snapshot : ConfigSnapshot
  tlsInstall : Option TlsInstallState
  runtimeTlsInstaller : Bool
  healthRuntime : Option HealthRuntimeController
  core : CoreRuntime ServerTlsFactory ClientTlsFactory

abbrev SwitchAction (α : Type) := Action MirroredRuntime AppError α

inductive SwitchCommand where
  | applyConfigSnapshot (snapshot : ConfigSnapshot)
  | installCertificate (certificateRef : Text)

namespace MirroredRuntime

variable {α : Type}

def result (x : Except AppError α) : SwitchAction α := fun s => (x, s)

def currentTls (s : MirroredRuntime) : Option TlsRuntimeSnapshot := s.tlsInstall.bind (·.tls)

variable (env : SwitchEnv) (snapshot : ConfigSnapshot) (current : ConfigSnapshot)

/-- The certificates after the command; without certificates to begin with there are none. -/
def nextTls (s : MirroredRuntime) : SwitchCommand → Except AppError (Option TlsRuntimeSnapshot)
  | .applyConfigSnapshot snapshot =>
    if s.currentTls.isSome then prepareTlsRuntimeSnapshotForSnapshot env snapshot else .ok none
  | .installCertificate certificateRef =>
    match s.currentTls with
    | none => .ok none
    | some tls => do
      let config ← env.loadCertificate certificateRef
      match TlsRuntimeSnapshot.replaceConfig config tls with
      | (.ok (), candidate) => return some candidate
      | (.error e, _) => .error e

def prepareGeneration (attempt : ℕ) (snapshot : ConfigSnapshot)
    (tls : Option TlsRuntimeSnapshot) (s : MirroredRuntime) :
    Except AppError (Option PreparedTlsRuntimeGeneration) :=
  if s.tlsInstall.any (·.trustBundles) then do
    let listeners ← httpsListenerConfigs snapshot
    return some (← prepareTlsRuntimeGeneration env attempt snapshot listeners tls)
  else .ok none

def prepareRollback (prepared : Option PreparedTlsRuntimeGeneration)
    (s : MirroredRuntime) : Except AppError (Option PreparedTlsRuntimeGeneration) :=
  if prepared.isSome then s.prepareGeneration env 1 s.snapshot s.currentTls else .ok none

def prepareHealth (attempt : ℕ) (snapshot : ConfigSnapshot)
    (generation : Option PreparedTlsRuntimeGeneration) : SwitchAction (Option HealthRuntime) :=
  fun s =>
    match s.healthRuntime with
    | none => (.ok none, s)
    | some controller =>
      match controller.prepareWithTlsRegistry env attempt snapshot
          ((generation.map (·.healthRegistry)).getD controller.tlsRegistry) with
      | (prepared, controller) =>
        (prepared.map some, { s with healthRuntime := some controller })

def prepareRollbackHealth
    (rollback : Option PreparedTlsRuntimeGeneration) : SwitchAction (Option HealthRuntime) :=
  if rollback.isSome then prepareHealth env 1 snapshot rollback else pure none

structure Prepared where
  tls : Option TlsRuntimeSnapshot
  generation : Option PreparedTlsRuntimeGeneration
  rollbackGeneration : Option PreparedTlsRuntimeGeneration
  health : Option HealthRuntime
  rollbackHealth : Option HealthRuntime

variable (prepared : Prepared)

def prepareApply : SwitchAction Prepared := do
  let s ← read
  let tls ← result (s.nextTls env (.applyConfigSnapshot snapshot))
  let generation ← result (s.prepareGeneration env 0 snapshot tls)
  let rollbackGeneration ← result (s.prepareRollback env generation)
  let health ← prepareHealth env 0 snapshot generation
  let rollbackHealth ← prepareRollbackHealth env s.snapshot rollbackGeneration
  return ⟨tls, generation, rollbackGeneration, health, rollbackHealth⟩

def coreCommand (attempt : ℕ) (command : CoreRuntime ServerTlsFactory ClientTlsFactory →
      CommandAck × CoreRuntime ServerTlsFactory ClientTlsFactory) : SwitchAction PUnit := fun s =>
  match env.queueRejects attempt with
  | some error => (.error error, s)
  | none =>
    match command s.core with
    | (.accepted, core) => (.ok ⟨⟩, { s with core })
    | (.rejected error, core) => (.error error, { s with core })

def boundaryRequired : AppError :=
  ⟨.runtimeCommandRejected, "prepared TLS generation requires the runtime command boundary"⟩

/-- The core takes a configuration with the availability and the factories of one generation. -/
def activateGeneration (attempt : ℕ) (snapshot : ConfigSnapshot)
    (availability : HealthAvailabilitySnapshot) (generation : PreparedTlsRuntimeGeneration) :
    SwitchAction PUnit := do
  let serverRegistry ← result generation.serverRegistry
  coreCommand env attempt fun core =>
    core.activateRuntimeGeneration snapshot availability serverRegistry generation.requestRegistry

/-- Switches the core; whether its listeners got their factories with the command. -/
def activate : SwitchAction Bool := do
  let s ← read
  let availability := prepared.health.map (·.supervisor.availabilitySnapshot)
  match prepared.generation, s.runtimeTlsInstaller, availability with
  | some generation, true, some availability =>
    activateGeneration env 0 snapshot availability generation
    return true
  | some _, _, _ => fail boundaryRequired
  | none, installer, availability =>
    match prepared.tls, installer, availability with
    | some tls, true, some availability =>
      result (env.sniServerConfig 0)
      coreCommand env 0 fun core =>
        core.activateSnapshotAndTlsFactory snapshot availability ⟨tls, .disabled⟩
      return true
    | _, _, some availability =>
      coreCommand env 0 fun core => core.activateSnapshot snapshot availability
      return false
    | _, _, none =>
      coreCommand env 0 fun core => core.applyConfigSnapshot snapshot
      return false

def installFactories (combined : Bool) (tls : Option TlsRuntimeSnapshot) : SwitchAction PUnit := do
  let s ← read
  match combined, s.runtimeTlsInstaller, tls with
  | false, true, some tls =>
    result (env.sniServerConfig 0)
    coreCommand env 0 fun core => core.replaceTlsListenerFactories ⟨tls, .disabled⟩
  | _, _, _ => return ⟨⟩

def compensationFailed : AppError :=
  ⟨.runtimeCommandRejected, "runtime generation compensation failed"⟩

def healthCompensationFailed : AppError :=
  ⟨.runtimeCommandRejected, "health runtime compensation failed"⟩

def commit (attempt : ℕ) (prepared : HealthRuntime)
    (generation : Option PreparedTlsRuntimeGeneration) : SwitchAction PUnit := fun s =>
  match s.healthRuntime with
  | none => (.ok ⟨⟩, s)
  | some controller =>
    match controller.commitWithTlsRegistry env attempt prepared
        ((generation.map (·.healthRegistry)).getD controller.tlsRegistry) with
    | (.error error, controller) => (.error error, { s with healthRuntime := some controller })
    | (.ok _, controller) => (.ok ⟨⟩, { s with healthRuntime := some controller })

def compensate : SwitchAction PUnit := do
  let s ← read
  match s.runtimeTlsInstaller, prepared.rollbackGeneration, prepared.rollbackHealth with
  | true, some generation, some health =>
    match ← attempt (activateGeneration env 1 current
        health.supervisor.availabilitySnapshot generation) with
    | .error _ => fail compensationFailed
    | .ok _ =>
      match ← attempt (commit env 1 health (some generation)) with
      | .error _ => fail healthCompensationFailed
      | .ok _ => return ⟨⟩
  | _, _, _ => fail compensationFailed

/-- The health runtime follows the core, or the core is switched back. -/
def commitHealth : SwitchAction PUnit :=
  match prepared.health with
  | none => return ⟨⟩
  | some health => do
    match ← attempt (commit env 0 health prepared.generation) with
    | .ok _ => return ⟨⟩
    | .error error =>
      compensate env current prepared
      fail error

/-- The copies that the client keeps; the certificates only if there were some. -/
def mirror (snapshot : Option ConfigSnapshot) (tls : Option TlsRuntimeSnapshot) :
    SwitchAction PUnit :=
  modify fun s => { s with
    snapshot := snapshot.getD s.snapshot
    tlsInstall := s.tlsInstall.map fun install =>
      if install.tls.isSome && tls.isSome then { install with tls } else install }

def install (generation : Option PreparedTlsRuntimeGeneration) : SwitchAction Bool := do
  let s ← read
  match generation with
  | some generation =>
    if !s.runtimeTlsInstaller then fail boundaryRequired
    else
      let serverRegistry ← result generation.serverRegistry
      coreCommand env 0 fun core => core.replaceTlsListenerRegistry serverRegistry
      return true
  | none =>
    -- the core acknowledges `InstallCertificate` without doing anything
    coreCommand env 0 fun core => (.accepted, core)
    return false

/-- The acknowledgement is `Rejected` exactly if the action fails. -/
def send : SwitchCommand → SwitchAction PUnit
  | .applyConfigSnapshot snapshot => do
    let s ← read
    let prepared ← prepareApply env snapshot
    let combined ← activate env snapshot prepared
    commitHealth env s.snapshot prepared
    installFactories env combined prepared.tls
    mirror (some snapshot) prepared.tls
  | .installCertificate certificateRef => do
    let s ← read
    let tls ← result (s.nextTls env (.installCertificate certificateRef))
    let generation ← result (s.prepareGeneration env 0 s.snapshot tls)
    let combined ← install env generation
    installFactories env combined tls
    mirror none tls

end MirroredRuntime

end EdgeProxy

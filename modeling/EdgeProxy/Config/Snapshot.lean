import EdgeProxy.Core.Ledger
import EdgeProxy.Lib.Net

/-! # Configuration snapshots

The immutable configuration that the proxy runs with, and the constructors of its policies with
the bounds they check. `ConfigSnapshot` values are built by the parser, by the Admin operations and
by tests; the fields are public, so only the constructors marked here check anything.
-/

namespace EdgeProxy

open Rust

inductive ListenerProtocol where
  | http | https
  deriving DecidableEq

inductive ClientAuthPolicy where
  | disabled
  | required (trustBundleRef : TrustBundleRef)
  deriving DecidableEq

structure Listener where
  id : Text
  bind : Text
  protocol : ListenerProtocol
  clientAuth : ClientAuthPolicy
  deriving DecidableEq

def invalidClientAuthPolicy : ValidationError :=
  ⟨.configClientAuthPolicyInvalid, "listener client-auth policy is invalid"⟩

variable (schemaVersion : UInt32) (path : Text) (value : Text) (host : Text)

def normalizeClientAuthPolicy (protocol : ListenerProtocol)
    (clientAuth trustBundleRef : Option Text) : Except ValidationError ClientAuthPolicy :=
  match clientAuth, trustBundleRef with
  | none, none =>
    if schemaVersion = 1 ∨ schemaVersion = 2 then .ok .disabled
    else .error invalidClientAuthPolicy
  | some mode, none =>
    if schemaVersion = 2 ∧ protocol = .https ∧ mode = "disabled".toList then .ok .disabled
    else .error invalidClientAuthPolicy
  | some mode, some reference =>
    if schemaVersion = 2 ∧ protocol = .https ∧ mode = "required".toList then
      (TrustBundleRef.parse reference).map .required
    else .error invalidClientAuthPolicy
  | none, some _ => .error invalidClientAuthPolicy

def normalizeHost : Text := toAsciiLowercase (trimEndMatches '.' (trim host))

def normalizePath : Text :=
  let trimmed := trim path
  let withSlash := if trimmed.head? = some '/' then trimmed else '/' :: trimmed
  if 1 < withSlash.length then trimEndMatches '/' withSlash else withSlash

structure HostMatch where
  normalized : Text
  deriving DecidableEq

def HostMatch.exact : HostMatch := ⟨normalizeHost host⟩

structure PathMatch where
  pathText : Text
  isExact : Bool
  deriving DecidableEq

/-- `PathMatch::prefix`. -/
def PathMatch.below : PathMatch := ⟨normalizePath path, false⟩

def PathMatch.exact : PathMatch := ⟨normalizePath path, true⟩

structure RouteMatch where
  hosts : List HostMatch
  paths : List PathMatch
  deriving DecidableEq

structure Route where
  id : Text
  routeMatch : RouteMatch
  serviceId : Text
  priority : Int32
  enabled : Bool
  redirectHttpToHttps : Bool
  certificateResolverId : Option Text
  certificateRef : Option Text
  deriving DecidableEq

inductive UpstreamAdministrativeState where
  | active | draining
  deriving DecidableEq

structure Upstream where
  id : Text
  url : Text
  administrativeState : UpstreamAdministrativeState
  tls : UpstreamTlsPolicy
  deriving DecidableEq

def invalidTlsPolicy : ValidationError :=
  ⟨.configTlsPolicyInvalid, "upstream TLS policy is incomplete or contradicts its scheme"⟩

def normalizeUpstreamTlsPolicy (url : Text)
    (tlsServerName upstreamHttpHost tlsTrustBundleRef : Option Text) :
    Except ValidationError UpstreamTlsPolicy := do
  let endpoint ← UpstreamEndpoint.parse url
  if schemaVersion = 1 ∧ endpoint.scheme = .https then .error invalidUpstreamUrl
  else
    let fieldsAreEmpty :=
      tlsServerName.isNone && upstreamHttpHost.isNone && tlsTrustBundleRef.isNone
    if (schemaVersion = 1 ∨ schemaVersion = 2) ∧ endpoint.scheme = .http ∧ fieldsAreEmpty then
      .ok .disabled
    else if schemaVersion = 2 ∧ endpoint.scheme = .https ∧ !fieldsAreEmpty then
      match tlsServerName with
      | none => .error invalidTlsPolicy
      | some tlsServerName =>
        let serverName ← TlsServerName.parse tlsServerName
        match upstreamHttpHost with
        | none => .error invalidTlsPolicy
        | some upstreamHttpHost =>
          let httpHost ← UpstreamHttpHost.parse upstreamHttpHost
          match tlsTrustBundleRef with
          | none => .error invalidTlsPolicy
          | some tlsTrustBundleRef =>
            let trustBundleRef ← TrustBundleRef.parse tlsTrustBundleRef
            return .serverAuthenticated serverName httpHost trustBundleRef
    else .error invalidTlsPolicy

structure HttpHealthCheckPolicy where
  path : Text
  intervalMs : ℕ
  timeoutMs : ℕ
  healthyThreshold : ℕ
  unhealthyThreshold : ℕ
  statusMin : ℕ
  statusMax : ℕ
  deriving DecidableEq

def HttpHealthCheckPolicy.new (policy : HttpHealthCheckPolicy) :
    Except ValidationError HttpHealthCheckPolicy :=
  if policy.path.isEmpty || byteLen policy.path > 2048 || policy.path.head? != some '/' ||
      policy.path.any (fun c => c == '?' || c == '#') || policy.path.any isControl then
    .error ⟨.configHealthCheckInvalidPath,
      "health-check path must be a bounded absolute path without query or fragment"⟩
  else if ¬(1000 ≤ policy.intervalMs ∧ policy.intervalMs ≤ 86400000) ∨
      ¬(100 ≤ policy.timeoutMs ∧ policy.timeoutMs ≤ 30000) ∨
      policy.timeoutMs ≥ policy.intervalMs then
    .error ⟨.configHealthCheckInvalidInterval,
      "health-check timeout and interval are outside the supported bounds"⟩
  else if ¬(1 ≤ policy.healthyThreshold ∧ policy.healthyThreshold ≤ 10) ∨
      ¬(1 ≤ policy.unhealthyThreshold ∧ policy.unhealthyThreshold ≤ 10) then
    .error ⟨.configHealthCheckInvalidThreshold, "health-check thresholds must be between 1 and 10"⟩
  else if ¬(100 ≤ policy.statusMin ∧ policy.statusMin ≤ 599) ∨
      ¬(100 ≤ policy.statusMax ∧ policy.statusMax ≤ 599) ∨ policy.statusMin > policy.statusMax then
    .error ⟨.configHealthCheckInvalidStatusRange,
      "health-check status range must be ordered within 100 through 599"⟩
  else .ok policy

def HttpHealthCheckPolicy.default : HttpHealthCheckPolicy where
  path := "/health".toList
  intervalMs := 10000
  timeoutMs := 2000
  healthyThreshold := 2
  unhealthyThreshold := 3
  statusMin := 200
  statusMax := 399

example : HttpHealthCheckPolicy.default.new = .ok .default := by decide

inductive HealthCheckPolicy where
  | disabled
  | http (policy : HttpHealthCheckPolicy)
  deriving DecidableEq

def RetryPolicy.default : RetryPolicy := ⟨false, 1, 32768⟩

def RetryPolicy.new (policy : RetryPolicy) : Except ValidationError RetryPolicy :=
  if policy.maxRetries > 1 ∨ (policy.enabled ∧ policy.maxRetries ≠ 1) ∨
      ¬(1024 ≤ policy.maxReplayBytes ∧ policy.maxReplayBytes ≤ 65536) then
    .error ⟨.configRetryPolicyInvalid, "retry policy is outside supported bounds"⟩
  else .ok policy

structure PassiveHealthPolicy where
  failureThreshold : ℕ
  ejectionMs : ℕ
  deriving DecidableEq

def PassiveHealthPolicy.new (policy : PassiveHealthPolicy) :
    Except ValidationError PassiveHealthPolicy :=
  if ¬(1 ≤ policy.failureThreshold ∧ policy.failureThreshold ≤ 10) ∨
      ¬(1000 ≤ policy.ejectionMs ∧ policy.ejectionMs ≤ 86400000) then
    .error ⟨.configPassiveHealthPolicyInvalid, "passive health policy is outside supported bounds"⟩
  else .ok policy

inductive PassiveHealthMode where
  | disabled
  | enabled (policy : PassiveHealthPolicy)
  deriving DecidableEq

inductive LoadBalancingPolicy where
  | roundRobin
  deriving DecidableEq

def LoadBalancingPolicy.asStr : LoadBalancingPolicy → Text
  | .roundRobin => "round_robin".toList

def LoadBalancingPolicy.parse : Except ValidationError LoadBalancingPolicy :=
  if value = "round_robin".toList then .ok .roundRobin
  else .error ⟨.configInvalidLoadBalancingPolicy, "unknown load-balancing policy"⟩

structure ServicePolicy where
  loadBalancing : LoadBalancingPolicy := .roundRobin
  healthCheck : HealthCheckPolicy := .disabled
  retry : RetryPolicy := .default
  passiveHealth : PassiveHealthMode := .disabled
  deriving DecidableEq

structure Service where
  id : Text
  upstreams : List Upstream
  policy : ServicePolicy
  deriving DecidableEq

inductive AcmeChallenge where
  | http01 | dns01
  deriving DecidableEq

structure CertificateResolver where
  id : Text
  email : Text
  challenge : AcmeChallenge
  productionEnabled : Bool
  deriving DecidableEq

inductive LogMode where
  | product | fieldDebug | dev
  deriving DecidableEq

def LogMode.asStr : LogMode → Text
  | .product => "product".toList
  | .fieldDebug => "field-debug".toList
  | .dev => "dev".toList

def LogMode.parse : Except ValidationError LogMode :=
  if value = "product".toList then .ok .product
  else if value = "field-debug".toList then .ok .fieldDebug
  else if value = "dev".toList then .ok .dev
  else .error ⟨.configInvalidLogMode, "unknown log mode"⟩

def defaultMaxConnections : ℕ := 1024

def defaultMaxInflightPayloadBytes : ℕ := 128 * 1024 * 1024

def fixedRequestHeaderReserveBytes : ℕ := 16 * 1024

def defaultMaxRequestBodyBytes : ℕ := 1024 * 1024

def defaultUpstreamReadTimeoutMs : ℕ := 30000

def minUpstreamReadTimeoutMs : ℕ := 10

def hardMaxUpstreamReadTimeoutMs : ℕ := 120000

structure MetricsConfig where
  enabled : Bool := false
  bind : Text := "127.0.0.1:9464".toList
  deriving DecidableEq

structure RuntimeOptions where
  maxConnections : ℕ
  maxInflightPayloadBytes : ℕ
  maxRequestHeaderBytes : ℕ
  maxRequestBodyBytes : ℕ
  upstreamReadTimeoutMs : ℕ
  metrics : MetricsConfig
  deriving DecidableEq

structure AdminConfig where
  bind : Text
  authRequired : Bool
  deriving DecidableEq

structure ConfigSnapshot where
  schemaVersion : UInt32
  revisionId : Text
  admin : AdminConfig
  listeners : List Listener
  routes : List Route
  services : List Service
  certificateResolvers : List CertificateResolver
  logMode : LogMode
  runtime : RuntimeOptions
  deriving DecidableEq

/-- What the source `schema_version = 1` says, under a revision id. -/
def seedSnapshot (revisionId : Text) : ConfigSnapshot where
  schemaVersion := 1
  revisionId := revisionId
  admin := ⟨"127.0.0.1:9443".toList, true⟩
  listeners := []
  routes := []
  services := []
  certificateResolvers := []
  logMode := .product
  runtime := ⟨defaultMaxConnections, defaultMaxInflightPayloadBytes,
    fixedRequestHeaderReserveBytes, defaultMaxRequestBodyBytes, defaultUpstreamReadTimeoutMs, {}⟩

end EdgeProxy

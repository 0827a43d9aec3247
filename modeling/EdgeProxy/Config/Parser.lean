import EdgeProxy.Config.Snapshot

/-! # Parsing a configuration

`parse_mvp_config` reads line by line into a draft and normalizes the draft at the end. The source
keeps the TLS, health, retry and passive-health drafts in maps keyed by position; the position is
always that of the last listener, service or upstream, so here each draft stands with its item.
`inService` and `inUpstream` say whether `current_service` and `current_upstream` are set.
-/

namespace EdgeProxy

open Rust

def expected (what : String) (value : Text) : AppError :=
  ⟨.configSchemaVersionMissing, "expected " ++ what ++ ": " ++ String.ofList value⟩

def parseString (value : Text) : Except AppError Text :=
  let trimmed := trim value
  if trimmed.head? = some '"' ∧ trimmed.getLast? = some '"' ∧ 2 ≤ trimmed.length then
    .ok (trimmed.tail.dropLast)
  else .error (expected "quoted string" value)

def parseStringArray (value : Text) : Except AppError (List Text) :=
  let trimmed := trim value
  if trimmed.head? ≠ some '[' ∨ trimmed.getLast? ≠ some ']' then
    .error (expected "string array" value)
  else
    let inner := trim trimmed.tail.dropLast
    if inner.isEmpty then .ok []
    else (inner.splitOn ',').mapM fun item => parseString (trim item)

/-- The unsigned types differ in their bound and in how the error names them. -/
def parseNumber (what : String) (bound : ℕ) (value : Text) : Except AppError ℕ :=
  match parseUnsigned 10 bound (trim value) with
  | some n => .ok n
  | none => .error (expected what value)

def parseConfigU32 (value : Text) : Except AppError UInt32 :=
  (parseNumber "unsigned integer" (2 ^ 32) value).map UInt32.ofNat

def parseConfigU64 : Text → Except AppError ℕ := parseNumber "unsigned integer" (2 ^ 64)

def parseConfigUsize : Text → Except AppError ℕ := parseNumber "unsigned integer" usizeBound

def parseConfigU16 : Text → Except AppError ℕ := parseNumber "16-bit unsigned integer" (2 ^ 16)

def parseConfigU8 : Text → Except AppError ℕ := parseNumber "8-bit unsigned integer" (2 ^ 8)

def parseI32 (value : Text) : Option Int32 :=
  match value with
  | '-' :: digits =>
    if digits.isEmpty then none
    else ((digitsValue 10 0 digits).filter (· ≤ 2 ^ 31)).map fun n => Int32.ofInt (-(n : ℤ))
  | value => (parseUnsigned 10 (2 ^ 31) value).map fun n => Int32.ofInt n

def parseConfigI32 (value : Text) : Except AppError Int32 :=
  match parseI32 (trim value) with
  | some n => .ok n
  | none => .error (expected "signed integer" value)

def parseBool (value : Text) : Except AppError Bool :=
  if trim value = "true".toList then .ok true
  else if trim value = "false".toList then .ok false
  else .error (expected "boolean" value)

structure ListenerDraft where
  id : Text := []
  bind : Text := []
  protocol : ListenerProtocol := .http
  clientAuth : Option Text := none
  trustBundleRef : Option Text := none

structure UpstreamDraft where
  id : Text := []
  url : Text := []
  administrativeState : UpstreamAdministrativeState := .active
  serverName : Option Text := none
  httpHost : Option Text := none
  trustBundleRef : Option Text := none

structure HttpHealthCheckDraft where
  enabled : Option Bool := none
  path : Option Text := none
  intervalMs : Option ℕ := none
  timeoutMs : Option ℕ := none
  healthyThreshold : Option ℕ := none
  unhealthyThreshold : Option ℕ := none
  statusMin : Option ℕ := none
  statusMax : Option ℕ := none

structure RetryPolicyDraft where
  enabled : Option Bool := none
  maxRetries : Option ℕ := none
  maxReplayBytes : Option ℕ := none

structure PassiveHealthPolicyDraft where
  enabled : Option Bool := none
  failureThreshold : Option ℕ := none
  ejectionMs : Option ℕ := none

structure ServiceDraft where
  id : Text := []
  loadBalancing : LoadBalancingPolicy := .roundRobin
  healthCheck : Option HttpHealthCheckDraft := none
  retry : Option RetryPolicyDraft := none
  passiveHealth : Option PassiveHealthPolicyDraft := none
  upstreams : List UpstreamDraft := []

def Route.empty : Route where
  id := []
  routeMatch := ⟨[], []⟩
  serviceId := []
  priority := 0
  enabled := true
  redirectHttpToHttps := false
  certificateResolverId := none
  certificateRef := none

structure MvpConfigDraft where
  schemaVersion : Option UInt32 := none
  adminBind : Option Text := none
  logMode : Option LogMode := none
  maxConnections : Option ℕ := none
  maxInflightPayloadBytes : Option ℕ := none
  upstreamReadTimeoutMs : Option ℕ := none
  metricsEnabled : Option Bool := none
  metricsBind : Option Text := none
  listeners : List ListenerDraft := []
  services : List ServiceDraft := []
  routes : List Route := []
  inService : Bool := false
  inUpstream : Bool := false
  unknownFields : List Text := []

inductive Section where
  | top | admin | logging | storage | runtime | metrics | listeners | services
  | servicesHealthCheck | servicesRetry | servicesPassiveHealth | servicesUpstreams | routes
  | other (name : Text)

def Section.ofName (name : Text) : Section :=
  if name = "".toList then .top
  else if name = "admin".toList then .admin
  else if name = "logging".toList then .logging
  else if name = "storage".toList then .storage
  else if name = "runtime".toList then .runtime
  else if name = "metrics".toList then .metrics
  else if name = "listeners".toList then .listeners
  else if name = "services".toList then .services
  else if name = "services.health_check".toList then .servicesHealthCheck
  else if name = "services.retry".toList then .servicesRetry
  else if name = "services.passive_health".toList then .servicesPassiveHealth
  else if name = "services.upstreams".toList then .servicesUpstreams
  else if name = "routes".toList then .routes
  else .other name

def Section.name : Section → Text
  | .top => []
  | .admin => "admin".toList
  | .logging => "logging".toList
  | .storage => "storage".toList
  | .runtime => "runtime".toList
  | .metrics => "metrics".toList
  | .listeners => "listeners".toList
  | .services => "services".toList
  | .servicesHealthCheck => "services.health_check".toList
  | .servicesRetry => "services.retry".toList
  | .servicesPassiveHealth => "services.passive_health".toList
  | .servicesUpstreams => "services.upstreams".toList
  | .routes => "routes".toList
  | .other name => name

def modifyLast {α : Type} (f : α → α) : List α → List α
  | [] => []
  | [a] => [f a]
  | a :: as => a :: modifyLast f as

/-- `last_mut` with a change that may fail. -/
def updateLast {α : Type} (f : α → Except AppError α) : List α → Except AppError (List α)
  | [] => .ok []
  | [a] => (f a).map fun a => [a]
  | a :: as => (updateLast f as).map (a :: ·)

def missingService (message : String) : AppError := ⟨.configServiceWithoutUpstream, message⟩

variable (draft : MvpConfigDraft) (key value : Text) (schemaVersion : UInt32)
  (service : ServiceDraft)

def unknownField (section_ : Section) (key : Text) : MvpConfigDraft :=
  { draft with unknownFields := draft.unknownFields ++ [section_.name ++ '.' :: key] }

def liftValidation {α : Type} : Except ValidationError α → Except AppError α
  | .ok a => .ok a
  | .error e => .error ⟨e.code, e.message⟩

def applyListenerValue (listener : ListenerDraft) : Option (Except AppError ListenerDraft) :=
  if key = "name".toList then some do return { listener with id := ← parseString value }
  else if key = "bind".toList then some do return { listener with bind := ← parseString value }
  else if key = "protocol".toList then some do
    let protocol ← parseString value
    if protocol = "http".toList then return { listener with protocol := .http }
    else if protocol = "https".toList then return { listener with protocol := .https }
    else .error ⟨.configSchemaVersionMissing,
      "unsupported listener protocol: " ++ String.ofList protocol⟩
  else if key = "client_auth".toList then some do
    return { listener with clientAuth := some (← parseString value) }
  else if key = "client_trust_bundle_ref".toList then some do
    return { listener with trustBundleRef := some (← parseString value) }
  else none

def applyHealthCheckValue (health : HttpHealthCheckDraft) :
    Option (Except AppError HttpHealthCheckDraft) :=
  if key = "enabled".toList then some do return { health with enabled := some (← parseBool value) }
  else if key = "path".toList then some do return { health with path := some (← parseString value) }
  else if key = "interval_ms".toList then some do
    return { health with intervalMs := some (← parseConfigU64 value) }
  else if key = "timeout_ms".toList then some do
    return { health with timeoutMs := some (← parseConfigU64 value) }
  else if key = "healthy_threshold".toList then some do
    return { health with
      healthyThreshold := some (← parseNumber "unsigned integer" (2 ^ 32) value) }
  else if key = "unhealthy_threshold".toList then some do
    return { health with
      unhealthyThreshold := some (← parseNumber "unsigned integer" (2 ^ 32) value) }
  else if key = "status_min".toList then some do
    return { health with statusMin := some (← parseConfigU16 value) }
  else if key = "status_max".toList then some do
    return { health with statusMax := some (← parseConfigU16 value) }
  else none

def applyRetryValue (policy : RetryPolicyDraft) : Option (Except AppError RetryPolicyDraft) :=
  if key = "enabled".toList then some do return { policy with enabled := some (← parseBool value) }
  else if key = "max_retries".toList then some do
    return { policy with maxRetries := some (← parseConfigU8 value) }
  else if key = "max_replay_bytes".toList then some do
    return { policy with maxReplayBytes := some (← parseConfigU64 value) }
  else none

def applyPassiveHealthValue (policy : PassiveHealthPolicyDraft) :
    Option (Except AppError PassiveHealthPolicyDraft) :=
  if key = "enabled".toList then some do return { policy with enabled := some (← parseBool value) }
  else if key = "failure_threshold".toList then some do
    return { policy with failureThreshold := some (← parseConfigU8 value) }
  else if key = "ejection_ms".toList then some do
    return { policy with ejectionMs := some (← parseConfigU64 value) }
  else none

/-- The keys of an upstream, with the error when there is no upstream. -/
def applyUpstreamValue (upstream : UpstreamDraft) :
    Option (AppError × Except AppError UpstreamDraft) :=
  let undeclared := missingService "upstream declared before service"
  let missing : AppError := ⟨.configTlsPolicyInvalid, "upstream is missing"⟩
  if key = "name".toList then
    some (undeclared, do return { upstream with id := ← parseString value })
  else if key = "url".toList then
    some (undeclared, do return { upstream with url := ← parseString value })
  else if key = "administrative_state".toList then
    some (undeclared, do
      let state ← parseString value
      if state = "active".toList then return { upstream with administrativeState := .active }
      else if state = "draining".toList then
        return { upstream with administrativeState := .draining }
      else .error ⟨.configPassiveHealthPolicyInvalid, "unsupported upstream administrative state"⟩)
  else if key = "tls_server_name".toList then
    some (missing, do return { upstream with serverName := some (← parseString value) })
  else if key = "upstream_http_host".toList then
    some (missing, do return { upstream with httpHost := some (← parseString value) })
  else if key = "tls_trust_bundle_ref".toList then
    some (missing, do return { upstream with trustBundleRef := some (← parseString value) })
  else none

def applyRouteValue (route : Route) : Option (Except AppError Route) :=
  if key = "name".toList then some do return { route with id := ← parseString value }
  else if key = "hosts".toList then some do
    return { route with
      routeMatch.hosts := (← parseStringArray value).map HostMatch.exact }
  else if key = "paths".toList then some do
    return { route with
      routeMatch.paths := route.routeMatch.paths ++ (← parseStringArray value).map PathMatch.below }
  else if key = "exact_paths".toList then some do
    return { route with
      routeMatch.paths := route.routeMatch.paths ++ (← parseStringArray value).map PathMatch.exact }
  else if key = "service".toList then some do return { route with serviceId := ← parseString value }
  else if key = "priority".toList then some do
    return { route with priority := ← parseConfigI32 value }
  else if key = "enabled".toList then some do return { route with enabled := ← parseBool value }
  else if key = "redirect_http_to_https".toList then some do
    return { route with redirectHttpToHttps := ← parseBool value }
  else if key = "certificate_ref".toList then some do
    return { route with certificateRef := some (← parseString value) }
  else none

/-- A key of the last listener; the two TLS keys need one. -/
def applyListenersValue : Except AppError MvpConfigDraft :=
  match applyListenerValue key value {} with
  | none => .ok (unknownField draft .listeners key)
  | some _ =>
    if draft.listeners.isEmpty ∧
        (key = "client_auth".toList ∨ key = "client_trust_bundle_ref".toList) then
      .error ⟨.configClientAuthPolicyInvalid, "listener is missing"⟩
    else do
      let listeners ← updateLast
        (fun listener => (applyListenerValue key value listener).getD (.ok listener))
        draft.listeners
      return { draft with listeners }

/-- A key of a policy of the current service; an unknown key still starts the policy. -/
def applyServicePolicyValue {α : Type} (draft : MvpConfigDraft) (section_ : Section)
    (key : Text) (message : String) (get : ServiceDraft → Option α) (empty : α)
    (set : ServiceDraft → α → ServiceDraft) (apply : α → Option (Except AppError α)) :
    Except AppError MvpConfigDraft :=
  if !draft.inService then .error (missingService message)
  else
    match apply empty with
    | none =>
      let services := modifyLast (fun s => set s ((get s).getD empty)) draft.services
      .ok (unknownField { draft with services } section_ key)
    | some _ => do
      let services ← updateLast (fun s => do
        let policy := (get s).getD empty
        return set s (← (apply policy).getD (.ok policy))) draft.services
      return { draft with services }

def applyServicesValue : Except AppError MvpConfigDraft :=
  if key = "name".toList then
    if !draft.inService then .ok draft
    else do
      let id ← parseString value
      return { draft with services := modifyLast (fun s => { s with id }) draft.services }
  else if key = "load_balancer".toList then
    if !draft.inService then .ok draft
    else do
      let loadBalancing ← liftValidation (LoadBalancingPolicy.parse (← parseString value))
      return { draft with
        services := modifyLast (fun s => { s with loadBalancing }) draft.services }
  else .ok (unknownField draft .services key)

def applyUpstreamsValue : Except AppError MvpConfigDraft :=
  match applyUpstreamValue key value {} with
  | none => .ok (unknownField draft .servicesUpstreams key)
  | some (missing, _) =>
    if !draft.inUpstream then .error missing
    else do
      let services ← updateLast (fun s => do
        let upstreams ← updateLast (fun upstream =>
          ((applyUpstreamValue key value upstream).map Prod.snd).getD (.ok upstream)) s.upstreams
        return { s with upstreams }) draft.services
      return { draft with services }

def applyRoutesValue : Except AppError MvpConfigDraft :=
  match applyRouteValue key value .empty with
  | none => .ok (unknownField draft .routes key)
  | some _ => do
    let routes ← updateLast
      (fun route => (applyRouteValue key value route).getD (.ok route)) draft.routes
    return { draft with routes }

def applyMvpConfigValue (section_ : Section) (key value : Text) : Except AppError MvpConfigDraft :=
  match section_ with
  | .top =>
    if key = "schema_version".toList then do
      return { draft with schemaVersion := some (← parseConfigU32 value) }
    else .ok (unknownField draft section_ key)
  | .admin =>
    if key = "bind".toList then do
      return { draft with adminBind := some (← parseString value) }
    else if key = "enabled".toList then .ok draft
    else .ok (unknownField draft section_ key)
  | .logging =>
    if key = "mode".toList then do
      return { draft with
        logMode := some (← liftValidation (LogMode.parse (← parseString value))) }
    else .ok (unknownField draft section_ key)
  | .storage =>
    if key = "data_dir".toList then .ok draft else .ok (unknownField draft section_ key)
  | .runtime =>
    if key = "max_connections".toList then do
      return { draft with maxConnections := some (← parseConfigUsize value) }
    else if key = "max_inflight_payload_bytes".toList then do
      return { draft with maxInflightPayloadBytes := some (← parseConfigUsize value) }
    else if key = "upstream_read_timeout_ms".toList then do
      return { draft with upstreamReadTimeoutMs := some (← parseConfigU64 value) }
    else .ok (unknownField draft section_ key)
  | .metrics =>
    if key = "enabled".toList then do
      return { draft with metricsEnabled := some (← parseBool value) }
    else if key = "bind".toList then do
      return { draft with metricsBind := some (← parseString value) }
    else .ok (unknownField draft section_ key)
  | .listeners => applyListenersValue draft key value
  | .services => applyServicesValue draft key value
  | .servicesHealthCheck =>
    applyServicePolicyValue draft section_ key "health check declared before service"
      ServiceDraft.healthCheck {} (fun s p => { s with healthCheck := some p })
      (applyHealthCheckValue key value)
  | .servicesRetry =>
    applyServicePolicyValue draft section_ key "retry declared before service"
      ServiceDraft.retry {} (fun s p => { s with retry := some p }) (applyRetryValue key value)
  | .servicesPassiveHealth =>
    applyServicePolicyValue draft section_ key "passive health declared before service"
      ServiceDraft.passiveHealth {} (fun s p => { s with passiveHealth := some p })
      (applyPassiveHealthValue key value)
  | .servicesUpstreams => applyUpstreamsValue draft key value
  | .routes => applyRoutesValue draft key value
  | .other _ => .ok (unknownField draft section_ key)

/-- `trim_start_matches` of a text; `fuel` bounds the number of its occurrences. -/
def trimStartMatchesFuel (pattern : Text) : ℕ → Text → Text
  | 0, t => t
  | fuel + 1, t =>
    match stripPrefix pattern t with
    | some rest => trimStartMatchesFuel pattern fuel rest
    | none => t

def trimStartMatchesText (pattern t : Text) : Text := trimStartMatchesFuel pattern t.length t

def trimEndMatchesText (pattern t : Text) : Text :=
  (trimStartMatchesText pattern.reverse t.reverse).reverse

def bracketed (opening closing line : Text) : Text :=
  trim (trimEndMatchesText closing (trimStartMatchesText opening line))

structure ParserState where
  section_ : Section := .top
  draft : MvpConfigDraft := {}

def startItem (name : Text) (draft : MvpConfigDraft) : Except AppError MvpConfigDraft :=
  match Section.ofName name with
  | .listeners =>
    .ok { draft with listeners := draft.listeners ++ [{}], inService := false, inUpstream := false }
  | .services =>
    .ok { draft with services := draft.services ++ [{}], inService := true, inUpstream := false }
  | .servicesUpstreams =>
    if !draft.inService then .error (missingService "upstream declared before service")
    else
      let services :=
        modifyLast (fun s => { s with upstreams := s.upstreams ++ [{}] }) draft.services
      .ok { draft with services, inUpstream := true }
  | .routes =>
    .ok { draft with routes := draft.routes ++ [.empty], inService := false, inUpstream := false }
  | _ => .ok { draft with inUpstream := false, unknownFields := draft.unknownFields ++ [name] }

def startServicePolicy (start : ServiceDraft → ServiceDraft) : Except AppError MvpConfigDraft :=
  if !draft.inService then .error (missingService "health check declared before service")
  else .ok { draft with services := modifyLast start draft.services }

def startTable (name : Text) (draft : MvpConfigDraft) : Except AppError MvpConfigDraft :=
  let draft := { draft with inUpstream := false }
  match Section.ofName name with
  | .servicesHealthCheck =>
    startServicePolicy draft fun s => { s with healthCheck := some (s.healthCheck.getD {}) }
  | .servicesRetry => startServicePolicy draft fun s => { s with retry := some (s.retry.getD {}) }
  | .servicesPassiveHealth =>
    startServicePolicy draft fun s => { s with passiveHealth := some (s.passiveHealth.getD {}) }
  | _ => .ok { draft with inService := false }

def startsWith (pattern t : Text) : Bool := (stripPrefix pattern t).isSome

def endsWith (pattern t : Text) : Bool := (stripSuffix pattern t).isSome

def parseLine (state : ParserState) (rawLine : Text) : Except AppError ParserState :=
  let line := trim rawLine
  if line.isEmpty || line.head? == some '#' then .ok state
  else if startsWith "[[".toList line && endsWith "]]".toList line then do
    let name := bracketed "[[".toList "]]".toList line
    return { section_ := .ofName name, draft := ← startItem name state.draft }
  else if startsWith ['['] line && endsWith [']'] line then do
    let name := bracketed ['['] [']'] line
    return { section_ := .ofName name, draft := ← startTable name state.draft }
  else
    match splitOnce '=' line with
    | none =>
      .error ⟨.configSchemaVersionMissing, "malformed config line: " ++ String.ofList line⟩
    | some (key, value) => do
      return { state with
        draft := ← applyMvpConfigValue state.draft state.section_ (trim key) (trim value) }

def parseLines : List Text → ParserState → Except AppError ParserState
  | [], state => .ok state
  | line :: lines, state => parseLine state line >>= parseLines lines

def normalizeListener (listener : ListenerDraft) : Except AppError Listener := do
  let clientAuth ← liftValidation (normalizeClientAuthPolicy schemaVersion listener.protocol
    listener.clientAuth listener.trustBundleRef)
  return ⟨listener.id, listener.bind, listener.protocol, clientAuth⟩

def normalizeUpstream (upstream : UpstreamDraft) : Except AppError Upstream := do
  let tls ← liftValidation (normalizeUpstreamTlsPolicy schemaVersion upstream.url
    upstream.serverName upstream.httpHost upstream.trustBundleRef)
  return ⟨upstream.id, upstream.url, upstream.administrativeState, tls⟩

structure ServiceStage where
  draft : ServiceDraft
  upstreams : List Upstream

def normalizeUpstreams : Except AppError ServiceStage := do
  return ⟨service, ← service.upstreams.mapM (normalizeUpstream schemaVersion)⟩

def normalizeUpstreamIds (service : ServiceStage) : Except AppError ServiceStage :=
  match service.upstreams with
  | [upstream] =>
    if upstream.id.isEmpty then
      .ok { service with
        upstreams := [{ upstream with id := service.draft.id ++ "-primary".toList }] }
    else .ok service
  | upstreams =>
    if upstreams.any (·.id.isEmpty) then
      .error ⟨.configUpstreamIdRequired, "service " ++ String.ofList service.draft.id ++
        " has multiple upstreams without explicit names"⟩
    else .ok service

def normalizeHealthCheck : Except AppError HealthCheckPolicy :=
  match service.healthCheck with
  | none => .ok .disabled
  | some draft =>
    if !draft.enabled.getD false then .ok .disabled
    else
      let defaults := HttpHealthCheckPolicy.default
      (liftValidation (HttpHealthCheckPolicy.new
        { path := draft.path.getD defaults.path
          intervalMs := draft.intervalMs.getD defaults.intervalMs
          timeoutMs := draft.timeoutMs.getD defaults.timeoutMs
          healthyThreshold := draft.healthyThreshold.getD defaults.healthyThreshold
          unhealthyThreshold := draft.unhealthyThreshold.getD defaults.unhealthyThreshold
          statusMin := draft.statusMin.getD defaults.statusMin
          statusMax := draft.statusMax.getD defaults.statusMax })).map .http

def normalizeRetry : Except AppError RetryPolicy :=
  match service.retry with
  | none => .ok .default
  | some draft => liftValidation (RetryPolicy.new
      { enabled := draft.enabled.getD false
        maxRetries := draft.maxRetries.getD RetryPolicy.default.maxRetries
        maxReplayBytes := draft.maxReplayBytes.getD RetryPolicy.default.maxReplayBytes })

def normalizePassiveHealth : Except AppError PassiveHealthMode :=
  match service.passiveHealth with
  | none => .ok .disabled
  | some draft =>
    if draft.enabled.getD false then
      (liftValidation (PassiveHealthPolicy.new
        { failureThreshold := draft.failureThreshold.getD 3
          ejectionMs := draft.ejectionMs.getD 30000 })).map .enabled
    else .ok .disabled

/-- The services after the three passes over their policies, in the order of the source. -/
def normalizeServices (services : List ServiceDraft) : Except AppError (List Service) := do
  let stages ← services.mapM (normalizeUpstreams schemaVersion)
  let stages ← stages.mapM normalizeUpstreamIds
  let healthChecks ← services.mapM normalizeHealthCheck
  let retries ← services.mapM normalizeRetry
  let passives ← services.mapM normalizePassiveHealth
  return (stages.zip (healthChecks.zip (retries.zip passives))).map fun (stage, h, r, p) =>
    { id := stage.draft.id
      upstreams := stage.upstreams
      policy := ⟨stage.draft.loadBalancing, h, r, p⟩ }

structure ConfigSource where
  snapshot : ConfigSnapshot
  schemaVersionPresent : Bool
  unknownFields : List Text
  deriving DecidableEq

def finishDraft (revisionId : Text) : Except AppError ConfigSource := do
  let schemaVersion := draft.schemaVersion.getD 0
  let listeners ← draft.listeners.mapM (normalizeListener schemaVersion)
  let services ← normalizeServices schemaVersion draft.services
  return {
    snapshot := {
      schemaVersion, revisionId
      admin := ⟨draft.adminBind.getD "127.0.0.1:9443".toList, true⟩
      listeners
      routes := draft.routes
      services
      certificateResolvers := []
      logMode := draft.logMode.getD .product
      runtime := {
        maxConnections := draft.maxConnections.getD defaultMaxConnections
        maxInflightPayloadBytes :=
          draft.maxInflightPayloadBytes.getD defaultMaxInflightPayloadBytes
        maxRequestHeaderBytes := fixedRequestHeaderReserveBytes
        maxRequestBodyBytes := defaultMaxRequestBodyBytes
        upstreamReadTimeoutMs := draft.upstreamReadTimeoutMs.getD defaultUpstreamReadTimeoutMs
        metrics := ⟨draft.metricsEnabled.getD false,
          draft.metricsBind.getD "127.0.0.1:9464".toList⟩ } }
    schemaVersionPresent := draft.schemaVersion.isSome
    unknownFields := draft.unknownFields }

def parseMvpConfig (source revisionId : Text) : Except AppError ConfigSource := do
  let state ← parseLines (lines source) {}
  finishDraft state.draft revisionId

end EdgeProxy

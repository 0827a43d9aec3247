import EdgeProxy.Config.Parser

/-! # Validating a configuration

`ConfigValidator::validate_snapshot` collects every error in the order of the source. The sets it
keeps of the ids, binds and keys seen so far are lists here.
-/

namespace EdgeProxy

open Rust

structure ConfigValidator where
  rejectUnknownFields : Bool := true
  allowProductionAcme : Bool := false

def invalidResourcePolicy (message : String) : AppError := ⟨.configResourceLimitInvalid, message⟩

/-- The checks of `RuntimeResourcePolicy::try_new`. -/
def checkResourcePolicy (maxConnections maxInflightPayloadBytes : ℕ) : Except AppError Unit :=
  if ¬(minMaxConnections ≤ maxConnections ∧ maxConnections ≤ hardMaxConnections) then
    .error (invalidResourcePolicy "max connections is outside the supported range")
  else if ¬(minMaxInflightPayloadBytes ≤ maxInflightPayloadBytes ∧
      maxInflightPayloadBytes ≤ hardMaxInflightPayloadBytes) then
    .error (invalidResourcePolicy "in-flight payload limit is outside the supported range")
  else if maxInflightPayloadBytes < maxConnections * perConnectionReserve then
    .error (invalidResourcePolicy "in-flight payload limit is below the fixed connection reserve")
  else .ok ()

/-- The checks of `RuntimeTimeoutPolicy::try_new`. -/
def checkTimeoutPolicy (upstreamReadTimeoutMs : ℕ) : Except AppError Unit :=
  if ¬(minUpstreamReadTimeoutMs ≤ upstreamReadTimeoutMs ∧
      upstreamReadTimeoutMs ≤ hardMaxUpstreamReadTimeoutMs) then
    .error (invalidResourcePolicy "upstream read timeout is outside the supported range")
  else .ok ()

def errorsOf : Except AppError Unit → List ValidationError
  | .ok _ => []
  | .error e => [⟨e.code, e.message⟩]

def reportIf (condition : Bool) (code : ErrorCode) (message : String) : List ValidationError :=
  if condition then [⟨code, message⟩] else []

def isExternalBind (bind : Text) : Bool :=
  startsWith "0.0.0.0".toList bind || startsWith "[::]".toList bind

def isValidEmail (value : Text) : Bool :=
  match splitOnce '@' value with
  | none => false
  | some (localPart, domain) =>
    !localPart.isEmpty && domain.contains '.' && domain.head? != some '.' &&
      domain.getLast? != some '.' && !domain.contains '@'

def isMetadataHost (host : Text) : Bool :=
  host == "169.254.169.254".toList || host == "169.254.169.253".toList ||
    host == "metadata.google.internal".toList || host == "metadata".toList ||
    host == "instance-data".toList

namespace ConfigValidator

def listenerErrors : List Text → List Listener → List ValidationError
  | _, [] => []
  | seen, listener :: listeners =>
    reportIf (seen.contains listener.id) .configListenerDuplicate
        ("duplicate listener: " ++ String.ofList listener.id) ++
      reportIf (parseSocketAddr listener.bind).isNone .configInvalidBindAddress
        ("invalid listener bind address: " ++ String.ofList listener.bind) ++
      listenerErrors (listener.id :: seen) listeners

variable (validator : ConfigValidator) (snapshot : ConfigSnapshot) (schemaVersion : UInt32)

def bindErrors : List ValidationError :=
  reportIf (parseSocketAddr snapshot.admin.bind).isNone .configInvalidBindAddress
      ("invalid admin bind address: " ++ String.ofList snapshot.admin.bind) ++
    reportIf (snapshot.runtime.metrics.enabled &&
        !(parseSocketAddr snapshot.runtime.metrics.bind).any (·.ip.isLoopback))
      .configInvalidBindAddress "enabled metrics bind must be a valid loopback socket address" ++
    reportIf ((snapshot.listeners.map Listener.bind).contains snapshot.admin.bind)
      .configAdminBindConflict "admin bind conflicts with listener bind" ++
    reportIf (isExternalBind snapshot.admin.bind && !snapshot.admin.authRequired)
      .configAdminExternalBindWithoutAuth "external admin bind requires auth"

def resolverErrors (hasHttpListener : Bool)
    (resolver : CertificateResolver) : List ValidationError :=
  reportIf (!isValidEmail resolver.email) .configInvalidAcmeEmail
      ("invalid ACME email: " ++ String.ofList resolver.email) ++
    reportIf (resolver.challenge == .http01 && !hasHttpListener) .configHttp01WithoutHttpListener
      "HTTP-01 requires an HTTP listener" ++
    reportIf (resolver.productionEnabled && !validator.allowProductionAcme)
      .configProductionAcmeRequiresOptIn "production ACME requires explicit opt-in"

def policyMatches : UpstreamScheme → UpstreamTlsPolicy → Bool
  | .http, .disabled => true
  | .https, .serverAuthenticated .. => true
  | _, _ => false

/-- The errors of one endpoint, and whether it joins the endpoints seen. -/
def endpointErrors (seen : List UpstreamEndpoint) (upstream : Upstream) :
    List ValidationError × List UpstreamEndpoint :=
  match UpstreamEndpoint.parse upstream.url with
  | .error error => ([error], seen)
  | .ok endpoint =>
    if schemaVersion = 1 ∧ endpoint.scheme = .https then
      ([⟨.configInvalidUpstreamUrl, "schema v1 upstream URL must use HTTP"⟩], seen)
    else if !policyMatches endpoint.scheme upstream.tls then
      ([⟨.configTlsPolicyInvalid, "upstream scheme and TLS policy do not match"⟩], seen)
    else if isMetadataHost endpoint.host then
      ([⟨.configUnsafeUpstreamUrl,
        "blocked metadata upstream url: " ++ String.ofList upstream.url⟩], seen)
    else if seen.contains endpoint then
      ([⟨.configInvalidUpstreamUrl,
        "duplicate normalized upstream url: " ++ String.ofList upstream.url⟩], seen)
    else ([], endpoint :: seen)

def upstreamErrors (schemaVersion : UInt32) (serviceId : Text) :
    List Text → List UpstreamEndpoint → List Upstream → List ValidationError
  | _, _, [] => []
  | ids, endpoints, upstream :: upstreams =>
    let idErrors :=
      if upstream.id.isEmpty then
        [⟨.configUpstreamIdRequired,
          "service " ++ String.ofList serviceId ++ " has an upstream without a name"⟩]
      else reportIf (ids.contains upstream.id) .configUpstreamIdDuplicate
        ("service " ++ String.ofList serviceId ++ " has duplicate upstream name: " ++
          String.ofList upstream.id)
    let ids := if upstream.id.isEmpty then ids else upstream.id :: ids
    match endpointErrors schemaVersion endpoints upstream with
    | (errors, endpoints) =>
      idErrors ++ errors ++ upstreamErrors schemaVersion serviceId ids endpoints upstreams

def serviceErrors (service : Service) : List ValidationError :=
  reportIf service.upstreams.isEmpty .configServiceWithoutUpstream
      ("service has no upstream: " ++ String.ofList service.id) ++
    reportIf (!service.upstreams.isEmpty &&
        service.upstreams.all (·.administrativeState == .draining)) .configServiceWithoutUpstream
      ("service has no active upstream: " ++ String.ofList service.id) ++
    upstreamErrors schemaVersion service.id [] [] service.upstreams

def routeKeys (route : Route) : List Text :=
  route.routeMatch.hosts.flatMap fun host =>
    route.routeMatch.paths.map fun path => host.normalized ++ path.pathText

def duplicateKeyErrors : List Text → List Text → List ValidationError
  | _, [] => []
  | seen, key :: keys =>
    reportIf (seen.contains key) .configRouteDuplicate "duplicate normalized host/path route" ++
      duplicateKeyErrors (key :: seen) keys

def redirectErrors (resolvers : List CertificateResolver) (route : Route) : List ValidationError :=
  if !route.redirectHttpToHttps then []
  else
    reportIf (route.certificateRef.isNone && route.certificateResolverId.isNone)
        .configHttpsRouteCertificateMissing
        ("route has HTTPS redirect without certificate: " ++ String.ofList route.id) ++
      reportIf ((route.certificateResolverId.bind fun id => resolvers.find? (·.id == id)).any
          (·.challenge == .http01))
        .configAcmeChallengeBlockedByRedirect "HTTP-01 challenge must bypass HTTPS redirect"

def routeErrors (snapshot : ConfigSnapshot) :
    List Text → List Text → List Route → List ValidationError
  | _, _, [] => []
  | ids, keys, route :: routes =>
    reportIf (ids.contains route.id) .configRouteDuplicate
        ("duplicate route: " ++ String.ofList route.id) ++
      reportIf (route.routeMatch.hosts.isEmpty || route.routeMatch.paths.isEmpty)
        .configRouteMatchEmpty ("route has empty host/path match: " ++ String.ofList route.id) ++
      reportIf (!(snapshot.services.map Service.id).contains route.serviceId)
        .configRouteMissingService
        ("route references missing service: " ++ String.ofList route.serviceId) ++
      duplicateKeyErrors keys (routeKeys route) ++
      redirectErrors snapshot.certificateResolvers route ++
      routeErrors snapshot (route.id :: ids) (routeKeys route ++ keys) routes

def validateSnapshot : List ValidationError :=
  let hasHttpListener := snapshot.listeners.any (·.protocol == .http)
  errorsOf (checkResourcePolicy snapshot.runtime.maxConnections
      snapshot.runtime.maxInflightPayloadBytes) ++
    errorsOf (checkTimeoutPolicy snapshot.runtime.upstreamReadTimeoutMs) ++
    listenerErrors [] snapshot.listeners ++ bindErrors snapshot ++
    snapshot.certificateResolvers.flatMap (resolverErrors validator hasHttpListener) ++
    snapshot.services.flatMap (serviceErrors snapshot.schemaVersion) ++
    routeErrors snapshot [] [] snapshot.routes

def joinFields (fields : List Text) : String :=
  String.ofList (", ".toList.intercalate fields)

def validateSource (source : ConfigSource) : List ValidationError :=
  validator.validateSnapshot source.snapshot ++
    reportIf (!source.schemaVersionPresent) .configSchemaVersionMissing
      "schema_version is required" ++
    reportIf (validator.rejectUnknownFields && !source.unknownFields.isEmpty)
      .configSchemaVersionMissing ("unknown fields: " ++ joinFields source.unknownFields)

end ConfigValidator

def validationErrorsToAppError (errors : List ValidationError) : AppError :=
  match errors with
  | [] => ⟨.internalBug, "unknown validation error"⟩
  | first :: _ => ⟨first.code, first.message⟩

end EdgeProxy

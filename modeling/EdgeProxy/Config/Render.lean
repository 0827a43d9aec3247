import EdgeProxy.Config.Snapshot

/-! # Rendering a configuration snapshot

`render_mvp_config_snapshot` writes whole lines, so the renderer is the list of its lines, each
followed by a line feed. Strings are written between quotes without any escape.
-/

namespace EdgeProxy

open Rust

namespace Render

variable (key : String) (snapshot : ConfigSnapshot) (values : List Text) (value : Text)

def stringLine : Text :=
  key.toList ++ " = \"".toList ++ value ++ ['"']

def scalarLine : Text := key.toList ++ " = ".toList ++ value

def natLine (value : ℕ) : Text := scalarLine key (toString value).toList

def boolLine (value : Bool) : Text :=
  scalarLine key (if value then "true".toList else "false".toList)

def quotedArray : Text :=
  ", ".toList.intercalate (values.map fun value => '"' :: value ++ ['"'])

def arrayLine : Text :=
  key.toList ++ " = [".toList ++ quotedArray values ++ [']']

def ListenerProtocol.asStr : ListenerProtocol → Text
  | .http => "http".toList
  | .https => "https".toList

def listenerLines (listener : Listener) : List Text :=
  ["[[listeners]]".toList, stringLine "name" listener.id, stringLine "bind" listener.bind,
    stringLine "protocol" (ListenerProtocol.asStr listener.protocol)] ++
  (match listener.clientAuth with
    | .disabled => []
    | .required trustBundleRef =>
      [stringLine "client_auth" "required".toList,
        stringLine "client_trust_bundle_ref" trustBundleRef.value]) ++
  [[]]

def healthCheckLines (policy : HttpHealthCheckPolicy) : List Text :=
  ["[services.health_check]".toList, boolLine "enabled" true, stringLine "path" policy.path,
    natLine "interval_ms" policy.intervalMs, natLine "timeout_ms" policy.timeoutMs,
    natLine "healthy_threshold" policy.healthyThreshold,
    natLine "unhealthy_threshold" policy.unhealthyThreshold,
    natLine "status_min" policy.statusMin, natLine "status_max" policy.statusMax, []]

def retryLines (policy : RetryPolicy) : List Text :=
  ["[services.retry]".toList, boolLine "enabled" policy.enabled,
    natLine "max_retries" policy.maxRetries, natLine "max_replay_bytes" policy.maxReplayBytes, []]

def passiveHealthLines (mode : PassiveHealthMode) : List Text :=
  let (enabled, policy) : Bool × PassiveHealthPolicy := match mode with
    | .disabled => (false, ⟨3, 30000⟩)
    | .enabled policy => (true, policy)
  ["[services.passive_health]".toList, boolLine "enabled" enabled,
    natLine "failure_threshold" policy.failureThreshold,
    natLine "ejection_ms" policy.ejectionMs, []]

def UpstreamAdministrativeState.asStr : UpstreamAdministrativeState → Text
  | .active => "active".toList
  | .draining => "draining".toList

def upstreamLines (upstream : Upstream) : List Text :=
  ["[[services.upstreams]]".toList, stringLine "name" upstream.id, stringLine "url" upstream.url] ++
  (match upstream.tls with
    | .disabled => []
    | .serverAuthenticated serverName httpHost trustBundleRef =>
      [stringLine "tls_server_name" serverName.value,
        stringLine "upstream_http_host" httpHost.value,
        stringLine "tls_trust_bundle_ref" trustBundleRef.value]) ++
  [stringLine "administrative_state"
    (UpstreamAdministrativeState.asStr upstream.administrativeState), []]

def serviceLines (service : Service) : List Text :=
  ["[[services]]".toList, stringLine "name" service.id,
    stringLine "load_balancer" service.policy.loadBalancing.asStr, []] ++
  (match service.policy.healthCheck with
    | .disabled => []
    | .http policy => healthCheckLines policy) ++
  retryLines service.policy.retry ++ passiveHealthLines service.policy.passiveHealth ++
  service.upstreams.flatMap upstreamLines

def pathTexts (isExact : Bool) (paths : List PathMatch) : List Text :=
  (paths.filter (·.isExact == isExact)).map PathMatch.pathText

def routeLines (route : Route) : List Text :=
  ["[[routes]]".toList, stringLine "name" route.id,
    arrayLine "hosts" (route.routeMatch.hosts.map HostMatch.normalized),
    arrayLine "paths" (pathTexts false route.routeMatch.paths)] ++
  (if (pathTexts true route.routeMatch.paths).isEmpty then []
    else [arrayLine "exact_paths" (pathTexts true route.routeMatch.paths)]) ++
  [stringLine "service" route.serviceId,
    scalarLine "priority" (toString route.priority.toInt).toList,
    boolLine "enabled" route.enabled] ++
  (match route.certificateRef with
    | none => []
    | some certificateRef => [stringLine "certificate_ref" certificateRef]) ++
  [boolLine "redirect_http_to_https" route.redirectHttpToHttps, []]

def headerLines : List Text :=
  [natLine "schema_version" snapshot.schemaVersion.toNat, [],
    "[admin]".toList, stringLine "bind" snapshot.admin.bind, boolLine "enabled" true, [],
    "[logging]".toList, stringLine "mode" snapshot.logMode.asStr, [],
    "[runtime]".toList, natLine "max_connections" snapshot.runtime.maxConnections,
    natLine "max_inflight_payload_bytes" snapshot.runtime.maxInflightPayloadBytes,
    natLine "upstream_read_timeout_ms" snapshot.runtime.upstreamReadTimeoutMs, []] ++
  (if snapshot.runtime.metrics.enabled then
    ["[metrics]".toList, boolLine "enabled" true, stringLine "bind" snapshot.runtime.metrics.bind,
      []]
    else [])

def snapshotLines : List Text :=
  headerLines snapshot ++ snapshot.listeners.flatMap listenerLines ++
    snapshot.services.flatMap serviceLines ++ snapshot.routes.flatMap routeLines

end Render

def renderMvpConfigSnapshot (snapshot : ConfigSnapshot) : Text :=
  (Render.snapshotLines snapshot).flatMap fun line => line ++ ['\n']

end EdgeProxy

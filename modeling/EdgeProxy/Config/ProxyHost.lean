import EdgeProxy.Config.Snapshot

/-! # Proxy hosts

The Admin API's view of one route with its service: the request, the value it becomes, and the
snapshots with that value added, replaced or removed.
-/

namespace EdgeProxy

open Rust

structure ProxyHostUpstreamRequest where
  id : Text
  url : Text
  administrativeState : UpstreamAdministrativeState

structure ProxyHostRequest where
  id : Text
  name : Text
  domains : List Text
  pathPrefix : Text
  upstreamUrl : Text
  upstreams : List ProxyHostUpstreamRequest
  healthCheck : Option HttpHealthCheckPolicy
  retry : RetryPolicy
  passiveHealth : PassiveHealthMode
  httpsEnabled : Bool
  letsencryptEnabled : Bool
  redirectHttpToHttps : Bool
  enabled : Bool

structure ProxyHost where
  id : Text
  name : Text
  domains : List HostMatch
  pathPrefix : PathMatch
  upstreamUrl : Text
  upstreams : List Upstream
  healthCheck : HealthCheckPolicy
  retry : RetryPolicy
  passiveHealth : PassiveHealthMode
  httpsEnabled : Bool
  letsencryptEnabled : Bool
  redirectHttpToHttps : Bool
  enabled : Bool

def proxyHostFromRequest (request : ProxyHostRequest) : ProxyHost where
  id := request.id
  name := request.name
  domains := request.domains.map HostMatch.exact
  pathPrefix := .below request.pathPrefix
  upstreamUrl := request.upstreamUrl
  upstreams := request.upstreams.map fun upstream =>
    ⟨upstream.id, upstream.url, upstream.administrativeState, .disabled⟩
  healthCheck := request.healthCheck.elim .disabled .http
  retry := request.retry
  passiveHealth := request.passiveHealth
  httpsEnabled := request.httpsEnabled
  letsencryptEnabled := request.letsencryptEnabled
  redirectHttpToHttps := request.redirectHttpToHttps
  enabled := request.enabled

def generatedId (proxyHostId : Text) : Text := "proxy-host-".toList ++ proxyHostId

structure ProxyHostParts where
  route : Route
  service : Service

variable (snapshot : ConfigSnapshot) (proxyHost : ProxyHost)

def proxyHostToParts : ProxyHostParts where
  route :=
    { id := generatedId proxyHost.id
      routeMatch := ⟨proxyHost.domains, [proxyHost.pathPrefix]⟩
      serviceId := generatedId proxyHost.id
      priority := 100
      enabled := proxyHost.enabled
      redirectHttpToHttps := proxyHost.redirectHttpToHttps
      certificateResolverId :=
        if proxyHost.letsencryptEnabled then some "letsencrypt-http01".toList else none
      certificateRef := if proxyHost.httpsEnabled then some (generatedId proxyHost.id) else none }
  service :=
    { id := generatedId proxyHost.id
      upstreams :=
        if proxyHost.upstreams.isEmpty then
          [⟨generatedId proxyHost.id ++ "-primary".toList, proxyHost.upstreamUrl, .active,
            .disabled⟩]
        else proxyHost.upstreams
      policy := ⟨.roundRobin, proxyHost.healthCheck, proxyHost.retry, proxyHost.passiveHealth⟩ }

def removeProxyHost (id : Text) : ConfigSnapshot :=
  { snapshot with
    routes := snapshot.routes.filter (·.id != generatedId id)
    services := snapshot.services.filter (·.id != generatedId id) }

def addProxyHost : ConfigSnapshot :=
  let parts := proxyHostToParts proxyHost
  { snapshot with
    routes := snapshot.routes.filter (·.id != parts.route.id) ++ [parts.route]
    services := snapshot.services.filter (·.id != parts.service.id) ++ [parts.service] }

def updateProxyHost : ConfigSnapshot :=
  addProxyHost snapshot proxyHost

end EdgeProxy

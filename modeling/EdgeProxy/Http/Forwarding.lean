import EdgeProxy.Http.Request

/-! # Forwarding a request upstream

The header projection of a proxied request (hop-by-hop headers and the headers that the client
names in `Connection` are dropped, the `X-Forwarded-*` headers are replaced, the `Host` value is
overridden for TLS upstreams) and the bytes written to the upstream socket, with their planned
length.
-/

namespace EdgeProxy

open Rust

inductive IoErrorKind where
  | outOfMemory | invalidData | notFound | alreadyExists | other
  deriving DecidableEq

structure IoError where
  kind : IoErrorKind
  message : String
  deriving DecidableEq

def connectionHeaderTokens (headers : List Header) : List Text :=
  (headers.filter (Header.isNamed "Connection".toList)).flatMap fun h =>
    (h.value.splitOn ',').map fun value => toAsciiLowercase (trim value)

def hopByHopHeaderNames : List Text :=
  ["connection".toList, "keep-alive".toList, "proxy-authenticate".toList,
    "proxy-authorization".toList, "proxy-connection".toList, "te".toList, "trailer".toList,
    "transfer-encoding".toList, "upgrade".toList]

def isHopByHopHeaderName (name : Text) : Bool := hopByHopHeaderNames.contains name

/-- Neither a hop-by-hop header nor one that the client's `Connection` header names. -/
def isEndToEnd (tokens : List Text) (h : Header) : Bool :=
  !isHopByHopHeaderName (toAsciiLowercase h.name) && !tokens.contains (toAsciiLowercase h.name)

def removeHopByHopHeaders (headers : List Header) : List Header :=
  headers.filter (isEndToEnd (connectionHeaderTokens headers))

def isWebsocketUpgradeField (h : Header) : Bool :=
  toAsciiLowercase h.name == "upgrade".toList &&
    eqIgnoreAsciiCase (trim h.value) "websocket".toList

def upstreamRequestHeaders (headers : List Header) (preserveUpgrade : Bool) : List Header :=
  if !preserveUpgrade then removeHopByHopHeaders headers
  else
    (headers.filter fun h =>
      isWebsocketUpgradeField h || isEndToEnd (connectionHeaderTokens headers) h) ++
      [⟨"Connection".toList, "Upgrade".toList⟩]

def forwardedHeaders (clientIp scheme host : Text) : List Header :=
  [⟨"X-Forwarded-For".toList, clientIp⟩, ⟨"X-Forwarded-Proto".toList, scheme⟩,
    ⟨"X-Forwarded-Host".toList, host⟩]

def forwardedHeaderNames : List Text :=
  ["x-forwarded-for".toList, "x-forwarded-proto".toList, "x-forwarded-host".toList]

variable (request : HttpRequest) (upstream : UpstreamEndpoint) (tlsPolicy : UpstreamTlsPolicy)
  (clientIp scheme originalHost : Text)

def isWebsocketUpgrade : Bool :=
  ((request.headers.filter (Header.isNamed "Connection".toList)).any fun h =>
    (h.value.splitOn ',').any fun token => eqIgnoreAsciiCase (trim token) "upgrade".toList) &&
  (request.headers.filter (Header.isNamed "Upgrade".toList)).any fun h =>
    eqIgnoreAsciiCase (trim h.value) "websocket".toList

/-- The `find` and assignment that replace the value of the first `Host` header. -/
def overrideHost (host : Text) : List Header → List Header
  | [] => []
  | h :: hs =>
    if h.isNamed "Host".toList then { h with value := host } :: hs else h :: overrideHost host hs

variable (preserveUpgradeHeaders : Bool)

/-- The headers sent upstream, before the `Connection: close` that the builder may append. -/
def projectedHeaders (hostOverride : Option Text) : List Header :=
  let headers := upstreamRequestHeaders request.headers preserveUpgradeHeaders
  let headers := headers.filter fun h => !forwardedHeaderNames.contains (toAsciiLowercase h.name)
  let headers := headers ++ forwardedHeaders clientIp scheme originalHost
  match hostOverride with
  | none => headers
  | some host => overrideHost host headers

def wireLengthOverflow : IoError :=
  ⟨.outOfMemory, "RESOURCE_ALLOCATION_FAILED: upstream wire length overflowed"⟩

def checkedWireLength (parts : List Nat) : Except IoError Nat :=
  parts.foldlM (fun total part =>
    if total + part < usizeBound then .ok (total + part) else .error wireLengthOverflow) 0

def plannedHeadersLen : Nat → List Header → Except IoError Nat
  | total, [] => .ok total
  | total, h :: hs => do
    let total ← checkedWireLength [total, byteLen h.name, 2, byteLen h.value, 2]
    plannedHeadersLen total hs

def plannedUpstreamRequestLenWithConnectionClose (requestPath : Text)
    (headers : List Header) (forceConnectionClose : Bool) : Except IoError Nat := do
  let total ← checkedWireLength
    [byteLen request.method, 1, byteLen requestPath, 1, byteLen request.version, 2]
  let total ← plannedHeadersLen total headers
  let total ← if forceConnectionClose
    then checkedWireLength [total, (encode "Connection: close\r\n".toList).length]
    else .ok total
  checkedWireLength [total, 2, request.body.length]

def crlf : Text := ['\r', '\n']

/-- The bytes that the builder writes: request line, headers, an empty line and the body. -/
def upstreamRequestBytes (requestPath : Text) (headers : List Header)
    (forceConnectionClose : Bool) : Bytes :=
  encode (request.method ++ ' ' :: requestPath ++ ' ' :: request.version ++ crlf) ++
    headers.flatMap (fun h => encode (h.line ++ crlf)) ++
    (if forceConnectionClose then encode "Connection: close\r\n".toList else []) ++
    encode crlf ++ request.body

def buildUpstreamRequestWithHostOverrideAndConnectionClose
    (hostOverride : Option Text) (forceConnectionClose : Bool) :
    Except IoError Bytes := do
  let headers := projectedHeaders request clientIp scheme originalHost preserveUpgradeHeaders
    hostOverride
  let requestPath := upstream.joinPath request.path
  let plannedLen ← plannedUpstreamRequestLenWithConnectionClose request requestPath headers
    forceConnectionClose
  let upstreamRequest := upstreamRequestBytes request requestPath headers forceConnectionClose
  if upstreamRequest.length ≠ plannedLen then
    .error ⟨.invalidData, "RESOURCE_ACCOUNTING_INVARIANT_FAILED: upstream wire length mismatch"⟩
  else .ok upstreamRequest

def UpstreamTlsPolicy.hostOverride : UpstreamTlsPolicy → Option Text
  | .disabled => none
  | .serverAuthenticated _ httpHost _ => some httpHost.value

def plannedSelectedUpstreamRequestLenWithKeepAlive (keepAlive : Bool) : Except IoError Nat :=
  plannedUpstreamRequestLenWithConnectionClose request (upstream.joinPath request.path)
    (projectedHeaders request clientIp scheme originalHost preserveUpgradeHeaders
      tlsPolicy.hostOverride)
    (!preserveUpgradeHeaders && !keepAlive)

def buildSelectedUpstreamRequestWithKeepAlive (keepAlive : Bool) :
    Except IoError Bytes := do
  let plannedLen ← plannedSelectedUpstreamRequestLenWithKeepAlive request upstream tlsPolicy
    clientIp scheme originalHost preserveUpgradeHeaders keepAlive
  let output ← buildUpstreamRequestWithHostOverrideAndConnectionClose request upstream clientIp
    scheme originalHost preserveUpgradeHeaders tlsPolicy.hostOverride
    (!preserveUpgradeHeaders && !keepAlive)
  if output.length ≠ plannedLen then
    .error ⟨.invalidData, "RESOURCE_ACCOUNTING_INVARIANT_FAILED: selected wire length mismatch"⟩
  else .ok output

end EdgeProxy

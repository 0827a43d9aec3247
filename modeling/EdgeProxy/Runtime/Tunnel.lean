import EdgeProxy.Runtime.ClientWrite
import EdgeProxy.Runtime.UpstreamIo

/-! # WebSocket upgrades and tunnels

The answer to an upgrade request is collected until its header is complete. If it switches
protocols the connection becomes a tunnel, with one plaintext buffer for each direction; if not,
what was collected is the response.
-/

namespace EdgeProxy

open Rust Action PayloadAccounts HttpConnectionIo

variable {σ ε : Type} [TlsSession σ]

def isUpgradeField (name value : Text) : Bool :=
  eqIgnoreAsciiCase name "Connection".toList &&
    (value.splitOn ',').any fun token => eqIgnoreAsciiCase (trim token) "upgrade".toList

def isWebsocketField (name value : Text) : Bool :=
  eqIgnoreAsciiCase name "Upgrade".toList && eqIgnoreAsciiCase (trim value) "websocket".toList

/-- Every line is a field, one of them asks for the upgrade and one names the protocol. -/
def acceptsUpgrade (lines : List Text) : Bool :=
  let fields := lines.map (splitOnce ':')
  fields.all Option.isSome &&
    (fields.any fun field => field.any fun (name, value) => isUpgradeField name value) &&
    fields.any fun field => field.any fun (name, value) => isWebsocketField name value

def websocketResponseIsSwitchingProtocols (bytes : Bytes) : Bool :=
  match splitHeaderEnd bytes with
  | none => false
  | some (head, _) =>
    let length := head.length + 4
    match (HttpResponseFraming.withBodyExpectation length length .normal).push
        (head ++ headerTerminator) with
    | (.error _, _) => false
    | (.ok progress, _) =>
      progress.statusCode == some 101 &&
        match decode head with
        | none => false
        | some text => acceptsUpgrade ((splitCrlf text).drop 1)

def isWholeResponse (bytes : Bytes) : Bool :=
  match ((HttpResponseFraming.withBodyExpectation bytes.length bytes.length .normal).push
      bytes).1 with
  | .error _ => false
  | .ok progress => progress.phase == .complete && progress.consumed == bytes.length

structure TunnelFlowControl where
  clientReadable : Bool
  upstreamReadable : Bool

def tunnelPressureFlow (pressureState : ResourcePressureState) (localFlow : TunnelFlowControl) :
    TunnelFlowControl :=
  if pressureState = .normal then localFlow else ⟨false, false⟩

def SnapshotMioConnection.tunnelFlowControl (c : SnapshotMioConnection σ)
    (limits : ResourceLimits) : TunnelFlowControl where
  clientReadable :=
    c.tunnelClientToUpstream.remainingLen + c.pendingUpstreamOutput.remainingLen <
      limits.maxRequestBodyBytes
  upstreamReadable :=
    c.tunnelUpstreamToClient.remainingLen + c.pendingClientOutput.remainingLen <
      limits.maxResponseBufferBytes

def tunnelInterest : Bool → Bool → Option Interest
  | true, true => some .readWrite
  | true, false => some .readable
  | false, true => some .writable
  | false, false => none

namespace Focus

/-- `reconcile_mio_registration`: the stream and whether it is registered. -/
def reconcileMioRegistration (stream : MioTcpStream) (interest : Option Interest)
    (registered : Bool) : ConnAction σ (MioTcpStream × Bool) := do
  match interest, registered with
  | some interest, true => return (← reregister stream interest, true)
  | some interest, false => return (← register stream interest, true)
  | none, true => return (← deregister stream, false)
  | none, false => return (stream, false)

variable (limits : RuntimeLimits) (interest : Option Interest) (bytes : Bytes)
  (c : SnapshotMioConnection σ)

def reconcileClient : ConnAction σ PUnit := do
  let f ← read
  let (client, clientRegistered) ←
    reconcileMioRegistration f.connection.client interest f.connection.clientRegistered
  update fun c => { c with client, clientRegistered }

def reconcileUpstream : ConnAction σ PUnit := do
  let f ← read
  match f.connection.upstream with
  | none => return ⟨⟩
  | some upstream =>
    let (upstream, upstreamRegistered) ←
      reconcileMioRegistration upstream interest f.connection.upstreamRegistered
    update fun c => { c with upstream := some upstream, upstreamRegistered }

def tunnelUpstreamInterest (f : Focus σ) (upstreamReadable : Bool) : Option Interest :=
  let merged := f.connection.upstreamTransport.mergeUpstreamInterest {
    upstreamReadable
    upstreamWritable := f.connection.tunnelClientToUpstream.remainingLen > 0 ||
      !f.connection.pendingUpstreamOutput.isComplete }
  tunnelInterest (merged.upstreamReadable && f.payloadLedger.pressureState == .normal)
    merged.upstreamWritable

def reregisterTunnelInterests : ConnAction σ PUnit := unlessRemoved do
  let f ← read
  if f.connection.closeAfterWrite then return ⟨⟩
  else
    let flow := tunnelPressureFlow f.payloadLedger.pressureState
      (f.connection.tunnelFlowControl limits.resource)
    reconcileClient (tunnelInterest flow.clientReadable
      (f.connection.tunnelUpstreamToClient.remainingLen > 0 ||
        !f.connection.pendingClientOutput.isComplete))
    reconcileUpstream (f.tunnelUpstreamInterest flow.upstreamReadable)

inductive UpgradeReads where
  | blocked | failed | switching
  | answered (response : Bytes)

def takeWebsocketResponse : ConnAction σ UpgradeReads := do
  let f ← read
  update fun c => { c with websocketResponse := [] }
  return .answered f.connection.websocketResponse

def collectWebsocketResponse (plaintext : Bytes) (c : SnapshotMioConnection σ) :
    SnapshotMioConnection σ :=
  pullHandshakeOutput { c with websocketResponse := c.websocketResponse ++ plaintext }

def readUpgradeLoop : List ReadResult → ConnAction σ UpgradeReads
  | [] | .wouldBlock :: _ => return .blocked
  | .error :: _ => return .failed
  | .data bytes :: reads => do
    if bytes.isEmpty then
      let f ← read
      if f.connection.websocketResponse.isEmpty then return .failed else takeWebsocketResponse
    else
      match ← receiveUpstreamSocketBytes bytes with
      | .error _ => return .failed
      | .ok plaintext =>
        update (collectWebsocketResponse plaintext)
        let f ← read
        if (splitHeaderEnd f.connection.websocketResponse).isSome then
          if websocketResponseIsSwitchingProtocols f.connection.websocketResponse then
            return .switching
          else takeWebsocketResponse
        else readUpgradeLoop reads

def rejectTunnel : ConnAction σ PUnit := do
  mark .tunnelRejected
  closeConnection

def startWebsocketTunnel : ConnAction σ PUnit := unlessRemoved do
  let f ← read
  update fun c => { c with websocketResponse := [] }
  match f.connection.tunnelUpstreamToClient.tryAppend f.connection.websocketResponse with
  | .error _ => rejectTunnel
  | .ok tunnelUpstreamToClient =>
    update fun c => { c with tunnelUpstreamToClient }
    match ← onIo (HttpConnectionIo.transitionTo .tunnelingWebSocket) with
    | .error _ => rejectTunnel
    | .ok _ =>
      update fun c => { c with deadline := none }
      reregisterTunnelInterests limits

def readWebsocketUpgradeResponse : ConnAction σ PUnit := unlessRemoved do
  let f ← read
  if f.connection.upstream.isNone then return ⟨⟩
  else
    match ← readUpgradeLoop f.world.reads with
    | .failed =>
      dropUpstream
      queueClientResponse limits badGateway
    | .switching => startWebsocketTunnel limits
    | .answered response =>
      dropUpstream
      queueResponse limits response (isWholeResponse response)
    | .blocked => refreshConnectionDeadline limits

def firstRead (f : Focus σ) : ReadResult := f.world.reads.headD .wouldBlock

def closeTunnel : SnapshotMioConnection σ :=
  { c with closeAfterWrite := true }

/-- Client bytes for the upstream; the tunnel closes when they cannot be taken. -/
def takeClientTunnelBytes : SnapshotMioConnection σ :=
  match c.clientTransport.receiveSocketBytes bytes with
  | (.error _, clientTransport) => closeTunnel { c with clientTransport }
  | (.ok plaintext, clientTransport) =>
    match c.tunnelClientToUpstream.tryAppend plaintext with
    | .error _ => closeTunnel { c with clientTransport }
    | .ok tunnelClientToUpstream => { c with clientTransport, tunnelClientToUpstream }

def readClientTunnel : ConnAction σ PUnit := unlessRemoved do
  let f ← read
  if !(f.connection.tunnelFlowControl limits.resource).clientReadable then
    reregisterTunnelInterests limits
  else
    match f.firstRead with
    | .wouldBlock => reregisterTunnelInterests limits
    | .error =>
      update closeTunnel
      reregisterTunnelInterests limits
    | .data bytes =>
      update fun c => if bytes.isEmpty then closeTunnel c else takeClientTunnelBytes bytes c
      reregisterTunnelInterests limits

/-- Fills an empty client output buffer from the tunnel; whether there is something to write. -/
def stageClientTunnel : Bool × SnapshotMioConnection σ :=
  if !c.pendingClientOutput.isComplete then (true, c)
  else if c.tunnelUpstreamToClient.remaining.isEmpty then (false, c)
  else
    match Transport.pullTunnelPlaintext c.pendingClientOutput c.clientTransport
        c.tunnelUpstreamToClient.remaining with
    | (.error _, pendingClientOutput, clientTransport) =>
      (false, closeTunnel { c with pendingClientOutput, clientTransport })
    | (.ok consumed, pendingClientOutput, clientTransport) =>
      (!pendingClientOutput.isComplete, { c with
        pendingClientOutput
        clientTransport
        tunnelUpstreamToClient := c.tunnelUpstreamToClient.advanceAndClearIfComplete consumed })

/-- The writes of a tunnel, up to the first that blocks; `stage` provides what to write and
`sent` takes it off. -/
def writeTunnel (stage : SnapshotMioConnection σ → Bool × SnapshotMioConnection σ)
    (sent : ℕ → SnapshotMioConnection σ → SnapshotMioConnection σ) :
    List WriteResult → SnapshotMioConnection σ → SnapshotMioConnection σ
  | [], c => (stage c).2
  | write :: writes, c =>
    match stage c with
    | (false, c) => c
    | (true, c) =>
      match write with
      | .wouldBlock | .written 0 => c
      | .error => closeTunnel c
      | .written (count + 1) => writeTunnel stage sent writes (sent (count + 1) c)

def writeClientTunnel : ConnAction σ PUnit := unlessRemoved do
  let f ← read
  update (writeTunnel stageClientTunnel sendClient f.world.writes)
  reregisterTunnelInterests limits

def takeUpstreamTunnelBytes : SnapshotMioConnection σ :=
  match c.upstreamTransport.receiveSocketBytes bytes with
  | (.error _, upstreamTransport) => closeTunnel { c with upstreamTransport }
  | (.ok plaintext, upstreamTransport) =>
    match c.tunnelUpstreamToClient.tryAppend plaintext with
    | .error _ => pullHandshakeOutput (closeTunnel { c with upstreamTransport })
    | .ok tunnelUpstreamToClient =>
      pullHandshakeOutput { c with upstreamTransport, tunnelUpstreamToClient }

def readUpstreamTunnel : ConnAction σ PUnit := unlessRemoved do
  let f ← read
  if f.connection.upstream.isNone then return ⟨⟩
  else if !(f.connection.tunnelFlowControl limits.resource).upstreamReadable then
    reregisterTunnelInterests limits
  else
    match f.firstRead with
    | .wouldBlock => reregisterTunnelInterests limits
    | .error =>
      update closeTunnel
      reregisterTunnelInterests limits
    | .data bytes =>
      update fun c => if bytes.isEmpty then closeTunnel c else takeUpstreamTunnelBytes bytes c
      reregisterTunnelInterests limits

/-- Fills an empty upstream output buffer from the tunnel or from the session. The socket is
written even if the session produced nothing for the plaintext it took. -/
def stageUpstreamTunnel : Bool × SnapshotMioConnection σ :=
  if !c.pendingUpstreamOutput.isComplete then (true, c)
  else if c.tunnelClientToUpstream.remaining.isEmpty then
    (!(pullUpstreamOutput c).pendingUpstreamOutput.isComplete, pullUpstreamOutput c)
  else
    match Transport.queueTunnelPlaintext c.pendingUpstreamOutput c.upstreamTransport
        c.tunnelClientToUpstream.remaining with
    | (.error _, pendingUpstreamOutput, upstreamTransport) =>
      (false, closeTunnel { c with pendingUpstreamOutput, upstreamTransport })
    | (.ok 0, pendingUpstreamOutput, upstreamTransport) =>
      (false, { c with pendingUpstreamOutput, upstreamTransport })
    | (.ok (consumed + 1), pendingUpstreamOutput, upstreamTransport) =>
      (true, { c with
        pendingUpstreamOutput
        upstreamTransport
        tunnelClientToUpstream :=
          c.tunnelClientToUpstream.advanceAndClearIfComplete (consumed + 1) })

def writeUpstreamTunnel : ConnAction σ PUnit := unlessRemoved do
  let f ← read
  if f.connection.upstream.isNone then return ⟨⟩
  else
    update (writeTunnel stageUpstreamTunnel sendUpstream f.world.writes)
    reregisterTunnelInterests limits

end Focus

end EdgeProxy

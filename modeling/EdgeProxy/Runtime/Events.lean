import EdgeProxy.Runtime.Tunnel

/-! # The handlers of the event loop

What the loop calls for one connection: reads, socket events, and the charges and registrations that
follow. Each is an action on the connection in focus.
-/

namespace EdgeProxy

open Rust Action PayloadAccounts HttpConnectionIo

variable {σ : Type} [TlsSession σ]

namespace SnapshotMioConnection

def clientReadAllowed (c : SnapshotMioConnection σ) : Bool :=
  c.io.state == .accepted || c.io.state == .readingClientRequest

end SnapshotMioConnection

namespace Focus

def runReads {α : Type} (x : ReadAction σ α) : ConnAction σ (Except ReadOutcome α) := fun f =>
  match x f with
  | (r, f) => (.ok r, f)

variable (limits : RuntimeLimits) (reads : UpstreamReads)

def announceResponse : ConnAction σ PUnit :=
  if reads.receivedResponseBytes then reregisterClient .writable else return ⟨⟩

def pauseUpstreamRead : ConnAction σ PUnit :=
  if reads.pauseUpstreamRead then reconcileResponseReadInterest limits else return ⟨⟩

def readResponse : ConnAction σ PUnit := unlessRemoved do
  let f ← read
  if f.connection.upstream.isNone then return ⟨⟩
  else
    match ← runReads (readUpstreamLoop limits f.world.reads false) with
    | .error .closePartial => closePartialResponse
    | .error (.failure response) =>
      dropUpstream
      queueClientResponse limits response
    | .error (.finish surplus) => finishResponse limits surplus
    | .ok reads =>
      announceResponse reads
      pauseUpstreamRead limits reads
      refreshConnectionDeadline limits

def readUpstream : ConnAction σ PUnit := unlessRemoved do
  let f ← read
  if f.connection.io.state = .handshakingUpstreamTls then readUpstreamTlsHandshake limits
  else if f.connection.websocketRequested ∧
      f.connection.io.state = .readingUpstreamResponse then
    readWebsocketUpgradeResponse limits
  else readResponse limits

/-- `sync_transport_payload_charges`, on the bytes that the connection owns. -/
def syncTransportPayloadCharges (connectionId tlsBytes clientToUpstream upstreamToClient : ℕ) :
    AccountAction PUnit := do
  let _ ← sync .webSocketClientToUpstream connectionId clientToUpstream
  let _ ← sync .webSocketUpstreamToClient connectionId upstreamToClient
  let _ ← sync .tlsPending connectionId tlsBytes
  return ⟨⟩

def ownedBytes (c : SnapshotMioConnection σ) : Except AppError (ℕ × ℕ × ℕ) := do
  let tlsBytes ← tlsPendingOwnerBytes c.clientTransport c.pendingClientOutput
    c.upstreamTransport c.pendingUpstreamOutput
  if c.io.state = .tunnelingWebSocket then
    let (clientToUpstream, upstreamToClient) ← websocketPendingOwnerBytes
      c.tunnelUpstreamToClient.remainingLen c.tunnelClientToUpstream.remainingLen
      c.clientTransport c.pendingClientOutput c.upstreamTransport c.pendingUpstreamOutput
    return (tlsBytes, clientToUpstream, upstreamToClient)
  else return (tlsBytes, 0, 0)

def dropConnection : ConnAction σ PUnit := do
  dropUpstream
  ignoreDeregisterClient
  removeConnection

/-- `reconcile_transport_payload_charges`, up to the pressure interests of all connections. -/
def reconcileCharges : ConnAction σ PUnit := unlessRemoved do
  let f ← read
  match ownedBytes f.connection with
  | .error _ => dropConnection
  | .ok (tlsBytes, clientToUpstream, upstreamToClient) =>
    match ← onAccounts (syncTransportPayloadCharges f.connectionId tlsBytes clientToUpstream
        upstreamToClient) with
    | .error _ => dropConnection
    | .ok _ => return ⟨⟩

def whenReady (ready : Bool) (x : ConnAction σ PUnit) : ConnAction σ PUnit :=
  if ready then x else return ⟨⟩

def discardConnection : ConnAction σ PUnit := do
  dropUpstream
  removeConnection

/-- `client_ready`, up to the charges. -/
def clientEvent (readable writable transportError : Bool) : ConnAction σ PUnit := do
  let f ← read
  if f.connection.io.state = .tunnelingWebSocket then
    whenReady (readable && f.payloadLedger.pressureState == .normal) (readClientTunnel limits)
    whenReady writable (writeClientTunnel limits)
    reconcileCharges
  else if !f.connection.clientReadAllowed && transportError then discardConnection
  else
    whenReady (readable && f.connection.clientReadAllowed) (readClient limits)
    whenReady writable (writeClient limits)
    reconcileCharges

def upstreamEvent (readable writable : Bool) : ConnAction σ PUnit := do
  let f ← read
  if f.connection.io.state = .tunnelingWebSocket then
    whenReady (readable && f.payloadLedger.pressureState == .normal) (readUpstreamTunnel limits)
    whenReady writable (writeUpstreamTunnel limits)
    reconcileCharges
  else
    whenReady writable (writeUpstream limits)
    whenReady readable (readUpstream limits)
    reconcileCharges

end Focus

end EdgeProxy

import EdgeProxy.Runtime.Requests

/-! # Writing to the client

`write_client`: the response buffer is handed to the client's transport, what the transport has
for the socket is written, and the charge follows what was written. When the last byte of a
response is out, the connection waits for the next request or closes.
-/

namespace EdgeProxy

open Rust Action PayloadAccounts HttpConnectionIo

variable {σ ε : Type} [TlsSession σ]

/-- States in which the output was written for a TLS session, not for a response. -/
def ConnectionState.awaitsRequestOrUpstream : ConnectionState → Bool
  | .accepted | .readingClientRequest | .selectingRoute | .connectingUpstream
  | .writingUpstreamRequest => true
  | _ => false

def ConnectionState.isClosing : ConnectionState → Bool
  | .draining | .closed | .failed => true
  | _ => false

inductive ResponseReadInterestAction where
  | keep | pause | resume

def responseReadInterestAction (pressureState : ResourcePressureState) (state : ConnectionState)
    (upstreamRegistered : Bool) (bufferedClientOutputBytes maxResponseBufferBytes : ℕ) :
    ResponseReadInterestAction :=
  if state ≠ .readingUpstreamResponse then .keep
  else
    match upstreamRegistered,
        decide (pressureState ≠ .normal ∨ bufferedClientOutputBytes ≥ maxResponseBufferBytes) with
    | true, true => .pause
    | false, false => .resume
    | true, false | false, true => .keep

def SnapshotMioConnection.bufferedClientOutputLen (c : SnapshotMioConnection σ) : ℕ :=
  c.io.clientWrite.remainingLen + c.pendingClientOutput.remainingLen

namespace Focus

def sendClient (count : ℕ) (c : SnapshotMioConnection σ) : SnapshotMioConnection σ :=
  { c with pendingClientOutput := c.pendingClientOutput.advanceAndClearIfComplete count }

variable (limits : RuntimeLimits) (p : WriteProgress) (c : SnapshotMioConnection σ)

def reconcileResponseReadInterest : ConnAction σ PUnit :=
  unlessRemoved do
    let f ← read
    match f.connection.upstream with
    | none => return ⟨⟩
    | some upstream =>
      match responseReadInterestAction f.payloadLedger.pressureState f.connection.io.state
          f.connection.upstreamRegistered f.connection.bufferedClientOutputLen
          limits.resource.maxResponseBufferBytes with
      | .keep => return ⟨⟩
      | .pause => deregisterUpstream upstream
      | .resume => registerUpstream upstream .readable

/-- What the rest of `write_client` has to do after its loop. -/
structure WriteProgress where
  resumeUpstreamRead : Bool := false
  waitForUpstream : Bool := false
  waitForClientRead : Bool := false
  completedDrainReference : Option DrainReference := none

def giveUpClient : Action (Focus σ) ε PUnit := do
  let f ← read
  mark (.clientClosed f.connection.io.state f.connection.pendingClientOutput.isComplete)
  closeConnection

def setBatch (batch : PendingClientResponseBatch) : Action (Focus σ) ε PUnit :=
  update fun c => { c with pendingClientResponse := batch }

/-- `release_drained_client_response`: the charge for a batch goes when its bytes are out. -/
def releaseDrainedClientResponse : Action (Focus σ) ε (Except AppError PUnit) := do
  let f ← read
  match f.connection.pendingClientOutput.isComplete, f.connection.pendingClientResponse with
  | true, .socketDraining plaintextBytes =>
    if f.accounts.clientResponseBytes < plaintextBytes then
      return .error (resourceAccountingError "client response pending bytes exceed current charge")
    else
      match ← onAccounts
          (resizeClientResponseInUse (f.accounts.clientResponseBytes - plaintextBytes)) with
      | .error e => return .error e
      | .ok _ =>
        setBatch .empty
        return .ok ⟨⟩
  | _, _ => return .ok ⟨⟩

def resetExchange : SnapshotMioConnection σ :=
  { c with
    drainReference := none
    closeClientAfterResponse := false
    pendingUpstreamRequest := none
    pendingUpstreamTls := none
    pendingUpstreamOutput := {}
    responseFraming := none
    responseHeaderSanitizer := none
    retry := none
    current := {}
    answered := c.answered ++ [c.current] }

def requestCloseNotify : Action (Focus σ) ε (Except AppError Bool) := fun f =>
  match f.connection.clientTransport.requestCloseNotify with
  | (r, clientTransport) =>
    (.ok r, { f with connection := { f.connection with clientTransport } })

/-- The connection closes after this response; a session first sends its close notification. -/
def closeAfterResponse : ConnAction σ PUnit := do
  closeConnection
  let _ ← onIo (finishClientResponse false)
  match ← requestCloseNotify with
  | .ok true =>
    let _ ← pullClientOutput
    return ⟨⟩
  | _ => return ⟨⟩

def finishesKeepAlive : ConnAction σ Bool := do
  let f ← read
  if f.connection.closeAfterWrite || f.connection.closeClientAfterResponse then return false
  else
    match ← onAccounts releaseAll with
    | .error _ => return false
    | .ok _ =>
      match ← onIo (finishClientResponse true) with
      | .error _ => return false
      | .ok _ => return true

def completeResponse : ConnAction σ WriteProgress := do
  if ← finishesKeepAlive then
    let f ← read
    update resetExchange
    refreshDeadline limits
    return { p with waitForClientRead := true
                    completedDrainReference := f.connection.drainReference }
  else
    closeAfterResponse
    return p

/-- `SocketDraining` follows `TransportOwned` once the transport has produced bytes. -/
def pullBatch (plaintextBytes : ℕ) : ConnAction σ PUnit := do
  let pulled ← pullClientOutput
  if pulled = 0 then return ⟨⟩ else setBatch (.socketDraining plaintextBytes)

inductive Offer where
  | taken (count : ℕ)
  | nothing
  | rejected

/-- Hands response bytes to the transport: `queue_http_bytes`,
`install_transport_owned_client_response` and `advance_client_write`. -/
def offerBytes : Offer × SnapshotMioConnection σ :=
  match c.clientTransport.queueClientBytes c.io.clientWrite.remaining with
  | (.error _, clientTransport) => (.rejected, { c with clientTransport })
  | (.ok 0, clientTransport) => (.nothing, { c with clientTransport })
  | (.ok (consumed + 1), clientTransport) =>
    if c.pendingClientResponse ≠ .empty then (.rejected, { c with clientTransport })
    else
      let current := c.current.hand (c.io.clientWrite.remaining.take (consumed + 1))
      let pendingClientResponse := .transportOwned (consumed + 1)
      match advanceClientWrite (consumed + 1) c.io with
      | (.error _, io) =>
        (.rejected, { c with clientTransport, pendingClientResponse, io, current })
      | (.ok _, io) =>
        (.taken (consumed + 1), { c with clientTransport, pendingClientResponse, io, current })

def offerClientBytes : Action (Focus σ) ε Offer := fun f =>
  match offerBytes f.connection with
  | (offer, connection) => (.ok offer, { f with connection })

/-- The part of the loop before the socket is written, when the output buffer is empty and the
earlier batch is released. -/
def offerResponse : ConnAction σ WriteProgress := do
  let f ← read
  if f.connection.io.clientWrite.remaining.isEmpty then
    if f.connection.io.state = .writingClientResponse then completeResponse limits p else return p
  else
    match ← offerClientBytes with
    | .nothing => return p
    | .rejected =>
      giveUpClient
      return p
    | .taken count =>
      pullBatch count
      return p

def refillClientOutput : ConnAction σ WriteProgress := do
  let f ← read
  if !f.connection.pendingClientOutput.isComplete then return p
  else
    match f.connection.pendingClientResponse with
    | .empty => offerResponse limits p
    | .transportOwned plaintextBytes =>
      pullBatch plaintextBytes
      return p
    | .socketDraining _ =>
      match ← releaseDrainedClientResponse with
      | .error _ =>
        giveUpClient
        return p
      | .ok _ => offerResponse limits p

def outputWritten : ConnAction σ WriteProgress := do
  let f ← read
  if f.connection.io.state = .readingUpstreamResponse then
    refreshDeadline limits
    return { p with waitForUpstream := true }
  else if f.connection.io.state.awaitsRequestOrUpstream then
    refreshDeadline limits
    return { p with waitForClientRead := true }
  else if f.connection.io.state = .writingClientResponse then completeResponse limits p
  else
    giveUpClient
    return p

/-- After a write of the socket: whether the loop goes on, and what is left to do. -/
def afterClientWrite : ConnAction σ (Bool × WriteProgress) := do
  match ← releaseDrainedClientResponse with
  | .error _ =>
    giveUpClient
    return (false, p)
  | .ok _ =>
    let f ← read
    let remaining := f.connection.bufferedClientOutputLen
    let p := { p with resumeUpstreamRead := p.resumeUpstreamRead ||
      (f.connection.io.state == .readingUpstreamResponse &&
        remaining < limits.resource.maxResponseBufferBytes) }
    if remaining = 0 then
      let p ← outputWritten limits p
      -- a close notification may have to be written
      let f ← read
      return (!f.connection.pendingClientOutput.isComplete, p)
    else
      refreshDeadline limits
      return (true, p)

/-- One round of the loop: `write` runs if there is something to write. -/
def withClientOutput
    (write : WriteProgress → ConnAction σ WriteProgress) : ConnAction σ WriteProgress := do
  let p ← refillClientOutput limits p
  let f ← read
  if f.connection.pendingClientOutput.isComplete then return p else write p

def writeClientLoop (limits : RuntimeLimits) :
    List WriteResult → WriteProgress → ConnAction σ WriteProgress
  | [], p | .wouldBlock :: _, p | .written 0 :: _, p => withClientOutput limits p pure
  | .error :: _, p => withClientOutput limits p fun p => do
    giveUpClient
    return p
  | .written (count + 1) :: writes, p => withClientOutput limits p fun p => do
    update (sendClient (count + 1))
    let (goOn, p) ← afterClientWrite limits p
    if goOn then writeClientLoop limits writes p else return p

def noteUnsent (closing : Bool) : ConnAction σ PUnit :=
  if closing then mark .closedUnsent else return ⟨⟩

def releaseCompleted : ConnAction σ PUnit :=
  match p.completedDrainReference with
  | none => return ⟨⟩
  | some reference => releaseDrainReference reference

def settleClient : ConnAction σ PUnit := do
  let f ← read
  let closing := f.connection.closeAfterWrite || f.connection.io.state.isClosing
  if f.connection.pendingClientOutput.isComplete && closing then deregisterClient
  else
    noteUnsent closing
    if p.waitForClientRead || p.waitForUpstream then reregisterClient .readable else return ⟨⟩

def writeClient : ConnAction σ PUnit := unlessRemoved do
  let f ← read
  let p ← writeClientLoop limits f.world.writes {}
  settleClient p
  releaseCompleted p
  if p.resumeUpstreamRead then reconcileResponseReadInterest limits else return ⟨⟩

end Focus

end EdgeProxy

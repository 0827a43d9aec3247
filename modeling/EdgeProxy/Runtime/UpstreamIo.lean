import EdgeProxy.Runtime.Requests
import EdgeProxy.Runtime.ResponseIntake

/-! # The upstream side of an exchange

`write_upstream`, `read_upstream` and the TLS handshake with the upstream. The loops run over the
answers of the socket; a list that ends stands for a socket that blocks.
-/

namespace EdgeProxy

open Rust Action PayloadAccounts HttpConnectionIo

variable {σ ε : Type} [TlsSession σ]

def upstreamTransportInterest (transport : Transport σ) (state : ConnectionState)
    (pendingOutputComplete : Bool) : Interest :=
  let merged := transport.mergeUpstreamInterest state.ioInterest
  match merged.upstreamReadable, merged.upstreamWritable || !pendingOutputComplete with
  | true, true => .readWrite
  | true, false => .readable
  | false, true => .writable
  | false, false => .readable

/-- The socket is kept for the next request of this client. -/
def SnapshotMioConnection.retainsUpstream (c : SnapshotMioConnection σ) : Bool :=
  c.reusableUpstream.isSome && !c.closeAfterWrite && !c.closeClientAfterResponse &&
    c.responseFraming.any HttpResponseFraming.isKeepAliveReusable

namespace Focus

def takeError : ConnAction σ Bool := fun f =>
  match f.world.takeErrors with
  | [] => (.ok false, f)
  | answer :: takeErrors =>
    let f := { f with world := { f.world with takeErrors } }
    match answer with
    | .none => (.ok false, f)
    | .pending => (.ok true, f)
    | .error => (.error registryError, f)

/-- The registry of upstream TLS sessions; `none` if it cannot create one. -/
def createSession : Action (Focus σ) ε (Option σ) := fun f =>
  match f.world.clientSessions with
  | [] => (.ok none, f)
  | session :: clientSessions => (.ok session, { f with world := { f.world with clientSessions } })

variable (limits : RuntimeLimits) (failure : UpstreamAttemptFailure) (surplus : Bool)
  (c : SnapshotMioConnection σ)

def attemptFailed : Action (Focus σ) ε (Option UpstreamAttemptFailure) := do
  failAttempt failure
  return some failure

def startUpstreamTls : ConnAction σ (Option UpstreamAttemptFailure) := do
  match ← createSession with
  | none => attemptFailed .tlsHandshake
  | some session =>
    update fun c => { c with upstreamTransport := .tls (.new session) }
    if (TlsTransport.new session).state.isTerminal then attemptFailed .tlsHandshake
    else
      match ← onIo (HttpConnectionIo.handleEvent .upstreamTlsHandshakeStarted) with
      | .error _ => attemptFailed .tlsHandshake
      | .ok _ => return none

/-- The connect has come through: the handshake or the request starts. -/
def finishConnect : ConnAction σ (Option UpstreamAttemptFailure) := do
  if ← takeError then attemptFailed .connect
  else
    let f ← read
    match f.connection.pendingUpstreamTls, f.connection.pendingUpstreamRequest with
    | some _, _ =>
      update fun c => { c with pendingUpstreamTls := none }
      startUpstreamTls
    | none, some request =>
      update fun c => { c with pendingUpstreamRequest := none, upstreamTransport := .plaintext [] }
      match ← onIo (upstreamConnected request) with
      | .error _ => attemptFailed .connect
      | .ok _ => return none
    | none, none => attemptFailed .connect

inductive StageResult where
  | ready | stop | failed

def stageRequest : StageResult × SnapshotMioConnection σ :=
  if c.io.upstreamWrite.remaining.isEmpty then (.stop, c)
  else
    match c.upstreamTransport.queueUpstreamBytes c.io.upstreamWrite.remaining with
    | (.error _, upstreamTransport) =>
      (.failed, { c with upstreamTransport, io := (failUpstreamAttempt .write c.io).2 })
    | (.ok 0, upstreamTransport) => (.stop, { c with upstreamTransport })
    | (.ok (accepted + 1), upstreamTransport) =>
      match advanceUpstreamWrite (accepted + 1) c.io with
      | (.error _, io) =>
        (.failed, { c with upstreamTransport, io := (failUpstreamAttempt .write io).2 })
      | (.ok _, io) =>
        match upstreamTransport.takeSocketBytes with
        | (bytes, upstreamTransport) =>
          (.ready, { c with io, upstreamTransport, pendingUpstreamOutput := .new bytes })

def pullUpstreamOutput : SnapshotMioConnection σ :=
  match c.upstreamTransport.takeSocketBytes with
  | (bytes, upstreamTransport) =>
    { c with upstreamTransport, pendingUpstreamOutput := .new bytes }

def stageOutput : StageResult × SnapshotMioConnection σ :=
  if !c.pendingUpstreamOutput.isComplete then (.ready, c)
  else
    match c.io.state with
    | .handshakingUpstreamTls => (.ready, pullUpstreamOutput c)
    | .writingUpstreamRequest => stageRequest c
    | _ => (.stop, c)

def stageUpstreamOutput : Action (Focus σ) ε StageResult := fun f =>
  match stageOutput f.connection with
  | (result, connection) => (.ok result, { f with connection })

def sendUpstream (count : ℕ) (c : SnapshotMioConnection σ) : SnapshotMioConnection σ :=
  { c with
    pendingUpstreamOutput := c.pendingUpstreamOutput.advanceAndClearIfComplete count
    upstream := c.upstream.map fun u =>
      { u with log.sent := u.log.sent ++ c.pendingUpstreamOutput.remaining.take count } }

/-- History: whether the response has started when the socket refuses request bytes. -/
def noteSendFailure : SnapshotMioConnection σ :=
  { c with
    trace := c.trace ++
      if c.io.upstreamAttempt.responseStarted then [.sendFailedLate] else [] }

def failWrite : ConnAction σ (Option UpstreamAttemptFailure) := do
  update noteSendFailure
  attemptFailed .write

/-- One round of the write loop: `write` runs if there is something to write. -/
def withUpstreamOutput (write : ConnAction σ (Option UpstreamAttemptFailure)) :
    ConnAction σ (Option UpstreamAttemptFailure) := do
  match ← stageUpstreamOutput with
  | .failed => return some .write
  | .stop => return none
  | .ready =>
    let f ← read
    if f.connection.pendingUpstreamOutput.remaining.isEmpty then return none else write

def writeUpstreamLoop : List WriteResult → ConnAction σ (Option UpstreamAttemptFailure)
  | [] | .wouldBlock :: _ => withUpstreamOutput (return none)
  | .error :: _ | .written 0 :: _ => withUpstreamOutput failWrite
  | .written (count + 1) :: writes => withUpstreamOutput do
    update (sendUpstream (count + 1))
    writeUpstreamLoop writes

/-- The interest of the upstream socket follows the transport and the state. -/
def reregisterUpstreamInterest : ConnAction σ PUnit := do
  let f ← read
  match f.connection.upstream with
  | none => return ⟨⟩
  | some upstream =>
    reregisterUpstream upstream (upstreamTransportInterest f.connection.upstreamTransport
      f.connection.io.state f.connection.pendingUpstreamOutput.isComplete)
    refreshDeadline limits

/-- An attempt that failed on its socket: the socket goes first. -/
def abandonAttempt : ConnAction σ PUnit := do
  dropUpstream
  let f ← read
  retryOrRespond limits (connectUpstream limits f.world.connectFailures) failure
    (upstreamFailureResponse failure)

def writeRequest : ConnAction σ (Option UpstreamAttemptFailure) := do
  let f ← read
  if f.connection.io.state = .connectingUpstream then
    match ← finishConnect with
    | some failure => return some failure
    | none => writeUpstreamLoop f.world.writes
  else writeUpstreamLoop f.world.writes

def writeUpstream : ConnAction σ PUnit := unlessRemoved do
  let f ← read
  if f.connection.upstream.isNone then return ⟨⟩
  else
    match ← writeRequest with
    | some failure => abandonAttempt limits failure
    | none =>
      reregisterUpstreamInterest limits
      refreshConnectionDeadline limits

/-- What the read loop found when the socket blocks or the buffer is full. -/
structure UpstreamReads where
  receivedResponseBytes : Bool
  pauseUpstreamRead : Bool

def receiveUpstreamSocketBytes (bytes : Bytes) :
    Action (Focus σ) ε (Except AppError Bytes) := fun f =>
  match f.connection.upstreamTransport.receiveSocketBytes bytes with
  | (r, upstreamTransport) =>
    (.ok r, { f with connection := { f.connection with
      upstreamTransport
      upstream := f.connection.upstream.map fun u =>
        { u with log.received := u.log.received ++ bytes } } })

/-- The end of the stream completes a response only if it is delimited by the close. -/
def finishAtEof {α : Type} : ReadAction σ α := do
  let f ← read
  if !f.responseStarted then
    failAttempt .resetBeforeResponse
    fail (.failure (upstreamFailureResponse .resetBeforeResponse))
  else
    match f.connection.responseFraming with
    | none =>
      failAttempt .resetAfterResponse
      fail .closePartial
    | some framing =>
      update fun c => { c with responseFraming := some framing.finishOnEof.2 }
      match framing.finishOnEof.1 with
      | .ok _ => fail (.finish false)
      | .error _ =>
        failAttempt .resetAfterResponse
        fail .closePartial

def readUpstreamLoop (limits : RuntimeLimits) : List ReadResult → Bool → ReadAction σ UpstreamReads
  | [], received => return ⟨received, false⟩
  | .wouldBlock :: _, received => return ⟨received, false⟩
  | .error :: _, _ => do
    let f ← read
    failRead f.responseStarted (upstreamFailureResponse .read)
  | .data bytes :: reads, received => do
    if bytes.isEmpty then finishAtEof
    else
      let f ← read
      match ← receiveUpstreamSocketBytes bytes with
      | .error _ => failRead f.responseStarted (upstreamFailureResponse .read)
      | .ok plaintext =>
        if plaintext.isEmpty then readUpstreamLoop limits reads received
        else
          let (progress, responseBytes) ← receiveResponseBytes plaintext
          let received := received || !responseBytes.isEmpty
          if progress.phase = .complete then
            fail (.finish (progress.consumed < plaintext.length))
          else
            let f ← read
            if f.connection.io.clientWrite.remainingLen +
                f.connection.pendingClientOutput.remainingLen ≥
                  limits.resource.maxResponseBufferBytes then
              return ⟨received, true⟩
            else readUpstreamLoop limits reads received

/-- History: how the response and the request relate when the response is complete. -/
def noteFinish : SnapshotMioConnection σ :=
  { c with
    trace := c.trace ++ (if c.pendingUpstreamOutput.isComplete then [] else [.answeredEarly]) ++
      (if surplus then [.surplusRead] else []) }

def logRetained : SnapshotMioConnection σ :=
  { c with
    upstream := c.upstream.map fun u =>
      { u with log.responses := u.log.responses ++ [u.log.framed], log.framed := [] } }

def releaseUpstream : ConnAction σ PUnit := do
  let f ← read
  if f.connection.retainsUpstream then
    update logRetained
    deactivateUpstreamForReuse
  else dropUpstream

def finishResponse : ConnAction σ PUnit := do
  update (noteFinish surplus)
  releaseUpstream
  match ← onIo finishUpstreamResponse with
  | .error _ =>
    mark .finishRejected
    closeConnection
  | .ok _ =>
    update fun c => { c with current.complete := true }
    reregisterClient .writable
    refreshDeadline limits

def closePartialResponse : ConnAction σ PUnit := do
  dropUpstream
  let _ ← onIo (HttpConnectionIo.transitionTo .failed)
  ignoreDeregisterClient
  removeConnection

inductive HandshakeReads where
  | blocked | established | failed

def readHandshakeLoop : List ReadResult → ConnAction σ HandshakeReads
  | [] | .wouldBlock :: _ => return .blocked
  | .error :: _ => return .failed
  | .data bytes :: reads => do
    if bytes.isEmpty then return .failed
    else
      match ← receiveUpstreamSocketBytes bytes with
      | .error _ => return .failed
      | .ok _ =>
        let f ← read
        if f.connection.upstreamTransport.tlsState = some .established then return .established
        else readHandshakeLoop reads

/-- What the session has to send goes out before the request. -/
def pullHandshakeOutput : SnapshotMioConnection σ :=
  if c.pendingUpstreamOutput.isComplete then pullUpstreamOutput c else c

/-- Whether the handshake has failed; the request follows an established session. -/
def finishHandshake (reads : HandshakeReads) : ConnAction σ Bool := do
  match reads with
  | .failed => return true
  | .blocked => return false
  | .established =>
    let f ← read
    update fun c => { c with pendingUpstreamRequest := none }
    match f.connection.pendingUpstreamRequest with
    | none => return true
    | some request =>
      match ← onIo (upstreamConnected request) with
      | .error _ => return true
      | .ok _ => return false

def readUpstreamTlsHandshake : ConnAction σ PUnit := unlessRemoved do
  let f ← read
  if f.connection.upstream.isNone then return ⟨⟩
  else
    let reads ← readHandshakeLoop f.world.reads
    update pullHandshakeOutput
    if ← finishHandshake reads then
      failAttempt .tlsHandshake
      abandonAttempt limits .tlsHandshake
    else reregisterUpstreamInterest limits

end Focus

end EdgeProxy

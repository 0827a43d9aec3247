import EdgeProxy.Runtime.Connection

/-! # From a client request to an upstream attempt

`queue_client_response`, and the handlers that take a request in, choose what to do with it, and
connect to an upstream, again after a failure if the retry policy allows it.
-/

namespace EdgeProxy

open Rust Action PayloadAccounts HttpConnectionIo

variable {σ ε : Type} [TlsSession σ]

/-- An `Instant` of nanoseconds; `checked_add` gives `None` beyond it. -/
def instantBound : ℕ := 2 ^ 63 * 10 ^ 9

def timeoutDurationForState (limits : ResourceLimits) : ConnectionState → Option ℕ
  | .accepted | .readingClientRequest => some limits.idleTimeout
  | .connectingUpstream | .handshakingUpstreamTls => some limits.connectTimeout
  | .writingUpstreamRequest | .readingUpstreamResponse => some limits.upstreamReadTimeout
  | .writingClientResponse => some limits.clientWriteTimeout
  | _ => none

def deadlineForState (limits : ResourceLimits) (state : ConnectionState) (now : ℕ) : Option ℕ :=
  (timeoutDurationForState limits state).bind fun duration =>
    if now + duration < instantBound then some (now + duration) else none

namespace SnapshotMioConnection

def canReuseUpstream (c : SnapshotMioConnection σ) (key : UpstreamReuseKey) : Bool :=
  c.upstream.isSome && !c.upstreamRegistered && c.reusableUpstream == some key &&
    !c.upstreamTransport.isTls

def beginResponseFraming (c : SnapshotMioConnection σ) (maxHeaderBytes : ℕ)
    (websocketRequested : Bool) : SnapshotMioConnection σ :=
  { c with
    responseHeaderSanitizer :=
      if websocketRequested then none else some (.new maxHeaderBytes c.closeClientAfterResponse)
    responseFraming :=
      if websocketRequested then none
      else if c.retry.any fun retry => retry.method == .head then
        some (.withBodyExpectation maxHeaderBytes maxHeaderBytes .headResponse)
      else some (.withBodyExpectation maxHeaderBytes maxHeaderBytes .normal) }

def installed (c : SnapshotMioConnection σ) (response : Bytes) (complete : Bool)
    (io : HttpConnectionIo) : SnapshotMioConnection σ :=
  { c with
    io
    current := c.current.queue response complete
    trace := c.trace ++ (if c.io.upstreamAttempt.responseStarted then [.queuedLate] else []) ++
      (if complete then [] else [.queuedPartial]) }

end SnapshotMioConnection

def UpstreamTlsPolicy.pendingUpstreamTls (serviceId upstreamId : Text) :
    UpstreamTlsPolicy → Option PendingUpstreamTls
  | .disabled => none
  | .serverAuthenticated serverName _ _ => some ⟨serviceId, upstreamId, serverName.value⟩

structure UpstreamConnectPlan where
  request : Bytes
  websocketRequested : Bool
  pendingUpstreamTls : Option PendingUpstreamTls
  reusableUpstream : Option UpstreamReuseKey

/-- `retry_upstream` maps the failure of an attempt to the domain's; a response that has started
rules a retry out. -/
def UpstreamAttemptFailure.retryFailureKind : UpstreamAttemptFailure → Option RetryFailureKind
  | .connect | .tlsHandshake => some .connect
  | .connectTimeout | .tlsHandshakeTimeout => some .connectTimeout
  | .write => some .write
  | .read => some .read
  | .readTimeout => some .readTimeout
  | .resetBeforeResponse => some .resetBeforeResponse
  | .resetAfterResponse => none

namespace Focus

variable (limits : RuntimeLimits) (connect : UpstreamConnectPlan → ConnAction σ PUnit)
  (failure : UpstreamAttemptFailure) (response : Bytes)

/-- `refresh_deadline_for_connection`, at the instant `t`. -/
def setDeadline (t : ℕ) (c : SnapshotMioConnection σ) : SnapshotMioConnection σ :=
  { c with
    deadline := deadlineForState limits.resource c.io.state t
    trace := c.trace ++ (if (timeoutDurationForState limits.resource c.io.state).isSome ∧
          deadlineForState limits.resource c.io.state t = none then [.deadlineOverflow]
        else []) }

def refreshDeadline : Action (Focus σ) ε PUnit := do
  let t ← now
  update (setDeadline limits t)

/-- `refresh_connection_deadline`, which looks the connection up. -/
def refreshConnectionDeadline : ConnAction σ PUnit :=
  unlessRemoved (refreshDeadline limits)

def releaseDrainReference (reference : DrainReference) : Action (Focus σ) ε PUnit :=
  modify fun f => { f with drainReferences := f.drainReferences.erase reference }

def acquireDrainReference (reference : DrainReference) : Action (Focus σ) ε PUnit :=
  modify fun f => { f with drainReferences := reference :: f.drainReferences }

/-- `remove_connection`: the charges and the drain reference go with it. -/
def removeConnection : ConnAction σ PUnit := unlessRemoved do
  let _ ← onAccounts releaseAll
  let f ← read
  match f.connection.drainReference with
  | none => modify fun f => { f with removed := true }
  | some reference =>
    modify fun f => { f with
      removed := true
      connection := { f.connection with drainReference := none }
      drainReferences := f.drainReferences.erase reference }

def installResponse (complete : Bool) : Action (Focus σ) ε (Except AppError PUnit) := fun f =>
  match HttpConnectionIo.queueClientResponse response f.connection.io with
  | (.error e, io) => (.ok (.error e), { f with connection := { f.connection with io } })
  | (.ok _, io) =>
    (.ok (.ok ⟨⟩), { f with connection := f.connection.installed response complete io })

/-- `queue_client_response`; `complete` notes whether the bytes are a whole response. -/
def queueResponse (complete : Bool) : ConnAction σ PUnit :=
  unlessRemoved do
    update fun c => { c with
      closeClientAfterResponse :=
        c.closeClientAfterResponse || responseDeclaresConnectionClose response }
    let f ← read
    match ← onAccounts (prepareClientResponseBytes f.connectionId response.length) with
    | .error _ =>
      mark .responseRefused
      closeConnection
      ignoreDeregisterClient
    | .ok change =>
      match ← installResponse response complete with
      | .error _ =>
        let _ ← onAccounts (rollbackClientResponseAllocation change)
        mark .responseRejected
        closeConnection
      | .ok _ =>
        match ← onAccounts (commitClientResponseBytes change) with
        | .error _ =>
          mark .responseRejected
          closeConnection
        | .ok _ =>
          refreshDeadline limits
          reregisterClient .writable

def queueClientResponse : ConnAction σ PUnit :=
  queueResponse limits response true

def failAttempt : Action (Focus σ) ε PUnit := do
  let _ ← onIo (failUpstreamAttempt failure)
  return ⟨⟩

def startConnect (plan : UpstreamConnectPlan)
    (c : SnapshotMioConnection σ) : SnapshotMioConnection σ :=
  { c.beginResponseFraming limits.http.maxHeaderBytes plan.websocketRequested with
    pendingUpstreamRequest := some plan.request
    websocketRequested := plan.websocketRequested
    upstreamTransport := .plaintext []
    pendingUpstreamOutput := {}
    pendingUpstreamTls := plan.pendingUpstreamTls
    reusableUpstream := plan.reusableUpstream }

def retryDecision (f : Focus σ) (context : RetryContext) (failure : RetryFailureKind) :
    RetryDecision :=
  evaluateRetry {
    policy := context.policy
    method := context.method
    bodyBytes := context.bodyBytes
    requestBytesWritten := f.connection.io.upstreamAttempt.requestBytesWritten
    responseStarted := f.connection.io.upstreamAttempt.responseStarted
    attemptsUsed := context.retriesUsed
    replayReserved := context.replayWireLen ≤ context.policy.maxReplayBytes
    failure }

/-- `select_retry`: the next upstream, with a drain reference to it. -/
def selectRetry : ConnAction σ (Option UpstreamSelection) := fun f =>
  match f.world.retrySelections with
  | some selection :: retrySelections => (.ok (some selection), { f with
      drainReferences := selection.drainReference :: f.drainReferences
      world := { f.world with retrySelections } })
  | retrySelections =>
    (.ok none, { f with world := { f.world with retrySelections := retrySelections.tail } })

/-- The retry takes over: the attempt starts afresh with the replacement charge. -/
def takeOverRetry (selection : UpstreamSelection) (replacement : ResourceChargeId)
    (wireLen : ℕ) : ConnAction σ (Except AppError PUnit) := do
  match ← onIo prepareUpstreamRetry with
  | .error e => return .error e
  | .ok _ =>
    update fun c => { c with pendingUpstreamRequest := none }
    match ← onAccounts (commitUpstreamReplacement replacement wireLen) with
    | .error e => return .error e
    | .ok _ =>
      let f ← read
      update fun c => { c with
        retry := c.retry.map fun context => { context with
          retriesUsed := min (context.retriesUsed + 1) 255
          attempted := context.attempted.insert selection.upstreamId
          currentUpstreamId := selection.upstreamId
          replayWireLen := wireLen }
        drainReference := some selection.drainReference }
      match f.connection.drainReference with
      | none => return .ok ⟨⟩
      | some previous =>
        releaseDrainReference previous
        return .ok ⟨⟩

def releaseReplacement (replacement : ResourceChargeId) : AccountAction PUnit := do
  let a ← read
  if a.charges.slot .upstreamRequest ≠ some replacement ∧
      (a.ledger.charges.lookup replacement).isSome then
    onLedger (PayloadBudgetLedger.release replacement a.ledger.generation)
  else return ⟨⟩

/-- From the chosen upstream on; `connect` is `connect_upstream`. -/
def retrySelected
    (context : RetryContext) (selection : UpstreamSelection) : ConnAction σ PUnit := do
  let f ← read
  let giveUp (response : Bytes) : ConnAction σ PUnit := do
    releaseDrainReference selection.drainReference
    queueClientResponse limits response
  match plannedSelectedUpstreamRequestLenWithKeepAlive context.originalRequest selection.endpoint
      selection.tls f.connection.clientIp context.forwardedScheme context.originalAuthority
      context.websocketRequested false with
  | .error _ => giveUp (errorResponseForCode .resourceAllocationFailed)
  | .ok planned =>
    match ← onAccounts (reserveUpstreamReplacement f.connectionId planned) with
    | .error e => giveUp (errorResponseForCode e.code)
    | .ok replacement =>
      match buildSelectedUpstreamRequestWithKeepAlive context.originalRequest selection.endpoint
          selection.tls f.connection.clientIp context.forwardedScheme context.originalAuthority
          context.websocketRequested false with
      | .error _ =>
        let _ ← onAccounts (releaseUpstreamReplacementAfterAllocationFailure replacement)
        giveUp (errorResponseForCode .resourceAllocationFailed)
      | .ok request =>
        match ← takeOverRetry selection replacement request.length with
        | .error e =>
          let _ ← onAccounts (releaseReplacement replacement)
          giveUp (errorResponseForCode e.code)
        | .ok _ => connect {
            request
            websocketRequested := context.websocketRequested
            pendingUpstreamTls :=
              selection.tls.pendingUpstreamTls context.serviceId selection.upstreamId
            reusableUpstream := none }

/-- `retry_upstream`: whether it took the failure over. -/
def retryUpstream : ConnAction σ Bool := do
  let f ← read
  if f.removed then return false
  else
    match f.connection.retry, failure.retryFailureKind with
    | some context, some kind =>
      if retryDecision f context kind ≠ .retry then return false
      else
        match ← selectRetry with
        | none => return false
        | some selection =>
          if selection.address.isNone then
            releaseDrainReference selection.drainReference
            return false
          else
            retrySelected limits connect context selection
            return true
    | _, _ => return false

/-- An attempt failed: another upstream is tried, or the client gets the response. -/
def retryOrRespond : ConnAction σ PUnit := do
  if ← retryUpstream limits connect failure then return ⟨⟩
  else queueClientResponse limits response

/-- The first argument holds, for the `connect` calls to come, whether they fail. -/
def connectUpstream (limits : RuntimeLimits) : List Bool → UpstreamConnectPlan → ConnAction σ PUnit
  | failures, plan => unlessRemoved do
    match ← onIo beginUpstreamConnect with
    | .error _ => queueClientResponse limits (upstreamFailureResponse .connect)
    | .ok _ =>
      update (startConnect limits plan)
      match failures with
      | true :: failures =>
        failAttempt .connect
        retryOrRespond limits (connectUpstream limits failures) .connect
          (upstreamFailureResponse .connect)
      | _ =>
        registerUpstream { log := { requests := [plan.request] } } .writable
        refreshDeadline limits

/-- History: a request is built for the retained socket. -/
def logReuse (request : Bytes) (c : SnapshotMioConnection σ) : SnapshotMioConnection σ :=
  { c with upstream := c.upstream.map fun u =>
      { u with log.requests := u.log.requests ++ [request], log.framed := [] } }

def startReuse (request : Bytes) (websocketRequested : Bool)
    (c : SnapshotMioConnection σ) : SnapshotMioConnection σ :=
  { (logReuse request c).beginResponseFraming limits.http.maxHeaderBytes websocketRequested with
    websocketRequested
    pendingUpstreamRequest := none
    pendingUpstreamTls := none
    pendingUpstreamOutput := {} }

def reuseUpstream (request : Bytes) (websocketRequested : Bool) :
    ConnAction σ PUnit := unlessRemoved do
  match ← onIo (do beginUpstreamConnect; upstreamConnected request) with
  | .error _ =>
    mark .reuseRejected
    closeConnection
  | .ok _ =>
    update (startReuse limits request websocketRequested)
    let f ← read
    match f.connection.upstream with
    | none =>
      mark .reuseRejected
      closeConnection
    | some upstream =>
      registerUpstream upstream .writable
      refreshDeadline limits

def replayMethod (method : Text) : ReplayMethod :=
  if method = "GET".toList then .get else if method = "HEAD".toList then .head else .other

structure ProxyPlan where
  request : HttpRequest
  requestBytes : Bytes
  authority : Text
  selection : UpstreamSelection
  websocketRequested : Bool
  reusableUpstream : Option UpstreamReuseKey
  reuseExisting : Bool

/-- The upstream bytes and the replay copy are charged before the request is built. -/
def sendRequest (p : ProxyPlan) : ConnAction σ PUnit := do
  let f ← read
  let scheme := f.connection.clientTransport.forwardedScheme
  match plannedSelectedUpstreamRequestLenWithKeepAlive p.request p.selection.endpoint
      p.selection.tls f.connection.clientIp scheme p.authority p.websocketRequested
      p.reusableUpstream.isSome with
  | .error _ => queueClientResponse limits (errorResponseForCode .resourceAllocationFailed)
  | .ok planned =>
    match ← onAccounts
        (reserveUpstreamAndRetry f.connectionId planned p.requestBytes.length) with
    | .error e => queueClientResponse limits (errorResponseForCode e.code)
    | .ok _ =>
      match buildSelectedUpstreamRequestWithKeepAlive p.request p.selection.endpoint
          p.selection.tls f.connection.clientIp scheme p.authority p.websocketRequested
          p.reusableUpstream.isSome with
      | .error _ =>
        let _ ← onAccounts releaseUpstreamAllocationFailure
        queueClientResponse limits (errorResponseForCode .resourceAllocationFailed)
      | .ok request =>
        match ← onAccounts (commitUpstreamAndRetry request.length p.requestBytes.length) with
        | .error e => queueClientResponse limits (errorResponseForCode e.code)
        | .ok _ =>
          update fun c => { c with retry := some {
            serviceId := p.selection.serviceId
            policy := p.selection.retryPolicy
            method := replayMethod p.request.method
            bodyBytes := p.request.body.length
            attempted := [p.selection.upstreamId]
            currentUpstreamId := p.selection.upstreamId
            retriesUsed := 0
            replayWireLen := request.length
            originalRequest := p.request
            originalAuthority := p.authority
            forwardedScheme := scheme
            websocketRequested := p.websocketRequested } }
          if p.reuseExisting then reuseUpstream limits request p.websocketRequested
          else connectUpstream limits f.world.connectFailures {
            request
            websocketRequested := p.websocketRequested
            pendingUpstreamTls := p.selection.tls.pendingUpstreamTls p.selection.serviceId
              p.selection.upstreamId
            reusableUpstream := p.reusableUpstream }

/-- A selected upstream: a retained socket is kept only if the request can use it. -/
def proxyRequest (request : HttpRequest) (requestBytes : Bytes)
    (authority : Text) (selection : UpstreamSelection) : ConnAction σ PUnit := do
  acquireDrainReference selection.drainReference
  update fun c => { c with drainReference := some selection.drainReference }
  match selection.address with
  | none => queueClientResponse limits badGateway
  | some address =>
    let f ← read
    let websocketRequested := isWebsocketUpgrade request
    let reusableUpstream : Option UpstreamReuseKey :=
      if selection.tls = .disabled ∧ !websocketRequested ∧
          !f.connection.closeClientAfterResponse then
        some ⟨selection.serviceId, selection.upstreamId, address⟩
      else none
    let reuseExisting := reusableUpstream.any f.connection.canReuseUpstream
    let plan : ProxyPlan := { request, requestBytes, authority, selection, websocketRequested,
                              reusableUpstream, reuseExisting }
    if reuseExisting then sendRequest limits plan
    else
      dropUpstream
      sendRequest limits plan

def requestsClose (request : HttpRequest) : Bool :=
  request.headers.any fun header =>
    header.isNamed "Connection".toList && namesClose header.value

def routeCompletedRequest (requestBytes : Bytes) : ConnAction σ PUnit := do
  match parseHttpRequest requestBytes limits.http with
  | .error e =>
    update fun c => { c with closeClientAfterResponse := true }
    queueClientResponse limits (errorResponseForCode e.code)
  | .ok request =>
    update fun c => { c with
      closeClientAfterResponse := requestsClose request || c.clientTransport.isTls }
    match request.headerValue "Host".toList with
    | none => queueClientResponse limits (httpErrorResponse 400 "Bad Request")
    | some authority =>
      let f ← read
      match f.world.route request with
      | .respond response => queueClientResponse limits response
      | .unprepared _ => queueClientResponse limits badGateway
      | .proxy selection => proxyRequest limits request requestBytes authority selection

inductive ClientReadOutcome where
  | blocked
  | failed
  | respond (response : Bytes)
  | completed (bytes : Bytes)
  deriving DecidableEq

structure ClientReads where
  outcome : ClientReadOutcome
  progressed : Bool
  transportOutputReady : Bool

def loseClient : Action (Focus σ) ε PUnit := do
  let _ ← onIo (HttpConnectionIo.handleEvent .ioError)
  mark .clientLost
  closeConnection
  ignoreDeregisterClient

def receiveClientSocketBytes (bytes : Bytes) :
    Action (Focus σ) ε (Except AppError Bytes) := fun f =>
  match f.connection.clientTransport.receiveSocketBytes bytes with
  | (r, clientTransport) =>
    (.ok r, { f with connection := { f.connection with clientTransport } })

/-- Fills an empty output buffer from the client's transport; the bytes pulled. -/
def pullClientOutput : Action (Focus σ) ε ℕ := fun f =>
  match Transport.pullFrom f.connection.pendingClientOutput f.connection.clientTransport with
  | (pulled, pendingClientOutput, clientTransport) =>
    (.ok pulled, { f with connection :=
      { f.connection with pendingClientOutput, clientTransport } })

def readClientLoop (limits : RuntimeLimits) :
    List ReadResult → Bool → Bool → ConnAction σ ClientReads
  | [], progressed, ready => return ⟨.blocked, progressed, ready⟩
  | .wouldBlock :: _, progressed, ready => return ⟨.blocked, progressed, ready⟩
  | .error :: _, progressed, ready =>
    return ⟨.respond (httpErrorResponse 400 "Bad Request"), progressed, ready⟩
  | .data bytes :: reads, progressed, ready => do
    if bytes.isEmpty then
      loseClient
      return ⟨.failed, progressed, ready⟩
    else
      match ← receiveClientSocketBytes bytes with
      | .error _ =>
        loseClient
        return ⟨.failed, true, ready⟩
      | .ok plaintext =>
        let pulled ← pullClientOutput
        let ready := ready || pulled > 0
        if plaintext.isEmpty then readClientLoop limits reads true ready
        else
          let f ← read
          match ← onAccounts (growRequest f.connectionId plaintext.length) with
          | .error e => return ⟨.respond (errorResponseForCode e.code), true, ready⟩
          | .ok _ =>
            match ← onIo (receiveClientBytes plaintext limits.http) with
            | .ok .incomplete => readClientLoop limits reads true ready
            | .ok (.complete bytes) => return ⟨.completed bytes, true, ready⟩
            | .error e =>
              update fun c => { c with closeClientAfterResponse := true }
              return ⟨.respond (errorResponseForCode e.code), true, ready⟩

/-- After the loop: the session's output is announced before the outcome is looked at. -/
def announceOutput (reads : ClientReads) : ConnAction σ PUnit := do
  if !reads.transportOutputReady then return ⟨⟩
  else if reads.outcome = .failed then
    mark .lostWithOutput
    reregisterClient .readWrite
  else reregisterClient .readWrite

def finishClientRead (reads : ClientReads) : ConnAction σ PUnit := do
  match reads.outcome with
  | .failed =>
    dropUpstream
    removeConnection
  | .respond response => queueClientResponse limits response
  | .completed bytes =>
    let result ← attempt (routeCompletedRequest limits bytes)
    let _ ← onAccounts releaseRequest
    match result with
    | .error e => fail e
    | .ok _ => return ⟨⟩
  | .blocked => if reads.progressed then refreshConnectionDeadline limits else return ⟨⟩

def readClient : ConnAction σ PUnit := unlessRemoved do
  let f ← read
  let reads ← readClientLoop limits f.world.reads false false
  announceOutput reads
  finishClientRead limits reads

end Focus

end EdgeProxy

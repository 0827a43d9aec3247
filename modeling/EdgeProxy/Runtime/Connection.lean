import EdgeProxy.Core.Charges
import EdgeProxy.Core.Drain
import EdgeProxy.Core.Responses
import EdgeProxy.Core.Transport
import EdgeProxy.Http.Sanitizer

/-! # A connection of the snapshot runtime

The record that the event loop keeps for each client, and the world that a handler meets while it
serves it: what the sockets answer, the clock, and which calls of the registry fail. Handlers are
actions on `Focus`: one connection, the ledger that all connections share, and the world.

The logs are history variables. No definition reads them; they say what passed over a socket.
-/

namespace EdgeProxy

open Rust Action

inductive Interest where
  | readable | writable | readWrite

structure UpstreamLog where
  requests : List Bytes := []
  sent : Bytes := []
  received : Bytes := []
  framed : Bytes := []
  responses : List Bytes := []

/-- A nonblocking stream and its registration with the poll. -/
structure MioTcpStream where
  registration : Option Interest := none
  log : UpstreamLog := {}

/-- A response is streamed to the client as the upstream sends it, or queued as a whole. -/
inductive ResponseOrigin where
  | streamed | queued

/-- The response to one request: what was accepted or queued for the client, how much of it was
handed to the client's transport, and whether it is a complete response. -/
structure ResponseLog where
  origin : Option ResponseOrigin := none
  response : Bytes := []
  handed : Bytes := []
  complete : Bool := false

namespace ResponseLog

def accept (l : ResponseLog) (bytes : Bytes) : ResponseLog :=
  if bytes.isEmpty then l
  else { l with origin := some .streamed, response := l.response ++ bytes }

def queue (l : ResponseLog) (response : Bytes) (complete : Bool) : ResponseLog :=
  { l with origin := some .queued, response, complete }

def hand (l : ResponseLog) (bytes : Bytes) : ResponseLog := { l with handed := l.handed ++ bytes }

end ResponseLog

inductive PendingClientResponseBatch where
  | empty
  | transportOwned (plaintextBytes : ℕ)
  | socketDraining (plaintextBytes : ℕ)
  deriving DecidableEq

structure UpstreamReuseKey where
  serviceId : Text
  upstreamId : Text
  address : Text
  deriving DecidableEq

structure PendingUpstreamTls where
  serviceId : Text
  upstreamId : Text
  serverName : Text

structure RetryContext where
  serviceId : Text
  policy : RetryPolicy
  method : ReplayMethod
  bodyBytes : ℕ
  attempted : List Text
  currentUpstreamId : Text
  retriesUsed : ℕ
  replayWireLen : ℕ
  originalRequest : HttpRequest
  originalAuthority : Text
  forwardedScheme : Text
  websocketRequested : Bool

/-- Branches of the source that the properties of whole runs depend on. -/
inductive Branch where
  /-- `queue_client_response`: the ledger refuses the response. -/
  | responseRefused
  /-- `queue_client_response`: the connection or the ledger rejects the prepared response. -/
  | responseRejected
  | queuedLate
  | lostWithOutput
  | clientLost
  | sendFailedLate
  | answeredEarly
  /-- `read_upstream`: the read that completes the response goes past its end. -/
  | surplusRead
  /-- `queue_client_response`: the upstream's answer to an upgrade is queued before it is whole. -/
  | queuedPartial
  | finishRejected
  | reuseRejected
  | tunnelRejected
  /-- `write_client` gives the connection up, in this state, with the output written or not. -/
  | clientClosed (state : ConnectionState) (drained : Bool)
  /-- `write_client` returns from a connection that is closing, with output unsent. -/
  | closedUnsent
  | clientExpired (drained : Bool)
  /-- A timeout that ends after the last instant. -/
  | deadlineOverflow

structure SnapshotMioConnection (σ : Type) where
  client : MioTcpStream
  clientTransport : Transport σ
  pendingClientOutput : WriteBuffer := {}
  pendingClientResponse : PendingClientResponseBatch := .empty
  upstream : Option MioTcpStream := none
  reusableUpstream : Option UpstreamReuseKey := none
  upstreamTransport : Transport σ := .plaintext []
  pendingUpstreamOutput : WriteBuffer := {}
  pendingUpstreamTls : Option PendingUpstreamTls := none
  io : HttpConnectionIo := {}
  clientIp : Text
  closeAfterWrite : Bool := false
  closeClientAfterResponse : Bool := false
  pendingUpstreamRequest : Option Bytes := none
  websocketRequested : Bool := false
  websocketResponse : Bytes := []
  clientRegistered : Bool := true
  upstreamRegistered : Bool := false
  tunnelClientToUpstream : WriteBuffer := {}
  tunnelUpstreamToClient : WriteBuffer := {}
  deadline : Option ℕ
  retry : Option RetryContext := none
  drainReference : Option DrainReference := none
  resourceCharges : ConnectionPayloadCharges := {}
  responseFraming : Option HttpResponseFraming := none
  responseHeaderSanitizer : Option UpstreamResponseHeaderSanitizer := none
  /-- History: the response to the current request, and those to earlier ones. -/
  current : ResponseLog := {}
  answered : List ResponseLog := []
  /-- History: the branches taken, oldest first. -/
  trace : List Branch := []

structure ResourceLimits where
  maxRequestBodyBytes : ℕ
  idleTimeout : ℕ
  connectTimeout : ℕ
  upstreamReadTimeout : ℕ
  clientWriteTimeout : ℕ
  maxResponseBufferBytes : ℕ

inductive ReadResult where
  /-- `Ok(n)` with the bytes read; no bytes are the end of the stream. -/
  | data (bytes : Bytes)
  | wouldBlock
  | error

inductive WriteResult where
  /-- `Ok(n)`; a socket never takes more than it was given. -/
  | written (count : ℕ)
  | wouldBlock
  | error

inductive TakeErrorResult where
  | none | pending | error

structure UpstreamSelection where
  serviceId : Text
  upstreamId : Text
  endpoint : UpstreamEndpoint
  tls : UpstreamTlsPolicy
  drainReference : DrainReference
  /-- The connect address, if it is a socket address. -/
  address : Option Text
  retryPolicy : RetryPolicy

/-- What the snapshot in force does with a request. -/
inductive RouteAction where
  | respond (response : Bytes)
  /-- A TLS upstream without a prepared session factory. -/
  | unprepared (selection : UpstreamSelection)
  | proxy (selection : UpstreamSelection)

/-- What a handler meets: each list holds the answers to successive calls, and a call beyond its
end blocks or succeeds. -/
structure World (σ : Type) where
  clock : ℕ
  ticks : List ℕ := []
  reads : List ReadResult := []
  writes : List WriteResult := []
  /-- Whether a registry call fails whose error the handler returns. -/
  registryFaults : List Bool := []
  /-- Whether a registry call fails whose error the handler drops. -/
  ignoredFaults : List Bool := []
  connectFailures : List Bool := []
  takeErrors : List TakeErrorResult := []
  clientSessions : List (Option σ) := []
  route : HttpRequest → RouteAction
  retrySelections : List (Option UpstreamSelection) := []

/-- One connection, with all that a handler of it may touch. -/
structure Focus (σ : Type) where
  connectionId : ℕ
  connection : SnapshotMioConnection σ
  removed : Bool := false
  payloadLedger : PayloadBudgetLedger
  drainReferences : List DrainReference := []
  world : World σ

abbrev ConnAction (σ α : Type) := Action (Focus σ) IoError α

structure RuntimeLimits where
  http : HttpLimits
  resource : ResourceLimits

section Primitives

variable {σ ε α : Type}

namespace Focus

def accounts (f : Focus σ) : PayloadAccounts := ⟨f.connection.resourceCharges, f.payloadLedger⟩

variable (g : SnapshotMioConnection σ → SnapshotMioConnection σ) (stream : MioTcpStream)
  (upstream : MioTcpStream) (interest : Interest)

def update : Action (Focus σ) ε PUnit :=
  modify fun f => { f with connection := g f.connection }

/-- An operation of `HttpConnectionIo` whose `Result` the handler inspects. -/
def onIo (x : IoAction α) : Action (Focus σ) ε (Except AppError α) := fun f =>
  match x f.connection.io with
  | (r, io) => (.ok r, { f with connection := { f.connection with io } })

/-- An operation on the payload charges whose `Result` the handler inspects. -/
def onAccounts (x : AccountAction α) : Action (Focus σ) ε (Except AppError α) := fun f =>
  match x f.accounts with
  | (r, a) => (.ok r, { f with connection := { f.connection with resourceCharges := a.charges }
                               payloadLedger := a.ledger })

theorem onIo_eq {x : IoAction α} {f : Focus σ} {r : Except AppError α} {io : HttpConnectionIo}
    (h : x f.connection.io = (r, io)) : (onIo x : Action (Focus σ) ε (Except AppError α)) f =
      (.ok r, { f with connection := { f.connection with io } }) := by
  simp [onIo, h]

theorem onAccounts_eq {x : AccountAction α} {f : Focus σ} {r : Except AppError α}
    {a : PayloadAccounts} (h : x f.accounts = (r, a)) :
    (onAccounts x : Action (Focus σ) ε (Except AppError α)) f =
      (.ok r, { f with connection := { f.connection with resourceCharges := a.charges }
                       payloadLedger := a.ledger }) := by
  simp [onAccounts, h]

theorem update_eq (f : Focus σ) :
    (update g : Action (Focus σ) ε PUnit) f = (.ok ⟨⟩, { f with connection := g f.connection }) :=
  rfl

def mark (b : Branch) : Action (Focus σ) ε PUnit :=
  update fun c => { c with trace := c.trace ++ [b] }

def closeConnection : Action (Focus σ) ε PUnit :=
  update fun c => { c with closeAfterWrite := true, deadline := none }

/-- A handler that finds no connection in the table returns at once. -/
def unlessRemoved (x : ConnAction σ PUnit) : ConnAction σ PUnit := fun f =>
  if f.removed then (.ok ⟨⟩, f) else x f

/-- `Instant::now()`: the clock never goes back. -/
def now : Action (Focus σ) ε ℕ := fun f =>
  match f.world.ticks with
  | [] => (.ok f.world.clock, f)
  | t :: ticks =>
    (.ok (f.world.clock + t),
      { f with world := { f.world with clock := f.world.clock + t, ticks } })

def registryFault : Action (Focus σ) ε Bool := fun f =>
  match f.world.registryFaults with
  | [] => (.ok false, f)
  | b :: registryFaults => (.ok b, { f with world := { f.world with registryFaults } })

def registryError : IoError := ⟨.other, "registry call failed"⟩

def notRegistered : IoError := ⟨.notFound, "socket is not registered"⟩

def alreadyRegistered : IoError := ⟨.alreadyExists, "socket is already registered"⟩

/-- A call of the registry for a stream: it fails by itself or because of the stream's state. -/
def registryCall (accepts : Bool) (refusal : IoError) (stream : MioTcpStream)
    (registration : Option Interest) : ConnAction σ MioTcpStream := do
  if ← registryFault then fail registryError
  else if accepts then return { stream with registration }
  else fail refusal

def register : ConnAction σ MioTcpStream :=
  registryCall stream.registration.isNone alreadyRegistered stream (some interest)

def reregister : ConnAction σ MioTcpStream :=
  registryCall stream.registration.isSome notRegistered stream (some interest)

def deregister : ConnAction σ MioTcpStream :=
  registryCall stream.registration.isSome notRegistered stream none

def reregisterClient : ConnAction σ PUnit := do
  let f ← read
  let client ← reregister f.connection.client interest
  update fun c => { c with client }

def deregisterClient : ConnAction σ PUnit := do
  let f ← read
  let client ← deregister f.connection.client
  update fun c => { c with client }

/-- `let _ = registry.deregister(&mut connection.client)`. -/
def ignoreDeregisterClient : Action (Focus σ) ε PUnit := fun f =>
  match f.world.ignoredFaults with
  | true :: ignoredFaults => (.ok ⟨⟩, { f with world := { f.world with ignoredFaults } })
  | ignoredFaults => (.ok ⟨⟩, { f with
      connection := { f.connection with client.registration := none }
      world := { f.world with ignoredFaults := ignoredFaults.tail } })

def registerUpstream : ConnAction σ PUnit := do
  let upstream ← register upstream interest
  update fun c => { c with upstream := some upstream, upstreamRegistered := true }

def reregisterUpstream : ConnAction σ PUnit := do
  let upstream ← reregister upstream interest
  update fun c => { c with upstream := some upstream }

def deregisterUpstream : ConnAction σ PUnit := do
  let upstream ← deregister upstream
  update fun c => { c with upstream := some upstream, upstreamRegistered := false }

/-- The socket is taken out first: it is gone even if it cannot be deregistered. -/
def dropUpstream : ConnAction σ PUnit := unlessRemoved do
  let f ← read
  match f.connection.upstream with
  | none => update fun c => { c with reusableUpstream := none }
  | some upstream =>
    update fun c => { c with upstream := none }
    if f.connection.upstreamRegistered then
      let _ ← deregister upstream
      update fun c => { c with upstreamRegistered := false, reusableUpstream := none }
    else update fun c => { c with upstreamRegistered := false, reusableUpstream := none }

def deactivateUpstreamForReuse : ConnAction σ PUnit := do
  let f ← read
  match f.connection.upstream with
  | none => return ⟨⟩
  | some upstream =>
    if f.connection.upstreamRegistered then deregisterUpstream upstream else return ⟨⟩

end Focus

end Primitives

end EdgeProxy

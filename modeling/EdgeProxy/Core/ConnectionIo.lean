import EdgeProxy.Http.Request
import EdgeProxy.Lib.Action

/-! # The buffered I/O of one connection

The lifecycle of a connection (`ConnectionState`), the progress of the current upstream attempt,
and `HttpConnectionIo`, which moves both together with the request and response buffers.
-/

namespace EdgeProxy

open Rust Action List

inductive ConnectionState where
  | accepted | readingClientRequest | selectingRoute | connectingUpstream | handshakingUpstreamTls
  | writingUpstreamRequest | readingUpstreamResponse | writingClientResponse | tunnelingWebSocket
  | draining | closed | failed
  deriving DecidableEq

def ConnectionState.canTransitionTo : ConnectionState → ConnectionState → Bool
  | _, .closed | _, .failed => true
  | .accepted, .readingClientRequest | .accepted, .writingClientResponse => true
  | .readingClientRequest, .selectingRoute | .readingClientRequest, .writingClientResponse => true
  | .selectingRoute, .connectingUpstream | .selectingRoute, .writingClientResponse => true
  | .connectingUpstream, .writingUpstreamRequest | .connectingUpstream, .handshakingUpstreamTls
  | .connectingUpstream, .writingClientResponse => true
  | .handshakingUpstreamTls, .writingUpstreamRequest
  | .handshakingUpstreamTls, .writingClientResponse => true
  | .writingUpstreamRequest, .readingUpstreamResponse
  | .writingUpstreamRequest, .writingClientResponse => true
  | .readingUpstreamResponse, .writingClientResponse
  | .readingUpstreamResponse, .tunnelingWebSocket => true
  | .writingClientResponse, .readingClientRequest | .writingClientResponse, .draining => true
  | .tunnelingWebSocket, .draining => true
  | _, _ => false

structure ConnectionInterest where
  clientReadable : Bool := false
  clientWritable : Bool := false
  upstreamReadable : Bool := false
  upstreamWritable : Bool := false

def ConnectionState.ioInterest : ConnectionState → ConnectionInterest
  | .accepted | .readingClientRequest => { clientReadable := true }
  | .selectingRoute | .draining | .closed | .failed => {}
  | .connectingUpstream | .writingUpstreamRequest => { upstreamWritable := true }
  | .handshakingUpstreamTls => { upstreamReadable := true, upstreamWritable := true }
  | .readingUpstreamResponse => { upstreamReadable := true }
  | .writingClientResponse => { clientWritable := true }
  | .tunnelingWebSocket => { clientReadable := true, upstreamReadable := true }

inductive RouteSelectionTarget where
  | proxy | immediateResponse | webSocketTunnel
  deriving DecidableEq

inductive ConnectionEvent where
  | clientReadable | clientWritable | clientResponseCompleted | upstreamConnectReady
  | upstreamTlsHandshakeStarted | upstreamTlsEstablished | upstreamReadable | upstreamWritable
  | requestParsed | routeSelected (target : RouteSelectionTarget) | timeoutExpired | clientClosed
  | upstreamClosed | commandShutdown | ioError
  deriving DecidableEq

inductive ConnectionTimeoutKind where
  | clientIdle | upstreamConnect | upstreamTlsHandshake | upstreamRead | clientWrite

structure ConnectionTimeoutDecision where
  kind : ConnectionTimeoutKind
  statusCode : Option ℕ
  reason : String
  nextState : ConnectionState

def timeoutDecisionForState : ConnectionState → Option ConnectionTimeoutDecision
  | .accepted | .readingClientRequest =>
    some ⟨.clientIdle, some 408, "Request Timeout", .writingClientResponse⟩
  | .connectingUpstream =>
    some ⟨.upstreamConnect, some 504, "Gateway Timeout", .writingClientResponse⟩
  | .handshakingUpstreamTls =>
    some ⟨.upstreamTlsHandshake, some 504, "Gateway Timeout", .writingClientResponse⟩
  | .writingUpstreamRequest | .readingUpstreamResponse =>
    some ⟨.upstreamRead, some 504, "Gateway Timeout", .writingClientResponse⟩
  | .writingClientResponse => some ⟨.clientWrite, none, "Client Write Timeout", .failed⟩
  | _ => none

def commandRejected (message : String) : AppError := ⟨.runtimeCommandRejected, message⟩

/-- `Connection::transition_to`, on the state. -/
def ConnectionState.transitionTo (s next : ConnectionState) : Except AppError ConnectionState :=
  if s.canTransitionTo next then .ok next
  else .error (commandRejected "invalid connection state transition")

def ConnectionState.next : ConnectionState → ConnectionEvent → Option ConnectionState
  | _, .ioError => some .failed
  | _, .clientClosed | _, .commandShutdown => some .closed
  | .accepted, .clientReadable => some .readingClientRequest
  | .readingClientRequest, .requestParsed => some .selectingRoute
  | .selectingRoute, .routeSelected .proxy => some .connectingUpstream
  | .selectingRoute, .routeSelected .immediateResponse => some .writingClientResponse
  | .connectingUpstream, .upstreamConnectReady => some .writingUpstreamRequest
  | .connectingUpstream, .upstreamTlsHandshakeStarted => some .handshakingUpstreamTls
  | .handshakingUpstreamTls, .upstreamTlsEstablished => some .writingUpstreamRequest
  | .writingUpstreamRequest, .upstreamWritable => some .readingUpstreamResponse
  | .readingUpstreamResponse, .upstreamReadable => some .writingClientResponse
  | .readingUpstreamResponse, .routeSelected .webSocketTunnel => some .tunnelingWebSocket
  | .writingClientResponse, .clientResponseCompleted => some .readingClientRequest
  | .writingClientResponse, .clientWritable => some .draining
  | .draining, .upstreamClosed => some .closed
  | _, _ => none

def ConnectionState.handleEvent (s : ConnectionState) (event : ConnectionEvent) :
    Except AppError ConnectionState :=
  if event = .timeoutExpired then
    match timeoutDecisionForState s with
    | some decision => .ok decision.nextState
    | none => .error (commandRejected "no timeout policy for current connection state")
  else
    match s.next event with
    | some next => s.transitionTo next
    | none => .error (commandRejected "event is not valid for current connection state")

inductive UpstreamAttemptPhase where
  | notStarted | writing | awaitingResponse | responseStarted | terminal
  deriving DecidableEq

inductive UpstreamAttemptFailure where
  | connect | connectTimeout | tlsHandshake | tlsHandshakeTimeout | write | read | readTimeout
  | resetBeforeResponse | resetAfterResponse
  deriving DecidableEq

inductive UpstreamAttemptTerminal where
  | succeeded
  | failed (failure : UpstreamAttemptFailure)

structure UpstreamAttemptProgress where
  phase : UpstreamAttemptPhase := .notStarted
  requestBytesWritten : ℕ := 0
  responseStarted : Bool := false
  terminal : Option UpstreamAttemptTerminal := none

def invalidUpstreamAttemptTransition : AppError :=
  commandRejected "invalid upstream attempt transition"

namespace UpstreamAttemptProgress

variable (p : UpstreamAttemptProgress) (byteCount : ℕ)

def begin : Except AppError UpstreamAttemptProgress :=
  if p.phase ≠ .notStarted then .error invalidUpstreamAttemptTransition
  else .ok { p with phase := .writing }

/-- The count saturates at `u64::MAX`. -/
def recordRequestWrite : Except AppError UpstreamAttemptProgress :=
  if p.phase ≠ .writing then .error invalidUpstreamAttemptTransition
  else .ok { p with requestBytesWritten := min (p.requestBytesWritten + byteCount) (2 ^ 64 - 1) }

def requestWriteCompleted : Except AppError UpstreamAttemptProgress :=
  if p.phase ≠ .writing then .error invalidUpstreamAttemptTransition
  else .ok { p with phase := .awaitingResponse }

def isAwaiting : Bool :=
  p.phase == .awaitingResponse || p.phase == .responseStarted

def recordResponseBytes : Except AppError UpstreamAttemptProgress :=
  if !p.isAwaiting then .error invalidUpstreamAttemptTransition
  else if byteCount > 0 then .ok { p with responseStarted := true, phase := .responseStarted }
  else .ok p

def complete (terminal : UpstreamAttemptTerminal) : Except AppError UpstreamAttemptProgress :=
  if p.terminal.isSome then .error invalidUpstreamAttemptTransition
  else .ok { p with terminal := some terminal, phase := .terminal }

def succeed : Except AppError UpstreamAttemptProgress :=
  if !p.isAwaiting then .error invalidUpstreamAttemptTransition else p.complete .succeeded

def fail (failure : UpstreamAttemptFailure) : Except AppError UpstreamAttemptProgress :=
  if p.phase = .terminal then .error invalidUpstreamAttemptTransition
  else p.complete (.failed failure)

end UpstreamAttemptProgress

/-- The largest size of a Rust allocation (`isize::MAX`). -/
def maxAllocation : ℕ := 2 ^ 63 - 1

def resourceAllocationError : AppError :=
  ⟨.resourceAllocationFailed, "managed buffer allocation failed"⟩

structure WriteBuffer where
  bytes : Bytes := []
  written : ℕ := 0

namespace WriteBuffer

variable (b : WriteBuffer) (bytes : Bytes) (byteCount : ℕ)

def new : WriteBuffer := { bytes }

def tryAppend (chunk : Bytes) : Except AppError WriteBuffer :=
  if b.bytes.length + chunk.length > maxAllocation then .error resourceAllocationError
  else .ok { b with bytes := b.bytes ++ chunk }

def remaining : Bytes := b.bytes.drop b.written

def remainingLen : ℕ := b.remaining.length

def isComplete : Bool := b.written ≥ b.bytes.length

def advance : ℕ × WriteBuffer :=
  let advanced := min byteCount b.remainingLen
  (advanced, { b with written := b.written + advanced })

def clearIfComplete : WriteBuffer :=
  if !b.isComplete || b.bytes.isEmpty then b else {}

def advanceAndClearIfComplete : WriteBuffer :=
  (b.advance byteCount).2.clearIfComplete

/-- `try_replace_if_complete`; the buffers are far below the allocation limit. -/
def tryReplaceIfComplete : WriteBuffer :=
  if b.isComplete then { bytes } else b

@[simp] theorem remaining_new : (new bytes).remaining = bytes := rfl

theorem isComplete_iff {b : WriteBuffer} : b.isComplete = true ↔ b.remaining = [] := by
  simp [isComplete, remaining]

@[simp] theorem remaining_clearIfComplete :
    b.clearIfComplete.remaining = b.remaining := by
  unfold clearIfComplete
  split
  · rfl
  · next h =>
    simp only [Bool.or_eq_true, Bool.not_eq_true', not_or, Bool.not_eq_false] at h
    rw [isComplete_iff.mp h.1]
    rfl

@[simp] theorem remaining_advance (n : ℕ) :
    (b.advance n).2.remaining = b.remaining.drop n := by
  simp only [advance, remaining, remainingLen, drop_drop, length_drop]
  rcases le_total n (b.bytes.length - b.written) with h | h
  · rw [min_eq_left h]
  · rw [min_eq_right h, drop_eq_nil_of_le (by omega), drop_eq_nil_of_le (by omega)]

end WriteBuffer

structure HttpConnectionIo where
  state : ConnectionState := .accepted
  upstreamAttempt : UpstreamAttemptProgress := {}
  clientRequest : ClientRequestBuffer := {}
  upstreamWrite : WriteBuffer := {}
  clientWrite : WriteBuffer := {}

abbrev IoAction (α : Type) := Action HttpConnectionIo AppError α

def invalidConnectionIoState : AppError :=
  commandRejected "operation is not valid for current connection state"

namespace HttpConnectionIo

def transitionTo (next : ConnectionState) : IoAction PUnit := fun io =>
  match io.state.transitionTo next with
  | .ok state => (.ok ⟨⟩, { io with state })
  | .error e => (.error e, io)

def handleEvent (event : ConnectionEvent) : IoAction PUnit := fun io =>
  match io.state.handleEvent event with
  | .ok state => (.ok ⟨⟩, { io with state })
  | .error e => (.error e, io)

def onAttempt (f : UpstreamAttemptProgress → Except AppError UpstreamAttemptProgress) :
    IoAction PUnit := fun io =>
  match f io.upstreamAttempt with
  | .ok upstreamAttempt => (.ok ⟨⟩, { io with upstreamAttempt })
  | .error e => (.error e, io)

def require (condition : HttpConnectionIo → Bool) : IoAction PUnit := fun io =>
  if condition io then (.ok ⟨⟩, io) else (.error invalidConnectionIoState, io)

variable (chunk : Bytes) (limits : HttpLimits) (byteCount : ℕ)

def pushRequest : IoAction RequestReadOutcome := fun io =>
  match io.clientRequest.push chunk limits with
  | (result, clientRequest) => (result, { io with clientRequest })

def startReading : IoAction PUnit := do
  let io ← read
  if io.state = .accepted then handleEvent .clientReadable else return ⟨⟩

def receiveClientBytes : IoAction RequestReadOutcome := do
  startReading
  require fun io => io.state == .readingClientRequest
  match ← pushRequest chunk limits with
  | .incomplete => return .incomplete
  | .complete bytes =>
    match parseHttpRequest bytes limits with
    | .error e => fail e
    | .ok _ =>
      handleEvent .requestParsed
      return .complete bytes

def beginUpstreamConnect : IoAction PUnit := do
  handleEvent (.routeSelected .proxy)
  onAttempt (·.begin)

def upstreamConnected (upstreamRequest : Bytes) : IoAction PUnit := do
  let io ← read
  match io.state with
  | .connectingUpstream =>
    modify fun io => { io with upstreamWrite := .new upstreamRequest }
    handleEvent .upstreamConnectReady
  | .handshakingUpstreamTls =>
    modify fun io => { io with upstreamWrite := .new upstreamRequest }
    handleEvent .upstreamTlsEstablished
  | _ => fail invalidConnectionIoState

def advanceUpstreamWrite : IoAction ℕ := do
  require fun io => io.state == .writingUpstreamRequest
  let io ← read
  let (advanced, upstreamWrite) := io.upstreamWrite.advance byteCount
  modify fun io => { io with upstreamWrite }
  onAttempt (·.recordRequestWrite advanced)
  if upstreamWrite.isComplete then
    onAttempt (·.requestWriteCompleted)
    handleEvent .upstreamWritable
    modify fun io => { io with upstreamWrite := io.upstreamWrite.clearIfComplete }
    return advanced
  else return advanced

def appendClientWrite : IoAction PUnit := fun io =>
  match io.clientWrite.tryAppend chunk with
  | .ok clientWrite => (.ok ⟨⟩, { io with clientWrite })
  | .error e => (.error e, io)

def receiveUpstreamBytes : IoAction ℕ := do
  require fun io => io.state == .readingUpstreamResponse
  appendClientWrite chunk
  onAttempt (·.recordResponseBytes chunk.length)
  return chunk.length

def finishUpstreamResponse : IoAction PUnit := do
  handleEvent .upstreamReadable
  onAttempt (·.succeed)

def failUpstreamAttempt (failure : UpstreamAttemptFailure) : IoAction PUnit :=
  onAttempt (·.fail failure)

def prepareUpstreamRetry : IoAction PUnit := do
  let io ← read
  if !(io.state == .connectingUpstream || io.state == .writingUpstreamRequest) ||
      io.upstreamAttempt.terminal.isNone then
    fail invalidUpstreamAttemptTransition
  else
    modify fun io =>
      { io with state := .selectingRoute, upstreamAttempt := {}, upstreamWrite := {} }

def queueClientResponse (response : Bytes) : IoAction PUnit := do
  require fun io => io.state.canTransitionTo .writingClientResponse
  modify fun io => { io with clientWrite := .new response }
  transitionTo .writingClientResponse

def advanceClientWrite : IoAction ℕ := do
  require fun io => io.state == .readingUpstreamResponse || io.state == .writingClientResponse
  let io ← read
  let (advanced, clientWrite) := io.clientWrite.advance byteCount
  modify fun io => { io with clientWrite := clientWrite.clearIfComplete }
  return advanced

def finishClientResponse (keepAlive : Bool) : IoAction PUnit := do
  require fun io => io.state == .writingClientResponse && io.clientWrite.isComplete
  if keepAlive then
    handleEvent .clientResponseCompleted
    modify fun io => { io with upstreamAttempt := {}, upstreamWrite := {} }
  else handleEvent .clientWritable

section Inversion

variable {io io' : HttpConnectionIo} {n m : ℕ} {u : PUnit}

theorem modify_ok {f : HttpConnectionIo → HttpConnectionIo}
    (h : (modify f : IoAction PUnit) io = (.ok u, io')) : io' = f io :=
  (Prod.mk.inj h).2.symm

theorem queueClientResponse_eq (response : Bytes) (io : HttpConnectionIo) :
    queueClientResponse response io =
      if io.state.canTransitionTo .writingClientResponse then
        (.ok ⟨⟩, { io with clientWrite := .new response, state := .writingClientResponse })
      else (.error invalidConnectionIoState, io) := by
  by_cases hcan : io.state.canTransitionTo .writingClientResponse = true
  · rw [if_pos hcan, queueClientResponse,
      bind_ok (show require _ io = (.ok ⟨⟩, io) by simp [require, hcan])]
    simp [bind_apply, transitionTo, ConnectionState.transitionTo, hcan]
  · rw [if_neg hcan, queueClientResponse,
      bind_error (show require _ io = (.error invalidConnectionIoState, io) by
        simp [require, hcan])]

theorem next_eq {s s' : ConnectionState} :
    (s.next (.routeSelected .proxy) = some s' →
      s = .selectingRoute ∧ s' = .connectingUpstream) ∧
    (s.next .upstreamReadable = some s' →
      s = .readingUpstreamResponse ∧ s' = .writingClientResponse) ∧
    (s.next .clientResponseCompleted = some s' →
      s = .writingClientResponse ∧ s' = .readingClientRequest) ∧
    (s.next .clientWritable = some s' → s = .writingClientResponse ∧ s' = .draining) := by
  cases s <;> simp [ConnectionState.next, eq_comm]

theorem prepareUpstreamRetry_ok (h : prepareUpstreamRetry io = (.ok u, io')) :
    (io.state = .connectingUpstream ∨ io.state = .writingUpstreamRequest) ∧
      io' = { io with state := .selectingRoute, upstreamAttempt := {}, upstreamWrite := {} } := by
  simp only [prepareUpstreamRetry, read_bind] at h
  split at h
  · simp [fail] at h
  · next hc =>
    obtain rfl := modify_ok h
    simp only [Bool.or_eq_true, not_or] at hc
    exact ⟨or_iff_not_imp_left.mpr (by simpa using hc.1), rfl⟩

theorem advanceClientWrite_effect (n : ℕ) (io : HttpConnectionIo) :
    (∃ m, advanceClientWrite n io = (.ok m, { io with
        clientWrite := (io.clientWrite.advance n).2.clearIfComplete }) ∧
      (io.state = .readingUpstreamResponse ∨ io.state = .writingClientResponse)) ∨
    (advanceClientWrite n io = (.error invalidConnectionIoState, io) ∧
      io.state ≠ .readingUpstreamResponse ∧ io.state ≠ .writingClientResponse) := by
  by_cases hstate : io.state = .readingUpstreamResponse ∨ io.state = .writingClientResponse
  · refine .inl ⟨(io.clientWrite.advance n).1, ?_, hstate⟩
    rcases hstate with hstate | hstate <;>
      simp [advanceClientWrite, bind_apply, require, hstate, WriteBuffer.advance]
  · rw [not_or] at hstate
    refine .inr ⟨?_, hstate⟩
    simp [advanceClientWrite, bind_apply, require, hstate]

theorem receiveClientBytes_effect (chunk : Bytes) (limits : HttpLimits)
    (hstate : io.state = .accepted ∨ io.state = .readingClientRequest) :
    ∃ r state clientRequest,
      receiveClientBytes chunk limits io = (r, { io with state, clientRequest }) ∧
      (state = .readingClientRequest ∨ state = .selectingRoute) ∧
      ((∃ bytes, r = .ok (.complete bytes)) ↔ state = .selectingRoute) := by
  have hstart : startReading io = (.ok ⟨⟩, { io with state := .readingClientRequest }) := by
    rcases hstate with h | h
    · simp [startReading, h, handleEvent, ConnectionState.handleEvent, ConnectionState.next,
        ConnectionState.transitionTo, ConnectionState.canTransitionTo]
    · cases io
      simp_all [startReading]
  have hpush : pushRequest chunk limits { io with state := .readingClientRequest } =
      ((io.clientRequest.push chunk limits).1, { io with
        state := .readingClientRequest
        clientRequest := (io.clientRequest.push chunk limits).2 }) := rfl
  unfold receiveClientBytes
  rw [bind_ok hstart, bind_ok (show require _ _ =
    (.ok ⟨⟩, { io with state := .readingClientRequest }) by simp [require])]
  rcases hr : (io.clientRequest.push chunk limits).1 with e | ⟨_ | bytes⟩ <;> rw [hr] at hpush
  · exact ⟨.error e, _, _, by rw [bind_error hpush], .inl rfl, by simp⟩
  · exact ⟨.ok .incomplete, _, _, by rw [bind_ok hpush]; rfl, .inl rfl, by simp⟩
  · rw [bind_ok hpush]
    dsimp only
    rcases parseHttpRequest bytes limits with e | request
    · exact ⟨.error e, _, _, rfl, .inl rfl, by simp⟩
    · exact ⟨.ok (.complete bytes), .selectingRoute, _, rfl, .inr rfl, by simp⟩

end Inversion

section Success

variable {io : HttpConnectionIo}

theorem recordResponseBytes_ok {p : UpstreamAttemptProgress} {n : ℕ} (h : p.isAwaiting = true) :
    ∃ p', p.recordResponseBytes n = .ok p' ∧ p'.isAwaiting = true := by
  unfold UpstreamAttemptProgress.recordResponseBytes
  rw [if_neg (by simp [h])]
  split
  · exact ⟨_, rfl, rfl⟩
  · exact ⟨_, rfl, h⟩

theorem receiveUpstreamBytes_ok (chunk : Bytes) (hstate : io.state = .readingUpstreamResponse)
    (hawaiting : io.upstreamAttempt.isAwaiting = true)
    (hlen : io.clientWrite.bytes.length + chunk.length ≤ maxAllocation) :
    ∃ io', receiveUpstreamBytes chunk io = (.ok chunk.length, io') ∧
      io'.state = .readingUpstreamResponse ∧ io'.upstreamAttempt.isAwaiting = true ∧
      io'.clientWrite.bytes = io.clientWrite.bytes ++ chunk := by
  obtain ⟨p, hp, hp'⟩ := recordResponseBytes_ok (n := chunk.length) hawaiting
  refine ⟨{ io with clientWrite.bytes := io.clientWrite.bytes ++ chunk, upstreamAttempt := p }, ?_,
    hstate, hp', rfl⟩
  unfold receiveUpstreamBytes
  have happend : appendClientWrite chunk io =
      (.ok ⟨⟩, { io with clientWrite.bytes := io.clientWrite.bytes ++ chunk }) := by
    simp only [appendClientWrite, WriteBuffer.tryAppend, if_neg (not_lt.mpr hlen)]
  rw [bind_ok (show require _ io = (.ok ⟨⟩, io) by simp [require, hstate]), bind_ok happend]
  simp only [bind_apply, onAttempt, hp, pure_apply]

end Success

end HttpConnectionIo

end EdgeProxy

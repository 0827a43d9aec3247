import EdgeProxy.Core.ConnectionIo

/-! # Coherence of the connection state and the upstream attempt

Any sequence of the operations of `HttpConnectionIo` and of the events that the runtime raises
itself, accepted or refused. Some operations move one of the two machines before the other one
refuses; `Change` lists everything that one operation can leave behind, and the laws about whole
runs are read off it.
-/

namespace EdgeProxy

open Rust Action HttpConnectionIo UpstreamAttemptProgress

abbrev ByteVec := { bytes : Bytes // bytes.length ≤ maxAllocation }

inductive IoCall where
  | receiveClientBytes (chunk : Bytes) (limits : HttpLimits)
  | beginUpstreamConnect
  | upstreamConnected (upstreamRequest : ByteVec)
  | advanceUpstreamWrite (byteCount : ℕ)
  | receiveUpstreamBytes (chunk : Bytes)
  | finishUpstreamResponse
  | failUpstreamAttempt (failure : UpstreamAttemptFailure)
  | prepareUpstreamRetry
  | queueClientResponse (response : Bytes)
  | advanceClientWrite (byteCount : ℕ)
  | finishClientResponse (keepAlive : Bool)
  | ioError
  | upstreamTlsHandshakeStarted
  | timeoutExpired
  | fail
  | tunnelWebSocket

def IoCall.run : IoCall → IoAction PUnit
  | .receiveClientBytes chunk limits => do
    let _ ← HttpConnectionIo.receiveClientBytes chunk limits
    return ⟨⟩
  | .beginUpstreamConnect => HttpConnectionIo.beginUpstreamConnect
  | .upstreamConnected upstreamRequest => HttpConnectionIo.upstreamConnected upstreamRequest
  | .advanceUpstreamWrite byteCount => do
    let _ ← HttpConnectionIo.advanceUpstreamWrite byteCount
    return ⟨⟩
  | .receiveUpstreamBytes chunk => do
    let _ ← HttpConnectionIo.receiveUpstreamBytes chunk
    return ⟨⟩
  | .finishUpstreamResponse => HttpConnectionIo.finishUpstreamResponse
  | .failUpstreamAttempt failure => HttpConnectionIo.failUpstreamAttempt failure
  | .prepareUpstreamRetry => HttpConnectionIo.prepareUpstreamRetry
  | .queueClientResponse response => HttpConnectionIo.queueClientResponse response
  | .advanceClientWrite byteCount => do
    let _ ← HttpConnectionIo.advanceClientWrite byteCount
    return ⟨⟩
  | .finishClientResponse keepAlive => HttpConnectionIo.finishClientResponse keepAlive
  | .ioError => HttpConnectionIo.handleEvent .ioError
  | .upstreamTlsHandshakeStarted => HttpConnectionIo.handleEvent .upstreamTlsHandshakeStarted
  | .timeoutExpired => HttpConnectionIo.handleEvent .timeoutExpired
  | .fail => HttpConnectionIo.transitionTo .failed
  | .tunnelWebSocket => HttpConnectionIo.transitionTo .tunnelingWebSocket

/-- A connection with the request that was passed to `upstream_connected` in this attempt. -/
structure TracedIo where
  io : HttpConnectionIo := {}
  request : Bytes := []

namespace TracedIo

/-- One call; a retry and a kept-alive finish begin the next attempt. -/
def step (call : IoCall) (t : TracedIo) : TracedIo :=
  match call, call.run t.io with
  | .upstreamConnected upstreamRequest, (.ok _, io) => ⟨io, upstreamRequest⟩
  | .prepareUpstreamRetry, (.ok _, io) | .finishClientResponse true, (.ok _, io) => ⟨io, []⟩
  | _, (_, io) => ⟨io, t.request⟩

def after (calls : List IoCall) (t : TracedIo) : TracedIo :=
  calls.foldl (fun t call => t.step call) t

end TracedIo

def ConnectionState.isEnded : ConnectionState → Bool
  | .closed | .failed => true
  | _ => false

/-- The states after the request has been written: only a kept-alive finish leaves them. -/
def ConnectionState.isLate : ConnectionState → Bool
  | .readingUpstreamResponse | .writingClientResponse | .tunnelingWebSocket | .draining
  | .closed | .failed => true
  | _ => false

def ConnectionState.Allowed (s s' : ConnectionState) : Prop :=
  s' = s ∨ s.canTransitionTo s' = true

theorem ConnectionState.Allowed.ended {s s' : ConnectionState} (h : s.Allowed s')
    (hs : s.isEnded = true) : s'.isEnded = true := by
  rcases h with rfl | h
  · exact hs
  · cases s <;> cases s' <;> simp_all [isEnded, canTransitionTo]

/-- What one operation can do to a connection and to the request of its attempt. -/
inductive Change (t : TracedIo) : TracedIo → Prop
  | quiet (clientRequest : ClientRequestBuffer) (clientWrite : WriteBuffer) :
      Change t { t with io.clientRequest := clientRequest, io.clientWrite := clientWrite }
  | late (state : ConnectionState) (clientWrite : WriteBuffer) (hlate : state.isLate = true)
      (hallowed : t.io.state.canTransitionTo state = true) :
      Change t { t with io.state := state, io.clientWrite := clientWrite }
  | reading (hstate : t.io.state = .accepted) :
      Change t { t with io.state := .readingClientRequest }
  | parsed (clientRequest : ClientRequestBuffer) (hstate : t.io.state = .readingClientRequest) :
      Change t { t with io.state := .selectingRoute, io.clientRequest := clientRequest }
  | selected (hstate : t.io.state = .selectingRoute)
      (hphase : t.io.upstreamAttempt.phase ≠ .notStarted) :
      Change t { t with io.state := .connectingUpstream }
  | begun (hstate : t.io.state = .selectingRoute)
      (hphase : t.io.upstreamAttempt.phase = .notStarted) :
      Change t { t with io.state := .connectingUpstream, io.upstreamAttempt.phase := .writing }
  | handshaking (hstate : t.io.state = .connectingUpstream) :
      Change t { t with io.state := .handshakingUpstreamTls }
  | connected (request : ByteVec)
      (hstate : t.io.state = .connectingUpstream ∨ t.io.state = .handshakingUpstreamTls) :
      Change t { t with
        io.state := .writingUpstreamRequest, io.upstreamWrite := .new request, request := request }
  | skipped (upstreamWrite : WriteBuffer) (hstate : t.io.state = .writingUpstreamRequest)
      (hphase : t.io.upstreamAttempt.phase ≠ .writing) :
      Change t { t with io.upstreamWrite := upstreamWrite }
  | written (n : ℕ) (hstate : t.io.state = .writingUpstreamRequest)
      (hphase : t.io.upstreamAttempt.phase = .writing) :
      Change t { t with
        io.upstreamWrite := (t.io.upstreamWrite.advance n).2
        io.upstreamAttempt.requestBytesWritten :=
          min (t.io.upstreamAttempt.requestBytesWritten + (t.io.upstreamWrite.advance n).1)
            (2 ^ 64 - 1) }
  | completed (n : ℕ) (hstate : t.io.state = .writingUpstreamRequest)
      (hphase : t.io.upstreamAttempt.phase = .writing)
      (hcomplete : (t.io.upstreamWrite.advance n).2.isComplete = true) :
      Change t { t with
        io.state := .readingUpstreamResponse
        io.upstreamWrite := (t.io.upstreamWrite.advance n).2.clearIfComplete
        io.upstreamAttempt.phase := .awaitingResponse
        io.upstreamAttempt.requestBytesWritten :=
          min (t.io.upstreamAttempt.requestBytesWritten + (t.io.upstreamWrite.advance n).1)
            (2 ^ 64 - 1) }
  | received (clientWrite : WriteBuffer) (hawaiting : t.io.upstreamAttempt.isAwaiting = true) :
      Change t { t with
        io.clientWrite := clientWrite
        io.upstreamAttempt.responseStarted := true
        io.upstreamAttempt.phase := .responseStarted }
  | terminated (state : ConnectionState) (terminal : UpstreamAttemptTerminal)
      (hstate : state = t.io.state ∨
        t.io.state = .readingUpstreamResponse ∧ state = .writingClientResponse)
      (hterminal : t.io.upstreamAttempt.terminal = none) :
      Change t { t with
        io.state := state
        io.upstreamAttempt.phase := .terminal
        io.upstreamAttempt.terminal := some terminal }

/-- What a retry and a kept-alive finish do: the attempt begins anew. -/
inductive Restart (t : TracedIo) : IoCall → TracedIo → Prop
  | retried (hstate : t.io.state = .connectingUpstream ∨ t.io.state = .writingUpstreamRequest) :
      Restart t .prepareUpstreamRetry { t with
        io.state := .selectingRoute, io.upstreamAttempt := {}, io.upstreamWrite := {}
        request := [] }
  | finished (hstate : t.io.state = .writingClientResponse) :
      Restart t (.finishClientResponse true) { t with
        io.state := .readingClientRequest, io.upstreamAttempt := {}, io.upstreamWrite := {}
        request := [] }

section Steps

open HttpConnectionIo

variable {t : TracedIo}

theorem Change.none : Change t t := .quiet t.io.clientRequest t.io.clientWrite

theorem handleEvent_cases (event : ConnectionEvent) (io : HttpConnectionIo) :
    (handleEvent event io).2 = io ∨
      ∃ state, (handleEvent event io).2 = { io with state } ∧
        io.state.canTransitionTo state = true ∧
          (event = .timeoutExpired ∧ state.isLate = true ∨ io.state.next event = some state) := by
  unfold handleEvent ConnectionState.handleEvent
  split_ifs with ht
  · rcases hd : timeoutDecisionForState io.state with _ | decision
    · exact .inl rfl
    · refine .inr ⟨decision.nextState, rfl, ?_⟩
      cases hs : io.state <;> rw [hs, timeoutDecisionForState] at hd <;> cases hd <;>
        exact ⟨rfl, .inl ⟨ht, rfl⟩⟩
  · rcases hnext : io.state.next event with _ | state
    · exact .inl rfl
    · simp only [ConnectionState.transitionTo]
      split_ifs with hcan
      · exact .inr ⟨state, rfl, hcan, .inr rfl⟩
      · exact .inl rfl

variable {event : ConnectionEvent}

theorem handleEvent_of_next {io : HttpConnectionIo}
    {s state : ConnectionState} (hs : io.state = s) (ht : event ≠ .timeoutExpired)
    (h : s.next event = some state) (hcan : s.canTransitionTo state = true) :
    handleEvent event io = (.ok ⟨⟩, { io with state }) := by
  simp only [handleEvent, ConnectionState.handleEvent, if_neg ht, hs, h,
    ConnectionState.transitionTo, if_pos hcan]

theorem handleEvent_refused {io : HttpConnectionIo}
    (ht : event ≠ .timeoutExpired) (h : ∀ state, io.state.next event ≠ some state) :
    ∃ e, handleEvent event io = (.error e, io) := by
  have hnone := Option.eq_none_iff_forall_ne_some.mpr h
  simp only [handleEvent, ConnectionState.handleEvent, if_neg ht, hnone]
  exact ⟨_, rfl⟩

theorem onAttempt_complete (state : ConnectionState) (terminal : UpstreamAttemptTerminal)
    {f : UpstreamAttemptProgress → Except AppError UpstreamAttemptProgress}
    (hf : ∀ p q, f p = .ok q → p.complete terminal = .ok q) (hstate : state = t.io.state ∨
      t.io.state = .readingUpstreamResponse ∧ state = .writingClientResponse) :
    (onAttempt f { t.io with state }).2 = { t.io with state } ∨
      Change t { t with io := (onAttempt f { t.io with state }).2 } := by
  unfold onAttempt
  rcases hp : f t.io.upstreamAttempt with e | p
  · exact .inl rfl
  · refine .inr ?_
    have hcomplete := hf _ _ hp
    unfold complete at hcomplete
    split_ifs at hcomplete with hsome
    cases hcomplete
    exact .terminated state terminal hstate (by simpa using hsome)

theorem change_receiveClientBytes (chunk : Bytes) (limits : HttpLimits) :
    Change t { t with io := (startReading t.io).2 } ∧
      Change { t with io := (startReading t.io).2 }
        { t with io := (receiveClientBytes chunk limits t.io).2 } := by
  by_cases hstate : t.io.state = .accepted ∨ t.io.state = .readingClientRequest
  · have hstart : startReading t.io = (.ok ⟨⟩, { t.io with state := .readingClientRequest }) ∧
        Change t { t with io.state := .readingClientRequest } := by
      rcases hstate with hstate | hstate
      · refine ⟨?_, .reading hstate⟩
        rw [startReading, read_bind, if_pos hstate]
        exact handleEvent_of_next hstate (by simp) rfl rfl
      · have hsame : { t.io with state := .readingClientRequest } = t.io := by rw [← hstate]
        rw [hsame, startReading, read_bind, if_neg (by simp [hstate])]
        exact ⟨rfl, .none⟩
    obtain ⟨_, _, clientRequest, hrun, hnext, -⟩ :=
      receiveClientBytes_effect chunk limits hstate
    rw [hstart.1, hrun]
    refine ⟨hstart.2, ?_⟩
    rcases hnext with rfl | rfl
    · exact .quiet clientRequest t.io.clientWrite
    · exact .parsed clientRequest rfl
  · rw [not_or] at hstate
    have hstart : startReading t.io = (.ok ⟨⟩, t.io) := by
      rw [startReading, read_bind, if_neg hstate.1]
      rfl
    have hrefused : receiveClientBytes chunk limits t.io =
        (.error invalidConnectionIoState, t.io) := by
      rw [receiveClientBytes, bind_ok hstart]
      exact bind_error (by simp [require, hstate.2])
    rw [hstart, hrefused]
    exact ⟨.none, .none⟩

theorem change_beginUpstreamConnect : Change t { t with io := (beginUpstreamConnect t.io).2 } := by
  by_cases hstate : t.io.state = .selectingRoute
  · have hevent : handleEvent (.routeSelected .proxy) t.io =
        (.ok ⟨⟩, { t.io with state := .connectingUpstream }) :=
      handleEvent_of_next hstate (by simp) rfl rfl
    rw [beginUpstreamConnect, bind_ok hevent, onAttempt, begin]
    split_ifs with hphase
    · exact .selected hstate hphase
    · exact .begun hstate (not_not.mp hphase)
  · obtain ⟨e, hrefused⟩ : ∃ e, handleEvent (.routeSelected .proxy) t.io = (.error e, t.io) :=
      handleEvent_refused (by simp) fun state h => hstate (next_eq.1 h).1
    rw [beginUpstreamConnect, bind_error hrefused]
    exact .none

theorem change_upstreamConnected (request : ByteVec) :
    upstreamConnected request t.io = (.error invalidConnectionIoState, t.io) ∨
      ∃ io, upstreamConnected request t.io = (.ok ⟨⟩, io) ∧ Change t ⟨io, request⟩ := by
  by_cases hstate : t.io.state = .connectingUpstream ∨ t.io.state = .handshakingUpstreamTls
  · refine .inr ⟨{ t.io with
      state := .writingUpstreamRequest, upstreamWrite := .new request }, ?_,
      .connected request hstate⟩
    rcases hstate with hstate | hstate
    · simp only [upstreamConnected, read_bind, hstate]
      exact handleEvent_of_next hstate (by simp) rfl rfl
    · simp only [upstreamConnected, read_bind, hstate]
      exact handleEvent_of_next hstate (by simp) rfl rfl
  · refine .inl ?_
    rw [upstreamConnected, read_bind]
    cases hs : t.io.state <;> simp_all

theorem change_advanceUpstreamWrite (n : ℕ) :
    Change t { t with io := (advanceUpstreamWrite n t.io).2 } := by
  unfold advanceUpstreamWrite
  rw [bind_apply, require]
  split_ifs with hstate
  swap
  · exact .none
  have hstate : t.io.state = .writingUpstreamRequest := by simpa using hstate
  simp only [bind_apply, read_apply, modify_apply, onAttempt, recordRequestWrite]
  by_cases hphase : t.io.upstreamAttempt.phase ≠ .writing
  · rw [if_pos hphase]
    exact .skipped _ hstate hphase
  rw [if_neg hphase]
  rw [not_not] at hphase
  simp only
  split_ifs with hcomplete
  · have hevent (io : HttpConnectionIo) (h : io.state = .writingUpstreamRequest) :
        handleEvent .upstreamWritable io =
          (.ok ⟨⟩, { io with state := .readingUpstreamResponse }) :=
      handleEvent_of_next h (by simp) rfl rfl
    simp only [bind_apply, onAttempt, requestWriteCompleted, hphase, ne_eq, not_true_eq_false,
      if_false]
    rw [hevent _ (by exact hstate)]
    exact .completed n hstate hphase hcomplete
  · exact .written n hstate hphase

theorem change_receiveUpstreamBytes (chunk : Bytes) :
    Change t { t with io := (receiveUpstreamBytes chunk t.io).2 } := by
  unfold receiveUpstreamBytes
  rw [bind_apply, require]
  split_ifs
  swap
  · exact .none
  simp only
  rw [bind_apply, appendClientWrite]
  rcases t.io.clientWrite.tryAppend chunk with e | clientWrite
  · exact .none
  simp only [bind_apply, onAttempt, recordResponseBytes]
  split_ifs with hawaiting hpos
  · exact .quiet t.io.clientRequest clientWrite
  · exact .received clientWrite (by simpa using hawaiting)
  · exact .quiet t.io.clientRequest clientWrite

theorem change_finishUpstreamResponse :
    Change t { t with io := (finishUpstreamResponse t.io).2 } := by
  have hsucceed (p q : UpstreamAttemptProgress) (h : p.succeed = .ok q) :
      p.complete .succeeded = .ok q := by
    unfold succeed at h
    split_ifs at h
    exact h
  by_cases hstate : t.io.state = .readingUpstreamResponse
  · have hevent : handleEvent .upstreamReadable t.io =
        (.ok ⟨⟩, { t.io with state := .writingClientResponse }) :=
      handleEvent_of_next hstate (by simp) rfl rfl
    rw [finishUpstreamResponse, bind_ok hevent]
    rcases onAttempt_complete .writingClientResponse .succeeded hsucceed (.inr ⟨hstate, rfl⟩) with
      hsame | hchange
    · rw [hsame]
      exact .late .writingClientResponse t.io.clientWrite rfl (by rw [hstate]; rfl)
    · exact hchange
  · obtain ⟨e, hrefused⟩ : ∃ e, handleEvent .upstreamReadable t.io = (.error e, t.io) :=
      handleEvent_refused (by simp) fun state h => hstate (next_eq.2.1 h).1
    rw [finishUpstreamResponse, bind_error hrefused]
    exact .none

theorem change_failUpstreamAttempt (failure : UpstreamAttemptFailure) :
    Change t { t with io := (failUpstreamAttempt failure t.io).2 } := by
  have hfail (p q : UpstreamAttemptProgress) (h : p.fail failure = .ok q) :
      p.complete (.failed failure) = .ok q := by
    unfold UpstreamAttemptProgress.fail at h
    split_ifs at h
    exact h
  rcases onAttempt_complete t.io.state (.failed failure) hfail (.inl rfl) with hsame | hchange
  · rw [failUpstreamAttempt]
    exact hsame ▸ .none
  · exact hchange

theorem restart_prepareUpstreamRetry :
    (∃ e, prepareUpstreamRetry t.io = (.error e, t.io)) ∨
      ∃ io, prepareUpstreamRetry t.io = (.ok ⟨⟩, io) ∧
        Restart t .prepareUpstreamRetry ⟨io, []⟩ := by
  rcases hrun : prepareUpstreamRetry t.io with ⟨e | _, _⟩
  · refine .inl ⟨e, ?_⟩
    simp only [prepareUpstreamRetry, read_bind] at hrun
    split at hrun
    · cases hrun
      rfl
    · cases hrun
  · obtain ⟨hstate, rfl⟩ := prepareUpstreamRetry_ok hrun
    exact .inr ⟨_, rfl, .retried hstate⟩

theorem change_queueClientResponse (response : Bytes) :
    Change t { t with io := (queueClientResponse response t.io).2 } := by
  rw [queueClientResponse_eq]
  split_ifs with hcan
  · exact .late .writingClientResponse (.new response) rfl hcan
  · exact .none

theorem change_advanceClientWrite (n : ℕ) :
    Change t { t with io := (advanceClientWrite n t.io).2 } := by
  rcases advanceClientWrite_effect n t.io with ⟨_, hrun, -⟩ | ⟨hrun, -⟩
  · rw [hrun]
    exact .quiet t.io.clientRequest _
  · rw [hrun]
    exact .none

theorem finishClientResponse_cases (keepAlive : Bool) :
    (∃ e, finishClientResponse keepAlive t.io = (.error e, t.io)) ∨
      t.io.state = .writingClientResponse ∧ finishClientResponse keepAlive t.io = (.ok ⟨⟩,
        if keepAlive then { t.io with
          state := .readingClientRequest, upstreamAttempt := {}, upstreamWrite := {} }
        else { t.io with state := .draining }) := by
  let ready (io : HttpConnectionIo) : Bool :=
    io.state == .writingClientResponse && io.clientWrite.isComplete
  by_cases hready : ready t.io = true
  · have hstate : t.io.state = .writingClientResponse := by simp_all [ready]
    have hrequire : require ready t.io = (.ok ⟨⟩, t.io) := if_pos hready
    refine .inr ⟨hstate, ?_⟩
    rw [finishClientResponse, bind_ok hrequire]
    cases keepAlive
    · exact handleEvent_of_next hstate (by simp) rfl rfl
    · rw [if_pos rfl, bind_ok (handleEvent_of_next hstate (by simp) rfl rfl)]
      rfl
  · have hrequire : require ready t.io = (.error invalidConnectionIoState, t.io) := if_neg hready
    exact .inl ⟨_, bind_error hrequire⟩

theorem change_handleEvent
    (h : ∀ s s' : ConnectionState, s.next event = some s' → s'.isLate = true) :
    Change t { t with io := (handleEvent event t.io).2 } := by
  rcases handleEvent_cases event t.io with hsame | ⟨state, hrun, hcan, ⟨-, hlate⟩ | hnext⟩
  · rw [hsame]
    exact .none
  · rw [hrun]
    exact .late state t.io.clientWrite hlate hcan
  · rw [hrun]
    exact .late state t.io.clientWrite (h _ _ hnext) hcan

theorem change_transitionTo (state : ConnectionState) (hlate : state.isLate = true) :
    Change t { t with io := (transitionTo state t.io).2 } := by
  unfold transitionTo ConnectionState.transitionTo
  split_ifs with hcan
  · exact .late state t.io.clientWrite hlate hcan
  · exact .none

theorem change_discarded {α : Type} {x : IoAction α} {between : TracedIo}
    (h : Change between { t with io := (x t.io).2 }) :
    Change between { t with io := ((do let _ ← x; return ⟨⟩ : IoAction PUnit) t.io).2 } := by
  rw [bind_apply]
  rcases hx : x t.io with ⟨_ | _, _⟩ <;> rwa [hx] at h

/-- Everything that one call can do. Only the reading of a request is more than one change. -/
theorem step_cases (call : IoCall) (t : TracedIo) :
    (call.run t.io).1 = .ok ⟨⟩ ∧ Restart t call (t.step call) ∨
      ∃ between : TracedIo, (between = t ∨ between = { t with io := (startReading t.io).2 }) ∧
        Change t between ∧ Change between (t.step call) := by
  have once {P : Prop} (h : Change t (t.step call)) : P ∨ ∃ between : TracedIo,
      (between = t ∨ between = { t with io := (startReading t.io).2 }) ∧
        Change t between ∧ Change between (t.step call) := .inr ⟨t, .inl rfl, .none, h⟩
  cases call with
  | receiveClientBytes chunk limits =>
    obtain ⟨hstart, hread⟩ := change_receiveClientBytes (t := t) chunk limits
    exact .inr ⟨_, .inr rfl, hstart, change_discarded hread⟩
  | beginUpstreamConnect => exact once change_beginUpstreamConnect
  | upstreamConnected request =>
    rcases change_upstreamConnected (t := t) request with hrun | ⟨io, hrun, hchange⟩
    · refine once ?_
      simp only [TracedIo.step, IoCall.run, hrun]
      exact .none
    · refine once ?_
      simp only [TracedIo.step, IoCall.run, hrun]
      exact hchange
  | advanceUpstreamWrite n => exact once (change_discarded (change_advanceUpstreamWrite n))
  | receiveUpstreamBytes chunk => exact once (change_discarded (change_receiveUpstreamBytes chunk))
  | finishUpstreamResponse => exact once change_finishUpstreamResponse
  | failUpstreamAttempt failure => exact once (change_failUpstreamAttempt failure)
  | prepareUpstreamRetry =>
    rcases restart_prepareUpstreamRetry (t := t) with ⟨e, hrun⟩ | ⟨io, hrun, hrestart⟩
    · refine once ?_
      simp only [TracedIo.step, IoCall.run, hrun]
      exact .none
    · refine .inl ⟨congrArg Prod.fst hrun, ?_⟩
      simp only [TracedIo.step, IoCall.run, hrun]
      exact hrestart
  | queueClientResponse response => exact once (change_queueClientResponse response)
  | advanceClientWrite n => exact once (change_discarded (change_advanceClientWrite n))
  | finishClientResponse keepAlive =>
    rcases finishClientResponse_cases (t := t) keepAlive with ⟨_, hrun⟩ | ⟨hstate, hrun⟩
    · refine once ?_
      have hstep : t.step (.finishClientResponse keepAlive) = t := by
        cases keepAlive <;> simp only [TracedIo.step, IoCall.run, hrun]
      rw [hstep]
      exact .none
    · cases keepAlive
      · refine once ?_
        simp only [TracedIo.step, IoCall.run, hrun]
        exact .late .draining t.io.clientWrite rfl (by rw [hstate]; rfl)
      · refine .inl ⟨congrArg Prod.fst hrun, ?_⟩
        simp only [TracedIo.step, IoCall.run, hrun]
        exact .finished hstate
  | ioError =>
    have hlate (s s' : ConnectionState) (h : s.next .ioError = some s') : s'.isLate = true := by
      cases s <;> cases h <;> rfl
    exact once (change_handleEvent hlate)
  | upstreamTlsHandshakeStarted =>
    refine once ?_
    rcases handleEvent_cases .upstreamTlsHandshakeStarted t.io with
      hsame | ⟨state, hrun, hcan, ⟨htimeout, -⟩ | hnext⟩
    · simp only [TracedIo.step, IoCall.run, hsame]
      exact .none
    · cases htimeout
    · obtain ⟨hstate, rfl⟩ :
          t.io.state = .connectingUpstream ∧ state = .handshakingUpstreamTls := by
        cases hs : t.io.state <;> rw [hs] at hnext <;> cases hnext
        exact ⟨rfl, rfl⟩
      simp only [TracedIo.step, IoCall.run, hrun]
      exact .handshaking hstate
  | timeoutExpired =>
    have hlate (s s' : ConnectionState) (h : s.next .timeoutExpired = some s') :
        s'.isLate = true := by
      cases s <;> cases h
    exact once (change_handleEvent hlate)
  | fail => exact once (change_transitionTo .failed rfl)
  | tunnelWebSocket => exact once (change_transitionTo .tunnelingWebSocket rfl)

end Steps

section Laws

variable {t t' : TracedIo}

/-- The attempt and the request agree on what has been written, and a response starts only after
the request. -/
structure Sound (t : TracedIo) : Prop where
  fits : t.request.length ≤ maxAllocation
  fresh : t.io.upstreamAttempt.phase = .notStarted → t.io.upstreamAttempt.requestBytesWritten = 0
  writing : t.io.upstreamAttempt.phase = .writing → t.io.state.isLate = true ∨
    (t.io.state = .connectingUpstream ∨ t.io.state = .handshakingUpstreamTls) ∧
        t.io.upstreamAttempt.requestBytesWritten = 0 ∨
      t.io.state = .writingUpstreamRequest ∧
        t.io.upstreamAttempt.requestBytesWritten + t.io.upstreamWrite.remainingLen =
          t.request.length
  awaiting : t.io.upstreamAttempt.isAwaiting = true → t.io.state.isLate = true ∧
    t.io.upstreamAttempt.requestBytesWritten = t.request.length
  started : t.io.upstreamAttempt.responseStarted = true → t.io.state.isLate = true ∧
    t.io.upstreamAttempt.requestBytesWritten = t.request.length ∧
      t.io.upstreamAttempt.phase ≠ .notStarted ∧ t.io.upstreamAttempt.phase ≠ .writing

theorem sound_new : Sound {} where
  fits := by decide
  fresh _ := rfl
  writing := nofun
  awaiting := nofun
  started := nofun

variable {call : IoCall}

theorem Restart.sound (h : Restart t call t') : Sound t' := by
  cases h with
  | retried | finished => exact ⟨Nat.zero_le _, fun _ => rfl, nofun, nofun, nofun⟩

theorem Restart.live (h : Restart t call t') : t.io.state.isEnded = false := by
  cases h with
  | retried hstate => rcases hstate with h | h <;> rw [h] <;> rfl
  | finished hstate => rw [hstate]; rfl

theorem Restart.cases (h : Restart t call t') :
    call = .prepareUpstreamRetry ∧ t'.io.state = .selectingRoute ∨
      call = .finishClientResponse true ∧ t.io.state.Allowed t'.io.state := by
  cases h with
  | retried => exact .inl ⟨rfl, rfl⟩
  | finished hstate =>
    refine .inr ⟨rfl, .inr ?_⟩
    rw [hstate]
    rfl

theorem Change.allowed (h : Change t t') : t.io.state.Allowed t'.io.state := by
  cases h with
  | quiet | skipped | written | received => exact .inl rfl
  | late _ _ _ hallowed => exact .inr hallowed
  | reading hstate | parsed _ hstate | selected hstate | begun hstate | handshaking hstate
  | completed _ hstate =>
    refine .inr ?_
    rw [hstate]
    rfl
  | connected _ hstate =>
    refine .inr ?_
    rcases hstate with hstate | hstate
    · rw [hstate]
      rfl
    · rw [hstate]
      rfl
  | terminated _ _ hstate =>
    rcases hstate with hstate | ⟨hstate, rfl⟩
    · exact .inl hstate
    · refine .inr ?_
      rw [hstate]
      rfl

theorem Change.terminal (h : Change t t') {terminal : UpstreamAttemptTerminal}
    (hterminal : t.io.upstreamAttempt.terminal = some terminal) :
    t'.io.upstreamAttempt.terminal = some terminal := by
  cases h with
  | terminated _ _ _ hnone => exact nomatch hnone.symm.trans hterminal
  | quiet | late | reading | parsed | selected | begun | handshaking | connected | skipped
  | written | completed | received => exact hterminal

theorem Sound.unanswered (hs : Sound t) (hstate : t.io.state.isLate = false) :
    t.io.upstreamAttempt.isAwaiting ≠ true ∧ t.io.upstreamAttempt.responseStarted ≠ true := by
  constructor
  · intro h
    exact nomatch hstate.symm.trans (hs.awaiting h).1
  · intro h
    exact nomatch hstate.symm.trans (hs.started h).1

theorem Sound.unbegun (hs : Sound t) (hstate : t.io.state = .accepted ∨
    t.io.state = .readingClientRequest ∨ t.io.state = .selectingRoute) :
    t.io.upstreamAttempt.phase ≠ .writing ∧ t.io.upstreamAttempt.isAwaiting ≠ true ∧
      t.io.upstreamAttempt.responseStarted ≠ true := by
  have hlate : t.io.state.isLate = false := by
    rcases hstate with h | h | h <;> rw [h] <;> rfl
  refine ⟨fun h => ?_, hs.unanswered hlate⟩
  have hwriting := hs.writing h
  rw [hlate] at hwriting
  rcases hstate with h | h | h <;> simp [h] at hwriting

theorem remainingLen_advance (b : WriteBuffer) (n : ℕ) :
    (b.advance n).1 + (b.advance n).2.remainingLen = b.remainingLen := by
  rw [WriteBuffer.remainingLen, WriteBuffer.remaining_advance, List.length_drop]
  simp only [WriteBuffer.advance, WriteBuffer.remainingLen]
  omega

theorem Sound.advance (hs : Sound t) (hstate : t.io.state = .writingUpstreamRequest)
    (hphase : t.io.upstreamAttempt.phase = .writing) (n : ℕ) :
    min (t.io.upstreamAttempt.requestBytesWritten + (t.io.upstreamWrite.advance n).1)
        (2 ^ 64 - 1) + (t.io.upstreamWrite.advance n).2.remainingLen = t.request.length := by
  have hwriting := hs.writing hphase
  rw [hstate] at hwriting
  have hcount : t.io.upstreamAttempt.requestBytesWritten + t.io.upstreamWrite.remainingLen =
      t.request.length := by
    simpa [ConnectionState.isLate] using hwriting
  have hfits := hs.fits
  have hadvance := remainingLen_advance t.io.upstreamWrite n
  rw [maxAllocation] at hfits
  omega

theorem Change.sound (h : Change t t') (hs : Sound t) : Sound t' := by
  cases h with
  | quiet => exact ⟨hs.fits, hs.fresh, hs.writing, hs.awaiting, hs.started⟩
  | late _ _ hlate =>
    exact ⟨hs.fits, hs.fresh, fun _ => .inl hlate, fun h => ⟨hlate, (hs.awaiting h).2⟩,
      fun h => ⟨hlate, (hs.started h).2⟩⟩
  | reading hstate | parsed _ hstate | selected hstate =>
    obtain ⟨hwriting, hawaiting, hstarted⟩ := hs.unbegun (by simp [hstate])
    exact ⟨hs.fits, hs.fresh, (absurd · hwriting), (absurd · hawaiting), (absurd · hstarted)⟩
  | begun hstate hphase =>
    obtain ⟨-, -, hstarted⟩ := hs.unbegun (.inr (.inr hstate))
    exact ⟨hs.fits, by simp, fun _ => .inr (.inl ⟨.inl rfl, hs.fresh hphase⟩), by rintro ⟨⟩,
      (absurd · hstarted)⟩
  | handshaking hstate =>
    obtain ⟨hawaiting, hstarted⟩ := hs.unanswered (by rw [hstate]; rfl)
    refine ⟨hs.fits, hs.fresh, fun h => ?_, (absurd · hawaiting), (absurd · hstarted)⟩
    have hwriting := hs.writing h
    rw [hstate] at hwriting
    refine .inr (.inl ⟨.inr rfl, ?_⟩)
    simpa [ConnectionState.isLate] using hwriting
  | connected request hstate =>
    obtain ⟨hawaiting, hstarted⟩ := hs.unanswered (by rcases hstate with h | h <;> rw [h] <;> rfl)
    refine ⟨request.2, hs.fresh, fun h => ?_, (absurd · hawaiting), (absurd · hstarted)⟩
    have hwriting := hs.writing h
    have hzero : t.io.upstreamAttempt.requestBytesWritten = 0 := by
      rcases hstate with hstate | hstate <;> rw [hstate] at hwriting <;>
        simpa [ConnectionState.isLate] using hwriting
    refine .inr (.inr ⟨rfl, ?_⟩)
    change t.io.upstreamAttempt.requestBytesWritten + _ = _
    rw [hzero, Nat.zero_add]
    rfl
  | skipped _ _ hphase =>
    exact ⟨hs.fits, hs.fresh, (absurd · hphase), hs.awaiting, hs.started⟩
  | written n hstate hphase =>
    obtain ⟨hawaiting, hstarted⟩ := hs.unanswered (by rw [hstate]; rfl)
    refine ⟨hs.fits, fun h => ?_, fun _ => ?_, (absurd · hawaiting), (absurd · hstarted)⟩
    · cases hphase.symm.trans h
    · exact .inr (.inr ⟨hstate, hs.advance hstate hphase n⟩)
  | completed n hstate hphase hcomplete =>
    obtain ⟨-, hstarted⟩ := hs.unanswered (by rw [hstate]; rfl)
    have hcount := hs.advance hstate hphase n
    have hempty : (t.io.upstreamWrite.advance n).2.remainingLen = 0 := by
      rw [WriteBuffer.remainingLen, WriteBuffer.isComplete_iff.mp hcomplete]
      rfl
    rw [hempty] at hcount
    exact ⟨hs.fits, by simp, by simp, fun _ => ⟨rfl, hcount⟩, (absurd · hstarted)⟩
  | received _ hawaiting =>
    obtain ⟨hlate, hcount⟩ := hs.awaiting hawaiting
    exact ⟨hs.fits, by simp, by simp, fun _ => ⟨hlate, hcount⟩,
      fun _ => ⟨hlate, hcount, by simp, by simp⟩⟩
  | terminated _ _ hstate =>
    refine ⟨hs.fits, by simp, by simp, by rintro ⟨⟩, fun h => ?_⟩
    obtain ⟨hlate, hcount, -⟩ := hs.started h
    refine ⟨?_, hcount, by simp, by simp⟩
    rcases hstate with rfl | ⟨-, rfl⟩
    · exact hlate
    · rfl

theorem Sound.step (hs : Sound t) (call : IoCall) : Sound (t.step call) := by
  rcases step_cases call t with ⟨-, hrestart⟩ | ⟨_, -, hfirst, hsecond⟩
  · exact hrestart.sound
  · exact hsecond.sound (hfirst.sound hs)

theorem Sound.after (hs : Sound t) (calls : List IoCall) : Sound (t.after calls) :=
  List.foldlRecOn calls _ hs fun _ h call _ => h.step call

/-- Coherence along every run: after any calls, a further call leaves an ended connection ended,
changes the state only as allowed, one change at a time, or by a retry; a response starts only when
the whole request has been counted; an outcome stays until the attempt begins anew; and there is no
retry once a response has started. -/
theorem connection_coherent (calls : List IoCall) (call : IoCall) :
    let before := TracedIo.after calls {}
    let after := before.step call
    (before.io.state.isEnded = true → after.io.state.isEnded = true) ∧
      (∃ between : ConnectionState,
        (between = before.io.state ∨ between = (HttpConnectionIo.startReading before.io).2.state) ∧
          before.io.state.Allowed between ∧ (between.Allowed after.io.state ∨
            call = .prepareUpstreamRetry ∧ after.io.state = .selectingRoute)) ∧
      (after.io.upstreamAttempt.responseStarted = true →
        after.io.upstreamAttempt.requestBytesWritten = after.request.length) ∧
      (∀ terminal, before.io.upstreamAttempt.terminal = some terminal →
        after.io.upstreamAttempt.terminal = some terminal ∨
          (call = .prepareUpstreamRetry ∨ call = .finishClientResponse true) ∧
            (call.run before.io).1 = .ok ⟨⟩) ∧
      (before.io.upstreamAttempt.responseStarted = true →
        (HttpConnectionIo.prepareUpstreamRetry before.io).1 ≠ .ok ⟨⟩) := by
  intro before after
  have hbefore : Sound before := sound_new.after calls
  have hafter : Sound after := hbefore.step call
  have hretry : before.io.upstreamAttempt.responseStarted = true →
      (HttpConnectionIo.prepareUpstreamRetry before.io).1 ≠ .ok ⟨⟩ := by
    intro hstarted hok
    rcases hrun : HttpConnectionIo.prepareUpstreamRetry before.io with ⟨r, io⟩
    rw [hrun] at hok
    obtain rfl : r = .ok ⟨⟩ := hok
    have hlate := (hbefore.started hstarted).1
    rcases (prepareUpstreamRetry_ok hrun).1 with h | h <;> rw [h] at hlate <;>
      cases hlate
  rcases step_cases call before with ⟨hok, hrestart⟩ | ⟨between, hbetween, hfirst, hsecond⟩
  · refine ⟨fun h => ?_, ⟨before.io.state, .inl rfl, .inl rfl, ?_⟩,
      fun h => (hafter.started h).2.1, fun terminal _ => .inr ⟨?_, hok⟩, hretry⟩
    · exact nomatch hrestart.live.symm.trans h
    · exact hrestart.cases.symm.imp And.right id
    · exact hrestart.cases.imp And.left And.left
  · refine ⟨fun h => hsecond.allowed.ended (hfirst.allowed.ended h),
      ⟨between.io.state, ?_, hfirst.allowed, .inl hsecond.allowed⟩,
      fun h => (hafter.started h).2.1,
      fun terminal h => .inl (hsecond.terminal (hfirst.terminal h)), hretry⟩
    rcases hbetween with rfl | rfl
    · exact .inl rfl
    · exact .inr rfl

end Laws

end EdgeProxy

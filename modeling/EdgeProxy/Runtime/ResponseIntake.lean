import EdgeProxy.Http.ResponseHead
import EdgeProxy.Runtime.Connection

/-! # Taking in an upstream response

The step of `read_upstream` for one plaintext read: the framer, the header sanitizer, the charge
for the new total, the client buffer and the commit, in that order, with each way to fail. A
response that arrives in several reads is a sequence of such steps.
-/

namespace EdgeProxy

open Rust PayloadAccounts HttpConnectionIo Focus UpstreamResponseHeaderSanitizer List

variable {σ : Type}

/-- How the read loop of `read_upstream` ends, when the socket does not block. -/
inductive ReadOutcome where
  /-- The response is complete; `surplus` notes whether the last read went past its end. -/
  | finish (surplus : Bool)
  | failure (response : Bytes)
  | closePartial

abbrev ReadAction (σ α : Type) := Action (Focus σ) ReadOutcome α

namespace Focus

def responseStarted (f : Focus σ) : Bool := f.connection.io.upstreamAttempt.responseStarted

/-- A failure of the attempt: answered with a response, unless one has started already. -/
def failRead {α : Type} (responseStarted : Bool) (response : Bytes) : ReadAction σ α := do
  let _ ← onIo (failUpstreamAttempt (if responseStarted then .resetAfterResponse else .read))
  Action.fail (if responseStarted then .closePartial else .failure response)

def pushFraming (plaintext : Bytes) : ReadAction σ (Except AppError ResponseFramingProgress) :=
  fun f =>
    match f.connection.responseFraming with
    | none => (.ok (.error (malformedUpstreamResponse "response framing owner is missing")), f)
    | some framing =>
      match framing.push plaintext with
      | (r, framing) =>
        (.ok r, { f with connection := { f.connection with responseFraming := some framing } })

def sanitizeResponse (bytes : Bytes) : ReadAction σ (Except AppError Bytes) := fun f =>
  match f.connection.responseHeaderSanitizer with
  | none =>
    (.ok (.error (malformedUpstreamResponse "response header sanitizer owner is missing")), f)
  | some sanitizer =>
    match sanitizer.sanitize bytes with
    | (r, sanitizer) => (.ok r, { f with
        connection := { f.connection with responseHeaderSanitizer := some sanitizer } })

/-- History: the framer took `framed`, of which `accepted` goes to the client. -/
def logResponse (framed accepted : Bytes) (c : SnapshotMioConnection σ) : SnapshotMioConnection σ :=
  { c with
    upstream := c.upstream.map fun u => { u with log.framed := u.log.framed ++ framed }
    current := c.current.accept accepted }

/-- The new total is charged before the bytes are buffered, and the charge is committed after. -/
def acceptResponseBytes (responseStarted : Bool) (framed bytes : Bytes) : ReadAction σ PUnit := do
  let f ← Action.read
  let nextResponseBytes := f.accounts.clientResponseBytes + bytes.length
  if nextResponseBytes ≥ usizeBound then
    failRead responseStarted (errorResponseForCode .resourceAllocationFailed)
  else
    match ← onAccounts (prepareClientResponseBytes f.connectionId nextResponseBytes) with
    | .error e => failRead responseStarted (errorResponseForCode e.code)
    | .ok change =>
      match ← onIo (receiveUpstreamBytes bytes) with
      | .error e =>
        let _ ← onAccounts (rollbackClientResponseAllocation change)
        failRead responseStarted (errorResponseForCode e.code)
      | .ok _ =>
        update (logResponse framed bytes)
        match ← onAccounts (commitClientResponseBytes change) with
        | .error e =>
          let f ← Action.read
          failRead f.responseStarted (errorResponseForCode e.code)
        | .ok _ => return ⟨⟩

/-- One non-empty plaintext read: the progress of the framer and the bytes for the client. -/
def receiveResponseBytes (plaintext : Bytes) : ReadAction σ (ResponseFramingProgress × Bytes) := do
  let f ← Action.read
  match ← pushFraming plaintext with
  | .error _ => failRead f.responseStarted (upstreamFailureResponse .read)
  | .ok progress =>
    match ← sanitizeResponse (plaintext.take progress.consumed) with
    | .error _ => failRead f.responseStarted (upstreamFailureResponse .read)
    | .ok bytes =>
      acceptResponseBytes f.responseStarted (plaintext.take progress.consumed) bytes
      return (progress, bytes)

/-- What the step for one read ends with, and the connection after it. -/
abbrev ResponseStep (σ : Type) := Except ReadOutcome (ResponseFramingProgress × Bytes) × Focus σ

/-- The steps for successive reads: they stop at the end of the response and at a failure. -/
def responseSteps (f : Focus σ) : List Bytes → List (ResponseStep σ)
  | [] => []
  | read :: reads =>
    match receiveResponseBytes read f with
    | (.error outcome, f) => [(.error outcome, f)]
    | (.ok (progress, bytes), f) =>
      (.ok (progress, bytes), f) ::
        if progress.phase = .complete then [] else responseSteps f reads

end Focus

/-- Every step accepts its read, leaves admission open, and charges exactly what has been produced
so far. -/
def Accounted : ℕ → List (Focus.ResponseStep σ) → Prop
  | _, [] => True
  | _, (.error _, _) :: _ => False
  | produced, (.ok (_, bytes), f) :: steps =>
    f.payloadLedger.pressureState ≠ .failedClosed ∧
      f.accounts.clientResponseBytes = produced + bytes.length ∧
      Accounted (produced + bytes.length) steps

section Accounting

open HttpResponseFraming UpstreamResponseHeaderSanitizer

variable {f : Focus σ} {g g' : HttpResponseFraming} {s s' : UpstreamResponseHeaderSanitizer}
  {used n c : ℕ} {out r : Bytes}

/-- The response is being taken in: `n` bytes are buffered for the client, and charged. -/
structure Receiving (f : Focus σ) (g : HttpResponseFraming) (s : UpstreamResponseHeaderSanitizer)
    (used n : ℕ) : Prop where
  state : f.connection.io.state = .readingUpstreamResponse
  awaiting : f.connection.io.upstreamAttempt.isAwaiting = true
  framing : f.connection.responseFraming = some g
  sanitizer : f.connection.responseHeaderSanitizer = some s
  positive : g.Positive
  inStep : InStep g s
  buffered : f.connection.io.clientWrite.bytes.length = n
  holding : f.accounts.Holding used n

section Steps

variable (h : Receiving f g s used n) (hterm : g.isTerminal = false)
  (hc : g.consume 0 r = (.ok c, g')) (hs : s.sanitize (r.take c) = (.ok out, s'))
  (hne : n + out.length ≠ 0) (hroom : used + (n + out.length) ≤ f.payloadLedger.limitBytes)
  (hid : n = 0 → f.payloadLedger.nextChargeId + 1 < 2 ^ 64)

include h hne hroom hid in
theorem Receiving.accept (started : Bool) (framed : Bytes) :
    ∃ f', acceptResponseBytes started framed out f = (.ok ⟨⟩, f') ∧
      Receiving f' g s used (n + out.length) ∧
      f'.payloadLedger.limitBytes = f.payloadLedger.limitBytes := by
  have hlimit : f.payloadLedger.limitBytes ≤ hardMaxInflightPayloadBytes := h.holding.limit
  have hbytes := h.holding.clientResponseBytes
  have hmax : hardMaxInflightPayloadBytes < usizeBound := by decide
  obtain ⟨change, a₁, hprepare, ⟨_, hcommit, hholding, hl₂⟩, hl₁⟩ :=
    h.holding.prepare f.connectionId hne hroom fun hslot => hid (h.holding.empty hslot)
  obtain ⟨io₁, hio, hstate, hawaiting, hbuffer⟩ := receiveUpstreamBytes_ok out h.state
    h.awaiting (by
      rw [h.buffered]
      exact le_trans (by omega) (le_trans (hroom.trans hlimit) (by decide)))
  -- the focus after each of the effects, in the order of the source
  let f₁ : Focus σ := { f with connection := { f.connection with resourceCharges := a₁.charges }
                               payloadLedger := a₁.ledger }
  let f₂ : Focus σ := { f₁ with connection := { f₁.connection with io := io₁ } }
  let f₃ : Focus σ := { f₂ with connection := logResponse framed out f₂.connection }
  have hprepare : (onAccounts (prepareClientResponseBytes f.connectionId (n + out.length)) :
      ReadAction σ _) f = (.ok (.ok change), f₁) := onAccounts_eq hprepare
  have hio : (onIo (receiveUpstreamBytes out) : ReadAction σ _) f₁ =
      (.ok (.ok out.length), f₂) := onIo_eq hio
  have hcommit : (onAccounts (commitClientResponseBytes change) : ReadAction σ _) f₃ = _ :=
    onAccounts_eq hcommit
  unfold acceptResponseBytes
  rw [Action.bind_ok (Action.read_apply f), hbytes, if_neg (by omega), Action.bind_ok hprepare]
  dsimp only
  rw [Action.bind_ok hio]
  dsimp only
  rw [Action.bind_ok (update_eq _ _), Action.bind_ok hcommit]
  refine ⟨_, rfl, ⟨hstate, hawaiting, h.framing, h.sanitizer, h.positive, h.inStep, ?_, hholding⟩,
    hl₂.trans hl₁⟩
  simp [f₃, f₂, logResponse, hbuffer, h.buffered]

include h hterm hc hs

theorem Receiving.receive_eq :
    ∃ f', Receiving f' g' s' used n ∧ f'.payloadLedger = f.payloadLedger ∧
      f'.connection.resourceCharges = f.connection.resourceCharges ∧
      receiveResponseBytes r f = (do
        acceptResponseBytes f.responseStarted (r.take c) out
        return (g'.progress c r.length, out) : ReadAction σ _) f' := by
  have hfeeds := feeds_of_consume hc
  obtain ⟨out', s'', hs', hin, -⟩ := hfeeds.sanitize h.inStep
  obtain ⟨rfl, rfl⟩ : out' = out ∧ s'' = s' := by
    rw [hs] at hs'
    simpa [eq_comm] using hs'
  let f₁ : Focus σ := { f with connection := { f.connection with responseFraming := some g' } }
  let f₂ : Focus σ :=
    { f₁ with connection := { f₁.connection with responseHeaderSanitizer := some s'' } }
  have hpush : pushFraming r f = (.ok (.ok (g'.progress c r.length)), f₁) := by
    simp only [pushFraming, h.framing, HttpResponseFraming.push_eq h.positive hterm, hc, f₁]
  have hsanitize : sanitizeResponse (r.take c) f₁ = (.ok (.ok out'), f₂) := by
    simp only [sanitizeResponse, h.sanitizer, hs, f₁, f₂]
  refine ⟨f₂, ⟨h.state, h.awaiting, rfl, rfl, hfeeds.positive h.positive, hin, h.buffered,
    h.holding⟩, rfl, rfl, ?_⟩
  unfold receiveResponseBytes
  rw [Action.bind_ok (Action.read_apply f), Action.bind_ok hpush]
  dsimp only [HttpResponseFraming.progress]
  rw [Action.bind_ok hsanitize]

include hne hroom hid in
theorem Receiving.step :
    ∃ f', receiveResponseBytes r f = (.ok (g'.progress c r.length, out), f') ∧
      Receiving f' g' s' used (n + out.length) ∧
      f'.payloadLedger.limitBytes = f.payloadLedger.limitBytes := by
  obtain ⟨_, h₁, hledger, -, heq⟩ := h.receive_eq hterm hc hs
  rw [← hledger] at hroom hid
  obtain ⟨f', hf', hreceiving, hlimit⟩ :=
    h₁.accept hne hroom hid f.responseStarted (r.take c)
  refine ⟨f', ?_, hreceiving, by rw [hlimit, hledger]⟩
  rw [heq, Action.bind_ok hf']
  rfl

omit h in
theorem Receiving.step_error (h : Receiving f g s used 0)
    (hslot : f.connection.resourceCharges.slot .clientResponse = none)
    (hbad : out.length = 0 ∨ 2 ^ 64 ≤ f.payloadLedger.nextChargeId + 1) :
    ∃ outcome f', receiveResponseBytes r f = (.error outcome, f') := by
  obtain ⟨f₁, h₁, hledger, hcharges, heq⟩ := h.receive_eq hterm hc hs
  rw [← hledger] at hbad
  rw [← hcharges] at hslot
  have hbytes := h₁.holding.clientResponseBytes
  obtain ⟨_, _, hprepare⟩ := prepare_error f₁.connectionId (a := f₁.accounts) hslot
    (show 0 + out.length = 0 ∨ _ by rw [zero_add]; exact hbad)
  rw [heq]
  unfold acceptResponseBytes
  rw [Action.bind_apply, Action.bind_ok (Action.read_apply f₁), hbytes]
  split
  · next hok =>
    split at hok
    · simp [failRead, Action.bind_apply, onIo] at hok
    · rw [Action.bind_ok (onAccounts_eq hprepare)] at hok
      simp [failRead, Action.bind_apply, onIo] at hok
  · exact ⟨_, _, rfl⟩

end Steps

theorem progress_phase_eq_complete_iff {k m : ℕ} :
    (g.progress k m).phase = .complete ↔ g.state = .complete := by
  unfold progress phase
  cases g.state <;> simp

variable {reads : List Bytes}

theorem split_first_read (hc : g.consume 0 (r :: reads).flatten = (.ok c, g'))
    (hs : s.sanitize ((r :: reads).flatten.take c) = (.ok out, s')) :
    ∃ c₁ g₁ out₁ s₁ c₂ out₂, g.consume 0 r = (.ok c₁, g₁) ∧
      s.sanitize (r.take c₁) = (.ok out₁, s₁) ∧ g₁.consume 0 reads.flatten = (.ok c₂, g') ∧
      s₁.sanitize (reads.flatten.take c₂) = (.ok out₂, s') ∧
      out.length = out₁.length + out₂.length := by
  rw [flatten_cons] at hc hs
  obtain ⟨c₁, c₂, g₁, hc₁, hc₂, rfl, hall⟩ := consume_append_ok hc
  have htake : (r ++ reads.flatten).take (c₂ + c₁) = r.take c₁ ++ reads.flatten.take c₂ := by
    have h₁ := consume_ok hc₁
    rcases hall with rfl | rfl
    · rw [Nat.add_comm, take_length_add_append, take_length]
    · simp [take_append_of_le_length (show c₁ ≤ r.length by omega)]
  rw [htake, sanitize_append] at hs
  split at hs
  · next out₁ s₁ hs₁ =>
    split at hs
    · next out₂ s₂ hs₂ =>
      obtain ⟨rfl, rfl⟩ : out₁ ++ out₂ = out ∧ s₂ = s' := by simpa using hs
      exact ⟨c₁, g₁, out₁, s₁, c₂, out₂, hc₁, hs₁, hc₂, hs₂, length_append⟩
    · simp at hs
  · simp at hs

theorem not_terminal_of_phase {k : ℕ} (hterm : g.isTerminal = false)
    (hc : g.consume 0 r = (.ok c, g')) (hphase : (g'.progress c k).phase ≠ .complete) :
    g'.isTerminal = false := by
  have hfailed := consume_state_ne_failed (by simp_all [isTerminal]) hc
  rw [ne_eq, progress_phase_eq_complete_iff] at hphase
  simp [isTerminal, hfailed, hphase]

theorem Receiving.accounted (h : Receiving f g s used n) (hn : n ≠ 0)
    (hterm : g.isTerminal = false) (hc : g.consume 0 reads.flatten = (.ok c, g'))
    (hs : s.sanitize (reads.flatten.take c) = (.ok out, s'))
    (hroom : used + (n + out.length) ≤ f.payloadLedger.limitBytes) :
    Accounted n (responseSteps f reads) := by
  induction reads generalizing f g s n c out with
  | nil => trivial
  | cons _ _ ih =>
    obtain ⟨_, _, _, _, _, _, hc₁, hs₁, hc₂, hs₂, hlen⟩ := split_first_read hc hs
    obtain ⟨_, hf₁, h₁, hlimit⟩ := h.step hterm hc₁ hs₁ (by omega) (by omega)
      (fun h => absurd h hn)
    simp only [responseSteps, hf₁, Accounted]
    refine ⟨h₁.holding.pressure, h₁.holding.clientResponseBytes, ?_⟩
    split
    · trivial
    · next hphase =>
      exact ih h₁ (by omega) (not_terminal_of_phase hterm hc₁ hphase) hc₂ hs₂ (by omega)

structure AwaitsResponse (f : Focus σ) (maxHeaderBytes maxLineBytes : ℕ)
    (expectation : ResponseBodyExpectation) (closeFinalResponse : Bool) : Prop where
  state : f.connection.io.state = .readingUpstreamResponse
  phase : f.connection.io.upstreamAttempt.phase = .awaitingResponse
  framing : f.connection.responseFraming =
    some (.withBodyExpectation maxHeaderBytes maxLineBytes expectation)
  sanitizer : f.connection.responseHeaderSanitizer = some (.new maxHeaderBytes closeFinalResponse)
  buffer : f.connection.io.clientWrite = {}
  slot : f.connection.resourceCharges.slot .clientResponse = none
  pressure : f.payloadLedger.pressureState ≠ .failedClosed

theorem AwaitsResponse.receiving {mh ml : ℕ} {e : ResponseBodyExpectation} {close : Bool}
    (h : AwaitsResponse f mh ml e close)
    (hlimit : f.payloadLedger.limitBytes ≤ hardMaxInflightPayloadBytes) :
    Receiving f (.withBodyExpectation mh ml e) (.new mh close) f.payloadLedger.usedBytes 0 where
  state := h.state
  awaiting := by simp [UpstreamAttemptProgress.isAwaiting, h.phase]
  framing := h.framing
  sanitizer := h.sanitizer
  positive := by simp [Positive, withBodyExpectation]
  inStep := inStep_fresh mh ml e close
  buffered := by simp [h.buffer]
  holding :=
    { pressure := h.pressure, limit := hlimit, used_eq := rfl, empty := fun _ => rfl
      installed := fun id hid => by
        have : f.connection.resourceCharges.slot .clientResponse = some id := hid
        simp [h.slot] at this }

section FirstRead

variable {mh ml : ℕ} {e : ResponseBodyExpectation} {close : Bool}

theorem first_read_empty_iff
    (hc : (withBodyExpectation mh ml e).consume 0 r = (.ok c, g'))
    (hs : (new mh close).sanitize (r.take c) = (.ok out, s')) :
    out = [] ↔ ¬ headerTerminator <:+: r := by
  obtain ⟨out', s'', hs', hin, hempty⟩ :=
    (feeds_of_consume hc).sanitize (inStep_fresh mh ml e close)
  obtain ⟨rfl, rfl⟩ : out' = out ∧ s'' = s' := by
    rw [hs] at hs'
    simpa [eq_comm] using hs'
  obtain ⟨hiff, hfwd⟩ := hempty rfl
  have hnew : (new mh close).headers ++ r.take c = r.take c := rfl
  rw [hnew] at hiff
  constructor
  · intro hnil
    have hlen := consume_ok hc
    -- the framer is still in the headers, so it consumed the whole read
    have hterm : ¬ g'.isTerminal = true := by
      intro hterm
      have := hin.forwarding fun buf hbuf => by simp [isTerminal, hbuf] at hterm
      rw [hfwd hnil] at this
      exact absurd this (by decide)
    rw [← take_of_length_le (l := r) (i := c)
      (by by_contra hlt; exact hterm (hlen.2.2.1 (by omega)))]
    exact hiff.mp hnil
  · intro hr
    exact hiff.mpr fun h => hr (h.trans ( take_prefix c r).isInfix)

end FirstRead

/-- Over every way to cut an accepted response into reads: all steps accept, keep admission open
and charge what was produced so far, exactly if the first read contains the end of a header block
and the ledger has an identity left. A first read without it asks the ledger for zero bytes. -/
theorem response_steps_accounted_iff {mh ml : ℕ} {e : ResponseBodyExpectation} {close : Bool}
    {progress : ResponseFramingProgress} (h : AwaitsResponse f mh ml e close)
    (hframed : ((withBodyExpectation mh ml e).push reads.flatten).1 = .ok progress)
    (hout : ((UpstreamResponseHeaderSanitizer.new mh close).sanitize
      (reads.flatten.take progress.consumed)).1 = .ok out)
    (hroom : f.payloadLedger.HasRoom out.length) :
    Accounted 0 (Focus.responseSteps f reads) ↔ ∀ first ∈ reads.head?,
      headerTerminator <:+: first ∧ f.payloadLedger.nextChargeId + 1 < 2 ^ 64 := by
  have hfresh : (withBodyExpectation mh ml e).isTerminal = false := rfl
  have hreceiving := h.receiving hroom.2
  cases reads with
  | nil => simp [responseSteps, Accounted]
  | cons r reads =>
    rw [HttpResponseFraming.push_eq hreceiving.positive hfresh] at hframed
    obtain ⟨g', hc⟩ : ∃ g', (withBodyExpectation mh ml e).consume 0 (r :: reads).flatten =
        (.ok progress.consumed, g') := by
      split at hframed
      · simp at hframed
      · next k g' hk =>
        refine ⟨g', ?_⟩
        rw [hk, ← Except.ok.inj hframed]
        rfl
    obtain ⟨s', hs⟩ : ∃ s', (new mh close).sanitize
        ((r :: reads).flatten.take progress.consumed) = (.ok out, s') := ⟨_, Prod.ext hout rfl⟩
    obtain ⟨_, _, out₁, _, _, _, hc₁, hs₁, hc₂, hs₂, hlen⟩ := split_first_read hc hs
    have hfirst := first_read_empty_iff hc₁ hs₁
    have hused := hroom.1
    simp only [head?_cons, Option.mem_def, Option.some.injEq, forall_eq']
    constructor
    · intro haccounted
      by_contra hbad
      obtain ⟨_, _, hf'⟩ := hreceiving.step_error hfresh hc₁ hs₁ h.slot (by
        rw [length_eq_zero_iff, hfirst]
        by_contra hgood
        exact hbad ⟨not_not.mp fun hend => hgood (.inl hend), by omega⟩)
      simp [responseSteps, hf', Accounted] at haccounted
    · rintro ⟨hend, hid⟩
      have hne : out₁.length ≠ 0 := by
        rw [ne_eq, length_eq_zero_iff, hfirst]
        simpa using hend
      obtain ⟨_, hf₁, h₁, hlimit⟩ := hreceiving.step hfresh hc₁ hs₁ (by omega) (by omega)
        fun _ => hid
      simp only [responseSteps, hf₁, Accounted]
      refine ⟨h₁.holding.pressure, h₁.holding.clientResponseBytes, ?_⟩
      split
      · trivial
      · next hphase =>
        exact h₁.accounted (by omega) (not_terminal_of_phase hfresh hc₁ hphase) hc₂ hs₂ (by omega)

def awaitingFocus : Focus Unit where
  connectionId := 7
  connection :=
    { client := {}
      clientTransport := .plaintext []
      clientIp := "127.0.0.1".toList
      deadline := none
      io := { state := .readingUpstreamResponse, upstreamAttempt := { phase := .awaitingResponse } }
      responseFraming := some (.withBodyExpectation 64 64 .normal)
      responseHeaderSanitizer := some (.new 64 false) }
  payloadLedger := .new
    { maxConnections := 1024
      maxInflightPayloadBytes := 128 * 1024 * 1024
      connections_mem := by decide
      payload_mem := by decide
      reserve_le := by decide } 1
  world := { clock := 0, route := fun _ => .respond [] }

theorem awaitingFocus_awaits : AwaitsResponse awaitingFocus 64 64 .normal false :=
  ⟨rfl, rfl, rfl, rfl, rfl, rfl, by decide⟩

theorem whole_header_accounted :
    Accounted 0 (Focus.responseSteps awaitingFocus [encode "HTTP/1.1 204 \r\n\r\n".toList]) :=
  (response_steps_accounted_iff awaitingFocus_awaits
    (show _ = Except.ok ⟨17, 17, .complete, some 204⟩ by decide +kernel)
    (show _ = Except.ok (encode "HTTP/1.1 204 \r\n\r\n".toList) by decide +kernel)
    (show _ ∧ _ by decide +kernel)).mpr (by decide +kernel)

/-- The same response in two reads, cut inside its header block: the framer accepts it, but the
first step asks the ledger for zero bytes, which closes admission for the whole process. -/
theorem split_header_closes_admission :
    AwaitsResponse awaitingFocus 64 64 .normal false ∧
    awaitingFocus.payloadLedger.HasRoom 17 ∧
    ((HttpResponseFraming.withBodyExpectation 64 64 .normal).push
      [encode "HTTP/1.1 204 \r\n".toList, encode "\r\n".toList].flatten).1 =
        .ok ⟨17, 17, .complete, some 204⟩ ∧
    (Focus.responseSteps awaitingFocus
      [encode "HTTP/1.1 204 \r\n".toList, encode "\r\n".toList]).map
        (fun step => (step.1.isOk, step.2.payloadLedger.pressureState)) =
      [(false, .failedClosed)] :=
  ⟨awaitingFocus_awaits, show _ ∧ _ by decide +kernel, by decide +kernel⟩

end Accounting

end EdgeProxy

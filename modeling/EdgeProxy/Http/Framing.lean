import EdgeProxy.Http.Request

/-! # Framing of upstream responses

The incremental machine that finds the end of an HTTP/1.1 response: header blocks (interim ones
are followed by another), then a body of known length, chunks, or everything up to the end of the
stream. `pushLoop` is the loop of the source, which takes body bytes in bulk; `consume` takes one
byte at a time. `pushLoop_eq_consume` equates them, so a stream may be cut anywhere.
-/

namespace EdgeProxy

open Rust List Prod

inductive ResponseFramingPhase where
  | headers | contentLength | chunkSize | chunkData | chunkDataCrlf | trailers | closeDelimited
  | complete | failed
  deriving DecidableEq

structure ResponseFramingProgress where
  consumed : ℕ
  inputLen : ℕ
  phase : ResponseFramingPhase
  statusCode : Option ℕ
  deriving DecidableEq

inductive ResponseFramingState where
  | headers (bytes : Bytes)
  | contentLength (remaining : ℕ)
  | chunkSize (line : Bytes)
  | chunkData (remaining : ℕ)
  | chunkDataCrlf (matched : ℕ)
  | trailers (line : Bytes)
  | closeDelimited
  | complete
  | failed
  deriving DecidableEq

inductive ResponseBodyExpectation where
  | normal | headResponse
  deriving DecidableEq

inductive ResponseBodyFraming where
  | interim | none | contentLength (length : ℕ) | chunked | closeDelimited
  deriving DecidableEq

structure HttpResponseFraming where
  state : ResponseFramingState := .headers []
  maxHeaderBytes : ℕ
  maxLineBytes : ℕ
  bodyExpectation : ResponseBodyExpectation := .normal
  statusCode : Option ℕ := none
  connectionClose : Bool := false
  closeDelimited : Bool := false
  deriving DecidableEq

def malformedUpstreamResponse (message : String) : AppError := ⟨.runtimeUpstreamBadGateway, message⟩

def headerTerminator : Bytes := [13, 10, 13, 10]

def lineTerminator : Bytes := [13, 10]

structure FramingHeaders where
  contentLength : Option ℕ := none
  transferEncodingPresent : Bool := false
  transferEncodingChunked : Bool := false
  chunkedCodingSeen : Bool := false
  connectionClose : Bool := false

/-- The codings of one `Transfer-Encoding` value, in order. -/
def scanCodings (acc : FramingHeaders) : List Text → Except AppError FramingHeaders
  | [] => .ok acc
  | coding :: codings =>
    let coding := trim coding
    if coding.isEmpty then .error (malformedUpstreamResponse "response transfer encoding is empty")
    else
      let chunked := eqIgnoreAsciiCase coding "chunked".toList
      scanCodings { acc with transferEncodingChunked := chunked
                             chunkedCodingSeen := acc.chunkedCodingSeen || chunked } codings

variable (acc : FramingHeaders) (name value : Text) (line : Bytes)

def scanContentLength : Except AppError FramingHeaders :=
  if !eqIgnoreAsciiCase name "Content-Length".toList then .ok acc
  else if acc.contentLength.isSome then
    .error (malformedUpstreamResponse "duplicate response content length")
  else
    match parseUsize (trim value) with
    | none => .error (malformedUpstreamResponse "response content length is invalid")
    | some length => .ok { acc with contentLength := some length }

def scanTransferEncoding : Except AppError FramingHeaders :=
  if !eqIgnoreAsciiCase name "Transfer-Encoding".toList then .ok acc
  else scanCodings { acc with transferEncodingPresent := true } (value.splitOn ',')

def scanConnection : FramingHeaders :=
  if !eqIgnoreAsciiCase name "Connection".toList then acc
  else
    { acc with connectionClose := acc.connectionClose ||
        (value.splitOn ',').any fun token => eqIgnoreAsciiCase (trim token) "close".toList }

def scanFramingLine (line : Text) : Except AppError FramingHeaders :=
  match splitOnce ':' line with
  | none => .error (malformedUpstreamResponse "response header is malformed")
  | some (name, value) =>
    if !isHttpToken name then .error (malformedUpstreamResponse "response header name is invalid")
    else if containsProhibitedHttpFieldValueControl value then
      .error (malformedUpstreamResponse "response header value contains prohibited control byte")
    else do
      let acc ← scanContentLength acc name value
      let acc ← scanTransferEncoding acc name value
      return scanConnection acc name value

def scanFramingLines (acc : FramingHeaders) : List Text → Except AppError FramingHeaders
  | [] => .ok acc
  | line :: lines => do
    let acc ← scanFramingLine acc line
    scanFramingLines acc lines

/-- The status code of a status line, with the checks that the framer makes. -/
def parseStatusLine (statusLine : Text) : Except AppError ℕ :=
  match splitOnce ' ' statusLine with
  | none => .error (malformedUpstreamResponse "response HTTP version is missing")
  | some (version, statusAndReason) =>
    if version != "HTTP/1.1".toList then
      .error (malformedUpstreamResponse "response HTTP version is invalid")
    else
      match splitOnce ' ' statusAndReason with
      | none => .error (malformedUpstreamResponse "response reason separator is missing")
      | some (statusCode, _) =>
        if byteLen statusCode ≠ 3 ∨ ¬ statusCode.all (fun c => '0' ≤ c && c ≤ '9') then
          .error (malformedUpstreamResponse "response status code is invalid")
        else
          match parseU16 statusCode with
          | none => .error (malformedUpstreamResponse "response status code is invalid")
          | some code =>
            if 100 ≤ code ∧ code ≤ 999 then .ok code
            else
              .error (malformedUpstreamResponse "response status code is outside the valid range")

def isInterimStatus (code : ℕ) : Bool := 100 ≤ code && code < 200 && code != 101

def bodyFraming (expectation : ResponseBodyExpectation) (code : ℕ) (scan : FramingHeaders) :
    ResponseBodyFraming :=
  if isInterimStatus code then .interim
  else if expectation = .headResponse ∨ code ∈ [101, 204, 304] then .none
  else if scan.transferEncodingChunked then .chunked
  else
    match scan.contentLength with
    | some length => .contentLength length
    | none => .closeDelimited

def parseResponseFramingHeaders (headers : Bytes) (expectation : ResponseBodyExpectation) :
    Except AppError (ℕ × ResponseBodyFraming × Bool) :=
  match decode headers with
  | none => .error (malformedUpstreamResponse "response headers are not UTF-8")
  | some headerText =>
    match stripSuffix "\r\n\r\n".toList headerText with
    | none => .error (malformedUpstreamResponse "response header terminator is missing")
    | some headerText =>
      match splitCrlf headerText with
      | [] => .error (malformedUpstreamResponse "response status line is missing")
      | statusLine :: lines => do
        let code ← parseStatusLine statusLine
        let scan ← scanFramingLines {} lines
        if scan.transferEncodingPresent && scan.contentLength.isSome then
          .error (malformedUpstreamResponse
            "response transfer encoding conflicts with content length")
        else if scan.chunkedCodingSeen && !scan.transferEncodingChunked then
          .error (malformedUpstreamResponse "chunked must be the final response transfer coding")
        else .ok (code, bodyFraming expectation code scan, scan.connectionClose)

def parseChunkSize : Except AppError ℕ :=
  match decode line with
  | none => .error (malformedUpstreamResponse "chunk size is not UTF-8")
  | some line =>
    let size := trim ((line.splitOn ';').headD [])
    if size.isEmpty then .error (malformedUpstreamResponse "chunk size is missing")
    else
      match parseUnsigned 16 usizeBound size with
      | none => .error (malformedUpstreamResponse "chunk size is invalid")
      | some size => .ok size

def validateTrailerLine : Except AppError Unit :=
  match decode line with
  | none => .error (malformedUpstreamResponse "chunk trailer is not UTF-8")
  | some line =>
    match splitOnce ':' line with
    | none => .error (malformedUpstreamResponse "chunk trailer is malformed")
    | some (name, value) =>
      if !isHttpToken name then .error (malformedUpstreamResponse "chunk trailer name is invalid")
      else if containsProhibitedHttpFieldValueControl value then
        .error (malformedUpstreamResponse "chunk trailer value contains prohibited control byte")
      else .ok ()

def tryPushBounded (bytes : Bytes) (byte : UInt8) (maxBytes : ℕ) : Except AppError Bytes :=
  if bytes.length ≥ maxBytes then
    .error ⟨.resourcePayloadCapacityReached, "response framing buffer limit reached"⟩
  else .ok (bytes ++ [byte])

namespace HttpResponseFraming

/-- `with_body_expectation`: a framer at the start of a response. -/
def withBodyExpectation (maxHeaderBytes maxLineBytes : ℕ) (e : ResponseBodyExpectation) :
    HttpResponseFraming :=
  { maxHeaderBytes, maxLineBytes, bodyExpectation := e }

variable (f : HttpResponseFraming)

def phase : ResponseFramingPhase :=
  match f.state with
  | .headers _ => .headers
  | .contentLength _ => .contentLength
  | .chunkSize _ => .chunkSize
  | .chunkData _ => .chunkData
  | .chunkDataCrlf _ => .chunkDataCrlf
  | .trailers _ => .trailers
  | .closeDelimited => .closeDelimited
  | .complete => .complete
  | .failed => .failed

def isKeepAliveReusable : Bool :=
  f.state == .complete && !f.connectionClose && !f.closeDelimited

def isTerminal : Bool := f.state == .complete || f.state == .failed

def fail {α : Type} (message : String) : Except AppError α × HttpResponseFraming :=
  (.error (malformedUpstreamResponse message), { f with state := .failed })

def bodyState : ResponseBodyFraming → ResponseFramingState
  | .interim => .headers []
  | .none | .contentLength 0 => .complete
  | .contentLength remaining => .contentLength remaining
  | .chunked => .chunkSize []
  | .closeDelimited => .closeDelimited

def finishHeaders (headers : Bytes) : Except AppError ℕ × HttpResponseFraming :=
  match parseResponseFramingHeaders headers f.bodyExpectation with
  | .error e => (.error e, { f with state := .failed })
  | .ok (code, framing, connectionClose) =>
    let f := { f with statusCode := some code }
    let f := if framing = .interim then f
      else { f with connectionClose, closeDelimited := decide (framing = .closeDelimited) }
    (.ok 1, { f with state := bodyState framing })

/-- One iteration of the loop of `push` on the input `b :: rest`: how many bytes it consumes. -/
def advance (b : UInt8) (rest : Bytes) : Except AppError ℕ × HttpResponseFraming :=
  match f.state with
  | .headers headers =>
    match tryPushBounded headers b f.maxHeaderBytes with
    | .error e => (.error e, { f with state := .failed })
    | .ok headers =>
      if headerTerminator.isSuffixOf headers then f.finishHeaders headers
      else (.ok 1, { f with state := .headers headers })
  | .contentLength remaining =>
    let consumed := min remaining (rest.length + 1)
    (.ok consumed, { f with state :=
      if remaining - consumed = 0 then .complete else .contentLength (remaining - consumed) })
  | .chunkSize line =>
    match tryPushBounded line b f.maxLineBytes with
    | .error e => (.error e, { f with state := .failed })
    | .ok line =>
      if lineTerminator.isSuffixOf line then
        match parseChunkSize (line.take (line.length - 2)) with
        | .error e => (.error e, { f with state := .failed })
        | .ok size => (.ok 1,
          { f with state := if size = 0 then .trailers [] else .chunkData size })
      else (.ok 1, { f with state := .chunkSize line })
  | .chunkData remaining =>
    let consumed := min remaining (rest.length + 1)
    (.ok consumed, { f with state :=
      if remaining - consumed = 0 then .chunkDataCrlf 0 else .chunkData (remaining - consumed) })
  | .chunkDataCrlf matched =>
    if lineTerminator[matched]? ≠ some b then f.fail "chunk data is not followed by CRLF"
    else
      (.ok 1, { f with state :=
        if matched + 1 = 2 then .chunkSize [] else .chunkDataCrlf (matched + 1) })
  | .trailers line =>
    match tryPushBounded line b f.maxLineBytes with
    | .error e => (.error e, { f with state := .failed })
    | .ok line =>
      if lineTerminator.isSuffixOf line then
        if line.length = 2 then (.ok 1, { f with state := .complete })
        else if (validateTrailerLine (line.take (line.length - 2))).isOk then
          (.ok 1, { f with state := .trailers [] })
        else f.fail "malformed chunk trailer"
      else (.ok 1, { f with state := .trailers line })
  | .closeDelimited => (.ok (rest.length + 1), f)
  | .complete | .failed => (.ok 0, f)

/-- The loop of `push`: each iteration consumes at least one byte, so `fuel` iterations suffice
for `fuel` bytes. -/
def pushLoop : ℕ → HttpResponseFraming → ℕ → Bytes → Except AppError ℕ × HttpResponseFraming
  | 0, f, cursor, _ => (.ok cursor, f)
  | _ + 1, f, cursor, [] => (.ok cursor, f)
  | fuel + 1, f, cursor, b :: rest =>
    if f.isTerminal then (.ok cursor, f)
    else
      match f.advance b rest with
      | (.error e, f) => (.error e, f)
      | (.ok consumed, f) => pushLoop fuel f (cursor + consumed) ((b :: rest).drop consumed)

def progress (consumed inputLen : ℕ) : ResponseFramingProgress :=
  { consumed, inputLen, phase := f.phase, statusCode := f.statusCode }

def push (input : Bytes) : Except AppError ResponseFramingProgress × HttpResponseFraming :=
  if f.isTerminal then f.fail "response framing is already terminal"
  else
    match pushLoop input.length f 0 input with
    | (.error e, f) => (.error e, f)
    | (.ok cursor, f) => (.ok (f.progress cursor input.length), f)

def finishOnEof : Except AppError ResponseFramingProgress × HttpResponseFraming :=
  match f.state with
  | .closeDelimited =>
    let f := { f with state := .complete }
    (.ok (f.progress 0 0), f)
  | .complete => (.ok (f.progress 0 0), f)
  | .failed => f.fail "response framing has failed"
  | _ => f.fail "upstream closed before response framing completed"

section Bytewise

variable {f f' : HttpResponseFraming} {b : UInt8} {bs rest : Bytes} {c n r fuel : ℕ}

/-- Remaining lengths are positive: the framer leaves a body state when nothing remains. -/
def Positive (f : HttpResponseFraming) : Prop :=
  ∀ r, f.state = .contentLength r ∨ f.state = .chunkData r → 0 < r

/-- The loop of `push` one byte at a time. -/
def consume (f : HttpResponseFraming) (c : ℕ) : Bytes → Except AppError ℕ × HttpResponseFraming
  | [] => (.ok c, f)
  | b :: bs =>
    if f.isTerminal then (.ok c, f)
    else
      match f.advance b [] with
      | (.error e, f) => (.error e, f)
      | (.ok _, f) => consume f (c + 1) bs

theorem consume_terminal (h : f.isTerminal = true) : f.consume c bs = (.ok c, f) := by
  cases bs <;> simp [consume, h]

theorem consume_append (a : Bytes) : f.consume c (a ++ bs) = match f.consume c a with
    | (.ok c', f') => f'.consume c' bs
    | (.error e, f') => (.error e, f') := by
  induction a generalizing f c with
  | nil => rfl
  | cons _ _ ih =>
    rw [cons_append, consume, consume]
    split
    · next h => simp [consume_terminal h]
    · split
      · rfl
      · exact ih

/-- A state that counts the bytes left of a body: the last of them leads to `done`. -/
def Counts (counted : ℕ → ResponseFramingState) (done : ResponseFramingState) : Prop :=
  ∀ ⦃f : HttpResponseFraming⦄ ⦃r : ℕ⦄, f.state = counted r → f.isTerminal = false ∧ ∀ b rest,
    f.advance b rest = (.ok (min r (rest.length + 1)), { f with
      state := if r - min r (rest.length + 1) = 0 then done
        else counted (r - min r (rest.length + 1)) })

theorem counts_contentLength : Counts .contentLength .complete :=
  fun _ _ hs => ⟨by simp [isTerminal, hs], fun _ _ => by simp only [advance, hs]⟩

theorem counts_chunkData : Counts .chunkData (.chunkDataCrlf 0) :=
  fun _ _ hs => ⟨by simp [isTerminal, hs], fun _ _ => by simp only [advance, hs]⟩

variable {counted : ℕ → ResponseFramingState} {done : ResponseFramingState}

theorem Counts.consume (h : Counts counted done) (hs : f.state = counted r) (hr : 0 < r) :
    f.consume c bs =
      if r ≤ bs.length then HttpResponseFraming.consume { f with state := done } (c + r) (bs.drop r)
      else (.ok (c + bs.length), { f with state := counted (r - bs.length) }) := by
  induction bs generalizing f r c with
  | nil => simp [HttpResponseFraming.consume, show ¬ r ≤ 0 by omega, ← hs]
  | cons b bs ih =>
    obtain ⟨hterm, hadvance⟩ := h hs
    rw [HttpResponseFraming.consume, if_neg (by simp [hterm]), hadvance]
    simp only [length_nil, Nat.zero_add, length_cons]
    rw [Nat.min_eq_right (by omega : 1 ≤ r)]
    obtain ⟨r, rfl⟩ : ∃ k, r = k + 1 := ⟨r - 1, by omega⟩
    rw [Nat.add_sub_cancel, drop_succ_cons]
    by_cases h1 : r = 0
    · simp [h1]
    · rw [if_neg h1, ih rfl (by omega)]
      by_cases hle : r ≤ bs.length
      · rw [if_pos hle, if_pos (by omega), show c + 1 + r = c + (r + 1) by omega]
      · rw [if_neg hle, if_neg (by omega), show c + 1 + bs.length = c + (bs.length + 1) by omega,
          show r - bs.length = r + 1 - (bs.length + 1) by omega]

theorem Counts.consume_advance (h : Counts counted done) (hs : f.state = counted r) (hr : 0 < r) :
    ∃ k g, f.advance b rest = (.ok k, g) ∧ 0 < k ∧
      g.consume (c + k) ((b :: rest).drop k) = f.consume c (b :: rest) := by
  refine ⟨_, _, (h hs).2 b rest, by omega, ?_⟩
  rw [h.consume hs hr]
  by_cases hle : r ≤ rest.length + 1
  · rw [Nat.min_eq_left hle, Nat.sub_self, if_pos rfl, if_pos (by simpa using hle)]
  · rw [Nat.min_eq_right (by omega), if_neg (by omega), if_neg (by simpa using hle),
      drop_of_length_le (by simp)]
    rfl

theorem consume_closeDelimited (h : f.state = .closeDelimited) :
    f.consume c bs = (.ok (c + bs.length), f) := by
  induction bs generalizing c with
  | nil => rfl
  | cons _ _ ih =>
    rw [consume, if_neg (by simp [isTerminal, h])]
    simp only [advance, h]
    rw [ih, length_cons]
    congr 2
    omega

theorem advance_one (hcl : ∀ r, f.state ≠ .contentLength r) (hcd : ∀ r, f.state ≠ .chunkData r)
    (hclose : f.state ≠ .closeDelimited) (hterm : f.isTerminal = false) :
    f.advance b rest = f.advance b [] ∧ ∀ n, (f.advance b []).1 = .ok n → n = 1 := by
  unfold advance finishHeaders fail
  cases hs : f.state with
  | contentLength r => exact absurd hs (hcl r)
  | chunkData r => exact absurd hs (hcd r)
  | closeDelimited => exact absurd hs hclose
  | complete | failed => simp [isTerminal, hs] at hterm
  | headers | chunkSize | chunkDataCrlf | trailers =>
    refine ⟨rfl, fun n hn => ?_⟩
    simp only at hn
    repeat' split at hn
    all_goals simp_all

theorem bodyState_positive {framing : ResponseBodyFraming}
    (h : bodyState framing = .contentLength r ∨ bodyState framing = .chunkData r) : 0 < r := by
  cases framing with
  | contentLength n =>
    cases n with
    | zero => simp [bodyState] at h
    | succ n =>
      simp only [bodyState, ResponseFramingState.contentLength.injEq, reduceCtorEq, or_false] at h
      omega
  | _ => simp [bodyState] at h

theorem advance_positive (hpos : f.Positive) : (f.advance b rest).2.Positive := by
  intro r h
  unfold advance finishHeaders fail at h
  cases hs : f.state with
  | headers =>
    simp only [hs] at h
    repeat' split at h
    all_goals first
      | exact bodyState_positive h
      | simp at h
  | contentLength k =>
    simp only [hs] at h
    split at h
    · simp at h
    · have := hpos k (.inl hs)
      simp only [ResponseFramingState.contentLength.injEq, reduceCtorEq, or_false] at h
      omega
  | chunkData k =>
    simp only [hs] at h
    split at h
    · simp at h
    · have := hpos k (.inr hs)
      simp only [ResponseFramingState.chunkData.injEq, reduceCtorEq, false_or] at h
      omega
  | chunkSize =>
    simp only [hs] at h
    repeat' split at h
    all_goals first
      | (simp only [reduceCtorEq, ResponseFramingState.chunkData.injEq, false_or] at h; omega)
      | simp at h
  | chunkDataCrlf | trailers =>
    simp only [hs] at h
    repeat' split at h
    all_goals simp at h
  | closeDelimited | complete | failed => simp [hs] at h

theorem consume_positive (hpos : f.Positive) : (f.consume c bs).2.Positive := by
  induction bs generalizing f c with
  | nil => exact hpos
  | cons b _ ih =>
    have hstep : (f.advance b []).2.Positive := advance_positive hpos
    rw [consume]
    split
    · exact hpos
    · generalize f.advance b [] = next at hstep ⊢
      rcases next with ⟨_ | _, _⟩
      · exact hstep
      · exact ih hstep

theorem pushLoop_eq_consume (hpos : f.Positive) (hfuel : bs.length ≤ fuel) :
    pushLoop fuel f c bs = f.consume c bs := by
  induction fuel generalizing f c bs with
  | zero =>
    obtain rfl : bs = [] := length_eq_zero_iff.mp (by omega)
    rfl
  | succ fuel ih =>
    cases bs with
    | nil => rfl
    | cons b rest =>
      simp only [length_cons] at hfuel
      rw [pushLoop]
      by_cases hterm : f.isTerminal = true
      · rw [if_pos hterm, consume_terminal hterm]
      rw [if_neg hterm]
      rw [Bool.not_eq_true] at hterm
      have hnext : ∀ k f', f.advance b rest = (.ok k, f') → 0 < k →
          pushLoop fuel f' (c + k) ((b :: rest).drop k) =
            f'.consume (c + k) ((b :: rest).drop k) := by
        intro k f' he hk
        have hpos' : f'.Positive := by
          have : (f.advance b rest).2.Positive := advance_positive hpos
          rwa [he] at this
        exact ih hpos' (by simp only [length_drop, length_cons]; omega)
      cases hs : f.state with
      | contentLength r =>
        obtain ⟨k, g, he, hk, hsame⟩ := counts_contentLength.consume_advance hs (hpos r (.inl hs))
        rw [he]
        exact (hnext k g he hk).trans hsame
      | chunkData r =>
        obtain ⟨k, g, he, hk, hsame⟩ := counts_chunkData.consume_advance hs (hpos r (.inr hs))
        rw [he]
        exact (hnext k g he hk).trans hsame
      | closeDelimited =>
        have he : f.advance b rest = (.ok (rest.length + 1), f) := by simp only [advance, hs]
        rw [he]
        refine (hnext _ _ he (by omega)).trans ?_
        rw [consume_closeDelimited hs, consume_closeDelimited hs, length_drop]
        simp
      | headers _ | chunkSize _ | chunkDataCrlf _ | trailers _ | complete | failed =>
        obtain ⟨hsame, hone⟩ : f.advance b rest = f.advance b [] ∧ _ :=
          advance_one (by simp [hs]) (by simp [hs]) (by simp [hs]) hterm
        rw [consume, if_neg (by simp [hterm]), hsame]
        rcases he : f.advance b [] with ⟨_ | k, f'⟩
        · rfl
        · obtain rfl : k = 1 := hone k (by rw [he])
          exact hnext 1 f' (hsame.trans he) (by omega)

theorem push_eq (hpos : f.Positive) (hterm : f.isTerminal = false) :
    f.push bs = match f.consume 0 bs with
      | (.error e, f') => (.error e, f')
      | (.ok n, f') => (.ok (f'.progress n bs.length), f') := by
  rw [push, if_neg (by simp [hterm]), pushLoop_eq_consume hpos le_rfl]

theorem consume_ok (h : f.consume c bs = (.ok n, f')) :
    c ≤ n ∧ n ≤ c + bs.length ∧ (n < c + bs.length → f'.isTerminal = true) ∧
      (f.isTerminal = false → bs ≠ [] → c < n) := by
  induction bs generalizing f c with
  | nil =>
    simp only [consume, Prod.mk.injEq, Except.ok.injEq] at h
    simp [h.1]
  | cons _ _ ih =>
    rw [consume] at h
    split at h
    · next hterm =>
      simp only [Prod.mk.injEq, Except.ok.injEq] at h
      obtain ⟨rfl, rfl⟩ := h
      simp [hterm]
    · split at h
      · simp at h
      · obtain ⟨h₁, h₂, h₃, -⟩ := ih h
        simp only [length_cons]
        exact ⟨by omega, by omega, fun hn => h₃ (by omega), fun _ _ => by omega⟩

theorem consume_add (d : ℕ) : f.consume (c + d) bs = match f.consume c bs with
    | (.ok n, f') => (.ok (n + d), f')
    | (.error e, f') => (.error e, f') := by
  induction bs generalizing f c with
  | nil => rfl
  | cons _ _ ih =>
    rw [consume, consume]
    split
    · rfl
    · split
      · rfl
      · rw [show c + d + 1 = c + 1 + d by omega, ih]

theorem consume_append_ok {a : Bytes} (h : f.consume 0 (a ++ bs) = (.ok n, f')) :
    ∃ k m g, f.consume 0 a = (.ok k, g) ∧ g.consume 0 bs = (.ok m, f') ∧ n = m + k ∧
      (k = a.length ∨ m = 0) := by
  rw [consume_append] at h
  rcases ha : f.consume 0 a with ⟨_ | k, g⟩
  · simp [ha] at h
  simp only [ha] at h
  rw [← Nat.zero_add k, consume_add] at h
  rcases hb : g.consume 0 bs with ⟨_ | m, g'⟩
  · simp [hb] at h
  simp only [hb, Prod.mk.injEq, Except.ok.injEq] at h
  obtain ⟨rfl, rfl⟩ := h
  refine ⟨k, m, g, rfl, hb, rfl, ?_⟩
  -- a framer that stops early is at its end and takes nothing of the rest
  obtain ⟨-, hle, hterm, -⟩ := consume_ok ha
  by_contra hboth
  rw [consume_terminal (hterm (by omega))] at hb
  simp_all

theorem bodyState_ne_failed (framing : ResponseBodyFraming) : bodyState framing ≠ .failed := by
  cases framing with
  | contentLength n => cases n <;> simp [bodyState]
  | _ => simp [bodyState]

theorem advance_state_ne_failed {k : ℕ} {g : HttpResponseFraming} (hstate : f.state ≠ .failed)
    (h : f.advance b [] = (.ok k, g)) : g.state ≠ .failed := by
  unfold advance finishHeaders at h
  repeat' split at h
  all_goals simp_all [fail]
  all_goals obtain ⟨-, rfl⟩ := h
  all_goals simp_all
  all_goals repeat' split
  all_goals simp_all [bodyState_ne_failed]

theorem consume_state_ne_failed (hstate : f.state ≠ .failed)
    (h : f.consume c bs = (.ok n, f')) : f'.state ≠ .failed := by
  induction bs generalizing f c with
  | nil =>
    obtain rfl : f = f' := by simpa [consume] using congrArg snd h
    exact hstate
  | cons _ _ ih =>
    rw [consume] at h
    split at h
    · obtain rfl : f = f' := by simpa using congrArg snd h
      exact hstate
    · split at h
      · simp at h
      · next k g hk => exact ih (advance_state_ne_failed hstate hk) h

/-- The framer takes all of `bs` and is then `f'`. -/
def Feeds (f : HttpResponseFraming) (bs : Bytes) (f' : HttpResponseFraming) : Prop :=
  f.consume 0 bs = (.ok bs.length, f')

theorem feeds_nil : f.Feeds [] f := rfl

theorem Feeds.not_terminal (h : f.Feeds bs f') (hne : bs ≠ []) : f.isTerminal = false := by
  by_contra hterm
  rw [Bool.not_eq_false] at hterm
  rw [Feeds, consume_terminal hterm] at h
  simp only [Prod.mk.injEq, Except.ok.injEq] at h
  exact hne (length_eq_zero_iff.mp h.1.symm)

theorem feeds_append_iff {a : Bytes} : f.Feeds (a ++ bs) f' ↔ ∃ g, f.Feeds a g ∧ g.Feeds bs f' := by
  unfold Feeds
  constructor
  · intro h
    obtain ⟨k, m, g, ha, hb, hn, -⟩ := consume_append_ok h
    have hk := consume_ok ha
    have hm := consume_ok hb
    rw [length_append] at hn
    exact ⟨g, by rw [ha, show k = a.length by omega], by rw [hb, show m = bs.length by omega]⟩
  · rintro ⟨_, ha, hb⟩
    rw [consume_append, ha]
    simp only
    rw [show a.length = 0 + a.length by omega, consume_add, hb]
    simp only [length_append, Prod.mk.injEq, Except.ok.injEq, and_true]
    omega

theorem Feeds.cons (h : f.Feeds (b :: bs) f') :
    f.isTerminal = false ∧ ∃ n g, f.advance b [] = (.ok n, g) ∧ g.Feeds bs f' := by
  rw [← singleton_append, feeds_append_iff] at h
  obtain ⟨g, hb, hg⟩ := h
  have hterm := hb.not_terminal (by simp)
  refine ⟨hterm, ?_⟩
  rw [Feeds, consume, if_neg (by simp [hterm])] at hb
  split at hb
  · simp at hb
  · next n g' hn =>
    simp only [consume, Prod.mk.injEq] at hb
    exact ⟨n, g, by rw [hn, hb.2], hg⟩

theorem feeds_of_consume (h : f.consume 0 bs = (.ok n, f')) : f.Feeds (bs.take n) f' := by
  have hn := consume_ok h
  rw [← take_append_drop n bs] at h
  obtain ⟨k, m, g, hk, hm, hsum, hall⟩ := consume_append_ok h
  have hlength : (bs.take n).length = n := by
    rw [length_take]
    omega
  -- the rest adds nothing to the count: the framer is at its end after the first `n` bytes
  obtain rfl : m = 0 := by omega
  have hg : g = f' := by
    cases hd : bs.drop n with
    | nil => simpa [hd, consume] using hm
    | cons =>
      by_cases hterm : g.isTerminal
      · simpa [consume_terminal hterm] using hm
      · exact absurd ((consume_ok hm).2.2.2 (by simpa using hterm) (by simp [hd])) (lt_irrefl 0)
  rw [Feeds, hk, hg, hlength, hsum, Nat.zero_add]

theorem Feeds.positive (h : f.Feeds bs f') (hpos : f.Positive) : f'.Positive := by
  have := (consume_positive hpos : (f.consume 0 bs).2.Positive)
  rwa [h] at this

theorem Feeds.push_eq (h : f.Feeds bs f') (hne : bs ≠ []) (hpos : f.Positive) :
    f.push bs = (.ok (f'.progress bs.length bs.length), f') := by
  rw [HttpResponseFraming.push_eq hpos (h.not_terminal hne), h]

end Bytewise

end HttpResponseFraming

end EdgeProxy

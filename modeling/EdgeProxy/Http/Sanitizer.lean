import EdgeProxy.Http.Forwarding
import EdgeProxy.Http.Framing

/-! # Sanitizing upstream response headers

The incremental projection of response header blocks: hop-by-hop headers and the headers that
`Connection` names are removed (`Transfer-Encoding` stays, since the body is forwarded as it was
framed), `Connection: close` is added when the client connection is to be closed.
-/

namespace EdgeProxy

open Rust List

def parseResponseHeaderLine (line : Text) : Except AppError Header :=
  match splitOnce ':' line with
  | none => .error (malformedUpstreamResponse "response header is malformed")
  | some (name, value) => .ok ⟨name, trimStart value⟩

def isRetainedResponseHeader (tokens : List Text) (h : Header) : Bool :=
  toAsciiLowercase h.name == "transfer-encoding".toList || isEndToEnd tokens h

def sanitizedHeaderText (statusLine : Text) (headers : List Header) (close : Bool) : Text :=
  statusLine ++ crlf ++
    ((headers.filter (isRetainedResponseHeader (connectionHeaderTokens headers))).flatMap
      fun h => h.line ++ crlf) ++
    (if close then "Connection: close\r\n".toList else []) ++ crlf

def sanitizeResponseHeaderBlock (headers : Bytes) (closeFinalResponse : Bool) :
    Except AppError (Bytes × Bool) :=
  match decode headers with
  | none => .error (malformedUpstreamResponse "response headers are not UTF-8")
  | some headerText =>
    match stripSuffix "\r\n\r\n".toList headerText with
    | none => .error (malformedUpstreamResponse "response header terminator is missing")
    | some headerText =>
      match splitCrlf headerText with
      | [] => .error (malformedUpstreamResponse "response status line is missing")
      | statusLine :: lines =>
        match (splitWhitespace statusLine)[1]?.bind parseU16 with
        | none => .error (malformedUpstreamResponse "response status code is invalid")
        | some statusCode => do
          let parsedHeaders ← lines.mapM parseResponseHeaderLine
          let interim := isInterimStatus statusCode
          return (encode (sanitizedHeaderText statusLine parsedHeaders
            (!interim && closeFinalResponse)), interim)

structure UpstreamResponseHeaderSanitizer where
  headers : Bytes := []
  maxHeaderBytes : ℕ
  closeFinalResponse : Bool
  forwardingBody : Bool := false

namespace UpstreamResponseHeaderSanitizer

def new (maxHeaderBytes : ℕ) (closeFinalResponse : Bool) : UpstreamResponseHeaderSanitizer :=
  { maxHeaderBytes, closeFinalResponse }

/-- The loop of `sanitize`, with the output so far. -/
def sanitizeLoop (s : UpstreamResponseHeaderSanitizer) (output : Bytes) :
    Bytes → Except AppError Bytes × UpstreamResponseHeaderSanitizer
  | [] => (.ok output, s)
  | b :: rest =>
    if s.headers.length ≥ s.maxHeaderBytes then
      (.error ⟨.resourcePayloadCapacityReached, "response header sanitizer limit reached"⟩, s)
    else if !headerTerminator.isSuffixOf (s.headers ++ [b]) then
      sanitizeLoop { s with headers := s.headers ++ [b] } output rest
    else
      match sanitizeResponseHeaderBlock (s.headers ++ [b]) s.closeFinalResponse with
      | .error e => (.error e, { s with headers := s.headers ++ [b] })
      | .ok (sanitized, interim) =>
        if !interim then
          (.ok (output ++ sanitized ++ rest), { s with headers := [], forwardingBody := true })
        else sanitizeLoop { s with headers := [] } (output ++ sanitized) rest

def sanitize (s : UpstreamResponseHeaderSanitizer) (input : Bytes) :
    Except AppError Bytes × UpstreamResponseHeaderSanitizer :=
  if s.forwardingBody then (.ok input, s) else s.sanitizeLoop [] input

section Append

variable {s : UpstreamResponseHeaderSanitizer} {o a b : Bytes}

theorem sanitizeLoop_output : s.sanitizeLoop o a = match s.sanitizeLoop [] a with
    | (.ok out, s') => (.ok (o ++ out), s')
    | (.error e, s') => (.error e, s') := by
  induction a generalizing s o with
  | nil => simp [sanitizeLoop]
  | cons _ _ ih =>
    rw [sanitizeLoop, sanitizeLoop]
    split_ifs
    · rfl
    · exact ih
    · split
      · rfl
      · split
        · simp
        · rw [ih, ih (o := [] ++ _)]
          split <;> simp

theorem sanitizeLoop_append (hfwd : s.forwardingBody = false) :
    s.sanitizeLoop [] (a ++ b) = match s.sanitizeLoop [] a with
      | (.ok o₁, s₁) => match s₁.sanitize b with
        | (.ok o₂, s₂) => (.ok (o₁ ++ o₂), s₂)
        | (.error e, s₂) => (.error e, s₂)
      | (.error e, s₁) => (.error e, s₁) := by
  induction a generalizing s with
  | nil =>
    simp only [nil_append, sanitizeLoop, sanitize, hfwd]
    split <;> simp_all
  | cons _ a ih =>
    rw [cons_append, sanitizeLoop, sanitizeLoop]
    split_ifs
    · rfl
    · exact ih hfwd
    · split
      · rfl
      · next sanitized interim hblock =>
        split
        · simp [sanitize]
        · rw [sanitizeLoop_output, ih (s := { s with headers := [] }) hfwd,
            sanitizeLoop_output (o := [] ++ sanitized) (a := a)]
          generalize sanitizeLoop _ [] a = r
          rcases r with ⟨_ | _, s₁⟩
          · rfl
          · dsimp only
            rcases s₁.sanitize b with ⟨_ | _, _⟩
            · rfl
            · simp

theorem sanitize_append : s.sanitize (a ++ b) = match s.sanitize a with
    | (.ok o₁, s₁) => match s₁.sanitize b with
      | (.ok o₂, s₂) => (.ok (o₁ ++ o₂), s₂)
      | (.error e, s₂) => (.error e, s₂)
    | (.error e, s₁) => (.error e, s₁) := by
  cases hfwd : s.forwardingBody with
  | true => simp [sanitize, hfwd]
  | false =>
    have h : ∀ bs, s.sanitize bs = s.sanitizeLoop [] bs := fun bs => by simp [sanitize, hfwd]
    rw [h, h, sanitizeLoop_append hfwd]

end Append

end UpstreamResponseHeaderSanitizer

theorem splitWhitespace_of_parseStatusLine {statusLine : Text} {code : ℕ}
    (h : parseStatusLine statusLine = .ok code) :
    (splitWhitespace statusLine)[1]?.bind parseU16 = some code := by
  rw [parseStatusLine] at h
  rcases hversion : splitOnce ' ' statusLine with _ | ⟨version, rest⟩
  · simp [hversion] at h
  simp only [hversion] at h
  split_ifs at h with hv
  rcases hdigits : splitOnce ' ' rest with _ | ⟨digits, reason⟩
  · simp [hdigits] at h
  simp only [hdigits] at h
  split_ifs at h with hlen
  rcases hn : parseU16 digits with _ | n
  · simp [hn] at h
  simp only [hn] at h
  split_ifs at h
  obtain rfl := Except.ok.inj h
  obtain ⟨rfl, -⟩ := splitOnce_eq_some hversion
  obtain ⟨rfl, -⟩ := splitOnce_eq_some hdigits
  obtain rfl : version = "HTTP/1.1".toList := by simpa using hv
  simp only [not_or, not_not, all_eq_true] at hlen
  have hne : digits ≠ [] := by
    rintro rfl
    simp [byteLen] at hlen
  have hword : ∀ c ∈ digits, isWhitespace c = false := by
    intro c hc
    refine (not_isWhitespace_of_isAsciiAlphanumeric ?_).1
    rw [isAsciiAlphanumeric, hlen.2 c hc, Bool.true_or, Bool.true_or]
  rw [splitWhitespace_append (by decide), splitWhitespace_append (by decide),
    splitWhitespace_word (by decide) (by decide), splitWhitespace_word hne hword]
  exact hn

end EdgeProxy

import EdgeProxy.Domain.Upstream
import EdgeProxy.Lib.Result

/-! # HTTP/1.1 requests

`parse_http_request` with the checks it makes in order, the limits it enforces, and the
incremental buffer that collects a request from reads. `parseHttpRequest_ok_iff` says when a byte
string is accepted; the other results reduce each check to a condition on the headers.
-/

namespace EdgeProxy

open Rust List

structure Header where
  name : Text
  value : Text
  deriving DecidableEq

structure HttpRequest where
  method : Text
  path : Text
  version : Text
  headers : List Header
  body : Bytes
  deriving DecidableEq

structure HttpLimits where
  maxRequestLineBytes : Nat := 8 * 1024
  maxHeaderBytes : Nat := 16 * 1024
  maxHeaderCount : Nat := 100
  maxBodyBytes : Nat := 1024 * 1024

def Header.isNamed (name : Text) (h : Header) : Bool := eqIgnoreAsciiCase h.name name

theorem close_filter {name value : Text} {force : Bool}
    (hname : toAsciiLowercase name ≠ "connection".toList) :
    (if force then [(⟨"Connection".toList, value⟩ : Header)] else []).filter
      (Header.isNamed name) = [] := by
  cases force with
  | false => rfl
  | true => exact filter_cons_of_neg fun h => hname (eqIgnoreAsciiCase_iff.mp h).symm

def HttpRequest.headerValue (r : HttpRequest) (name : Text) : Option Text :=
  (r.headers.find? (Header.isNamed name)).map Header.value

variable (headers : List Header) (value : Text) (message : String) (c : Char)

def malformed : AppError := ⟨.httpMalformedRequest, message⟩

def tokenSpecials : Text := "!#$%&'*+-.^_`|~".toList

def isHttpTokenChar : Bool := isAsciiAlphanumeric c || tokenSpecials.contains c

def isHttpToken : Bool := !value.isEmpty && value.all isHttpTokenChar

def isProhibitedFieldControl : Bool :=
  c.toNat ≤ 8 || (10 ≤ c.toNat && c.toNat ≤ 31) || c.toNat == 127

def containsProhibitedHttpFieldValueControl : Bool :=
  value.any isProhibitedFieldControl

def isProhibitedTargetControl : Bool := c.toNat ≤ 31 || c.toNat == 127

def containsProhibitedRequestTargetControl (target : Text) : Bool :=
  target.any isProhibitedTargetControl

def validateHeaderValue : Except AppError Unit :=
  if containsProhibitedHttpFieldValueControl value then
    .error (malformed "header value contains prohibited control byte")
  else .ok ()

def validateRequestLine (requestLine : Text) : Except AppError (Text × Text × Text) :=
  match splitWhitespace requestLine with
  | [] => .error (malformed "missing method")
  | [_] => .error (malformed "missing path")
  | [_, _] => .error (malformed "missing version")
  | [method, path, version] =>
    if !isHttpToken method then .error (malformed "request method is not an HTTP token")
    else if containsProhibitedRequestTargetControl path then
      .error (malformed "request target contains prohibited control byte")
    else if version != "HTTP/1.1".toList then .error (malformed "unsupported HTTP version")
    else if eqIgnoreAsciiCase method "CONNECT".toList then
      .error ⟨.httpConnectMethodRejected, "CONNECT is not supported"⟩
    else .ok (method, path, version)
  | _ => .error (malformed "request line has unexpected trailing token")

def validateHttp11HostAuthority : Except AppError Unit :=
  match (headers.filter (Header.isNamed "Host".toList)).map fun h => trim h.value with
  | [] => .error (malformed "HTTP/1.1 request requires one Host header")
  | [host] =>
    if host.isEmpty then
      .error (malformed "HTTP/1.1 request Host header is invalid or ambiguous")
    else .ok ()
  | _ => .error (malformed "HTTP/1.1 request Host header is invalid or ambiguous")

def lengthConflict : AppError :=
  ⟨.httpTransferEncodingContentLengthConflict, message⟩

def Header.isContentLength (h : Header) : Bool := h.isNamed "Content-Length".toList

def Header.isTransferEncoding (h : Header) : Bool := h.isNamed "Transfer-Encoding".toList

/-- The loop of `expected_request_body_len_from_headers`: the length found so far, and whether a
transfer encoding was seen. -/
def scanBodyHeaders : Option Nat → Bool → List Header → Except AppError (Option Nat × Bool)
  | contentLength, transferEncoding, [] => .ok (contentLength, transferEncoding)
  | contentLength, transferEncoding, h :: hs =>
    let transferEncoding :=
      transferEncoding || (h.isTransferEncoding && !(trim h.value).isEmpty)
    if h.isContentLength then
      match parseUsize (trim h.value) with
      | none => .error (malformed "invalid content length")
      | some parsed =>
        match contentLength with
        | some existing =>
          if existing ≠ parsed then .error (lengthConflict "conflicting content length headers")
          else scanBodyHeaders (some existing) transferEncoding hs
        | none => scanBodyHeaders (some parsed) transferEncoding hs
    else scanBodyHeaders contentLength transferEncoding hs

def expectedRequestBodyLenFromHeaders : Except AppError Nat :=
  match scanBodyHeaders none false headers with
  | .error e => .error e
  | .ok (contentLength, transferEncoding) =>
    if transferEncoding && contentLength.isSome then
      .error (lengthConflict "ambiguous transfer length")
    else if transferEncoding then
      .error (malformed "transfer encoding is not supported by the MVP runtime")
    else .ok (contentLength.getD 0)

/-- What the body length check accepts: every `Content-Length` gives the same length, none gives
zero, and no transfer encoding is named. -/
structure BodyLength (headers : List Header) (n : Nat) : Prop where
  transferEncoding : ∀ h ∈ headers, h.isTransferEncoding = true → trim h.value = []
  contentLength : ∀ h ∈ headers, h.isContentLength = true → parseUsize (trim h.value) = some n
  absent : (∀ h ∈ headers, h.isContentLength = false) → n = 0

variable {hs : List Header}

theorem scanBodyHeaders_ok_iff {found found' : Option Nat} {te te' : Bool} :
    scanBodyHeaders found te hs = .ok (found', te') ↔
      (te' = (te || hs.any fun h => h.isTransferEncoding && !(trim h.value).isEmpty)) ∧
      (∀ h ∈ hs, h.isContentLength = true → parseUsize (trim h.value) = found') ∧
      (∀ n ∈ found, found' = some n) ∧
      (found' = none → ∀ h ∈ hs, h.isContentLength = false) ∧
      (found = none → (∀ h ∈ hs, h.isContentLength = false) → found' = none) := by
  induction hs generalizing found te with
  | nil =>
    cases found <;> simp [scanBodyHeaders] <;> grind
  | cons h _ ih =>
    rw [scanBodyHeaders]
    by_cases hcl : h.isContentLength = true
    · cases hp : parseUsize (trim h.value) with
      | none => simp [hcl, hp]; grind
      | some => cases found <;> simp [hcl, hp] <;> grind
    · simp [hcl, ih]
      grind

theorem expectedRequestBodyLenFromHeaders_ok_iff {headers : List Header} {n : Nat} :
    expectedRequestBodyLenFromHeaders headers = .ok n ↔ BodyLength headers n := by
  unfold expectedRequestBodyLenFromHeaders
  constructor
  · intro h
    cases hscan : scanBodyHeaders none false headers with
    | error => simp [hscan] at h
    | ok result =>
      obtain ⟨found, te⟩ := result
      obtain ⟨hte, hcl, -, hnone, hsome⟩ := scanBodyHeaders_ok_iff.mp hscan
      simp only [hscan] at h
      rw [ite_error_eq_ok, ite_error_eq_ok] at h
      obtain ⟨-, hte', hn⟩ := h
      obtain rfl : te = false := by simpa using hte'
      simp only [Except.ok.injEq] at hn
      refine ⟨fun h hh hname => ?_, fun h hh hname => ?_, fun habsent => ?_⟩
      · simp only [Bool.false_or, Bool.false_eq, any_eq_false] at hte
        simpa [hname] using hte h hh
      · cases found with
        | none => simp [hnone rfl h hh] at hname
        | some m =>
          obtain rfl : m = n := hn
          exact hcl h hh hname
      · rw [hsome rfl habsent] at hn
        exact hn.symm
  · intro h
    have hte : false = (false || headers.any fun h =>
        h.isTransferEncoding && !(trim h.value).isEmpty) := by
      simp only [Bool.false_or, Bool.false_eq, any_eq_false, Bool.and_eq_true,
        Bool.not_eq_eq_eq_not, Bool.not_true, isEmpty_eq_false_iff, not_and, not_not]
      exact h.transferEncoding
    by_cases hany : ∀ h ∈ headers, h.isContentLength = false
    · have hscan : scanBodyHeaders none false headers = .ok (none, false) :=
        scanBodyHeaders_ok_iff.mpr ⟨hte, fun h hh hname => by simp [hany h hh] at hname,
          by simp, fun _ => hany, fun _ _ => rfl⟩
      simp [hscan, h.absent hany]
    · have hscan : scanBodyHeaders none false headers = .ok (some n, false) :=
        scanBodyHeaders_ok_iff.mpr ⟨hte, h.contentLength, by simp, by simp,
          fun _ h => absurd h hany⟩
      simp [hscan]

theorem validateRequestLine_ok_iff {line method path version : Text} :
    validateRequestLine line = .ok (method, path, version) ↔
      splitWhitespace line = [method, path, version] ∧ isHttpToken method = true ∧
        containsProhibitedRequestTargetControl path = false ∧ version = "HTTP/1.1".toList ∧
        eqIgnoreAsciiCase method "CONNECT".toList = false := by
  unfold validateRequestLine
  split
  · simp_all
  · simp_all
  · simp_all
  · next m p v hline =>
    simp only [ite_error_eq_ok, hline, cons.injEq, and_true, Except.ok.injEq, Prod.mk.injEq]
    constructor
    · rintro ⟨hm, hp, hv, hc, rfl, rfl, rfl⟩
      simp_all
    · rintro ⟨⟨rfl, rfl, rfl⟩, hm, hp, hv, hc⟩
      simp_all
  · next h =>
    simp only [reduceCtorEq, false_iff, not_and]
    intro hline
    exact absurd hline (h _ _ _)

theorem validateHttp11HostAuthority_ok_iff {headers : List Header} :
    validateHttp11HostAuthority headers = .ok () ↔
      ∃ h, headers.filter (Header.isNamed "Host".toList) = [h] ∧ trim h.value ≠ [] := by
  unfold validateHttp11HostAuthority
  match hf : headers.filter (Header.isNamed "Host".toList) with
  | [] => simp
  | [h] => simp
  | _ :: _ :: _ => simp

def parseHeaderLine (line : Text) : Except AppError Header :=
  match splitOnce ':' line with
  | none => .error (malformed "malformed header")
  | some (name, value) =>
    if !isHttpToken name then .error (malformed "header name is invalid")
    else
      match validateHeaderValue value with
      | .error e => .error e
      | .ok () => .ok ⟨trim name, trim value⟩

/-- A header as the parser leaves it: it can be written on a line and read back. -/
structure Header.WellFormed (h : Header) : Prop where
  name_token : isHttpToken h.name = true
  value_trimmed : Trimmed h.value
  value_controls : containsProhibitedHttpFieldValueControl h.value = false

/-- The line of a header, as every serializer of the program writes it. -/
def Header.line (h : Header) : Text := h.name ++ ':' :: ' ' :: h.value

theorem isHttpTokenChar_spec {c : Char} (h : isHttpTokenChar c = true) :
    isWhitespace c = false ∧ c ≠ ':' ∧ c ≠ '\r' := by
  simp only [isHttpTokenChar, Bool.or_eq_true, contains_iff_mem] at h
  rcases h with h | h
  · refine ⟨(not_isWhitespace_of_isAsciiAlphanumeric h).1, ?_, ?_⟩ <;> rintro rfl <;>
      exact absurd h (by decide)
  · have hall : ∀ c ∈ tokenSpecials, isWhitespace c = false ∧ c ≠ ':' ∧ c ≠ '\r' := by decide
    exact hall c h

variable {t : Text}

theorem isHttpToken_mem (h : isHttpToken t = true) :
    t ≠ [] ∧ ∀ c ∈ t, isWhitespace c = false ∧ c ≠ ':' ∧ c ≠ '\r' := by
  simp only [isHttpToken, Bool.and_eq_true, all_eq_true] at h
  exact ⟨by simpa using h.1, fun c hc => isHttpTokenChar_spec (h.2 c hc)⟩

theorem trim_of_isHttpToken (h : isHttpToken t = true) : trim t = t :=
  (trimmed_of_forall fun c hc => ((isHttpToken_mem h).2 c hc).1).trim_eq

theorem notMem_cr_of_controls (h : containsProhibitedHttpFieldValueControl t = false) :
    '\r' ∉ t := by
  intro hc
  simp only [containsProhibitedHttpFieldValueControl, any_eq_false] at h
  exact h _ hc (by decide)

variable {h : Header}

theorem parseHeaderLine_ok {line : Text} (hp : parseHeaderLine line = .ok h) :
    ∃ name value, splitOnce ':' line = some (name, value) ∧ isHttpToken name = true ∧
      containsProhibitedHttpFieldValueControl value = false ∧ h = ⟨name, trim value⟩ := by
  unfold parseHeaderLine validateHeaderValue at hp
  split at hp
  · cases hp
  · next name value hsplit =>
    rw [ite_error_eq_ok] at hp
    obtain ⟨hname, hp⟩ := hp
    simp only [Bool.not_eq_true, Bool.not_eq_false'] at hname
    split_ifs at hp with hvalue
    cases hp
    exact ⟨name, value, hsplit, hname, by simpa using hvalue, by rw [trim_of_isHttpToken hname]⟩

theorem parseHeaderLine_wellFormed {line : Text} (hp : parseHeaderLine line = .ok h) :
    h.WellFormed := by
  obtain ⟨_, value, -, hname, hvalue, rfl⟩ := parseHeaderLine_ok hp
  refine ⟨hname, trimmed_trim value, ?_⟩
  simp only [containsProhibitedHttpFieldValueControl, any_eq_false] at hvalue ⊢
  exact fun c hc => hvalue c (mem_of_mem_trim hc)

theorem parseHeaderLine_line (hw : h.WellFormed) : parseHeaderLine h.line = .ok h := by
  have hcolon : ':' ∉ h.name := fun hc => ((isHttpToken_mem hw.name_token).2 _ hc).2.1 rfl
  have hvalue : validateHeaderValue (' ' :: h.value) = .ok () := by
    have := hw.value_controls
    simp only [containsProhibitedHttpFieldValueControl] at this
    simp [validateHeaderValue, containsProhibitedHttpFieldValueControl, this,
      show isProhibitedFieldControl ' ' = false by decide]
  unfold parseHeaderLine
  rw [Header.line, splitOnce_append _ hcolon]
  simp [hw.name_token, hvalue, trim_of_isHttpToken hw.name_token, trim_blank_cons,
    hw.value_trimmed.trim_eq]

theorem Header.WellFormed.line_spec (hw : h.WellFormed) : h.line ≠ [] ∧ '\r' ∉ h.line := by
  refine ⟨by simp [Header.line], ?_⟩
  simp only [Header.line, mem_append, mem_cons, not_or]
  exact ⟨fun hc => ((isHttpToken_mem hw.name_token).2 _ hc).2.2 rfl, by decide, by decide,
    notMem_cr_of_controls hw.value_controls⟩

/-- The header loop of `parse_http_request`, after `count` headers. -/
def parseHeaderLines (maxHeaderCount : Nat) : Nat → List Text → Except AppError (List Header)
  | _, [] => .ok []
  | count, line :: lines =>
    if count ≥ maxHeaderCount then .error ⟨.httpHeaderTooLarge, "too many headers"⟩
    else
      match parseHeaderLine line with
      | .error e => .error e
      | .ok header => (parseHeaderLines maxHeaderCount (count + 1) lines).map (header :: ·)

variable {maxHeaderCount count : Nat}

theorem parseHeaderLines_cons_ok {line : Text} {lines : List Text}
    (hp : parseHeaderLines maxHeaderCount count (line :: lines) = .ok hs) :
    ∃ h rest, parseHeaderLine line = .ok h ∧
      parseHeaderLines maxHeaderCount (count + 1) lines = .ok rest ∧ hs = h :: rest := by
  rw [parseHeaderLines, ite_error_eq_ok] at hp
  cases hline : parseHeaderLine line with
  | error => simp [hline] at hp
  | ok h =>
    simp only [hline, map_eq_ok] at hp
    obtain ⟨-, rest, hrest, rfl⟩ := hp
    exact ⟨h, rest, rfl, hrest, rfl⟩

theorem parseHeaderLines_wellFormed {lines : List Text}
    (hp : parseHeaderLines maxHeaderCount count lines = .ok hs) : ∀ h ∈ hs, h.WellFormed := by
  induction lines generalizing count hs with
  | nil =>
    obtain rfl : [] = hs := by simpa [parseHeaderLines] using hp
    simp
  | cons _ _ ih =>
    obtain ⟨_, _, hline, hrest, rfl⟩ := parseHeaderLines_cons_ok hp
    exact forall_mem_cons.mpr ⟨parseHeaderLine_wellFormed hline, ih hrest⟩

theorem parseHeaderLines_lines
    (hw : ∀ h ∈ hs, h.WellFormed) (hcount : count + hs.length ≤ maxHeaderCount) :
    parseHeaderLines maxHeaderCount count (hs.map Header.line) = .ok hs := by
  induction hs generalizing count with
  | nil => simp [parseHeaderLines]
  | cons h _ ih =>
    simp only [length_cons] at hcount
    rw [map_cons, parseHeaderLines, if_neg (by omega), parseHeaderLine_line (hw h (by simp)),
      ih (fun h hh => hw h (by simp [hh])) (by omega)]
    rfl

/-- The checks on the header text, once the body has been cut off. -/
def parseHeaderText (headerText : Text) (body : Bytes) (limits : HttpLimits) :
    Except AppError HttpRequest :=
  match splitCrlf headerText with
  | [] => .error (malformed "missing request line")
  | requestLine :: lines =>
    if byteLen requestLine > limits.maxRequestLineBytes then
      .error ⟨.httpRequestLineTooLarge, "request line exceeds limit"⟩
    else do
      let (method, path, version) ← validateRequestLine requestLine
      let headers ← parseHeaderLines limits.maxHeaderCount 0 lines
      validateHttp11HostAuthority headers
      let expectedBodyLen ← expectedRequestBodyLenFromHeaders headers
      if expectedBodyLen > limits.maxBodyBytes then
        .error ⟨.httpRequestBodyTooLarge, "body exceeds limit"⟩
      else if body.length ≠ expectedBodyLen then
        .error (malformed "content length does not match body")
      else .ok { method, path, version, headers, body }

def parseHttpRequest (input : Bytes) (limits : HttpLimits) : Except AppError HttpRequest :=
  match splitHeaderEnd input with
  | none => .error (malformed "missing header end")
  | some (headerBytes, body) =>
    if headerBytes.length > limits.maxHeaderBytes then
      .error ⟨.httpHeaderTooLarge, "headers exceed limit"⟩
    else if body.length > limits.maxBodyBytes then
      .error ⟨.httpRequestBodyTooLarge, "body exceeds limit"⟩
    else
      match decode headerBytes with
      | none => .error (malformed "headers are not UTF-8")
      | some headerText => parseHeaderText headerText body limits

theorem parseHeaderText_ok_iff {headerText : Text} {body : Bytes} {limits : HttpLimits}
    {r : HttpRequest} :
    parseHeaderText headerText body limits = .ok r ↔
      ∃ requestLine lines, splitCrlf headerText = requestLine :: lines ∧
        byteLen requestLine ≤ limits.maxRequestLineBytes ∧
        validateRequestLine requestLine = .ok (r.method, r.path, r.version) ∧
        parseHeaderLines limits.maxHeaderCount 0 lines = .ok r.headers ∧
        validateHttp11HostAuthority r.headers = .ok () ∧
        BodyLength r.headers body.length ∧ body.length ≤ limits.maxBodyBytes ∧ r.body = body := by
  unfold parseHeaderText
  split
  · simp_all
  · next requestLine lines hsplit =>
    simp only [hsplit, ite_error_eq_ok, bind_eq_ok, ← expectedRequestBodyLenFromHeaders_ok_iff,
      not_lt, ne_eq, not_not, cons.injEq, Except.ok.injEq]
    constructor
    · rintro ⟨hline, ⟨_, _, _⟩, hvalid, hs, hhs, ⟨⟩, hhost, _, hn, hmax, rfl, rfl⟩
      exact ⟨_, _, ⟨rfl, rfl⟩, hline, hvalid, hhs, hhost, hn, hmax, rfl⟩
    · rintro ⟨_, _, ⟨rfl, rfl⟩, hline, hvalid, hhs, hhost, hn, hmax, rfl⟩
      exact ⟨hline, _, hvalid, _, hhs, _, hhost, _, hn, hmax, rfl, rfl⟩

theorem parseHttpRequest_ok_iff {input : Bytes} {limits : HttpLimits} {r : HttpRequest} :
    parseHttpRequest input limits = .ok r ↔
      ∃ headerBytes headerText, splitHeaderEnd input = some (headerBytes, r.body) ∧
        headerBytes.length ≤ limits.maxHeaderBytes ∧ r.body.length ≤ limits.maxBodyBytes ∧
        decode headerBytes = some headerText ∧
        parseHeaderText headerText r.body limits = .ok r := by
  unfold parseHttpRequest
  split
  · simp_all
  · next headerBytes body hsplit =>
    simp only [hsplit, ite_error_eq_ok, not_lt, Option.some.injEq, Prod.mk.injEq]
    constructor
    · rintro ⟨hlen, hbody, h⟩
      split at h
      · cases h
      · next headerText hdecode =>
        obtain ⟨_, _, _, _, _, _, _, _, _, hr⟩ := parseHeaderText_ok_iff.mp h
        subst hr
        exact ⟨_, _, ⟨rfl, rfl⟩, hlen, hbody, hdecode, h⟩
    · rintro ⟨_, headerText, ⟨rfl, rfl⟩, hlen, hbody, hdecode, h⟩
      exact ⟨hlen, hbody, by simpa [hdecode] using h⟩

example : (parseHttpRequest (encode "GET / HTTP/1.1\r\nHost: a\r\n\r\n".toList) {}).toOption =
    some ⟨"GET".toList, "/".toList, "HTTP/1.1".toList, [⟨"Host".toList, "a".toList⟩], []⟩ := by
  decide

/-- The header lines as the request buffer reads them: it checks the values only. -/
def readHeaderLines : List Text → Except AppError (List Header)
  | [] => .ok []
  | line :: lines =>
    if line.isEmpty then readHeaderLines lines
    else
      match splitOnce ':' line with
      | none => .error (malformed "malformed header")
      | some (name, value) => do
        validateHeaderValue value
        return ⟨trim name, trim value⟩ :: (← readHeaderLines lines)

def expectedRequestBodyLenFromHeaderBytes (headerBytes : Bytes) : Except AppError Nat :=
  match decode headerBytes with
  | none => .error (malformed "headers are not UTF-8")
  | some text =>
    match splitCrlf text with
    | [] => .error (malformed "missing request line")
    | requestLine :: lines => do
      let _ ← validateRequestLine requestLine
      let headers ← readHeaderLines lines
      expectedRequestBodyLenFromHeaders headers

inductive RequestReadOutcome where
  | incomplete
  | complete (bytes : Bytes)

structure ClientRequestBuffer where
  bytes : Bytes := []
  headerEnd : Option Nat := none

def headerEndOf (bytes : Bytes) : Option Nat :=
  (splitHeaderEnd bytes).map fun (headerBytes, _) => headerBytes.length + 4

def ClientRequestBuffer.push (b : ClientRequestBuffer) (chunk : Bytes) (limits : HttpLimits) :
    Except AppError RequestReadOutcome × ClientRequestBuffer :=
  let bytes := b.bytes ++ chunk
  match b.headerEnd.or (headerEndOf bytes) with
  | none =>
    if bytes.length > limits.maxHeaderBytes then
      (.error ⟨.httpHeaderTooLarge, "headers exceed limit"⟩, { bytes, headerEnd := none })
    else (.ok .incomplete, { bytes, headerEnd := none })
  | some headerEnd =>
    let b := { bytes, headerEnd := some headerEnd }
    if headerEnd - 4 > limits.maxHeaderBytes then
      (.error ⟨.httpHeaderTooLarge, "headers exceed limit"⟩, b)
    else
      match expectedRequestBodyLenFromHeaderBytes (bytes.take (headerEnd - 4)) with
      | .error e => (.error e, b)
      | .ok expectedBodyLen =>
        if expectedBodyLen > limits.maxBodyBytes then
          (.error ⟨.httpRequestBodyTooLarge, "body exceeds limit"⟩, b)
        else if bytes.length > (headerEnd + limits.maxBodyBytes) % usizeBound then
          (.error ⟨.httpRequestBodyTooLarge, "request exceeds configured body limit"⟩, b)
        else if bytes.length ≥ (headerEnd + expectedBodyLen) % usizeBound then
          (.ok (.complete bytes), {})
        else (.ok .incomplete, b)

end EdgeProxy

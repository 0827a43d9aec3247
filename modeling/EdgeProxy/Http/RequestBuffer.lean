import EdgeProxy.Http.RequestGrammar

/-! # Requests cut into reads

The request buffer collects reads until a request is complete. It applies the header limit to
whatever has arrived before the header end, so a head just below the limit is refused if a read
ends inside its final empty line. It reads the head less strictly than the parser, which knows two
more limits and checks the names and the `Host` field. Apart from that the buffer gives the verdict
of the parser however the request is cut.
-/

namespace EdgeProxy

open Rust List ClientRequestBuffer

/-- The reads, until the buffer refuses one or holds a complete request. -/
def ClientRequestBuffer.outcome (limits : HttpLimits) (b : ClientRequestBuffer) :
    List Bytes → Option (Except AppError Bytes)
  | [] => none
  | chunk :: chunks =>
    match b.push chunk limits with
    | (.error e, _) => some (.error e)
    | (.ok (.complete bytes), _) => some (.ok bytes)
    | (.ok .incomplete, b) => ClientRequestBuffer.outcome limits b chunks

/-- One request: a head up to the first empty line, and the body of the length that the head
announces. A head without a readable length may be followed by anything. -/
structure OneRequest (input head body : Bytes) : Prop where
  split : splitHeaderEnd input = some (head, body)
  length : ∀ n, expectedRequestBodyLenFromHeaderBytes head = .ok n → body.length = n

/-- The parser has no reason of its own to refuse a line (too many of them, or a name that is not a
token) before one that the buffer refuses too. -/
def linesAgree (maxHeaderCount : ℕ) : ℕ → List Text → Bool
  | _, [] => true
  | count, line :: lines => count < maxHeaderCount &&
      match splitOnce ':' line with
      | none => true
      | some (name, value) => isHttpToken name &&
          (containsProhibitedHttpFieldValueControl value ||
            linesAgree maxHeaderCount (count + 1) lines)

/-- The parser has no reason of its own to refuse the head before one that the buffer has too. -/
structure HeadAgrees (limits : HttpLimits) (requestLine : Text) (lines : List Text) : Prop where
  line : byteLen requestLine ≤ limits.maxRequestLineBytes
  fields : (validateRequestLine requestLine).isOk = true →
    linesAgree limits.maxHeaderCount 0 lines = true
  host : (validateRequestLine requestLine).isOk = true → ∀ headers,
    readHeaderLines lines = .ok headers →
      ∃ h, headers.filter (Header.isNamed "Host".toList) = [h] ∧ trim h.value ≠ []

def Agreeing (limits : HttpLimits) (input : Bytes) : Prop :=
  ∀ requestLine lines, splitRequestHead input = some (requestLine, lines) →
    HeadAgrees limits requestLine lines

/-- Below the header limit: if the head announces a length, it is over the body limit, or the limit
can be added to the length of the head and the parser agrees on the head; if it announces none, the
parser agrees on that and what follows is not over the limit. -/
def VerdictsAgree (limits : HttpLimits) (input head body : Bytes) : Prop :=
  match expectedRequestBodyLenFromHeaderBytes head with
  | .ok n => limits.maxBodyBytes < n ∨
      head.length + 4 + limits.maxBodyBytes < usizeBound ∧ Agreeing limits input
  | .error _ => body.length ≤ limits.maxBodyBytes ∧ Agreeing limits input

def headersExceedLimit : AppError := ⟨.httpHeaderTooLarge, "headers exceed limit"⟩

def bodyExceedsLimit : AppError := ⟨.httpRequestBodyTooLarge, "body exceeds limit"⟩

def requestExceedsLimit : AppError :=
  ⟨.httpRequestBodyTooLarge, "request exceeds configured body limit"⟩

/-- The errors of the checks that only the parser makes. -/
def parserErrors : List AppError :=
  [⟨.httpRequestLineTooLarge, "request line exceeds limit"⟩,
    ⟨.httpHeaderTooLarge, "too many headers"⟩, malformed "header name is invalid",
    malformed "HTTP/1.1 request requires one Host header",
    malformed "HTTP/1.1 request Host header is invalid or ambiguous"]

section Head

/-- The errors that the head check of the buffer does not raise. -/
def foreignErrors : List AppError :=
  headersExceedLimit :: bodyExceedsLimit :: requestExceedsLimit :: parserErrors

def RaisesOwn {α : Type} (x : Except AppError α) : Prop := ∀ e, x = .error e → e ∉ foreignErrors

theorem RaisesOwn.error {α : Type} {e : AppError} (h : e ∉ foreignErrors) :
    RaisesOwn (.error e : Except AppError α) := by
  rintro _ ⟨⟩
  exact h

theorem RaisesOwn.ok {α : Type} (a : α) : RaisesOwn (.ok a) := nofun

theorem RaisesOwn.bind {α β : Type} {x : Except AppError α} {f : α → Except AppError β}
    (hx : RaisesOwn x) (hf : ∀ a, RaisesOwn (f a)) : RaisesOwn (x >>= f) := by
  cases x with
  | error e => exact .error (hx e rfl)
  | ok a => exact hf a

theorem validateRequestLine_raisesOwn (line : Text) : RaisesOwn (validateRequestLine line) := by
  unfold validateRequestLine
  split
  · exact .error (by decide)
  · exact .error (by decide)
  · exact .error (by decide)
  · split_ifs
    · exact .error (by decide)
    · exact .error (by decide)
    · exact .error (by decide)
    · exact .error (by decide)
    · exact .ok _
  · exact .error (by decide)

theorem validateHeaderValue_raisesOwn (value : Text) : RaisesOwn (validateHeaderValue value) := by
  unfold validateHeaderValue
  split
  · exact .error (by decide)
  · exact .ok _

theorem readHeaderLines_raisesOwn (lines : List Text) : RaisesOwn (readHeaderLines lines) := by
  induction lines with
  | nil => exact .ok _
  | cons line lines ih =>
    rw [readHeaderLines]
    split
    · exact ih
    · split
      · exact .error (by decide)
      · exact (validateHeaderValue_raisesOwn _).bind fun _ => ih.bind fun _ => .ok _

theorem scanBodyHeaders_raisesOwn (found : Option ℕ) (te : Bool) (headers : List Header) :
    RaisesOwn (scanBodyHeaders found te headers) := by
  fun_induction scanBodyHeaders found te headers with
  | case1 => exact .ok _
  | case2 => exact .error (by decide)
  | case3 => exact .error (by decide)
  | case4 _ _ _ _ _ _ _ _ _ ih => exact ih
  | case5 _ _ _ _ _ _ _ ih => exact ih
  | case6 _ _ _ _ _ _ ih => exact ih

theorem expectedRequestBodyLenFromHeaders_raisesOwn (headers : List Header) :
    RaisesOwn (expectedRequestBodyLenFromHeaders headers) := by
  unfold expectedRequestBodyLenFromHeaders
  split
  · next hscan => exact .error (scanBodyHeaders_raisesOwn _ _ _ _ hscan)
  · split_ifs
    · exact .error (by decide)
    · exact .error (by decide)
    · exact .ok _

theorem expectedRequestBodyLen_raisesOwn (head : Bytes) :
    RaisesOwn (expectedRequestBodyLenFromHeaderBytes head) := by
  unfold expectedRequestBodyLenFromHeaderBytes
  split
  · exact .error (by decide)
  · split
    · exact .error (by decide)
    · exact (validateRequestLine_raisesOwn _).bind fun _ =>
        (readHeaderLines_raisesOwn _).bind expectedRequestBodyLenFromHeaders_raisesOwn

end Head

section Parser

variable {max count : ℕ} {lines : List Text} {limits : HttpLimits}

theorem parseHeaderLines_of_agree (hne : ∀ line ∈ lines, line ≠ [])
    (h : linesAgree max count lines = true) :
    parseHeaderLines max count lines = readHeaderLines lines := by
  induction lines generalizing count with
  | nil => rfl
  | cons line lines ih =>
    obtain ⟨hline, hlines⟩ := forall_mem_cons.mp hne
    rw [linesAgree, Bool.and_eq_true, decide_eq_true_eq] at h
    obtain ⟨hcount, h⟩ := h
    rw [parseHeaderLines, if_neg (Nat.not_le.mpr hcount), parseHeaderLine, readHeaderLines,
      if_neg (by simpa using hline)]
    cases hsplit : splitOnce ':' line with
    | none => rfl
    | some field =>
      obtain ⟨name, value⟩ := field
      simp only [hsplit, Bool.and_eq_true] at h
      obtain ⟨hname, hrest⟩ := h
      simp only [hname, validateHeaderValue, Bool.not_true, Bool.false_eq_true, if_false]
      cases hvalue : containsProhibitedHttpFieldValueControl value with
      | true => rfl
      | false =>
        rw [hvalue, Bool.false_or] at hrest
        simp only [Bool.false_eq_true, if_false, ih hlines hrest]
        cases readHeaderLines lines <;> rfl

theorem parseHeaderLines_of_not_agree (h : linesAgree max count lines = false) :
    ∃ e ∈ parserErrors, parseHeaderLines max count lines = .error e := by
  induction lines generalizing count with
  | nil => cases h
  | cons line lines ih =>
    rw [parseHeaderLines]
    by_cases hcount : count < max
    · rw [if_neg (Nat.not_le.mpr hcount), parseHeaderLine]
      cases hsplit : splitOnce ':' line with
      | none => simp [linesAgree, hcount, hsplit] at h
      | some field =>
        obtain ⟨name, value⟩ := field
        cases hname : isHttpToken name with
        | false =>
          refine ⟨malformed "header name is invalid", by decide, ?_⟩
          simp [hname]
        | true =>
          simp only [linesAgree, hcount, hsplit, hname, decide_true, Bool.true_and,
            Bool.or_eq_false_iff] at h
          obtain ⟨e, hown, he⟩ := ih h.2
          refine ⟨e, hown, ?_⟩
          simp only [hname, validateHeaderValue, h.1, he, Bool.not_true, Bool.false_eq_true,
            if_false]
          rfl
    · rw [if_pos (Nat.not_lt.mp hcount)]
      exact ⟨_, by decide, rfl⟩

theorem validateHttp11HostAuthority_error {headers : List Header}
    (h : ¬ ∃ h, headers.filter (Header.isNamed "Host".toList) = [h] ∧ trim h.value ≠ []) :
    ∃ e ∈ parserErrors, validateHttp11HostAuthority headers = .error e := by
  rw [← validateHttp11HostAuthority_ok_iff, validateHttp11HostAuthority] at h
  rw [validateHttp11HostAuthority]
  split at h
  · exact ⟨_, by decide, rfl⟩
  · split_ifs at h ⊢
    · exact ⟨_, by decide, rfl⟩
    · exact absurd rfl h
  · exact ⟨_, by decide, rfl⟩

variable {text requestLine : Text} {body : Bytes} (hlines : splitCrlf text = requestLine :: lines)

include hlines

theorem HeadAgrees.parseHeaderText_eq (h : HeadAgrees limits requestLine lines)
    (hne : ∀ line ∈ lines, line ≠ []) (hroom : body.length ≤ limits.maxBodyBytes)
    (hlength : ∀ n, expectedRequestBodyLenFromHeaderBytes (encode text) = .ok n →
      body.length = n) (input : Bytes) :
    ((parseHeaderText text body limits).map fun _ => input) =
      (expectedRequestBodyLenFromHeaderBytes (encode text)).map fun _ => input := by
  rw [expectedRequestBodyLenFromHeaderBytes, decode_encode] at hlength ⊢
  rw [parseHeaderText, hlines]
  simp only [hlines, if_neg (Nat.not_lt.mpr h.line)] at hlength ⊢
  cases hline : validateRequestLine requestLine with
  | error => rfl
  | ok parts =>
    have hok : (validateRequestLine requestLine).isOk = true := by rw [hline]; rfl
    rw [hline] at hlength
    simp only [ok_bind, parseHeaderLines_of_agree hne (h.fields hok)] at hlength ⊢
    cases hread : readHeaderLines lines with
    | error => rfl
    | ok headers =>
      rw [hread] at hlength
      have hhost := validateHttp11HostAuthority_ok_iff.mpr (h.host hok headers hread)
      simp only [ok_bind, hhost] at hlength ⊢
      cases hexpected : expectedRequestBodyLenFromHeaders headers with
      | error => rfl
      | ok n =>
        obtain rfl := hlength n hexpected
        simp only [ok_bind, if_neg (Nat.not_lt.mpr hroom), ne_eq, not_true_eq_false, if_false]
        rfl

theorem parseHeaderText_of_not_agree (h : ¬ HeadAgrees limits requestLine lines)
    (hne : ∀ line ∈ lines, line ≠ []) (body : Bytes) :
    ∃ e ∈ parserErrors, parseHeaderText text body limits = .error e := by
  rw [parseHeaderText, hlines]
  dsimp only
  by_cases hlong : byteLen requestLine > limits.maxRequestLineBytes
  · rw [if_pos hlong]
    exact ⟨_, by decide, rfl⟩
  · rw [if_neg hlong]
    cases hline : validateRequestLine requestLine with
    | error =>
      have hok : (validateRequestLine requestLine).isOk ≠ true := by
        rw [hline]
        exact Bool.false_ne_true
      exact absurd ⟨Nat.not_lt.mp hlong, fun h => absurd h hok, fun h => absurd h hok⟩ h
    | ok parts =>
      rw [ok_bind]
      cases hagree : linesAgree limits.maxHeaderCount 0 lines with
      | true =>
        rw [parseHeaderLines_of_agree hne hagree]
        by_cases hhost : ∀ headers, readHeaderLines lines = .ok headers →
            ∃ h, headers.filter (Header.isNamed "Host".toList) = [h] ∧ trim h.value ≠ []
        · exact absurd ⟨Nat.not_lt.mp hlong, fun _ => hagree, fun _ => hhost⟩ h
        · obtain ⟨headers, hread, hhost⟩ := by simpa only [not_forall] using hhost
          obtain ⟨e, hown, he⟩ := validateHttp11HostAuthority_error hhost
          exact ⟨e, hown, by rw [hread, ok_bind, he]; rfl⟩
      | false =>
        obtain ⟨e, hown, he⟩ := parseHeaderLines_of_not_agree hagree
        exact ⟨e, hown, by rw [he]; rfl⟩

end Parser

section Request

variable {input head body : Bytes} {limits : HttpLimits} (hone : OneRequest input head body)

include hone

theorem OneRequest.eq : input = head ++ (emptyLine ++ body) :=
  (splitHeaderEnd_eq_some_iff.mp hone.split).1

theorem OneRequest.length_eq : input.length = head.length + 4 + body.length := by
  rw [hone.eq]
  simp only [length_append, length_cons, length_nil]
  omega

theorem OneRequest.lines_ne_nil {text requestLine : Text} {lines : List Text}
    (hdecode : decode head = some text) (hlines : splitCrlf text = requestLine :: lines) :
    ∀ line ∈ lines, line ≠ [] := by
  rintro _ hmem rfl
  -- an empty line would end the head earlier
  obtain ⟨a, b, hinfix⟩ := infix_of_nil_mem_tail_splitPair (a := '\r') (b := '\n') (t := text)
    (by rw [← splitCrlf, hlines]; exact hmem)
  have hbytes := congrArg encode hinfix
  simp only [encode_append, encode_of_decode hdecode] at hbytes
  have hcrlf : head ++ [13, 10] <+: head ++ [13, 10, 13] := ⟨[13], by simp⟩
  refine (splitHeaderEnd_eq_some_iff.mp hone.split).2 (IsInfix.trans ?_ hcrlf.isInfix)
  exact ⟨encode a, encode b, hbytes⟩

theorem OneRequest.parse_of_agreeing (h : Agreeing limits input)
    (hhead : head.length ≤ limits.maxHeaderBytes) (hroom : body.length ≤ limits.maxBodyBytes) :
    ((parseHttpRequest input limits).map fun _ => input) =
      (expectedRequestBodyLenFromHeaderBytes head).map fun _ => input := by
  rw [parseHttpRequest, hone.split]
  simp only [if_neg (Nat.not_lt.mpr hhead), if_neg (Nat.not_lt.mpr hroom)]
  cases hdecode : decode head with
  | none =>
    rw [expectedRequestBodyLenFromHeaderBytes, hdecode]
    rfl
  | some text =>
    obtain ⟨requestLine, lines, hlines⟩ : ∃ l ls, splitCrlf text = l :: ls :=
      exists_cons_of_ne_nil (splitPair_ne_nil text)
    have hsplit : splitRequestHead input = some (requestLine, lines) := by
      rw [splitRequestHead, hone.split]
      simp only [hdecode, Option.map_some, hlines]
    have hlength := hone.length
    rw [← encode_of_decode hdecode] at hlength ⊢
    exact (h _ _ hsplit).parseHeaderText_eq hlines (hone.lines_ne_nil hdecode hlines) hroom
      hlength input

theorem OneRequest.parse_of_not_agreeing (h : ¬ Agreeing limits input)
    (hhead : head.length ≤ limits.maxHeaderBytes) (hroom : body.length ≤ limits.maxBodyBytes) :
    ∃ e ∈ parserErrors, parseHttpRequest input limits = .error e := by
  simp only [Agreeing, not_forall] at h
  obtain ⟨requestLine, lines, hsplit, h⟩ := h
  rw [splitRequestHead, hone.split] at hsplit
  rw [parseHttpRequest, hone.split]
  simp only [if_neg (Nat.not_lt.mpr hhead), if_neg (Nat.not_lt.mpr hroom)]
  cases hdecode : decode head with
  | none => simp [hdecode] at hsplit
  | some text =>
    obtain ⟨l, ls, hlines⟩ : ∃ l ls, splitCrlf text = l :: ls :=
      exists_cons_of_ne_nil (splitPair_ne_nil text)
    simp only [hdecode, Option.map_some, hlines, Option.some.injEq, Prod.mk.injEq] at hsplit
    obtain ⟨rfl, rfl⟩ := hsplit
    exact parseHeaderText_of_not_agree hlines h (hone.lines_ne_nil hdecode hlines) body

end Request

section Buffer

variable {input head body : Bytes} {limits : HttpLimits}

/-- The verdict of the buffer on a request that is not refused inside its empty line. -/
def bufferVerdict (input head : Bytes) (limits : HttpLimits) : Except AppError Bytes :=
  if head.length > limits.maxHeaderBytes then .error headersExceedLimit
  else
    match expectedRequestBodyLenFromHeaderBytes head with
    | .error e => .error e
    | .ok n =>
      if n > limits.maxBodyBytes then .error bodyExceedsLimit
      else if usizeBound ≤ head.length + 4 + limits.maxBodyBytes then .error requestExceedsLimit
      else .ok input

theorem headerEndOf_take (h : splitHeaderEnd input = some (head, body)) (q : ℕ) :
    headerEndOf (input.take q) = if head.length + 4 ≤ q then some (head.length + 4) else none := by
  obtain ⟨rfl, hno⟩ := splitHeaderEnd_eq_some_iff.mp h
  split
  · next hq =>
    have htake : (head ++ (emptyLine ++ body)).take q =
        head ++ (emptyLine ++ body.take (q - (head.length + 4))) := by
      rw [← append_assoc, ← append_assoc, take_append,
        take_of_length_le (by rw [length_append]; exact hq), length_append]
      rfl
    rw [headerEndOf, htake, splitHeaderEnd_eq_some_iff.mpr ⟨rfl, hno⟩]
    rfl
  · next hq =>
    have hshort : (head ++ (emptyLine ++ body)).take q <+: head ++ [13, 10, 13] := by
      refine prefix_of_prefix_length_le ( take_prefix q _) (prefix_emptyLine head body) ?_
      simp only [length_take, length_append, length_cons, length_nil]
      omega
    rw [headerEndOf, splitHeaderEnd_eq_none_iff.mpr fun hi => hno (hi.trans hshort.isInfix)]
    rfl

/-- A sum that wraps around is below each of the terms. -/
theorem add_mod_lt_of_wraps {a m : ℕ} (hm : m < usizeBound) (h : usizeBound ≤ a + m) :
    (a + m) % usizeBound < a := by
  unfold usizeBound at *
  omega

def bufferAt (input : Bytes) (p : ℕ) : ClientRequestBuffer :=
  ⟨input.take p, headerEndOf (input.take p)⟩

section Push

variable (hone : OneRequest input head body) (hlimits : limits.maxBodyBytes < usizeBound)

include hone hlimits

theorem push_bufferAt {p q : ℕ} {chunk : Bytes} (hpq : p ≤ q)
    (hchunk : input.take p ++ chunk = input.take q) :
    (bufferAt input p).push chunk limits =
      if head.length + 4 ≤ q then
        match bufferVerdict input head limits with
        | .error e => (.error e, bufferAt input q)
        | .ok _ =>
          if input.length ≤ q then (.ok (.complete input), {})
          else (.ok .incomplete, bufferAt input q)
      else if q > limits.maxHeaderBytes then (.error headersExceedLimit, bufferAt input q)
      else (.ok .incomplete, bufferAt input q) := by
  have hlength := hone.length_eq
  have hlate : (headerEndOf (input.take p)).or (headerEndOf (input.take q)) =
      headerEndOf (input.take q) := by
    rw [headerEndOf_take hone.split, headerEndOf_take hone.split]
    split
    · next hp => rw [if_pos (hp.trans hpq)]; rfl
    · rfl
  unfold push bufferAt bufferVerdict
  dsimp only
  rw [hchunk, hlate, headerEndOf_take hone.split]
  by_cases hq : head.length + 4 ≤ q
  · have hbytes : (input.take q).take head.length = head := by
      rw [take_take, Nat.min_eq_left (by omega), hone.eq, take_left]
    rw [if_pos hq, if_pos hq]
    dsimp only
    rw [Nat.add_sub_cancel, hbytes]
    split
    · rfl
    · cases hexpected : expectedRequestBodyLenFromHeaderBytes head with
      | error => rfl
      | ok n =>
        have hn := hone.length n hexpected
        dsimp only
        split
        · rfl
        · next hroom =>
          have htaken : (input.take q).length = min q input.length := length_take
          rw [htaken]
          by_cases hwrap : usizeBound ≤ head.length + 4 + limits.maxBodyBytes
          · have hsmall := add_mod_lt_of_wraps hlimits hwrap
            rw [if_pos hwrap, if_pos (by omega)]
            rfl
          · rw [if_neg hwrap, Nat.mod_eq_of_lt (by omega), Nat.mod_eq_of_lt (by omega),
              if_neg (by omega)]
            by_cases hdone : input.length ≤ q
            · rw [if_pos (by omega), if_pos hdone, take_of_length_le hdone]
            · rw [if_neg (by omega), if_neg hdone]
  · rw [if_neg hq, if_neg hq]
    have hlen : (input.take q).length = q := length_take_of_le (by omega)
    rw [hlen]
    rfl

theorem outcome_bufferAt (hhead : limits.maxHeaderBytes < head.length ∨
      head.length + 3 ≤ limits.maxHeaderBytes) {reads : List Bytes} {p : ℕ}
    (hp : p < input.length) (hreads : reads.flatten = input.drop p) :
    (bufferAt input p).outcome limits reads = some (bufferVerdict input head limits) := by
  induction reads generalizing p with
  | nil =>
    have hnil := congrArg length hreads
    rw [length_drop, flatten_nil, length_nil] at hnil
    omega
  | cons chunk chunks ih =>
    rw [flatten_cons] at hreads
    have hchunk : input.take p ++ chunk = input.take (p + chunk.length) := by
      rw [take_add, ← hreads, take_left]
    have hrest : chunks.flatten = input.drop (p + chunk.length) := by
      rw [← drop_drop, ← hreads, drop_left]
    have hverdict := fun hq => ih hq hrest
    rw [outcome, push_bufferAt hone hlimits (Nat.le_add_right _ _) hchunk]
    by_cases hq : head.length + 4 ≤ p + chunk.length
    · rw [if_pos hq]
      cases h : bufferVerdict input head limits with
      | error => rfl
      | ok bytes =>
        dsimp only
        rw [h] at hverdict
        have hbytes : bytes = input := by
          unfold bufferVerdict at h
          repeat' split at h
          all_goals cases h
          rfl
        split_ifs with hdone
        · rw [hbytes]
        · exact hverdict (Nat.lt_of_not_le hdone)
    · rw [if_neg hq]
      split_ifs with hlong
      · rw [bufferVerdict, if_pos (hhead.resolve_right (by omega))]
      · exact hverdict (by have := hone.length_eq; omega)

end Push

theorem OneRequest.parse_ne_headersExceedLimit (hone : OneRequest input head body)
    (hhead : head.length ≤ limits.maxHeaderBytes) :
    ((parseHttpRequest input limits).map fun _ => input) ≠ .error headersExceedLimit := by
  by_cases hroom : body.length ≤ limits.maxBodyBytes
  · by_cases hagree : Agreeing limits input
    · rw [hone.parse_of_agreeing hagree hhead hroom]
      cases hexpected : expectedRequestBodyLenFromHeaderBytes head with
      | error e =>
        rintro ⟨⟩
        exact expectedRequestBodyLen_raisesOwn head _ hexpected (by decide)
      | ok => rintro ⟨⟩
    · obtain ⟨e, hown, he⟩ := hone.parse_of_not_agreeing hagree hhead hroom
      rw [he]
      rintro ⟨⟩
      exact absurd hown (by decide)
  · rw [parseHttpRequest, hone.split]
    simp only [if_neg (Nat.not_lt.mpr hhead), if_pos (Nat.lt_of_not_le hroom)]
    rintro ⟨⟩

theorem OneRequest.verdict_eq_iff (hone : OneRequest input head body)
    (hhead : head.length ≤ limits.maxHeaderBytes) :
    bufferVerdict input head limits = ((parseHttpRequest input limits).map fun _ => input) ↔
      VerdictsAgree limits input head body := by
  have hlong : limits.maxBodyBytes < body.length →
      parseHttpRequest input limits = .error bodyExceedsLimit := by
    intro hbody
    rw [parseHttpRequest, hone.split]
    simp only [if_neg (Nat.not_lt.mpr hhead), if_pos hbody]
    rfl
  rw [bufferVerdict, VerdictsAgree, if_neg (Nat.not_lt.mpr hhead)]
  cases hexpected : expectedRequestBodyLenFromHeaderBytes head with
  | error e =>
    have hown := expectedRequestBodyLen_raisesOwn head e hexpected
    dsimp only
    by_cases hroom : body.length ≤ limits.maxBodyBytes
    · rw [and_iff_right hroom]
      by_cases hagree : Agreeing limits input
      · rw [hone.parse_of_agreeing hagree hhead hroom, hexpected]
        exact iff_of_true rfl hagree
      · obtain ⟨e', hown', he'⟩ := hone.parse_of_not_agreeing hagree hhead hroom
        rw [he']
        refine iff_of_false ?_ hagree
        rintro ⟨⟩
        exact hown (mem_cons_of_mem _ (mem_cons_of_mem _ (mem_cons_of_mem _ hown')))
    · rw [hlong (Nat.lt_of_not_le hroom)]
      refine iff_of_false ?_ fun h => hroom h.1
      rintro ⟨⟩
      exact hown (by decide)
  | ok n =>
    obtain rfl := hone.length n hexpected
    dsimp only
    by_cases hbody : limits.maxBodyBytes < body.length
    · rw [if_pos hbody, hlong hbody]
      exact iff_of_true rfl (.inl hbody)
    · have hroom := Nat.not_lt.mp hbody
      rw [if_neg hbody, or_iff_right hbody]
      by_cases hagree : Agreeing limits input
      · rw [hone.parse_of_agreeing hagree hhead hroom, hexpected, and_iff_left hagree]
        split_ifs with hwrap
        · exact iff_of_false (by rintro ⟨⟩) (Nat.not_lt.mpr hwrap)
        · exact iff_of_true rfl (Nat.lt_of_not_le hwrap)
      · obtain ⟨e, hown, he⟩ := hone.parse_of_not_agreeing hagree hhead hroom
        rw [he]
        refine iff_of_false ?_ fun h => hagree h.2
        split_ifs
        · rintro ⟨⟩
          exact absurd hown (by decide)
        · rintro ⟨⟩

/-- The buffer gives the verdict of the parser for every cut of a request, exactly if the head is
over the limit, or it is at least three bytes below it and the two judge the complete request
alike. -/
theorem buffer_agrees_iff (hone : OneRequest input head body)
    (hlimits : limits.maxBodyBytes < usizeBound) :
    (∀ reads : List Bytes, reads.flatten = input →
      (ClientRequestBuffer.outcome limits {} reads) =
        some ((parseHttpRequest input limits).map fun _ => input)) ↔
      limits.maxHeaderBytes < head.length ∨
        head.length + 3 ≤ limits.maxHeaderBytes ∧ VerdictsAgree limits input head body := by
  have hlength := hone.length_eq
  have hempty : ({} : ClientRequestBuffer) = bufferAt input 0 := rfl
  rw [hempty]
  by_cases hlong : limits.maxHeaderBytes < head.length
  · refine iff_of_true (fun reads hreads => ?_) (.inl hlong)
    rw [outcome_bufferAt hone hlimits (.inl hlong) (by omega) hreads, bufferVerdict, if_pos hlong,
      parseHttpRequest, hone.split]
    simp only [if_pos hlong]
    rfl
  · have hhead := Nat.not_lt.mp hlong
    rw [or_iff_right hlong]
    by_cases hroom : head.length + 3 ≤ limits.maxHeaderBytes
    · rw [← hone.verdict_eq_iff hhead, and_iff_right hroom]
      have houtcome {reads : List Bytes} (hreads : reads.flatten = input) :
          outcome limits (bufferAt input 0) reads = some (bufferVerdict input head limits) :=
        outcome_bufferAt hone hlimits (.inr hroom) (by omega) hreads
      constructor
      · intro hagree
        exact Option.some.inj ((houtcome (by simp)).symm.trans (hagree [input] (by simp)))
      · intro hsame reads hreads
        rw [houtcome hreads, hsame]
    · -- a read that ends inside the empty line
      refine iff_of_false (fun hagree => ?_) fun h => hroom h.1
      have hcut := hagree [input.take (head.length + 3), input.drop (head.length + 3)] (by simp)
      rw [outcome, push_bufferAt hone hlimits (q := head.length + 3) (Nat.zero_le _) (nil_append _),
        if_neg (by omega), if_pos (by omega)] at hcut
      exact hone.parse_ne_headersExceedLimit hhead (Option.some.inj hcut).symm

def shortRequest : Bytes :=
  encode "POST / HTTP/1.1\r\nHost: h\r\nContent-Length: 2\r\n\r\nab".toList

theorem shortRequest_parts :
    splitHeaderEnd shortRequest = some (shortRequest.take 43, [97, 98]) ∧
      splitRequestHead shortRequest = some ("POST / HTTP/1.1".toList,
        ["Host: h".toList, "Content-Length: 2".toList]) ∧
      expectedRequestBodyLenFromHeaderBytes (shortRequest.take 43) = .ok 2 ∧
      (shortRequest.take 43).length = 43 ∧
      [shortRequest.take 20, shortRequest.extract 20 46, [10], [97, 98]].flatten =
        shortRequest := by
  decide +kernel

theorem agreeing_shortRequest : Agreeing { maxHeaderBytes := 46 } shortRequest := by
  intro requestLine lines h
  obtain ⟨rfl, rfl⟩ := Prod.mk.inj (Option.some.inj (shortRequest_parts.2.1.symm.trans h))
  refine ⟨by decide, fun _ => by decide, fun _ headers hread => ?_⟩
  have hheaders : readHeaderLines ["Host: h".toList, "Content-Length: 2".toList] =
      .ok [⟨"Host".toList, "h".toList⟩, ⟨"Content-Length".toList, "2".toList⟩] := by
    decide
  obtain rfl := Except.ok.inj (hheaders.symm.trans hread)
  exact ⟨_, rfl, by decide⟩

/-- Cut inside the head, inside the empty line and before the body. -/
theorem short_request_agrees :
    ClientRequestBuffer.outcome { maxHeaderBytes := 46 } {}
        [shortRequest.take 20, shortRequest.extract 20 46, [10], [97, 98]] =
      some ((parseHttpRequest shortRequest { maxHeaderBytes := 46 }).map fun _ =>
        shortRequest) := by
  obtain ⟨hsplit, -, hannounced, hlength, hcut⟩ := shortRequest_parts
  have hverdicts : VerdictsAgree { maxHeaderBytes := 46 } shortRequest (shortRequest.take 43)
      [97, 98] := by
    rw [VerdictsAgree, hannounced, hlength]
    exact .inr ⟨by decide, agreeing_shortRequest⟩
  have hone : OneRequest shortRequest (shortRequest.take 43) [97, 98] :=
    ⟨hsplit, fun _ h => Except.ok.inj (hannounced.symm.trans h)⟩
  exact (buffer_agrees_iff hone (by decide)).mpr
    (.inr ⟨by rw [hlength], hverdicts⟩) _ hcut

/-- A head of exactly the limit is accepted in one read and refused when a read ends inside its
empty line. -/
theorem head_at_limit_depends_on_cut :
    (parseHttpRequest shortRequest { maxHeaderBytes := 43 }).isOk = true ∧
      ClientRequestBuffer.outcome { maxHeaderBytes := 43 } {} [shortRequest] =
        some (.ok shortRequest) ∧
      ClientRequestBuffer.outcome { maxHeaderBytes := 43 } {}
        [shortRequest.take 46, shortRequest.drop 46] = some (.error headersExceedLimit) := by
  decide +kernel

end Buffer

end EdgeProxy

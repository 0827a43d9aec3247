import EdgeProxy.Http.Forwarding

/-! # Reading a forwarded request back

When the bytes sent upstream are parsed again they should be one request with the client's method
and body. They are, exactly when the client's `Connection` header does not name the headers that
delimit the message and the endpoint's base path holds no white space.
-/

namespace EdgeProxy

open Rust List Header

section Headers

variable {request : HttpRequest} {clientIp scheme originalHost : Text} {preserve : Bool}

variable {name : Text} {h : Header} {hs : List Header}

theorem Header.isNamed_iff :
    h.isNamed name = true ↔ toAsciiLowercase h.name = toAsciiLowercase name :=
  eqIgnoreAsciiCase_iff

theorem forwardedHeaders_name (hh : h ∈ forwardedHeaders clientIp scheme originalHost) :
    toAsciiLowercase h.name ∈ forwardedHeaderNames := by
  simp only [forwardedHeaders, mem_cons, not_mem_nil, or_false] at hh
  rcases hh with rfl | rfl | rfl
  · exact (by decide : toAsciiLowercase "X-Forwarded-For".toList ∈ forwardedHeaderNames)
  · exact (by decide : toAsciiLowercase "X-Forwarded-Proto".toList ∈ forwardedHeaderNames)
  · exact (by decide : toAsciiLowercase "X-Forwarded-Host".toList ∈ forwardedHeaderNames)

theorem forwardedHeaders_filter (hname : toAsciiLowercase name ∉ forwardedHeaderNames) :
    (forwardedHeaders clientIp scheme originalHost).filter (isNamed name) = [] := by
  rw [filter_eq_nil_iff]
  intro h hh hn
  rw [isNamed_iff] at hn
  exact hname (hn ▸ forwardedHeaders_name hh)

theorem upstreamRequestHeaders_filter (hname : toAsciiLowercase name ∉ hopByHopHeaderNames) :
    (upstreamRequestHeaders hs preserve).filter (isNamed name) =
      if toAsciiLowercase name ∈ connectionHeaderTokens hs then []
      else hs.filter (isNamed name) := by
  have hend : ∀ h : Header, h.isNamed name = true → isEndToEnd (connectionHeaderTokens hs) h =
      !(connectionHeaderTokens hs).contains (toAsciiLowercase name) := by
    intro h hn
    rw [isNamed_iff] at hn
    simp [isEndToEnd, isHopByHopHeaderName, hn, hname]
  have hup : ∀ h : Header, h.isNamed name = true → isWebsocketUpgradeField h = false := by
    intro h hn
    rw [isNamed_iff] at hn
    have : toAsciiLowercase name ≠ "upgrade".toList := by
      rintro e
      exact hname (by rw [e]; decide)
    rw [isWebsocketUpgradeField, hn, beq_false_of_ne this, Bool.false_and]
  have hconn : (⟨"Connection".toList, "Upgrade".toList⟩ : Header).isNamed name = false := by
    rw [Bool.eq_false_iff, ne_eq, isNamed_iff]
    intro e
    exact hname (by rw [← e]; decide)
  have hfilter : ∀ keep : Header → Bool, (∀ h : Header, h.isNamed name = true → keep h =
        !(connectionHeaderTokens hs).contains (toAsciiLowercase name)) →
      (hs.filter keep).filter (isNamed name) =
        if toAsciiLowercase name ∈ connectionHeaderTokens hs then []
        else hs.filter (isNamed name) := by
    intro keep hkeep
    rw [filter_filter]
    split
    · next hmem =>
      rw [filter_eq_nil_iff]
      intro h _ hn
      simp only [Bool.and_eq_true] at hn
      have := hkeep h hn.1
      simp [hn.2, hmem] at this
    · next hmem =>
      apply filter_congr
      intro h _
      cases hn : h.isNamed name with
      | false => simp
      | true => simp [hkeep h hn, hmem]
  unfold upstreamRequestHeaders
  split
  · exact hfilter _ hend
  · rw [filter_append, hfilter, filter_cons_of_neg (by rw [hconn]; decide), filter_nil, append_nil]
    · intro h hn
      simp [hup h hn, hend h hn]

theorem projectedHeaders_filter (hhop : toAsciiLowercase name ∉ hopByHopHeaderNames)
    (hfwd : toAsciiLowercase name ∉ forwardedHeaderNames) :
    (projectedHeaders request clientIp scheme originalHost preserve none).filter
        (isNamed name) =
      if toAsciiLowercase name ∈ connectionHeaderTokens request.headers then []
      else request.headers.filter (isNamed name) := by
  have hkeep : ∀ hs : List Header,
      (hs.filter fun h => !forwardedHeaderNames.contains (toAsciiLowercase h.name)).filter
        (isNamed name) = hs.filter (isNamed name) := by
    intro hs
    rw [filter_filter]
    apply filter_congr
    intro h _
    cases hn : h.isNamed name with
    | false => simp
    | true =>
      rw [isNamed_iff] at hn
      simp [hn, hfwd]
  simp only [projectedHeaders, filter_append, hkeep, forwardedHeaders_filter hfwd,
    append_nil, upstreamRequestHeaders_filter hhop]

variable {host : Text}

theorem mem_overrideHost (hh : h ∈ overrideHost host hs) :
    ∃ h₀ ∈ hs, h.name = h₀.name ∧ (h.value = h₀.value ∨ h.value = host) := by
  induction hs with
  | nil => simp [overrideHost] at hh
  | cons d _ ih =>
    rw [overrideHost] at hh
    split at hh
    · rcases mem_cons.mp hh with rfl | hh
      · exact ⟨d, by simp, rfl, .inr rfl⟩
      · exact ⟨h, by simp [hh], rfl, .inl rfl⟩
    · rcases mem_cons.mp hh with rfl | hh
      · exact ⟨h, by simp, rfl, .inl rfl⟩
      · obtain ⟨h₀, hmem, heq⟩ := ih hh
        exact ⟨h₀, by simp [hmem], heq⟩

theorem overrideHost_filter {name : Text} (hname : toAsciiLowercase name ≠ "host".toList) :
    (overrideHost host hs).filter (isNamed name) = hs.filter (isNamed name) := by
  induction hs with
  | nil => rfl
  | cons h _ ih =>
    rw [overrideHost]
    split
    · next hhost =>
      have hh : h.isNamed name = false := by
        rw [isNamed_iff] at hhost
        rw [Bool.eq_false_iff, ne_eq, isNamed_iff, hhost]
        exact fun e => hname e.symm
      have hh' : isNamed name { h with value := host } = false := hh
      rw [filter_cons_of_neg (by simp [hh']), filter_cons_of_neg (by simp [hh])]
    · simp only [filter_cons, ih]

theorem overrideHost_filter_host :
    (overrideHost host hs).filter (isNamed "Host".toList) =
      (hs.filter (isNamed "Host".toList)).modifyHead fun h => { h with value := host } := by
  induction hs with
  | nil => rfl
  | cons h _ ih =>
    rw [overrideHost]
    split
    · next hhost =>
      have hh' : isNamed "Host".toList { h with value := host } = true := hhost
      rw [filter_cons_of_pos hhost, filter_cons_of_pos hh', modifyHead_cons]
    · next hhost =>
      rw [filter_cons_of_neg hhost, filter_cons_of_neg hhost, ih]

/-- All headers on the wire, with the `Connection: close` that the builder may append. -/
def sentHeaders (request : HttpRequest) (clientIp scheme originalHost : Text) (preserve : Bool)
    (hostOverride : Option Text) (forceConnectionClose : Bool) : List Header :=
  projectedHeaders request clientIp scheme originalHost preserve hostOverride ++
    if forceConnectionClose then [⟨"Connection".toList, "close".toList⟩] else []

variable {hostOverride : Option Text} {force : Bool}

theorem sentHeaders_contentLength :
    (sentHeaders request clientIp scheme originalHost preserve hostOverride force).filter
        isContentLength =
      if "content-length".toList ∈ connectionHeaderTokens request.headers then []
      else request.headers.filter isContentLength := by
  have hbase : (projectedHeaders request clientIp scheme originalHost preserve none).filter
      (isNamed "Content-Length".toList) =
        if "content-length".toList ∈ connectionHeaderTokens request.headers then []
        else request.headers.filter (isNamed "Content-Length".toList) :=
    projectedHeaders_filter (by decide) (by decide)
  change (sentHeaders _ _ _ _ _ _ _).filter (isNamed "Content-Length".toList) = _
  rw [sentHeaders, filter_append, close_filter (by decide), append_nil]
  cases hostOverride with
  | none => exact hbase
  | some => exact (overrideHost_filter (by decide)).trans hbase

theorem sentHeaders_host (hhost : request.headers.filter (isNamed "Host".toList) = [h]) :
    (sentHeaders request clientIp scheme originalHost preserve hostOverride force).filter
        (isNamed "Host".toList) =
      if "host".toList ∈ connectionHeaderTokens request.headers then []
      else [{ h with value := hostOverride.getD h.value }] := by
  have hbase : (projectedHeaders request clientIp scheme originalHost preserve none).filter
      (isNamed "Host".toList) =
        if "host".toList ∈ connectionHeaderTokens request.headers then [] else [h] :=
    hhost ▸ projectedHeaders_filter (by decide) (by decide)
  rw [sentHeaders, filter_append, close_filter (by decide), append_nil]
  cases hostOverride with
  | none => exact hbase
  | some =>
    refine overrideHost_filter_host.trans ((congrArg _ hbase).trans ?_)
    split <;> rfl

/-- Where a header that is sent comes from, the value of `Host` apart. -/
def SentFrom (request : HttpRequest) (clientIp scheme originalHost : Text) (h : Header) : Prop :=
  h ∈ request.headers ∧ (isWebsocketUpgradeField h = true ∨
      isEndToEnd (connectionHeaderTokens request.headers) h = true) ∨
    h ∈ forwardedHeaders clientIp scheme originalHost ∨
    h ∈ [⟨"Connection".toList, "Upgrade".toList⟩, ⟨"Connection".toList, "close".toList⟩]

theorem sentHeaders_mem
    (hh : h ∈ sentHeaders request clientIp scheme originalHost preserve hostOverride force) :
    ∃ h₀ : Header, h.name = h₀.name ∧ (h.value = h₀.value ∨ some h.value = hostOverride) ∧
      SentFrom request clientIp scheme originalHost h₀ := by
  have hbase : ∀ h₀ ∈ projectedHeaders request clientIp scheme originalHost preserve none,
      SentFrom request clientIp scheme originalHost h₀ := by
    intro h₀ hh₀
    simp only [projectedHeaders, mem_append] at hh₀
    rcases hh₀ with hh₀ | hh₀
    · have hh₀ := mem_of_mem_filter hh₀
      unfold upstreamRequestHeaders removeHopByHopHeaders at hh₀
      split at hh₀
      · exact .inl ((mem_filter.mp hh₀).imp_right .inr)
      · rcases mem_append.mp hh₀ with hh₀ | hh₀
        · refine .inl ((mem_filter.mp hh₀).imp_right fun hkeep => ?_)
          simpa only [Bool.or_eq_true] using hkeep
        · exact .inr (.inr (mem_cons.mpr (.inl (mem_singleton.mp hh₀))))
    · exact .inr (.inl hh₀)
  rcases mem_append.mp hh with hh | hh
  · cases hostOverride with
    | none => exact ⟨h, rfl, .inl rfl, hbase h hh⟩
    | some =>
      obtain ⟨h₀, hmem, hname, hvalue⟩ := mem_overrideHost hh
      exact ⟨h₀, hname, hvalue.imp_right (congrArg some), hbase h₀ hmem⟩
  · refine ⟨h, rfl, .inl rfl, .inr (.inr ?_)⟩
    split at hh
    · exact mem_cons_of_mem _ hh
    · simp at hh

theorem sentHeaders_transferEncoding
    (hh : h ∈ sentHeaders request clientIp scheme originalHost preserve hostOverride force) :
    h.isTransferEncoding = false := by
  obtain ⟨h₀, hname, -, hmem⟩ := sentHeaders_mem hh
  rw [isTransferEncoding, Bool.eq_false_iff, ne_eq, isNamed_iff, hname]
  intro hte
  have hlower : toAsciiLowercase "Transfer-Encoding".toList = "transfer-encoding".toList :=
    by decide
  rw [hlower] at hte
  rcases hmem with ⟨-, hup | hend⟩ | hfwd | hconn
  · simp only [isWebsocketUpgradeField, hte, Bool.and_eq_true] at hup
    exact absurd hup.1 (by decide)
  · simp only [isEndToEnd, hte, Bool.and_eq_true] at hend
    exact absurd hend.1 (by decide)
  · exact absurd (hte ▸ forwardedHeaders_name hfwd) (by decide)
  · simp only [mem_cons, not_mem_nil, or_false] at hconn
    rcases hconn with rfl | rfl <;> exact absurd hte (by decide)

/-- A text that can be a header value: trimmed, and without prohibited control characters. -/
def FieldValue (value : Text) : Prop :=
  Trimmed value ∧ containsProhibitedHttpFieldValueControl value = false

theorem fieldValue_of_plain {value : Text}
    (h : ∀ c ∈ value, isWhitespace c = false ∧ isControl c = false) : FieldValue value := by
  refine ⟨trimmed_of_forall fun c hc => (h c hc).1, ?_⟩
  simp only [containsProhibitedHttpFieldValueControl, any_eq_false]
  intro c hc hp
  have := (h c hc).2
  simp only [isProhibitedFieldControl, Bool.or_eq_true, Bool.and_eq_true, decide_eq_true_eq,
    beq_iff_eq] at hp
  simp only [isControl, Bool.or_eq_false_iff, Bool.and_eq_false_iff,
    decide_eq_false_iff_not] at this
  omega

theorem sentHeaders_wellFormed (hrequest : ∀ h ∈ request.headers, h.WellFormed)
    (hip : FieldValue clientIp) (hscheme : FieldValue scheme) (hhost : FieldValue originalHost)
    (hoverride : ∀ v ∈ hostOverride, FieldValue v) :
    ∀ h ∈ sentHeaders request clientIp scheme originalHost preserve hostOverride force,
      h.WellFormed := by
  intro h hh
  obtain ⟨h₀, hname, hvalue, hmem⟩ := sentHeaders_mem hh
  have hw : h₀.WellFormed := by
    rcases hmem with ⟨hmem, -⟩ | hfwd | hconn
    · exact hrequest h₀ hmem
    · simp only [forwardedHeaders, mem_cons, not_mem_nil, or_false] at hfwd
      rcases hfwd with rfl | rfl | rfl
      · exact ⟨(by decide : isHttpToken "X-Forwarded-For".toList = true), hip.1, hip.2⟩
      · exact ⟨(by decide : isHttpToken "X-Forwarded-Proto".toList = true), hscheme.1, hscheme.2⟩
      · exact ⟨(by decide : isHttpToken "X-Forwarded-Host".toList = true), hhost.1, hhost.2⟩
    · simp only [mem_cons, not_mem_nil, or_false] at hconn
      rcases hconn with rfl | rfl
      · exact ⟨by decide, trimmed_of_forall (by decide), by decide⟩
      · exact ⟨by decide, trimmed_of_forall (by decide), by decide⟩
  rcases hvalue with hvalue | hvalue
  · exact ⟨hname ▸ hw.name_token, hvalue ▸ hw.value_trimmed, hvalue ▸ hw.value_controls⟩
  · have hv := hoverride h.value hvalue.symm
    exact ⟨hname ▸ hw.name_token, hv.1, hv.2⟩

end Headers

variable {r : HttpRequest}

section Wire

/-- Limits that a message of the given size cannot exceed. -/
structure HttpLimits.Admit (limits : HttpLimits) (message : Bytes) : Prop where
  requestLine : message.length ≤ limits.maxRequestLineBytes
  header : message.length ≤ limits.maxHeaderBytes
  count : message.length ≤ limits.maxHeaderCount
  body : message.length ≤ limits.maxBodyBytes

variable {requestLine : Text} {hs : List Header} {body : Bytes} {limits : HttpLimits}

def wireMessage (requestLine : Text) (hs : List Header) (body : Bytes) : Bytes :=
  encode (joinCrlf (requestLine :: hs.map Header.line)) ++ 13 :: 10 :: 13 :: 10 :: body

theorem wireMessage_eq (requestLine : Text) (hs : List Header) (body : Bytes) :
    wireMessage requestLine hs body =
      encode (requestLine ++ crlf) ++ hs.flatMap (fun h => encode (h.line ++ crlf)) ++
        encode crlf ++ body := by
  have hflat : (hs.flatMap fun h => encode (h.line ++ crlf)) =
      encode ((hs.map line).flatMap (· ++ crlf)) := by
    induction hs with
    | nil => rfl
    | cons _ _ ih =>
      rw [flatMap_cons, ih, map_cons, flatMap_cons, ← encode_append]
  have hjoin := joinCrlf_append_crlf (cons_ne_nil requestLine (hs.map line))
  have hcrlf : ∀ t : Bytes, (13 :: 10 :: t : Bytes) = encode crlf ++ t := fun _ => rfl
  rw [wireMessage, hcrlf (13 :: 10 :: body), hcrlf body, hflat, ← encode_append, ← append_assoc,
    ← append_assoc, ← encode_append]
  exact congrArg (fun t => encode t ++ encode crlf ++ body) hjoin

theorem upstreamRequestBytes_eq (request : HttpRequest) (requestPath : Text)
    (headers : List Header) (force : Bool) :
    upstreamRequestBytes request requestPath headers force =
      wireMessage (request.method ++ ' ' :: requestPath ++ ' ' :: request.version)
        (headers ++ if force then [⟨"Connection".toList, "close".toList⟩] else [])
          request.body := by
  have hclose : (if force then encode "Connection: close\r\n".toList else []) =
      (if force then [(⟨"Connection".toList, "close".toList⟩ : Header)] else []).flatMap
        fun h => encode (h.line ++ crlf) := by
    cases force with
    | false => rfl
    | true => decide
  rw [wireMessage_eq, flatMap_append, ← hclose, upstreamRequestBytes, ← append_assoc]

theorem length_le_of_admit (h : limits.Admit (wireMessage requestLine hs body)) :
    byteLen requestLine ≤ limits.maxRequestLineBytes ∧
      (encode (joinCrlf (requestLine :: hs.map line))).length ≤ limits.maxHeaderBytes ∧
      hs.length ≤ limits.maxHeaderCount ∧ body.length ≤ limits.maxBodyBytes := by
  have hlen : (wireMessage requestLine hs body).length =
      byteLen (joinCrlf (requestLine :: hs.map line)) + 4 + body.length := by
    simp [wireMessage, byteLen]
    omega
  have hcount := length_le_length_joinCrlf (requestLine :: hs.map line)
  have hbytes := length_le_byteLen (joinCrlf (requestLine :: hs.map line))
  have hline : byteLen requestLine ≤ byteLen (joinCrlf (requestLine :: hs.map line)) := by
    cases hs with
    | nil => simp [joinCrlf]
    | cons => simp [joinCrlf, byteLen]
  simp only [length_cons, length_map] at hcount
  obtain ⟨h₁, h₂, h₃, h₄⟩ := h
  rw [hlen] at h₁ h₂ h₃ h₄
  refine ⟨by omega, ?_, by omega, by omega⟩
  change byteLen _ ≤ _
  omega

theorem parseHttpRequest_wireMessage_iff (hline : requestLine ≠ [])
    (hcr : '\r' ∉ requestLine) (hw : ∀ h ∈ hs, h.WellFormed)
    (hadmits : limits.Admit (wireMessage requestLine hs body)) :
    parseHttpRequest (wireMessage requestLine hs body) limits = .ok r ↔
      validateRequestLine requestLine = .ok (r.method, r.path, r.version) ∧
        r.headers = hs ∧ r.body = body ∧ validateHttp11HostAuthority hs = .ok () ∧
        BodyLength hs body.length := by
  have hlines : ∀ l ∈ requestLine :: hs.map line, l ≠ [] ∧ '\r' ∉ l := by
    intro l hl
    rcases mem_cons.mp hl with rfl | hl
    · exact ⟨hline, hcr⟩
    · obtain ⟨h, hh, rfl⟩ := mem_map.mp hl
      exact (hw h hh).line_spec
  have hne : requestLine :: hs.map line ≠ [] := by simp
  have hsplit := splitHeaderEnd_joinCrlf hne
    (fun l hl => (hlines l hl).2) (fun l hl => (hlines l hl).1) body
  have hcrlf := splitCrlf_joinCrlf hne fun l hl => (hlines l hl).2
  obtain ⟨hlimit, hheader, hcount, hbody⟩ := length_le_of_admit hadmits
  have hheaders : parseHeaderLines limits.maxHeaderCount 0 (hs.map line) = .ok hs :=
    parseHeaderLines_lines hw (by omega)
  rw [parseHttpRequest_ok_iff, wireMessage, hsplit]
  simp only [Option.some.injEq, Prod.mk.injEq, parseHeaderText_ok_iff]
  constructor
  · rintro ⟨_, t, ⟨rfl, rfl⟩, -, -, hdecode, _, _, hl, -, hvalid, hhs, hhost, hlen, -, -⟩
    obtain rfl : joinCrlf (requestLine :: hs.map line) = t := by simpa using hdecode
    rw [hcrlf] at hl
    obtain ⟨rfl, rfl⟩ := cons.inj hl
    obtain rfl : hs = r.headers := by
      rw [hheaders] at hhs
      exact Except.ok.inj hhs
    exact ⟨hvalid, rfl, rfl, hhost, hlen⟩
  · rintro ⟨hvalid, rfl, rfl, hhost, hlen⟩
    exact ⟨_, _, ⟨rfl, rfl⟩, hheader, hbody, decode_encode _, _, _, hcrlf, hlimit, hvalid,
      hheaders, hhost, hlen, hbody, trivial⟩

end Wire

variable {path : Text}

section Path

variable {e : UpstreamEndpoint}

theorem UpstreamEndpoint.joinPath_eq (path : Text) :
    ∃ tail, e.joinPath path = e.pathPrefix ++ tail ∧ (path ≠ [] → tail ≠ []) ∧
      ∀ c ∈ tail, c ∈ path ∨ c = '/' := by
  unfold joinPath pathPrefix
  split_ifs
  · exact ⟨path, rfl, id, fun c hc => .inl hc⟩
  · exact ⟨path, rfl, id, fun c hc => .inl hc⟩
  · exact ⟨'/' :: path, rfl, by simp, fun c hc => (mem_cons.mp hc).symm⟩

theorem UpstreamEndpoint.pathPrefix_mem {c : Char} (hc : c ∈ e.pathPrefix) : c ∈ e.basePath := by
  unfold pathPrefix at hc
  split at hc
  · simp at hc
  · exact ( rdropWhile_prefix _ _).subset hc

theorem UpstreamEndpoint.pathPrefix_head (h : e.basePath = [] ∨ e.basePath.head? = some '/')
    (hne : e.pathPrefix ≠ []) : e.pathPrefix.head? = some '/' := by
  unfold pathPrefix at hne ⊢
  split at hne
  · simp at hne
  · next hroot =>
    rw [if_neg hroot]
    have hpre : trimEndMatches '/' e.basePath <+: e.basePath := rdropWhile_prefix _ _
    obtain ⟨_, _, hr⟩ := exists_cons_of_ne_nil hne
    rw [hr] at hpre ⊢
    obtain ⟨_, ht⟩ := hpre
    rcases h with h | h
    · simp [h] at ht
    · rw [← ht] at h
      simpa using h

theorem splitWhitespace_requestLine {method version : Text} (path : Text)
    (hm : method ≠ [] ∧ ∀ c ∈ method, isWhitespace c = false)
    (hv : version ≠ [] ∧ ∀ c ∈ version, isWhitespace c = false) :
    splitWhitespace (method ++ ' ' :: path ++ ' ' :: version) =
      method :: splitWhitespace path ++ [version] := by
  have hblank : isWhitespace ' ' = true := by decide
  rw [splitWhitespace_append hblank, splitWhitespace_append hblank, splitWhitespace_word hm.1 hm.2,
    splitWhitespace_word hv.1 hv.2, singleton_append]

theorem splitWhitespace_joinPath_iff (hbase : e.basePath = [] ∨ e.basePath.head? = some '/')
    (hpath : path ≠ [] ∧ ∀ c ∈ path, isWhitespace c = false) :
    (∃ p, splitWhitespace (e.joinPath path) = [p]) ↔
      ∀ c ∈ e.pathPrefix, isWhitespace c = false := by
  obtain ⟨tail, hjoin, hne, hmem⟩ := UpstreamEndpoint.joinPath_eq (e := e) path
  have htail : ∀ c ∈ tail, isWhitespace c = false := by
    intro c hc
    rcases hmem c hc with hc | rfl
    · exact hpath.2 c hc
    · decide
  rw [hjoin]
  constructor
  · rintro ⟨_, hp⟩ c hc
    by_contra hws
    rw [Bool.not_eq_false] at hws
    obtain ⟨l, r, hlr⟩ := append_of_mem hc
    -- the prefix starts with a slash, and the tail has a character: one word on each side
    have hhead := UpstreamEndpoint.pathPrefix_head hbase (ne_nil_of_mem hc)
    have hl : '/' ∈ l := by
      rw [hlr] at hhead
      cases l with
      | nil =>
        obtain rfl : c = '/' := by simpa using hhead
        exact absurd hws (by decide)
      | cons d =>
        obtain rfl : d = '/' := by simpa using hhead
        simp
    obtain ⟨d, tail', rfl⟩ := exists_cons_of_ne_nil (hne hpath.1)
    have h₁ := splitWhitespace_ne_nil hl (by decide)
    have h₂ := splitWhitespace_ne_nil (t := r ++ d :: tail') (c := d) (by simp)
      (htail d (by simp))
    rw [hlr, append_assoc, cons_append, splitWhitespace_append hws] at hp
    have := congrArg length hp
    have := length_pos_iff.mpr h₁
    have := length_pos_iff.mpr h₂
    simp only [length_append, length_singleton] at *
    omega
  · intro hws
    refine ⟨_, splitWhitespace_word ?_ fun c hc => ?_⟩
    · simp [hne hpath.1]
    · rcases mem_append.mp hc with hc | hc
      · exact hws c hc
      · exact htail c hc

end Path

section ReadBack

/-- The text of a peer address: hexadecimal digits, dots and colons. -/
structure PeerIp where
  text : Text
  chars : ∀ c ∈ text, ((toDigit 16 c).isSome || c == '.' || c == ':') = true

/-- The scheme that `forwarded_scheme` reports for a client transport. -/
inductive ForwardedScheme where
  | http | https

def ForwardedScheme.asStr : ForwardedScheme → Text
  | .http => "http".toList
  | .https => "https".toList

/-- An endpoint that came out of `UpstreamEndpoint::parse`. -/
abbrev ParsedEndpoint := { e : UpstreamEndpoint // ∃ url, UpstreamEndpoint.parse url = .ok e }

/-- A TLS policy whose `Host` authority came out of `UpstreamHttpHost::parse`. -/
abbrev ParsedTlsPolicy :=
  { p : UpstreamTlsPolicy // ∀ v ∈ p.hostOverride, ∃ url host,
    UpstreamHttpHost.parse url = .ok host ∧ host.value = v }

/-- The bytes are one request with the method and the body of `request`, one `Host` header and,
if there is a body, a `Content-Length` that gives its length. -/
def ReadsBackAs (request : HttpRequest) (output : Bytes) : Prop :=
  ∀ limits : HttpLimits, limits.Admit output →
    ∃ r, parseHttpRequest output limits = .ok r ∧ r.method = request.method ∧
      r.body = request.body ∧ (r.headers.filter (Header.isNamed "Host".toList)).length = 1 ∧
      (request.body ≠ [] → (∃ h ∈ r.headers, h.isContentLength = true) ∧
        ∀ h ∈ r.headers, h.isContentLength = true →
          parseUsize (trim h.value) = some request.body.length)

structure HttpRequest.Accepted (r : HttpRequest) : Prop where
  method : isHttpToken r.method = true
  method_connect : eqIgnoreAsciiCase r.method "CONNECT".toList = false
  path : r.path ≠ [] ∧ ∀ c ∈ r.path, isWhitespace c = false
  path_control : containsProhibitedRequestTargetControl r.path = false
  version : r.version = "HTTP/1.1".toList
  headers : ∀ h ∈ r.headers, h.WellFormed
  host : ∃ h, r.headers.filter (Header.isNamed "Host".toList) = [h] ∧ trim h.value ≠ []
  body : BodyLength r.headers r.body.length

theorem parseHttpRequest_accepted {input : Bytes} {limits : HttpLimits}
    (h : parseHttpRequest input limits = .ok r) : r.Accepted := by
  obtain ⟨_, t, -, -, -, -, h⟩ := parseHttpRequest_ok_iff.mp h
  obtain ⟨l, _, -, -, hline, hhs, hhost, hbody, -, -⟩ := parseHeaderText_ok_iff.mp h
  obtain ⟨hwords, hm, hp, hv, hc⟩ := validateRequestLine_ok_iff.mp hline
  have hpath := mem_splitWhitespace (t := l) (w := r.path) (by simp [hwords])
  exact ⟨hm, hc, ⟨hpath.1, fun c hc => (hpath.2 c hc).2⟩, hp, hv,
    parseHeaderLines_wellFormed hhs, validateHttp11HostAuthority_ok_iff.mp hhost, hbody⟩

theorem headerValue_host {h : Header} (hhost : r.headers.filter (isNamed "Host".toList) = [h]) :
    r.headerValue "Host".toList = some h.value ∧ h ∈ r.headers := by
  have hmem : h ∈ r.headers.filter (isNamed "Host".toList) := by
    rw [hhost]
    exact mem_singleton_self h
  refine ⟨?_, mem_of_mem_filter hmem⟩
  rw [HttpRequest.headerValue, ← head?_filter, hhost]
  rfl

theorem PeerIp.fieldValue (peer : PeerIp) : FieldValue peer.text := by
  apply fieldValue_of_plain
  intro c hc
  have h := peer.chars c hc
  simp only [Bool.or_eq_true, beq_iff_eq] at h
  rcases h with (h | rfl) | rfl
  · exact not_isWhitespace_of_isAsciiAlphanumeric (isAsciiAlphanumeric_of_toDigit h)
  · decide
  · decide

theorem buildSelected_eq {request : HttpRequest} {upstream : UpstreamEndpoint}
    {policy : UpstreamTlsPolicy} {clientIp scheme originalHost : Text} {preserve keepAlive : Bool}
    {output : Bytes}
    (h : buildSelectedUpstreamRequestWithKeepAlive request upstream policy clientIp scheme
      originalHost preserve keepAlive = .ok output) :
    output = wireMessage (request.method ++ ' ' :: upstream.joinPath request.path ++ ' ' ::
        request.version)
      (sentHeaders request clientIp scheme originalHost preserve policy.hostOverride
        (!preserve && !keepAlive)) request.body := by
  unfold buildSelectedUpstreamRequestWithKeepAlive
    buildUpstreamRequestWithHostOverrideAndConnectionClose at h
  simp only [bind_eq_ok, ite_error_eq_ok, Except.ok.injEq] at h
  obtain ⟨_, -, _, ⟨_, -, -, hout⟩, -, rfl⟩ := h
  rw [← hout, upstreamRequestBytes_eq]
  rfl

variable {request : HttpRequest} {clientIp scheme originalHost : Text} {preserve force : Bool}
  {hostOverride : Option Text}

theorem sentHeaders_bodyLength_iff {n : Nat} (hbody : BodyLength request.headers n) :
    BodyLength (sentHeaders request clientIp scheme originalHost preserve hostOverride force) n ↔
      ("content-length".toList ∈ connectionHeaderTokens request.headers → n = 0) := by
  have hcl : (sentHeaders request clientIp scheme originalHost preserve hostOverride force).filter
      isContentLength = if _ then _ else _ := sentHeaders_contentLength
  constructor
  · intro h hmem
    rw [if_pos hmem, filter_eq_nil_iff] at hcl
    exact h.absent fun h hh => by simpa using hcl h hh
  · intro hzero
    refine ⟨fun h hh hte => by simp [sentHeaders_transferEncoding hh] at hte,
      fun h hh hname => ?_, fun habsent => ?_⟩
    · have hmem := mem_filter.mpr ⟨hh, hname⟩
      rw [hcl] at hmem
      split at hmem
      · simp at hmem
      · exact hbody.contentLength h (mem_of_mem_filter hmem) hname
    · have hnil : (sentHeaders request clientIp scheme originalHost preserve hostOverride
          force).filter isContentLength = [] :=
        filter_eq_nil_iff.mpr fun h hh => by rw [habsent h hh]; decide
      rw [hcl] at hnil
      split at hnil
      · next hmem => exact hzero hmem
      · exact hbody.absent fun h hh => by simpa using filter_eq_nil_iff.mp hnil h hh

theorem requestLine_spec {method version : Text} (hm : isHttpToken method = true)
    (hpath : containsProhibitedRequestTargetControl path = false)
    (hv : version = "HTTP/1.1".toList) :
    method ++ ' ' :: path ++ ' ' :: version ≠ [] ∧
      '\r' ∉ method ++ ' ' :: path ++ ' ' :: version := by
  refine ⟨by simp, ?_⟩
  simp only [append_assoc, mem_append, mem_cons, not_or, cons_append]
  refine ⟨fun hc => ((isHttpToken_mem hm).2 _ hc).2.2 rfl, by decide, fun hc => ?_, by decide, ?_⟩
  · simp only [containsProhibitedRequestTargetControl, any_eq_false] at hpath
    exact hpath _ hc (by decide)
  · rw [hv]
    decide

theorem UpstreamEndpoint.joinPath_control {e : UpstreamEndpoint}
    (hbase : ∀ c ∈ e.basePath, isControl c = false)
    (hpath : containsProhibitedRequestTargetControl path = false) :
    containsProhibitedRequestTargetControl (e.joinPath path) = false := by
  obtain ⟨_, hjoin, -, hmem⟩ := UpstreamEndpoint.joinPath_eq (e := e) path
  simp only [containsProhibitedRequestTargetControl, any_eq_false] at hpath ⊢
  rw [hjoin]
  intro c hc
  rcases mem_append.mp hc with hc | hc
  · have := hbase c (UpstreamEndpoint.pathPrefix_mem hc)
    simp only [isControl, Bool.or_eq_false_iff, Bool.and_eq_false_iff,
      decide_eq_false_iff_not] at this
    simp only [isProhibitedTargetControl, Bool.or_eq_true, decide_eq_true_eq, beq_iff_eq]
    omega
  · rcases hmem c hc with hc | rfl
    · exact hpath c hc
    · decide

theorem readsBackAs_wireMessage_iff {e : UpstreamEndpoint} {hs : List Header}
    (hacc : request.Accepted) (hbase : e.basePath = [] ∨ e.basePath.head? = some '/')
    (hcontrol : ∀ c ∈ e.basePath, isControl c = false) (hw : ∀ h ∈ hs, h.WellFormed) :
    ReadsBackAs request (wireMessage
        (request.method ++ ' ' :: e.joinPath request.path ++ ' ' :: request.version) hs
        request.body) ↔
      validateHttp11HostAuthority hs = .ok () ∧ BodyLength hs request.body.length ∧
        ∀ c ∈ e.pathPrefix, isWhitespace c = false := by
  have hpathctl := UpstreamEndpoint.joinPath_control hcontrol hacc.path_control
  obtain ⟨hline, hcr⟩ := requestLine_spec hacc.method hpathctl hacc.version
  have hversion : request.version ≠ [] ∧ ∀ c ∈ request.version, isWhitespace c = false := by
    rw [hacc.version]
    decide
  have hwords := splitWhitespace_requestLine (e.joinPath request.path)
    ((isHttpToken_mem hacc.method).imp_right fun h c hc => (h c hc).1) hversion
  rw [← splitWhitespace_joinPath_iff hbase hacc.path]
  constructor
  · intro h
    -- limits of exactly the message's size are large enough
    obtain ⟨r, hr, -⟩ := h ⟨_, _, _, _⟩ ⟨le_rfl, le_rfl, le_rfl, le_rfl⟩
    obtain ⟨hvalid, -, -, hhost, hbody⟩ := (parseHttpRequest_wireMessage_iff hline hcr hw
      ⟨le_rfl, le_rfl, le_rfl, le_rfl⟩).mp hr
    refine ⟨hhost, hbody, r.path, ?_⟩
    obtain ⟨hsplit, -⟩ := validateRequestLine_ok_iff.mp hvalid
    rw [hwords, cons_append, cons.injEq] at hsplit
    exact append_inj_left' (hsplit.2.trans (singleton_append).symm) rfl
  · rintro ⟨hhost, hbody, p, hp⟩ limits hadmits
    have hvalid : validateRequestLine
        (request.method ++ ' ' :: e.joinPath request.path ++ ' ' :: request.version) =
          .ok (request.method, p, request.version) := by
      refine validateRequestLine_ok_iff.mpr ⟨by rw [hwords, hp]; rfl, hacc.method, ?_, hacc.version,
        hacc.method_connect⟩
      simp only [containsProhibitedRequestTargetControl, any_eq_false] at hpathctl ⊢
      have hpmem := mem_splitWhitespace (t := e.joinPath request.path) (w := p) (by simp [hp])
      exact fun c hc => hpathctl c (hpmem.2 c hc).1
    refine ⟨⟨request.method, p, request.version, hs, request.body⟩,
      (parseHttpRequest_wireMessage_iff hline hcr hw hadmits).mpr ⟨hvalid, rfl, rfl, hhost, hbody⟩,
      rfl, rfl, ?_, fun hne => ⟨?_, hbody.contentLength⟩⟩
    · obtain ⟨h, hfilter, -⟩ := validateHttp11HostAuthority_ok_iff.mp hhost
      rw [hfilter]
      rfl
    · by_contra hnone
      simp only [not_exists, not_and, Bool.not_eq_true] at hnone
      exact hne (length_eq_zero_iff.mp (hbody.absent hnone))

/-- The request sent to a selected upstream is read back as the client's request exactly when the
client's `Connection` header names neither `Host` nor, for a request with a body,
`Content-Length`, and the endpoint's base path has no white space. -/
theorem selected_request_reads_back_iff {input : Bytes} {limits : HttpLimits}
    (hparse : parseHttpRequest input limits = .ok request) (endpoint : ParsedEndpoint)
    (policy : ParsedTlsPolicy) (peer : PeerIp) (scheme : ForwardedScheme) {authority : Text}
    (hauthority : request.headerValue "Host".toList = some authority) {keepAlive : Bool}
    {output : Bytes}
    (hbuild : buildSelectedUpstreamRequestWithKeepAlive request endpoint policy peer.text
      scheme.asStr authority preserve keepAlive = .ok output) :
    ReadsBackAs request output ↔
      "host".toList ∉ connectionHeaderTokens request.headers ∧
      ("content-length".toList ∈ connectionHeaderTokens request.headers → request.body = []) ∧
      ∀ c ∈ endpoint.1.pathPrefix, isWhitespace c = false := by
  have hacc := parseHttpRequest_accepted hparse
  obtain ⟨h, hhost, hvalue⟩ := hacc.host
  obtain ⟨hauth, hmem⟩ := headerValue_host hhost
  obtain rfl : h.value = authority := Option.some.inj (hauth.symm.trans hauthority)
  obtain ⟨_, hurl⟩ := endpoint.2
  obtain ⟨hbase, hcontrol⟩ := UpstreamEndpoint.parse_basePath hurl
  have hoverride : ∀ v ∈ policy.1.hostOverride, v ≠ [] ∧ FieldValue v := by
    intro v hv
    obtain ⟨_, host, hparse, rfl⟩ := policy.2 v hv
    exact (UpstreamHttpHost.parse_ok hparse).imp_right fieldValue_of_plain
  have hscheme : FieldValue scheme.asStr := by
    cases scheme <;> exact fieldValue_of_plain (by decide)
  have hw : ∀ g ∈ sentHeaders request peer.text scheme.asStr h.value preserve
      policy.1.hostOverride (!preserve && !keepAlive), g.WellFormed :=
    sentHeaders_wellFormed hacc.headers peer.fieldValue hscheme
      ⟨(hacc.headers h hmem).value_trimmed, (hacc.headers h hmem).value_controls⟩
      fun v hv => (hoverride v hv).2
  have hsent : validateHttp11HostAuthority (sentHeaders request peer.text scheme.asStr h.value
      preserve policy.1.hostOverride (!preserve && !keepAlive)) = .ok () ↔
        "host".toList ∉ connectionHeaderTokens request.headers := by
    rw [validateHttp11HostAuthority_ok_iff, sentHeaders_host hhost]
    split
    · next htoken =>
      exact ⟨fun ⟨_, hnil, _⟩ => by simp at hnil, fun hn => absurd htoken hn⟩
    · next htoken =>
      refine ⟨fun _ => htoken, fun _ => ⟨_, rfl, ?_⟩⟩
      cases hov : policy.1.hostOverride with
      | none => exact hvalue
      | some v =>
        obtain ⟨hne, hfield⟩ := hoverride v hov
        rwa [Option.getD_some, hfield.1.trim_eq]
  rw [buildSelected_eq hbuild, readsBackAs_wireMessage_iff hacc hbase hcontrol hw, hsent,
    sentHeaders_bodyLength_iff hacc.body, length_eq_zero_iff]

theorem post_request_reads_back :
    ReadsBackAs ⟨"POST".toList, "/a".toList, "HTTP/1.1".toList,
        [⟨"Host".toList, "h".toList⟩, ⟨"Content-Length".toList, "1".toList⟩], [120]⟩
      (encode ("POST /b/a HTTP/1.1\r\nHost: h\r\nContent-Length: 1\r\n".toList ++
        "X-Forwarded-For: ::1\r\nX-Forwarded-Proto: http\r\n".toList ++
        "X-Forwarded-Host: h\r\nConnection: close\r\n\r\nx".toList)) :=
  (selected_request_reads_back_iff
    (show parseHttpRequest (encode
        "POST /a HTTP/1.1\r\nHost: h\r\nContent-Length: 1\r\n\r\nx".toList) {} = .ok _ by
      decide +kernel)
    ⟨⟨.http, "127.0.0.1".toList, 8080, "/b".toList, false⟩, "http://127.0.0.1:8080/b".toList,
      by decide +kernel⟩
    ⟨.disabled, by simp [UpstreamTlsPolicy.hostOverride]⟩ ⟨"::1".toList, by decide⟩ .http
    (show _ = some "h".toList by decide +kernel)
    (show buildSelectedUpstreamRequestWithKeepAlive _ _ _ _ _ _ false false = .ok _ by
      decide +kernel)).mpr
    ⟨by decide +kernel, by decide +kernel, by decide +kernel⟩

def lengthlessRequest : Bytes :=
  encode ("POST / HTTP/1.1\r\nHost: h\r\nX-Forwarded-For: ::1\r\n".toList ++
    "X-Forwarded-Proto: http\r\nX-Forwarded-Host: h\r\n\r\nx".toList)

/-- A client that names `Content-Length` in `Connection` has its body sent without a length. -/
theorem content_length_named_in_connection :
    ∃ request output,
      parseHttpRequest (encode ("POST / HTTP/1.1\r\nHost: h\r\n".toList ++
        "Connection: content-length\r\nContent-Length: 1\r\n\r\nx".toList)) {} = .ok request ∧
      buildSelectedUpstreamRequestWithKeepAlive request
        ⟨.http, "127.0.0.1".toList, 8080, [], false⟩ .disabled "::1".toList "http".toList
        "h".toList false true = .ok output ∧
      ¬ ReadsBackAs request output := by
  refine ⟨⟨"POST".toList, "/".toList, "HTTP/1.1".toList, [⟨"Host".toList, "h".toList⟩,
      ⟨"Connection".toList, "content-length".toList⟩, ⟨"Content-Length".toList, "1".toList⟩],
      [120]⟩,
    lengthlessRequest, by decide +kernel, by decide +kernel, fun h => ?_⟩
  obtain ⟨hlen, herror⟩ : lengthlessRequest.length ≤ 100 ∧ parseHttpRequest lengthlessRequest {} =
      .error (malformed "content length does not match body") := by decide +kernel
  obtain ⟨r, hr, -⟩ := h {} ⟨hlen.trans (by decide), hlen.trans (by decide), hlen,
    hlen.trans (by decide)⟩
  exact absurd (herror.symm.trans hr) (by simp)

end ReadBack

end EdgeProxy

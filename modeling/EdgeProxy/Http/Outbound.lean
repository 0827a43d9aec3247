import EdgeProxy.Http.Reparse

/-! # What is sent upstream

The headers of the request built for the upstream, compared with those of the client, and its
planned length. Hop-by-hop headers are dropped and the forwarded headers are the proxy's own; the
other headers of the client stay in their order. The length that is reserved before the request is
built is the length of the bytes written.
-/

namespace EdgeProxy

open Rust List Header

section Length

/-- A length if it fits its type. -/
def checkedLength (n : ℕ) : Except IoError ℕ :=
  if n < usizeBound then .ok n else .error wireLengthOverflow

theorem checkedLength_bind {n total : ℕ} {f : ℕ → Except IoError ℕ} (hle : n ≤ total)
    (h : n < usizeBound → f n = checkedLength total) :
    (checkedLength n >>= f) = checkedLength total := by
  rw [checkedLength]
  split
  · next hn => exact h hn
  · rw [checkedLength, if_neg (by omega)]
    rfl

theorem checkedWireLength_eq (parts : List ℕ) :
    checkedWireLength parts = checkedLength parts.sum := by
  suffices h : ∀ total, total < usizeBound → parts.foldlM (fun total part =>
      if total + part < usizeBound then Except.ok (total + part) else .error wireLengthOverflow)
        total = checkedLength (total + parts.sum) by
    simpa [checkedWireLength] using h 0 (by decide)
  induction parts with
  | nil => simp +contextual [checkedLength, pure, Except.pure]
  | cons part _ ih =>
    intro total htotal
    rw [foldlM_cons, sum_cons, ← Nat.add_assoc]
    exact checkedLength_bind (Nat.le_add_right _ _) (ih _)

def headerLength (h : Header) : ℕ := byteLen h.name + 2 + byteLen h.value + 2

theorem plannedHeadersLen_eq {total : ℕ} (htotal : total < usizeBound) (headers : List Header) :
    plannedHeadersLen total headers =
      checkedLength (total + (headers.map headerLength).sum) := by
  induction headers generalizing total with
  | nil => simp [plannedHeadersLen, checkedLength, htotal]
  | cons h _ ih =>
    have hparts : [total, byteLen h.name, 2, byteLen h.value, 2].sum = total + headerLength h := by
      simp only [sum_cons, sum_nil, headerLength]
      omega
    rw [plannedHeadersLen, checkedWireLength_eq, hparts, map_cons, sum_cons, ← Nat.add_assoc]
    exact checkedLength_bind (Nat.le_add_right _ _) ih

variable (request : HttpRequest) (requestPath : Text) (headers : List Header) (force : Bool)

theorem length_encode_line (h : Header) : (encode (h.line ++ crlf)).length = headerLength h := by
  simp only [line, encode_append, encode_cons, length_append, headerLength, byteLen]
  have hcolon : (String.utf8EncodeChar ':').length = 1 := by decide
  have hblank : (String.utf8EncodeChar ' ').length = 1 := by decide
  have hcrlf : (encode crlf).length = 2 := by decide
  omega

def closeLength (force : Bool) : ℕ := if force then 19 else 0

theorem length_upstreamRequestBytes :
    (upstreamRequestBytes request requestPath headers force).length =
      byteLen request.method + 1 + byteLen requestPath + 1 + byteLen request.version + 2 +
        (headers.map headerLength).sum + closeLength force + 2 + request.body.length := by
  have hblank : (String.utf8EncodeChar ' ').length = 1 := by decide
  have hcrlf : (encode crlf).length = 2 := by decide
  have hlines : (headers.flatMap fun h => encode (h.line ++ crlf)).length =
      (headers.map headerLength).sum := by
    rw [length_flatMap]
    exact congrArg sum (map_congr_left fun h _ => length_encode_line h)
  have hclose : (if force then encode "Connection: close\r\n".toList else []).length =
      closeLength force := by
    cases force with
    | false => rfl
    | true => decide
  simp only [upstreamRequestBytes, length_append, hlines, hclose]
  simp only [encode_append, encode_cons, length_append, hblank, hcrlf, byteLen]
  omega

theorem plannedUpstreamRequestLen_eq :
    plannedUpstreamRequestLenWithConnectionClose request requestPath headers force =
      checkedLength (upstreamRequestBytes request requestPath headers force).length := by
  have hlength := length_upstreamRequestBytes request requestPath headers force
  generalize (upstreamRequestBytes request requestPath headers force).length = total at hlength ⊢
  rw [plannedUpstreamRequestLenWithConnectionClose, checkedWireLength_eq]
  refine checkedLength_bind (by simp only [sum_cons, sum_nil]; omega) fun hline => ?_
  rw [plannedHeadersLen_eq hline]
  refine checkedLength_bind (by simp only [sum_cons, sum_nil]; omega) fun hheaders => ?_
  have hlast : ∀ n, n + 2 + request.body.length = total →
      checkedWireLength [n, 2, request.body.length] = checkedLength total := by
    intro n hn
    have hsum : [n, 2, request.body.length].sum = total := by
      simp only [sum_cons, sum_nil]
      omega
    rw [checkedWireLength_eq, hsum]
  simp only [sum_cons, sum_nil]
  cases force with
  | false =>
    rw [closeLength, if_neg Bool.false_ne_true] at hlength
    exact hlast _ (by omega)
  | true =>
    rw [if_pos rfl, checkedWireLength_eq]
    have hclose : (encode "Connection: close\r\n".toList).length = closeLength true := by decide
    simp only [sum_cons, sum_nil, hclose]
    exact checkedLength_bind (by omega) fun _ => hlast _ (by omega)

/-- What is reserved for a request to a selected upstream is what is written: the plan is the length
of the bytes, and fails exactly when the builder fails. -/
theorem planned_length_eq (upstream : UpstreamEndpoint) (tlsPolicy : UpstreamTlsPolicy)
    (clientIp scheme originalHost : Text) (preserveUpgradeHeaders keepAlive : Bool) :
    plannedSelectedUpstreamRequestLenWithKeepAlive request upstream tlsPolicy clientIp scheme
        originalHost preserveUpgradeHeaders keepAlive =
      (buildSelectedUpstreamRequestWithKeepAlive request upstream tlsPolicy clientIp scheme
        originalHost preserveUpgradeHeaders keepAlive).map length := by
  rw [buildSelectedUpstreamRequestWithKeepAlive,
    buildUpstreamRequestWithHostOverrideAndConnectionClose,
    plannedSelectedUpstreamRequestLenWithKeepAlive, plannedUpstreamRequestLen_eq, checkedLength]
  split_ifs
  · -- the two checks compare a length with itself
    rw [ok_bind, ok_bind, if_neg (not_not_intro rfl), ok_bind, if_neg (not_not_intro rfl)]
    rfl
  · rfl

end Length

section Headers

variable {request : HttpRequest} {clientIp scheme originalHost : Text} {preserve force : Bool}
  {hostOverride : Option Text}

/-- The client's headers that pass: end-to-end and not one of the forwarded names. -/
def isKept (tokens : List Text) (h : Header) : Bool :=
  isEndToEnd tokens h && !forwardedHeaderNames.contains (toAsciiLowercase h.name)

def withHost (hostOverride : Option Text) (h : Header) : Header :=
  if h.isNamed "Host".toList then { h with value := hostOverride.getD h.value } else h

def ownConnection (preserve force : Bool) : List Header :=
  (if preserve then [⟨"Connection".toList, "Upgrade".toList⟩] else []) ++
    if force then [⟨"Connection".toList, "close".toList⟩] else []

@[simp] theorem withHost_name (h : Header) : (withHost hostOverride h).name = h.name := by
  rw [withHost]
  split <;> rfl

@[simp] theorem withHost_none : withHost none = id := by
  funext h
  rw [withHost, Option.getD_none, ite_self, id]

variable {h : Header}

theorem withHost_of_not_host (hhost : h.isNamed "Host".toList = false) :
    withHost hostOverride h = h := by
  rw [withHost, hhost, if_neg Bool.false_ne_true]

theorem overrideHost_eq_map {host : Text} {hs : List Header}
    (hone : (hs.filter (isNamed "Host".toList)).length ≤ 1) :
    overrideHost host hs = hs.map (withHost (some host)) := by
  induction hs with
  | nil => rfl
  | cons _ hs ih =>
    rw [overrideHost, map_cons]
    split
    · next hhost =>
      rw [filter_cons_of_pos hhost, length_cons] at hone
      have hnone : hs.filter (isNamed "Host".toList) = [] :=
        length_eq_zero_iff.mp (by omega)
      have hrest : hs.map (withHost (some host)) = hs :=
        (map_congr_left fun d hd => withHost_of_not_host
          (Bool.eq_false_iff.mpr (filter_eq_nil_iff.mp hnone d hd))).trans (map_id hs)
      rw [hrest, withHost, if_pos hhost, Option.getD_some]
    · next hhost =>
      rw [filter_cons_of_neg hhost] at hone
      rw [ih hone, withHost_of_not_host (Bool.eq_false_iff.mpr hhost)]

def clientPart (request : HttpRequest) (preserve : Bool) : List Header :=
  (upstreamRequestHeaders request.headers preserve).filter fun h =>
    !forwardedHeaderNames.contains (toAsciiLowercase h.name)

theorem sentHeaders_eq (hhost : request.headers.filter (isNamed "Host".toList) = [h]) :
    sentHeaders request clientIp scheme originalHost preserve hostOverride force =
      (clientPart request preserve).map (withHost hostOverride) ++
        forwardedHeaders clientIp scheme originalHost ++ ownConnection false force := by
  have hforwarded : (forwardedHeaders clientIp scheme originalHost).map (withHost hostOverride) =
      forwardedHeaders clientIp scheme originalHost := by
    refine (map_congr_left fun f hf => withHost_of_not_host ?_).trans (map_id _)
    rw [Bool.eq_false_iff, ne_eq, isNamed_iff]
    intro hname
    exact absurd (hname ▸ forwardedHeaders_name hf) (by decide)
  have hprojected : projectedHeaders request clientIp scheme originalHost preserve hostOverride =
      (projectedHeaders request clientIp scheme originalHost preserve none).map
        (withHost hostOverride) := by
    cases hostOverride with
    | none => rw [withHost_none, map_id]
    | some =>
      refine overrideHost_eq_map ((congrArg length
        (projectedHeaders_filter (by decide) (by decide))).trans_le ?_)
      rw [hhost]
      split
      · exact Nat.zero_le 1
      · exact le_refl 1
  rw [sentHeaders, hprojected, projectedHeaders, map_append, hforwarded]
  rfl

theorem not_isEndToEnd_of_connection {tokens : List Text}
    (hname : h.isNamed "Connection".toList = true) : isEndToEnd tokens h = false := by
  have hhop : isHopByHopHeaderName (toAsciiLowercase "Connection".toList) = true := by decide
  rw [isEndToEnd, isNamed_iff.mp hname, hhop, Bool.not_true, Bool.false_and]

theorem clientPart_kept : (clientPart request preserve).filter
      (isKept (connectionHeaderTokens request.headers)) =
    request.headers.filter (isKept (connectionHeaderTokens request.headers)) := by
  have hkeep (tokens : List Text) (keep : Header → Bool)
      (hall : ∀ h, isEndToEnd tokens h = true → keep h = true) :
      ((request.headers.filter keep).filter fun h =>
        !forwardedHeaderNames.contains (toAsciiLowercase h.name)).filter (isKept tokens) =
        request.headers.filter (isKept tokens) := by
    rw [filter_filter, filter_filter]
    refine filter_congr fun h _ => ?_
    cases hk : isKept tokens h with
    | false => simp only [Bool.false_and]
    | true =>
      rw [isKept, Bool.and_eq_true] at hk
      rw [hk.2, hall h hk.1, Bool.and_self, Bool.and_self]
  rw [clientPart, upstreamRequestHeaders]
  split
  · exact hkeep _ _ fun _ h => h
  · rw [filter_append, filter_append, hkeep _ _ fun h hend => by rw [hend, Bool.or_true]]
    have hown (tokens) : isKept tokens ⟨"Connection".toList, "Upgrade".toList⟩ = false := by
      rw [isKept, not_isEndToEnd_of_connection (by decide), Bool.false_and]
    rw [filter_filter, filter_cons_of_neg (by rw [hown, Bool.false_and]; decide),
      filter_nil, append_nil]

theorem mem_clientPart (hh : h ∈ clientPart request preserve) :
    isKept (connectionHeaderTokens request.headers) h = true ∨
      preserve = true ∧ (h ∈ request.headers ∧ isWebsocketUpgradeField h = true ∨
        h = ⟨"Connection".toList, "Upgrade".toList⟩) := by
  obtain ⟨hh, hname⟩ := mem_filter.mp hh
  have hkept {tokens} (hend : isEndToEnd tokens h = true) : isKept tokens h = true := by
    rw [isKept, hend, hname, Bool.and_self]
  rw [upstreamRequestHeaders] at hh
  cases preserve with
  | false => exact .inl (hkept (mem_filter.mp hh).2)
  | true =>
    rcases mem_append.mp hh with hh | hh
    · obtain ⟨hmem, hkeep⟩ := mem_filter.mp hh
      rcases Bool.or_eq_true_iff.mp hkeep with hup | hend
      · exact .inr ⟨rfl, .inl ⟨hmem, hup⟩⟩
      · exact .inl (hkept hend)
    · exact .inr ⟨rfl, .inr (mem_singleton.mp hh)⟩

theorem clientPart_connection : (clientPart request preserve).filter
    (isNamed "Connection".toList) = ownConnection preserve false := by
  have hdropped : ∀ keep : Header → Bool,
      (∀ h, h.isNamed "Connection".toList = true → keep h = false) →
      ((request.headers.filter keep).filter fun h =>
        !forwardedHeaderNames.contains (toAsciiLowercase h.name)).filter
          (isNamed "Connection".toList) = [] := by
    intro keep hnone
    refine filter_eq_nil_iff.mpr fun h hh hname => ?_
    have hkeep := (mem_filter.mp (mem_of_mem_filter hh)).2
    rw [hnone h hname] at hkeep
    exact absurd hkeep Bool.false_ne_true
  rw [clientPart, upstreamRequestHeaders]
  cases preserve with
  | false => exact hdropped _ fun h => not_isEndToEnd_of_connection
  | true =>
    rw [if_neg (by decide), filter_append, filter_append, hdropped]
    · decide
    · intro h hname
      have hup : toAsciiLowercase h.name ≠ "upgrade".toList := by
        rw [isNamed_iff.mp hname]
        decide
      rw [not_isEndToEnd_of_connection hname, isWebsocketUpgradeField, beq_false_of_ne hup,
        Bool.false_and, Bool.false_or]

theorem clientPart_forwarded {f : Header} (hf : toAsciiLowercase f.name ∈ forwardedHeaderNames) :
    (clientPart request preserve).filter (isNamed f.name) = [] := by
  refine filter_eq_nil_iff.mpr fun h hh hname => ?_
  have hnot := (mem_filter.mp hh).2
  rw [isNamed_iff.mp hname, contains_iff_mem.mpr hf] at hnot
  exact absurd hnot (by decide)

theorem filter_map_withHost {p : Header → Bool}
    (hp : ∀ h : Header, p (withHost hostOverride h) = p h) (hs : List Header) :
    (hs.map (withHost hostOverride)).filter p = (hs.filter p).map (withHost hostOverride) := by
  rw [filter_map]
  exact congrArg _ (filter_congr fun h _ => hp h)

theorem isNamed_withHost (name : Text) (h : Header) :
    (withHost hostOverride h).isNamed name = h.isNamed name := by
  rw [isNamed, isNamed, withHost_name]

theorem isKept_withHost (tokens : List Text) (h : Header) :
    isKept tokens (withHost hostOverride h) = isKept tokens h := by
  rw [isKept, isKept, isEndToEnd, isEndToEnd, withHost_name]

section Sent

variable {host : Header} (hhost : request.headers.filter (isNamed "Host".toList) = [host])
include hhost

theorem sentHeaders_connection :
    (sentHeaders request clientIp scheme originalHost preserve hostOverride force).filter
        (isNamed "Connection".toList) = ownConnection preserve force := by
  rw [sentHeaders_eq hhost, filter_append, filter_append,
    filter_map_withHost (isNamed_withHost _), clientPart_connection,
    forwardedHeaders_filter (by decide), append_nil]
  cases preserve <;> cases force <;> rfl

theorem sentHeaders_forwarded {f : Header}
    (hf : f ∈ forwardedHeaders clientIp scheme originalHost) :
    (sentHeaders request clientIp scheme originalHost preserve hostOverride force).filter
        (isNamed f.name) = [f] := by
  have hname := forwardedHeaders_name hf
  have hclose : (ownConnection false force).filter (isNamed f.name) = [] :=
    close_filter fun e => absurd (e ▸ hname) (by decide)
  rw [sentHeaders_eq hhost, filter_append, filter_append,
    filter_map_withHost (isNamed_withHost _), clientPart_forwarded hname, hclose, append_nil,
    map_nil, nil_append]
  simp only [forwardedHeaders, mem_cons, not_mem_nil, or_false] at hf
  -- the three names differ, and the values play no part
  rcases hf with rfl | rfl | rfl <;> rfl

theorem sentHeaders_kept :
    (sentHeaders request clientIp scheme originalHost preserve hostOverride force).filter
        (isKept (connectionHeaderTokens request.headers)) =
      (request.headers.filter (isKept (connectionHeaderTokens request.headers))).map
        (withHost hostOverride) := by
  have hforwarded (tokens) :
      (forwardedHeaders clientIp scheme originalHost).filter (isKept tokens) = [] := by
    refine filter_eq_nil_iff.mpr fun f hf hkept => ?_
    rw [isKept, contains_iff_mem.mpr (forwardedHeaders_name hf), Bool.not_true,
      Bool.and_false] at hkept
    exact absurd hkept Bool.false_ne_true
  have hclose (tokens) : (ownConnection false force).filter (isKept tokens) = [] := by
    refine filter_eq_nil_iff.mpr fun h hh hkept => ?_
    have hname : h.isNamed "Connection".toList = true := by
      cases force with
      | false => exact absurd hh not_mem_nil
      | true =>
        rw [mem_singleton.mp hh]
        decide
    rw [isKept, not_isEndToEnd_of_connection hname, Bool.false_and] at hkept
    exact absurd hkept Bool.false_ne_true
  rw [sentHeaders_eq hhost, filter_append, filter_append,
    filter_map_withHost (isKept_withHost _), clientPart_kept, hforwarded, hclose, append_nil,
    append_nil]

theorem sentHeaders_not_endToEnd
    (hh : h ∈ sentHeaders request clientIp scheme originalHost preserve hostOverride force)
    (hnot : isEndToEnd (connectionHeaderTokens request.headers) h = false) :
    h ∈ forwardedHeaders clientIp scheme originalHost ∨ h ∈ ownConnection preserve force ∨
      preserve = true ∧ h ∈ request.headers ∧ isWebsocketUpgradeField h = true := by
  rw [sentHeaders_eq hhost, mem_append, mem_append] at hh
  rcases hh with (hh | hh) | hh
  · obtain ⟨d, hd, rfl⟩ := mem_map.mp hh
    rw [isEndToEnd, withHost_name, ← isEndToEnd] at hnot
    rcases mem_clientPart hd with hkept | ⟨hpreserve, ⟨hmem, hup⟩ | rfl⟩
    · rw [isKept, hnot, Bool.false_and] at hkept
      exact absurd hkept Bool.false_ne_true
    · have hd : d.isNamed "Host".toList = false := by
        rw [Bool.eq_false_iff, ne_eq, isNamed_iff]
        intro hname
        rw [isWebsocketUpgradeField, hname, Bool.and_eq_true] at hup
        exact absurd hup.1 (by decide)
      rw [withHost_of_not_host hd]
      exact .inr (.inr ⟨hpreserve, hmem, hup⟩)
    · rw [withHost_of_not_host (by decide), ownConnection, hpreserve]
      exact .inr (.inl (mem_append_left _ (mem_singleton_self _)))
  · exact .inl hh
  · exact .inr (.inl (mem_append_right _ hh))

end Sent

/-- The request written to the upstream carries, besides the headers that the proxy sets, only the
client's end-to-end headers in their order, with the `Host` of the TLS policy, and the `Upgrade`
field of a WebSocket request. -/
theorem sent_headers_spec {input : Bytes} {limits : HttpLimits}
    (hparse : parseHttpRequest input limits = .ok request) (upstream : UpstreamEndpoint)
    (policy : UpstreamTlsPolicy) (peer : PeerIp) (scheme originalHost : Text) {keepAlive : Bool}
    {output : Bytes}
    (hbuild : buildSelectedUpstreamRequestWithKeepAlive request upstream policy peer.text scheme
      originalHost preserve keepAlive = .ok output) :
    ∃ hs, output = wireMessage (request.method ++ ' ' :: upstream.joinPath request.path ++ ' ' ::
        request.version) hs request.body ∧
      (∀ h ∈ hs, isEndToEnd (connectionHeaderTokens request.headers) h = false →
        h ∈ forwardedHeaders peer.text scheme originalHost ∨
        h ∈ ownConnection preserve (!preserve && !keepAlive) ∨
        preserve = true ∧ h ∈ request.headers ∧ isWebsocketUpgradeField h = true) ∧
      hs.filter (Header.isNamed "Connection".toList) =
        ownConnection preserve (!preserve && !keepAlive) ∧
      (∀ f ∈ forwardedHeaders peer.text scheme originalHost,
        hs.filter (Header.isNamed f.name) = [f]) ∧
      hs.filter (isKept (connectionHeaderTokens request.headers)) =
        (request.headers.filter (isKept (connectionHeaderTokens request.headers))).map
          (withHost policy.hostOverride) := by
  have hacc := parseHttpRequest_accepted hparse
  obtain ⟨host, hhost, -⟩ := hacc.host
  exact ⟨_, buildSelected_eq hbuild, fun _ => sentHeaders_not_endToEnd hhost,
    sentHeaders_connection hhost, fun _ => sentHeaders_forwarded hhost, sentHeaders_kept hhost⟩

theorem sent_headers_of_get :
    ∃ hs, encode ("GET /a HTTP/1.1\r\nHost: h\r\nX-Forwarded-For: ::1\r\n".toList ++
        "X-Forwarded-Proto: http\r\nX-Forwarded-Host: h\r\nConnection: close\r\n\r\n".toList) =
        wireMessage "GET /a HTTP/1.1".toList hs [] ∧
      (∀ f ∈ forwardedHeaders "::1".toList "http".toList "h".toList,
        hs.filter (Header.isNamed f.name) = [f]) := by
  obtain ⟨hs, hout, -, -, hforwarded, -⟩ := sent_headers_spec
    (show parseHttpRequest (encode ("GET /a HTTP/1.1\r\nHost: h\r\nTE: trailers\r\n".toList ++
        "X-Forwarded-For: 9.9.9.9\r\n\r\n".toList)) {} = .ok ⟨"GET".toList, "/a".toList,
          "HTTP/1.1".toList, [⟨"Host".toList, "h".toList⟩, ⟨"TE".toList, "trailers".toList⟩,
            ⟨"X-Forwarded-For".toList, "9.9.9.9".toList⟩], []⟩ by decide +kernel)
    ⟨.http, "127.0.0.1".toList, 8080, [], false⟩ .disabled ⟨"::1".toList, by decide⟩ "http".toList
    "h".toList
    (show buildSelectedUpstreamRequestWithKeepAlive _ _ _ _ _ _ false false =
        .ok (encode ("GET /a HTTP/1.1\r\nHost: h\r\nX-Forwarded-For: ::1\r\n".toList ++
          "X-Forwarded-Proto: http\r\nX-Forwarded-Host: h\r\nConnection: close\r\n\r\n".toList)) by
      decide +kernel)
  exact ⟨hs, hout, hforwarded⟩

/-- The `Upgrade` field of a WebSocket request is sent although it is hop-by-hop, and the `Host`
of a request to a TLS upstream is not the client's. -/
theorem upgrade_sent_and_host_replaced :
    ∃ request output sent,
      parseHttpRequest (encode ("GET / HTTP/1.1\r\nHost: h\r\nConnection: upgrade\r\n".toList ++
        "Upgrade: websocket\r\n\r\n".toList)) {} = .ok request ∧
      isWebsocketUpgrade request = true ∧
      buildSelectedUpstreamRequestWithKeepAlive request
        ⟨.https, "127.0.0.1".toList, 443, [], false⟩
        (.serverAuthenticated ⟨"b.test".toList⟩ ⟨"b.test".toList⟩ ⟨"ca".toList⟩) "::1".toList
        "http".toList "h".toList true false = .ok output ∧
      parseHttpRequest output {} = .ok sent ∧
      (∃ h ∈ sent.headers, isHopByHopHeaderName (toAsciiLowercase h.name) = true ∧
        h ∉ ownConnection true false) ∧
      sent.headers.filter (isKept (connectionHeaderTokens request.headers)) ≠
        request.headers.filter (isKept (connectionHeaderTokens request.headers)) := by
  refine ⟨⟨"GET".toList, "/".toList, "HTTP/1.1".toList, [⟨"Host".toList, "h".toList⟩,
      ⟨"Connection".toList, "upgrade".toList⟩, ⟨"Upgrade".toList, "websocket".toList⟩], []⟩,
    encode ("GET / HTTP/1.1\r\nHost: b.test\r\nUpgrade: websocket\r\n".toList ++
      "Connection: Upgrade\r\nX-Forwarded-For: ::1\r\n".toList ++
      "X-Forwarded-Proto: http\r\nX-Forwarded-Host: h\r\n\r\n".toList),
    ⟨"GET".toList, "/".toList, "HTTP/1.1".toList, [⟨"Host".toList, "b.test".toList⟩,
      ⟨"Upgrade".toList, "websocket".toList⟩, ⟨"Connection".toList, "Upgrade".toList⟩,
      ⟨"X-Forwarded-For".toList, "::1".toList⟩, ⟨"X-Forwarded-Proto".toList, "http".toList⟩,
      ⟨"X-Forwarded-Host".toList, "h".toList⟩], []⟩,
    by decide +kernel⟩

end Headers

end EdgeProxy

import EdgeProxy.Http.ResponseHead
import EdgeProxy.Lib.Blanks

/-! # The grammar of accepted requests

The request parser splits the request line at white space and reads numbers with the library
functions, so it accepts more than the grammar of HTTP/1.1. Each extra form is a property of the
header text that can be seen without parsing it.
-/

namespace EdgeProxy

open Rust List

def splitRequestHead (input : Bytes) : Option (Text × List Text) :=
  match splitHeaderEnd input with
  | none => none
  | some (headerBytes, _) =>
    match (decode headerBytes).map splitCrlf with
    | some (requestLine :: lines) => some (requestLine, lines)
    | _ => none

def requestLineOf (input : Bytes) : Text := ((splitRequestHead input).map Prod.fst).getD []

def requestFields (input : Bytes) : List Header :=
  rawFields (((splitRequestHead input).map Prod.snd).getD [])

/-- A token, a space, a target without white space and control characters, a space and the
version. -/
def StrictRequestLine (line : Text) : Prop :=
  ∃ method target, line = method ++ ' ' :: (target ++ ' ' :: "HTTP/1.1".toList) ∧
    isHttpToken method = true ∧ target ≠ [] ∧
    ∀ c ∈ target, isWhitespace c = false ∧ isControl c = false

/-- The head of a request as the grammar has it. The lengths of all `Content-Length` fields are
equal, and are the length of the body. -/
structure StrictRequest (input : Bytes) (bodyLength : ℕ) : Prop where
  requestLine : StrictRequestLine (requestLineOf input)
  lines : ∃ line, splitRequestHead input = some (line, (requestFields input).map Header.rawLine)
  names : ∀ h ∈ requestFields input, isHttpToken h.name = true
  values : ∀ h ∈ requestFields input, ∀ c ∈ h.value, c ≠ '\r' ∧ c ≠ '\n' ∧ c ≠ '\x00'
  length : ∀ h ∈ requestFields input, h.isContentLength = true →
    strictNumber 10 h.value = some bodyLength
  exclusive : ∀ h ∈ requestFields input, ∀ d ∈ requestFields input,
    h.isTransferEncoding = true → d.isContentLength = false

/-- None of the lenient forms: the white space of the request line is two spaces, it holds none of
the control characters above ASCII, no length has a plus sign or white space other than blanks, and
an empty `Transfer-Encoding` does not come with a length. -/
structure PlainRequest (input : Bytes) : Prop where
  spaces : (requestLineOf input).filter isWhitespace = [' ', ' ']
  controls : ∀ c ∈ requestLineOf input, ¬ (128 ≤ c.toNat ∧ c.toNat ≤ 159)
  length : ∀ h ∈ requestFields input, h.isContentLength = true →
    BlanksOnly h.value ∧ '+' ∉ h.value
  exclusive : ∀ h ∈ requestFields input, ∀ d ∈ requestFields input,
    h.isTransferEncoding = true → trim h.value = [] → d.isContentLength = false

theorem parseHeaderLines_raw {maxHeaderCount count : ℕ} {lines : List Text} {hs : List Header}
    (h : parseHeaderLines maxHeaderCount count lines = .ok hs) : ∃ raw : List Header,
      lines = raw.map Header.rawLine ∧ (∀ h ∈ raw, h.Clean) ∧
        hs = raw.map fun h => ⟨h.name, trim h.value⟩ := by
  induction lines generalizing count hs with
  | nil =>
    obtain rfl : [] = hs := Except.ok.inj h
    exact ⟨[], rfl, fun _ hh => absurd hh not_mem_nil, rfl⟩
  | cons _ _ ih =>
    obtain ⟨_, _, hline, hrest, rfl⟩ := parseHeaderLines_cons_ok h
    obtain ⟨raw, rfl, hclean, rfl⟩ := ih hrest
    obtain ⟨name, value, hsplit, hname, hvalue, rfl⟩ := parseHeaderLine_ok hline
    refine ⟨⟨name, value⟩ :: raw, ?_, forall_mem_cons.mpr ⟨⟨hname, hvalue⟩, hclean⟩, rfl⟩
    rw [map_cons, Header.rawLine, (splitOnce_eq_some hsplit).1]

structure AcceptedHead (input : Bytes) (r : HttpRequest) : Prop where
  split : splitRequestHead input =
    some (requestLineOf input, (requestFields input).map Header.rawLine)
  words : splitWhitespace (requestLineOf input) = [r.method, r.path, "HTTP/1.1".toList]
  method : isHttpToken r.method = true
  target : containsProhibitedRequestTargetControl r.path = false
  clean : ∀ h ∈ requestFields input, h.Clean
  transferEncoding : ∀ h ∈ requestFields input, h.isTransferEncoding = true → trim h.value = []
  contentLength : ∀ h ∈ requestFields input, h.isContentLength = true →
    parseUsize (trim h.value) = some r.body.length

variable {input : Bytes} {r : HttpRequest}

theorem acceptedHead_of_parse {limits : HttpLimits}
    (h : parseHttpRequest input limits = .ok r) : AcceptedHead input r := by
  obtain ⟨headerBytes, _, hend, -, -, hdecode, h⟩ := parseHttpRequest_ok_iff.mp h
  obtain ⟨line, _, hlines, -, hline, hhs, -, hbody, -, -⟩ := parseHeaderText_ok_iff.mp h
  obtain ⟨hwords, hmethod, htarget, hversion, -⟩ := validateRequestLine_ok_iff.mp hline
  obtain ⟨raw, rfl, hclean, hheaders⟩ := parseHeaderLines_raw hhs
  have hsplit : splitRequestHead input = some (line, raw.map Header.rawLine) := by
    rw [splitRequestHead, hend]
    simp only [hdecode, Option.map_some, hlines]
  have hline : requestLineOf input = line := by rw [requestLineOf, hsplit]; rfl
  have hfields : requestFields input = raw := by
    rw [requestFields, hsplit]
    exact rawFields_rawLine hclean
  have hparsed : ∀ h ∈ raw, (⟨h.name, trim h.value⟩ : Header) ∈ r.headers := fun h hh =>
    hheaders ▸ mem_map_of_mem hh
  refine ⟨by rw [hline, hfields]; exact hsplit, by rw [hline, ← hversion]; exact hwords, hmethod,
    htarget, by rw [hfields]; exact hclean, ?_, ?_⟩
  · rw [hfields]
    intro h hh hname
    exact (trimmed_trim h.value).trim_eq.symm.trans (hbody.transferEncoding _ (hparsed h hh) hname)
  · rw [hfields]
    intro h hh hname
    rw [← (trimmed_trim h.value).trim_eq]
    exact hbody.contentLength _ (hparsed h hh) hname

theorem toNat_lt_of_isHttpToken {t : Text} (h : isHttpToken t = true) : ∀ c ∈ t, c.toNat < 128 := by
  rw [isHttpToken, Bool.and_eq_true, all_eq_true] at h
  intro c hc
  have hchar := h.2 c hc
  rw [isHttpTokenChar, Bool.or_eq_true, contains_iff_mem] at hchar
  rcases hchar with hc | hc
  · rw [isAsciiAlphanumeric_iff] at hc
    omega
  · exact (by decide : ∀ c ∈ tokenSpecials, c.toNat < 128) c hc

theorem AcceptedHead.strictRequestLine_iff
    (h : AcceptedHead input r) : StrictRequestLine (requestLineOf input) ↔
      (requestLineOf input).filter isWhitespace = [' ', ' '] ∧
        ∀ c ∈ requestLineOf input, ¬ (128 ≤ c.toNat ∧ c.toNat ≤ 159) := by
  rw [← splitWhitespace_three_iff h.words]
  constructor
  · rintro ⟨method, target, hline, hmethod, hne, htarget⟩
    have hsplit := h.words
    have hword : ∀ c ∈ method, isWhitespace c = false := fun c hc =>
      ((isHttpToken_mem hmethod).2 c hc).1
    rw [hline, splitWhitespace_append (by decide), splitWhitespace_append (by decide),
      splitWhitespace_word (isHttpToken_mem hmethod).1 hword,
      splitWhitespace_word hne fun c hc => (htarget c hc).1,
      splitWhitespace_word (by decide) (by decide)] at hsplit
    obtain ⟨rfl, rfl⟩ : method = r.method ∧ target = r.path := by simpa using hsplit
    refine ⟨hline, fun c hc => ?_⟩
    rw [hline, mem_append, mem_cons, mem_append, mem_cons] at hc
    rcases hc with hc | rfl | hc | rfl | hc
    · have hc := toNat_lt_of_isHttpToken hmethod c hc
      omega
    · decide
    · have hc := (htarget c hc).2
      simp only [isControl, Bool.or_eq_false_iff, Bool.and_eq_false_iff,
        decide_eq_false_iff_not] at hc
      omega
    · decide
    · revert c
      decide
  · rintro ⟨hline, hcontrols⟩
    have hpath := mem_splitWhitespace (t := requestLineOf input) (w := r.path)
      (by rw [h.words]; simp)
    refine ⟨r.method, r.path, hline, h.method, hpath.1, fun c hc => ?_⟩
    have htarget := h.target
    rw [containsProhibitedRequestTargetControl, any_eq_false] at htarget
    have hc₁ := htarget c hc
    have hc₂ := hcontrols c (hpath.2 c hc).1
    refine ⟨(hpath.2 c hc).2, ?_⟩
    simp only [isProhibitedTargetControl, Bool.or_eq_true, decide_eq_true_eq, beq_iff_eq,
      not_or] at hc₁
    simp only [isControl, Bool.or_eq_false_iff, Bool.and_eq_false_iff, decide_eq_false_iff_not]
    omega

/-- An accepted request has the strict form exactly if it uses none of the lenient forms. -/
theorem accepted_request_strict_iff {limits : HttpLimits}
    (haccept : parseHttpRequest input limits = .ok r) :
    StrictRequest input r.body.length ↔ PlainRequest input := by
  have h := acceptedHead_of_parse haccept
  constructor
  · rintro ⟨hline, -, -, -, hlength, hexclusive⟩
    obtain ⟨hspaces, hcontrols⟩ := h.strictRequestLine_iff.mp hline
    refine ⟨hspaces, hcontrols, fun d hd hname => ?_, fun d hd d' hd' hname _ =>
      hexclusive d hd d' hd' hname⟩
    have hstrict := hlength d hd hname
    have hblanks := blanksOnly_of_strictNumber hstrict
    exact ⟨hblanks, (strictNumber_eq_iff hblanks (h.contentLength d hd hname)).mp hstrict⟩
  · rintro ⟨hspaces, hcontrols, hlength, hexclusive⟩
    refine ⟨h.strictRequestLine_iff.mpr ⟨hspaces, hcontrols⟩, ⟨_, h.split⟩,
      fun d hd => (h.clean d hd).name, fun d hd c hc => ?_, fun d hd hname => ?_,
      fun d hd d' hd' hname => hexclusive d hd d' hd' hname (h.transferEncoding d hd hname)⟩
    · have hvalue := (h.clean d hd).value
      rw [containsProhibitedHttpFieldValueControl, any_eq_false] at hvalue
      have hc := hvalue c hc
      refine ⟨?_, ?_, ?_⟩ <;> rintro rfl <;> exact hc (by decide)
    · obtain ⟨hblanks, hplus⟩ := hlength d hd hname
      exact (strictNumber_eq_iff hblanks (h.contentLength d hd hname)).mpr hplus

def oneByteRequest (blank : String) : Bytes :=
  encode ("POST".toList ++ blank.toList ++
    "/ HTTP/1.1\r\nHost: h\r\nContent-Length: 1\r\n\r\nx".toList)

theorem one_byte_request_strict : StrictRequest (oneByteRequest " ") 1 := by
  have haccept : parseHttpRequest (oneByteRequest " ") {} = .ok ⟨"POST".toList, "/".toList,
      "HTTP/1.1".toList, [⟨"Host".toList, "h".toList⟩, ⟨"Content-Length".toList, "1".toList⟩],
      [120]⟩ := by
    decide
  exact (accepted_request_strict_iff haccept).mpr ⟨by decide, by decide,
    by decide, by decide⟩

/-- A request line with two spaces is accepted. -/
theorem two_spaces_accepted :
    ∃ r, parseHttpRequest (oneByteRequest "  ") {} = .ok r ∧
      ¬ StrictRequestLine (requestLineOf (oneByteRequest "  ")) := by
  refine ⟨⟨"POST".toList, "/".toList, "HTTP/1.1".toList,
    [⟨"Host".toList, "h".toList⟩, ⟨"Content-Length".toList, "1".toList⟩], [120]⟩,
    by decide, ?_⟩
  rintro ⟨_, _, hline, hmethod, hne, htarget⟩
  have hwords : (requestLineOf (oneByteRequest "  ")).filter isWhitespace = [' ', ' ', ' '] := by
    decide
  have hnone : ∀ {w : Text}, (∀ c ∈ w, isWhitespace c = false) → w.filter isWhitespace = [] :=
    fun hw => filter_eq_nil_iff.mpr fun c hc => Bool.eq_false_iff.mp (hw c hc)
  rw [hline, filter_append, filter_cons_of_pos (by decide), filter_append,
    filter_cons_of_pos (by decide), hnone fun c hc => ((isHttpToken_mem hmethod).2 c hc).1,
    hnone fun c hc => (htarget c hc).1] at hwords
  exact absurd hwords (by decide)

end EdgeProxy

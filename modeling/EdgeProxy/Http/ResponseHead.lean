import EdgeProxy.Http.Sanitizer
import EdgeProxy.Lib.Lines

/-! # The head of a response, before and after sanitizing

A header block that the framer accepts is a status line and fields; the scan of the framer is a
function of the fields. The sanitized block is again a status line and fields, so that what the
client reads from it can be compared with what the framer read. The sanitizer is fed what the framer
consumed; `Feeds.sanitize` shows that the two stay in step.
-/

namespace EdgeProxy

open Rust List Header

/-- The loop body of the framer for one field, after its name and value are checked. -/
def scanField (acc : FramingHeaders) (h : Header) : Except AppError FramingHeaders := do
  let acc ← scanContentLength acc h.name h.value
  let acc ← scanTransferEncoding acc h.name h.value
  return scanConnection acc h.name h.value

def scanFields (acc : FramingHeaders) : List Header → Except AppError FramingHeaders
  | [] => .ok acc
  | h :: hs => do
    let acc ← scanField acc h
    scanFields acc hs

def isChunkedCoding (coding : Text) : Bool := eqIgnoreAsciiCase coding "chunked".toList

/-- The codings that all `Transfer-Encoding` fields name, in order. -/
def transferCodings (hs : List Header) : List Text :=
  (hs.filter Header.isTransferEncoding).flatMap fun h => (h.value.splitOn ',').map trim

def lengthValues (hs : List Header) : List Text :=
  (hs.filter Header.isContentLength).map fun h => trim h.value

/-- The length found after one field more may have been read: a second one is refused. -/
def LengthOf (found : Option ℕ) (found' : Option ℕ) : List Text → Prop
  | [] => found' = found
  | [value] => found = none ∧ ∃ n, parseUsize value = some n ∧ found' = some n
  | _ => False

structure Scans (acc : FramingHeaders) (hs : List Header) (acc' : FramingHeaders) : Prop where
  codings : ∀ coding ∈ transferCodings hs, coding ≠ []
  length : LengthOf acc.contentLength acc'.contentLength (lengthValues hs)
  present : acc'.transferEncodingPresent =
    (acc.transferEncodingPresent || hs.any Header.isTransferEncoding)
  chunked : acc'.transferEncodingChunked =
    ((transferCodings hs).getLast?.map isChunkedCoding).getD acc.transferEncodingChunked
  seen : acc'.chunkedCodingSeen =
    (acc.chunkedCodingSeen || (transferCodings hs).any isChunkedCoding)
  close : acc'.connectionClose =
    (acc.connectionClose || (connectionHeaderTokens hs).contains "close".toList)

theorem lastChunked_cons (coding : Text) (codings : List Text) (before : Bool) :
    ((coding :: codings).getLast?.map isChunkedCoding).getD before =
      (codings.getLast?.map isChunkedCoding).getD (isChunkedCoding coding) := by
  rw [getLast?_cons, Option.map_some, Option.getD_some]
  cases codings.getLast? <;> rfl

theorem lastChunked_append (l r : List Text) (before : Bool) :
    ((l ++ r).getLast?.map isChunkedCoding).getD before =
      (r.getLast?.map isChunkedCoding).getD ((l.getLast?.map isChunkedCoding).getD before) := by
  rw [getLast?_append]
  cases r.getLast? <;> rfl

variable {acc acc' : FramingHeaders}

theorem scanCodings_ok_iff {codings : List Text} :
    scanCodings acc codings = .ok acc' ↔ (∀ coding ∈ codings.map trim, coding ≠ []) ∧
      acc' = { acc with
        transferEncodingChunked :=
          ((codings.map trim).getLast?.map isChunkedCoding).getD acc.transferEncodingChunked
        chunkedCodingSeen :=
          acc.chunkedCodingSeen || (codings.map trim).any isChunkedCoding } := by
  induction codings generalizing acc with
  | nil => simp [scanCodings, eq_comm]
  | cons _ _ ih =>
    rw [scanCodings, map_cons, forall_mem_cons, any_cons]
    dsimp only
    split
    · next hempty => simp [List.isEmpty_iff.mp hempty]
    · next hempty =>
      rw [List.isEmpty_iff] at hempty
      rw [ih, lastChunked_cons, Bool.or_assoc, and_assoc]
      exact ⟨fun h => ⟨hempty, h⟩, fun h => h.2⟩

section Field

variable {acc acc' : FramingHeaders} {h : Header}

theorem lengthValues_append (l r : List Header) :
    lengthValues (l ++ r) = lengthValues l ++ lengthValues r := by
  rw [lengthValues, filter_append, map_append, lengthValues, lengthValues]

theorem transferCodings_append (l r : List Header) :
    transferCodings (l ++ r) = transferCodings l ++ transferCodings r := by
  rw [transferCodings, filter_append, flatMap_append, transferCodings, transferCodings]

theorem connectionHeaderTokens_append (l r : List Header) : connectionHeaderTokens (l ++ r) =
    connectionHeaderTokens l ++ connectionHeaderTokens r := by
  rw [connectionHeaderTokens, filter_append, flatMap_append, connectionHeaderTokens,
    connectionHeaderTokens]

theorem scanContentLength_ok_iff : scanContentLength acc h.name h.value = .ok acc' ↔
    ∃ found, LengthOf acc.contentLength found (lengthValues [h]) ∧
      acc' = { acc with contentLength := found } := by
  rw [scanContentLength]
  by_cases hname : h.isContentLength = true
  · have hname' : eqIgnoreAsciiCase h.name "Content-Length".toList = true := hname
    have hvalues : lengthValues [h] = [trim h.value] := by simp [lengthValues, hname]
    rw [hname', hvalues, if_neg (by decide)]
    cases hfound : acc.contentLength with
    | some => simp [LengthOf]
    | none =>
      rw [Option.isSome_none, if_neg Bool.false_ne_true]
      cases hvalue : parseUsize (trim h.value) with
      | none => simp [LengthOf, hvalue]
      | some => simp [LengthOf, hvalue, eq_comm]
  · have hname' : eqIgnoreAsciiCase h.name "Content-Length".toList = false :=
      Bool.eq_false_iff.mpr hname
    have hvalues : lengthValues [h] = [] := by simp [lengthValues, hname]
    rw [hname', hvalues, if_pos (by decide), Except.ok.injEq]
    constructor
    · rintro rfl
      exact ⟨acc.contentLength, rfl, rfl⟩
    · rintro ⟨_, rfl, rfl⟩
      rfl

theorem scanTransferEncoding_ok_iff : scanTransferEncoding acc h.name h.value = .ok acc' ↔
    (∀ coding ∈ transferCodings [h], coding ≠ []) ∧
      acc' = { acc with
        transferEncodingPresent := acc.transferEncodingPresent || h.isTransferEncoding
        transferEncodingChunked :=
          ((transferCodings [h]).getLast?.map isChunkedCoding).getD acc.transferEncodingChunked
        chunkedCodingSeen :=
          acc.chunkedCodingSeen || (transferCodings [h]).any isChunkedCoding } := by
  rw [scanTransferEncoding]
  by_cases hname : h.isTransferEncoding = true
  · have hname' : eqIgnoreAsciiCase h.name "Transfer-Encoding".toList = true := hname
    have hcodings : transferCodings [h] = (h.value.splitOn ',').map trim := by
      simp [transferCodings, hname]
    rw [hname', if_neg (by decide), scanCodings_ok_iff, hcodings, hname, Bool.or_true]
  · have hname' : eqIgnoreAsciiCase h.name "Transfer-Encoding".toList = false :=
      Bool.eq_false_iff.mpr hname
    have hcodings : transferCodings [h] = [] := by simp [transferCodings, hname]
    rw [hname', if_pos (by decide), Except.ok.injEq, Bool.eq_false_iff.mpr hname, Bool.or_false,
      hcodings, any_nil, Bool.or_false]
    exact ⟨fun e => ⟨fun _ hc => absurd hc not_mem_nil, e.symm⟩, fun e => e.2.symm⟩

theorem scanConnection_eq : scanConnection acc h.name h.value =
    { acc with connectionClose :=
        acc.connectionClose || (connectionHeaderTokens [h]).contains "close".toList } := by
  rw [scanConnection]
  by_cases hname : h.isNamed "Connection".toList = true
  · have hname' : eqIgnoreAsciiCase h.name "Connection".toList = true := hname
    have hany : ((h.value.splitOn ',').any fun token =>
        eqIgnoreAsciiCase (trim token) "close".toList) =
        (connectionHeaderTokens [h]).contains "close".toList := by
      rw [connectionHeaderTokens, filter_cons_of_pos hname, filter_nil, flatMap_singleton,
        contains_eq_any_beq, any_map]
      exact any_congr rfl fun token => Bool.beq_comm
    rw [hname', if_neg (by decide), hany]
  · have hname' : eqIgnoreAsciiCase h.name "Connection".toList = false :=
      Bool.eq_false_iff.mpr hname
    have htokens : connectionHeaderTokens [h] = [] := by
      rw [connectionHeaderTokens, filter_cons_of_neg hname, filter_nil, flatMap_nil]
    rw [hname', if_pos (by decide), htokens, contains_nil, Bool.or_false]

theorem scanField_ok_iff : scanField acc h = .ok acc' ↔ Scans acc [h] acc' := by
  simp only [scanField, bind_eq_ok, scanContentLength_ok_iff, scanTransferEncoding_ok_iff,
    scanConnection_eq, pure, Except.pure, Except.ok.injEq]
  constructor
  · rintro ⟨_, ⟨_, hlength, rfl⟩, _, ⟨hcodings, rfl⟩, rfl⟩
    exact ⟨hcodings, hlength, by rw [any_cons, any_nil, Bool.or_false], rfl, rfl, rfl⟩
  · rintro ⟨hcodings, hlength, hpresent, hchunked, hseen, hclose⟩
    refine ⟨_, ⟨acc'.contentLength, hlength, rfl⟩, _, ⟨hcodings, rfl⟩, ?_⟩
    rw [any_cons, any_nil, Bool.or_false] at hpresent
    cases acc'
    simp only at hpresent hchunked hseen hclose ⊢
    rw [hpresent, hchunked, hseen, hclose]

end Field

theorem lengthOf_append {found found' : Option ℕ} (l r : List Text) :
    LengthOf found found' (l ++ r) ↔
      ∃ found₁, LengthOf found found₁ l ∧ LengthOf found₁ found' r := by
  match l, r with
  | [], r => exact ⟨fun h => ⟨found, rfl, h⟩, by rintro ⟨_, rfl, h⟩; exact h⟩
  | [v], [] => exact ⟨fun h => ⟨found', h, rfl⟩, by rintro ⟨_, h, rfl⟩; exact h⟩
  | [v], [w] =>
    refine ⟨False.elim, ?_⟩
    rintro ⟨_, ⟨_, _, _, rfl⟩, h, -⟩
    exact absurd h (by simp)
  | [v], w :: w' :: r => exact ⟨False.elim, fun ⟨_, _, h⟩ => h⟩
  | v :: v' :: l, r => exact ⟨False.elim, fun ⟨_, h, _⟩ => h⟩

variable {h : Header} {hs : List Header}

theorem scans_cons_iff :
    Scans acc (h :: hs) acc' ↔ ∃ mid, Scans acc [h] mid ∧ Scans mid hs acc' := by
  have hcodings := transferCodings_append [h] hs
  have hlengths := lengthValues_append [h] hs
  rw [singleton_append] at hcodings hlengths
  have hcontains : (connectionHeaderTokens (h :: hs)).contains "close".toList =
      ((connectionHeaderTokens [h]).contains "close".toList ||
        (connectionHeaderTokens hs).contains "close".toList) := by
    rw [← singleton_append, connectionHeaderTokens_append, contains_eq_any_beq, any_append,
      contains_eq_any_beq, contains_eq_any_beq]
  constructor
  · rintro ⟨hcod, hlength, hpresent, hchunked, hseen, hclose⟩
    rw [hlengths, lengthOf_append] at hlength
    rw [hcodings] at hcod hchunked hseen
    obtain ⟨found, hfirst, hrest⟩ := hlength
    refine ⟨{ contentLength := found
              transferEncodingPresent := acc.transferEncodingPresent || h.isTransferEncoding
              transferEncodingChunked := ((transferCodings [h]).getLast?.map isChunkedCoding).getD
                acc.transferEncodingChunked
              chunkedCodingSeen :=
                acc.chunkedCodingSeen || (transferCodings [h]).any isChunkedCoding
              connectionClose :=
                acc.connectionClose || (connectionHeaderTokens [h]).contains "close".toList },
      ⟨fun c hc => hcod c (mem_append_left _ hc), hfirst, ?_, rfl, rfl, rfl⟩,
      ⟨fun c hc => hcod c (mem_append_right _ hc), hrest, ?_, ?_, ?_, ?_⟩⟩
    · rw [any_cons, any_nil, Bool.or_false]
    · rw [hpresent, any_cons, Bool.or_assoc]
    · rw [hchunked, lastChunked_append]
    · rw [hseen, any_append, Bool.or_assoc]
    · rw [hclose, hcontains, Bool.or_assoc]
  · rintro ⟨_, h₁, h₂⟩
    refine ⟨?_, ?_, ?_, ?_, ?_, ?_⟩
    · rw [hcodings]
      exact fun c hc => (mem_append.mp hc).elim (h₁.codings c) (h₂.codings c)
    · rw [hlengths, lengthOf_append]
      exact ⟨_, h₁.length, h₂.length⟩
    · rw [h₂.present, h₁.present, any_cons, any_cons, any_nil, Bool.or_false, Bool.or_assoc]
    · rw [hcodings, lastChunked_append, h₂.chunked, h₁.chunked]
    · rw [hcodings, any_append, h₂.seen, h₁.seen, Bool.or_assoc]
    · rw [hcontains, h₂.close, h₁.close, Bool.or_assoc]

theorem scanFields_ok_iff : scanFields acc hs = .ok acc' ↔ Scans acc hs acc' := by
  induction hs generalizing acc with
  | nil =>
    rw [scanFields, Except.ok.injEq]
    constructor
    · rintro rfl
      exact ⟨fun _ hc => absurd hc not_mem_nil, rfl, (Bool.or_false _).symm, rfl,
        (Bool.or_false _).symm, (Bool.or_false _).symm⟩
    · rintro ⟨-, hlength, hpresent, hchunked, hseen, hclose⟩
      cases acc
      cases acc'
      simp_all [LengthOf, lengthValues, transferCodings, connectionHeaderTokens]
  | cons _ _ ih =>
    simp only [scanFields, bind_eq_ok, scanField_ok_iff, ih]
    exact scans_cons_iff.symm

variable {code : ℕ} {framing : ResponseBodyFraming} {close : Bool}

section Read

/-- The line of a field, with its value as it was received. -/
def Header.rawLine (h : Header) : Text := h.name ++ ':' :: h.value

structure Header.Clean (h : Header) : Prop where
  name : isHttpToken h.name = true
  value : containsProhibitedHttpFieldValueControl h.value = false

theorem Header.Clean.splitOnce_rawLine (hclean : h.Clean) :
    splitOnce ':' h.rawLine = some (h.name, h.value) :=
  splitOnce_append _ fun hc => ((isHttpToken_mem hclean.name).2 _ hc).2.1 rfl

theorem Header.Clean.rawLine_spec (hclean : h.Clean) : h.rawLine ≠ [] ∧ '\r' ∉ h.rawLine := by
  refine ⟨by simp [rawLine], ?_⟩
  rw [rawLine, mem_append, mem_cons, not_or, not_or]
  exact ⟨fun hc => ((isHttpToken_mem hclean.name).2 _ hc).2.2 rfl, by decide,
    notMem_cr_of_controls hclean.value⟩

def rawFields (lines : List Text) : List Header :=
  lines.filterMap fun line => (splitOnce ':' line).map fun (name, value) => ⟨name, value⟩

theorem rawFields_rawLine (hclean : ∀ h ∈ hs, h.Clean) : rawFields (hs.map rawLine) = hs := by
  rw [rawFields, filterMap_map]
  refine (filterMap_congr fun h hh => ?_).trans filterMap_some
  rw [Function.comp_apply, (hclean h hh).splitOnce_rawLine]
  rfl

variable {acc acc' : FramingHeaders} {lines : List Text} {head : Bytes} {statusLine : Text}
  {e : ResponseBodyExpectation}

theorem scanFramingLine_ok_iff {line : Text} :
    scanFramingLine acc line = .ok acc' ↔
      ∃ h : Header, line = h.rawLine ∧ h.Clean ∧ scanField acc h = .ok acc' := by
  constructor
  · intro hline
    rw [scanFramingLine] at hline
    split at hline
    · simp at hline
    · next name value hsplit =>
      rw [ite_error_eq_ok, ite_error_eq_ok] at hline
      obtain ⟨hname, hvalue, hscan⟩ := hline
      exact ⟨⟨name, value⟩, (splitOnce_eq_some hsplit).1,
        ⟨by simpa using hname, by simpa using hvalue⟩,
        hscan⟩
  · rintro ⟨h, rfl, hclean, hscan⟩
    rw [scanFramingLine, hclean.splitOnce_rawLine]
    simp only [hclean.name, hclean.value, Bool.not_true, Bool.false_eq_true, if_false]
    exact hscan

theorem scanFramingLines_ok_iff :
    scanFramingLines acc lines = .ok acc' ↔ ∃ hs : List Header, lines = hs.map rawLine ∧
      (∀ h ∈ hs, h.Clean) ∧ Scans acc hs acc' := by
  simp only [← scanFields_ok_iff]
  induction lines generalizing acc with
  | nil =>
    constructor
    · intro h
      exact ⟨[], rfl, fun _ hh => absurd hh not_mem_nil, h⟩
    · rintro ⟨hs, hnil, -, hscan⟩
      obtain rfl := map_eq_nil_iff.mp hnil.symm
      exact hscan
  | cons _ _ ih =>
    simp only [scanFramingLines, bind_eq_ok, scanFramingLine_ok_iff, ih]
    constructor
    · rintro ⟨_, ⟨h, rfl, hclean, hscan⟩, hs, rfl, hcleans, hscans⟩
      exact ⟨h :: hs, rfl, forall_mem_cons.mpr ⟨hclean, hcleans⟩, bind_eq_ok.mpr ⟨_, hscan, hscans⟩⟩
    · rintro ⟨hs, hlines, hcleans, hscans⟩
      obtain ⟨h, hs, rfl, rfl, rfl⟩ := map_eq_cons_iff.mp hlines.symm
      obtain ⟨mid, hscan, hscans⟩ := bind_eq_ok.mp hscans
      rw [forall_mem_cons] at hcleans
      exact ⟨mid, ⟨h, rfl, hcleans.1, hscan⟩, hs, rfl, hcleans.2, hscans⟩

def splitResponseHead (head : Bytes) : Option (Text × List Text) :=
  match (decode head).bind (stripSuffix "\r\n\r\n".toList) with
  | none => none
  | some text =>
    match splitCrlf text with
    | [] => none
    | statusLine :: lines => some (statusLine, lines)

def responseStatusLine (head : Bytes) : Text := ((splitResponseHead head).map Prod.fst).getD []

def responseFields (head : Bytes) : List Header :=
  rawFields (((splitResponseHead head).map Prod.snd).getD [])

/-- A header block that the framer accepts, read as a status line and fields. -/
structure FramedHead (head : Bytes) (code : ℕ) (scan : FramingHeaders) : Prop where
  split : splitResponseHead head =
    some (responseStatusLine head, (responseFields head).map Header.rawLine)
  status : parseStatusLine (responseStatusLine head) = .ok code
  clean : ∀ h ∈ responseFields head, h.Clean
  scans : Scans {} (responseFields head) scan
  exclusive : scan.transferEncodingPresent = true → scan.contentLength = none
  final : scan.chunkedCodingSeen = true → scan.transferEncodingChunked = true

theorem responseFields_of_split
    (hsplit : splitResponseHead head = some (statusLine, hs.map rawLine))
    (hclean : ∀ h ∈ hs, h.Clean) :
    responseStatusLine head = statusLine ∧ responseFields head = hs := by
  refine ⟨by rw [responseStatusLine, hsplit]; rfl, ?_⟩
  rw [responseFields, hsplit]
  exact rawFields_rawLine hclean

theorem splitResponseHead_eq_some_iff :
    splitResponseHead head = some (statusLine, lines) ↔ ∃ text,
      decode head = some (text ++ "\r\n\r\n".toList) ∧ splitCrlf text = statusLine :: lines := by
  rw [splitResponseHead]
  constructor
  · intro h
    split at h
    · simp at h
    · next text htext =>
      obtain ⟨_, hdecode, hstrip⟩ := Option.bind_eq_some_iff.mp htext
      rw [stripSuffix_eq_some_iff] at hstrip
      refine ⟨text, by rw [hdecode, hstrip], ?_⟩
      split at h
      · simp at h
      · next hlines =>
        obtain ⟨rfl, rfl⟩ := Prod.mk.inj (Option.some.inj h)
        exact hlines
  · rintro ⟨_, hdecode, hlines⟩
    rw [hdecode, Option.bind_some, stripSuffix_eq_some_iff.mpr rfl]
    simp only [hlines]

theorem parseResponseFramingHeaders_eq
    (hsplit : splitResponseHead head = some (statusLine, lines)) (e : ResponseBodyExpectation) :
    parseResponseFramingHeaders head e = (do
      let code ← parseStatusLine statusLine
      let scan ← scanFramingLines {} lines
      if scan.transferEncodingPresent && scan.contentLength.isSome then
        .error (malformedUpstreamResponse
          "response transfer encoding conflicts with content length")
      else if scan.chunkedCodingSeen && !scan.transferEncodingChunked then
        .error (malformedUpstreamResponse "chunked must be the final response transfer coding")
      else .ok (code, bodyFraming e code scan, scan.connectionClose)) := by
  obtain ⟨_, hdecode, hlines⟩ := splitResponseHead_eq_some_iff.mp hsplit
  rw [parseResponseFramingHeaders, hdecode]
  simp only [stripSuffix_eq_some_iff.mpr rfl, hlines]

theorem splitResponseHead_of_parse {r : ℕ × ResponseBodyFraming × Bool}
    (h : parseResponseFramingHeaders head e = .ok r) :
    ∃ statusLine lines, splitResponseHead head = some (statusLine, lines) := by
  rw [parseResponseFramingHeaders] at h
  split at h
  · simp at h
  next whole hdecode =>
  split at h
  · simp at h
  next text hstrip =>
  split at h
  · simp at h
  next statusLine lines hlines =>
  rw [stripSuffix_eq_some_iff] at hstrip
  exact ⟨statusLine, lines,
    splitResponseHead_eq_some_iff.mpr ⟨text, by rw [hdecode, hstrip], hlines⟩⟩

theorem parseResponseFramingHeaders_ok_iff :
    parseResponseFramingHeaders head e = .ok (code, framing, close) ↔
      ∃ scan, FramedHead head code scan ∧ bodyFraming e code scan = framing ∧
        scan.connectionClose = close := by
  constructor
  · intro h
    obtain ⟨_, _, hsplit⟩ := splitResponseHead_of_parse h
    simp only [parseResponseFramingHeaders_eq hsplit, bind_eq_ok, ite_error_eq_ok, Except.ok.injEq,
      Prod.mk.injEq, scanFramingLines_ok_iff] at h
    obtain ⟨_, hstatus, scan, ⟨hs, rfl, hclean, hscans⟩, hexcl, hfinal, rfl, hframing, hclose⟩ := h
    obtain ⟨hline, hfields⟩ := responseFields_of_split hsplit hclean
    rw [← hfields] at hsplit hclean hscans
    rw [← hline] at hsplit hstatus
    refine ⟨scan, ⟨hsplit, hstatus, hclean, hscans, fun hp => ?_, fun hseen => ?_⟩,
      hframing, hclose⟩
    · simpa [hp] using hexcl
    · simpa [hseen] using hfinal
  · rintro ⟨scan, hhead, rfl, rfl⟩
    simp only [parseResponseFramingHeaders_eq hhead.split, bind_eq_ok, ite_error_eq_ok,
      Except.ok.injEq, Prod.mk.injEq, scanFramingLines_ok_iff]
    refine ⟨code, hhead.status, scan, ⟨_, rfl, hhead.clean, hhead.scans⟩, ?_, ?_, rfl, rfl, rfl⟩
    · rw [Bool.and_eq_true, not_and]
      intro hp
      rw [hhead.exclusive hp]
      decide
    · rw [Bool.and_eq_true, not_and]
      intro hseen
      rw [hhead.final hseen]
      decide

end Read

variable {c : Char}

theorem trim_cons_of_isWhitespace (hc : isWhitespace c = true) (t : Text) :
    trim (c :: t) = trim t := by
  rw [trim, trim, trimStart, dropWhile_cons_of_pos hc, ← trimStart]

theorem map_trim_splitOn_cons (hc : isWhitespace c = true) (t : Text) :
    ((c :: t).splitOn ',').map trim = (t.splitOn ',').map trim := by
  have hne : c ≠ ',' := by
    rintro rfl
    exact absurd hc (by decide)
  rw [splitOn, splitOn, splitOnP_cons_eq_if_modifyHead, if_neg (by simpa using hne)]
  obtain ⟨_, _, hp⟩ := exists_cons_of_ne_nil (splitOnP_ne_nil (· == ',') t)
  rw [hp, modifyHead_cons, map_cons, map_cons, trim_cons_of_isWhitespace hc]

theorem map_trim_splitOn_trimStart (t : Text) :
    ((trimStart t).splitOn ',').map trim = (t.splitOn ',').map trim := by
  induction t with
  | nil => rfl
  | cons _ _ ih =>
    rw [trimStart, dropWhile_cons]
    split
    · next hc => rw [← trimStart, ih, map_trim_splitOn_cons hc]
    · rfl

theorem trim_trimStart (t : Text) : trim (trimStart t) = trim t := by
  rw [trim, trim, trimStart, trimStart, dropWhile_idempotent]

variable {head : Bytes}

section Sanitized

/-- A field as the sanitizer writes it, with one space before the value. -/
def Header.respaced (h : Header) : Header := ⟨h.name, ' ' :: trimStart h.value⟩

def sanitizedFields (fields : List Header) (close : Bool) : List Header :=
  (fields.filter (isRetainedResponseHeader (connectionHeaderTokens fields))).map Header.respaced ++
    if close then [⟨"Connection".toList, " close".toList⟩] else []

theorem connectionHeaderTokens_map {f : Header → Header} (hname : ∀ h, (f h).name = h.name)
    (hvalue : ∀ h, ((f h).value.splitOn ',').map trim = (h.value.splitOn ',').map trim) :
    connectionHeaderTokens (hs.map f) = connectionHeaderTokens hs := by
  have hlower : ∀ v : Text, ((v.splitOn ',').map fun value => toAsciiLowercase (trim value)) =
      ((v.splitOn ',').map trim).map toAsciiLowercase := fun v => (map_map).symm
  simp only [connectionHeaderTokens, filter_map, flatMap_map, Function.comp_def, isNamed, hname,
    hlower, hvalue]
  rfl

theorem Header.respaced_splitOn (h : Header) :
    (h.respaced.value.splitOn ',').map trim = (h.value.splitOn ',').map trim :=
  (map_trim_splitOn_cons (by decide) _).trans (map_trim_splitOn_trimStart _)

theorem Header.respaced_trim (h : Header) : trim h.respaced.value = trim h.value :=
  (trim_cons_of_isWhitespace (by decide) _).trans (trim_trimStart _)

theorem mem_of_mem_trimStart {t : Text} (hc : c ∈ trimStart t) : c ∈ t :=
  (dropWhile_suffix _).subset hc

theorem Header.Clean.respaced (hclean : h.Clean) : h.respaced.Clean := by
  refine ⟨hclean.name, ?_⟩
  have hvalue := hclean.value
  rw [containsProhibitedHttpFieldValueControl, any_eq_false] at hvalue ⊢
  intro c hc
  rcases mem_cons.mp hc with rfl | hc
  · decide
  · exact hvalue c (mem_of_mem_trimStart hc)

theorem sanitizedFields_clean {fields : List Header} (hclean : ∀ h ∈ fields, h.Clean) :
    ∀ h ∈ sanitizedFields fields close, h.Clean := by
  intro h hh
  rcases mem_append.mp hh with hh | hh
  · obtain ⟨d, hd, rfl⟩ := mem_map.mp hh
    exact (hclean d (mem_of_mem_filter hd)).respaced
  · cases close with
    | false => exact absurd hh not_mem_nil
    | true =>
      rw [mem_singleton.mp hh]
      exact ⟨by decide, by decide⟩

theorem sanitizedHeaderText_eq (statusLine : Text) (fields : List Header) (close : Bool) :
    sanitizedHeaderText statusLine (fields.map fun h => ⟨h.name, trimStart h.value⟩) close =
      joinCrlf (statusLine :: (sanitizedFields fields close).map rawLine) ++ "\r\n\r\n".toList := by
  have hlines : (((fields.map fun h => (⟨h.name, trimStart h.value⟩ : Header)).filter
      (isRetainedResponseHeader (connectionHeaderTokens fields))).flatMap fun h => h.line ++ crlf) =
      ((fields.filter (isRetainedResponseHeader (connectionHeaderTokens fields))).map
        respaced).flatMap fun h => h.rawLine ++ crlf := by
    rw [filter_map, flatMap_map, flatMap_map]
    rfl
  have hclose : (if close then "Connection: close\r\n".toList else []) =
      (if close then [(⟨"Connection".toList, " close".toList⟩ : Header)] else []).flatMap
        fun h => h.rawLine ++ crlf := by
    cases close <;> decide
  have htokens : connectionHeaderTokens (fields.map fun h => ⟨h.name, trimStart h.value⟩) =
      connectionHeaderTokens fields :=
    connectionHeaderTokens_map (fun _ => rfl) fun h => map_trim_splitOn_trimStart h.value
  have hfields : ((sanitizedFields fields close).map rawLine).flatMap (· ++ ['\r', '\n']) =
      ((fields.filter (isRetainedResponseHeader (connectionHeaderTokens fields))).map
        respaced).flatMap (fun h => h.rawLine ++ crlf) ++
      (if close then [(⟨"Connection".toList, " close".toList⟩ : Header)] else []).flatMap
        fun h => h.rawLine ++ crlf := by
    rw [flatMap_map, sanitizedFields, flatMap_append]
    rfl
  have hjoin := joinCrlf_append_crlf
    (cons_ne_nil statusLine ((sanitizedFields fields close).map rawLine))
  have hend : "\r\n\r\n".toList = ['\r', '\n'] ++ crlf := by decide
  rw [sanitizedHeaderText, htokens, hlines, hclose, hend, ← append_assoc, hjoin,
    flatMap_cons, hfields]
  simp only [crlf, append_assoc]

theorem sanitizeResponseHeaderBlock_eq {scan : FramingHeaders}
    (hhead : FramedHead head code scan) (closeFinalResponse : Bool) :
    sanitizeResponseHeaderBlock head closeFinalResponse =
      .ok (encode (joinCrlf (responseStatusLine head :: (sanitizedFields (responseFields head)
            (!isInterimStatus code && closeFinalResponse)).map rawLine) ++ "\r\n\r\n".toList),
        isInterimStatus code) := by
  obtain ⟨_, hdecode, hlines⟩ := splitResponseHead_eq_some_iff.mp hhead.split
  have hparsed : ((responseFields head).map rawLine).mapM parseResponseHeaderLine =
      .ok ((responseFields head).map fun h => ⟨h.name, trimStart h.value⟩) := by
    have hclean := hhead.clean
    generalize responseFields head = hs at hclean
    induction hs with
    | nil => rfl
    | cons _ _ ih =>
      rw [forall_mem_cons] at hclean
      rw [map_cons, mapM_cons, ih hclean.2, parseResponseHeaderLine, hclean.1.splitOnce_rawLine]
      rfl
  rw [sanitizeResponseHeaderBlock, hdecode]
  simp only [stripSuffix_eq_some_iff.mpr rfl, hlines,
    splitWhitespace_of_parseStatusLine hhead.status, hparsed]
  rw [← sanitizedHeaderText_eq]
  rfl

variable {fields : List Header} {close : Bool}

theorem sanitizedFields_filter (fields : List Header) (close : Bool) (name : Text) :
    (sanitizedFields fields close).filter (isNamed name) = ((fields.filter (isNamed name)).filter
        (isRetainedResponseHeader (connectionHeaderTokens fields))).map respaced ++
      (if close then [(⟨"Connection".toList, " close".toList⟩ : Header)] else []).filter
        (isNamed name) := by
  rw [sanitizedFields, filter_append, filter_map, filter_filter, filter_filter]
  refine congrArg (fun l => l.map respaced ++ _) (filter_congr fun h _ => ?_)
  exact Bool.and_comm _ _

theorem sanitizedFields_transferEncoding : (sanitizedFields fields close).filter
    isTransferEncoding = (fields.filter isTransferEncoding).map respaced := by
  have hkept : (fields.filter isTransferEncoding).filter
      (isRetainedResponseHeader (connectionHeaderTokens fields)) =
        fields.filter isTransferEncoding := by
    refine filter_eq_self.mpr fun h hh => ?_
    have hname : toAsciiLowercase h.name = "transfer-encoding".toList :=
      eqIgnoreAsciiCase_iff.mp (mem_filter.mp hh).2
    rw [isRetainedResponseHeader, hname, beq_self_eq_true, Bool.true_or]
  have hfilter := sanitizedFields_filter fields close "Transfer-Encoding".toList
  rw [close_filter (by decide), append_nil] at hfilter
  exact hfilter.trans (congrArg _ hkept)

theorem sanitizedFields_contentLength : (sanitizedFields fields close).filter
    isContentLength =
      if "content-length".toList ∈ connectionHeaderTokens fields then []
      else (fields.filter isContentLength).map respaced := by
  have hfilter := sanitizedFields_filter fields close "Content-Length".toList
  rw [close_filter (by decide), append_nil] at hfilter
  refine hfilter.trans ?_
  have hkeep : ∀ h ∈ fields.filter (isNamed "Content-Length".toList),
      isRetainedResponseHeader (connectionHeaderTokens fields) h =
        !(connectionHeaderTokens fields).contains "content-length".toList := by
    intro h hh
    have hname : toAsciiLowercase h.name = "content-length".toList :=
      eqIgnoreAsciiCase_iff.mp (mem_filter.mp hh).2
    have hte : ("content-length".toList == "transfer-encoding".toList) = false := by decide
    have hhop : isHopByHopHeaderName "content-length".toList = false := by decide
    rw [isRetainedResponseHeader, isEndToEnd, hname, hte, hhop, Bool.false_or, Bool.not_false,
      Bool.true_and]
  split
  · next hmem =>
    rw [filter_eq_nil_iff.mpr, map_nil]
    intro h hh
    rw [hkeep h hh, contains_iff_mem.mpr hmem]
    decide
  · next hmem =>
    refine congrArg _ (filter_eq_self.mpr fun h hh => ?_)
    rw [hkeep h hh, Bool.not_eq_true', ← Bool.not_eq_true, contains_iff_mem]
    exact hmem

theorem sanitizedFields_connection : (sanitizedFields fields close).filter
    (isNamed "Connection".toList) =
      if close then [⟨"Connection".toList, " close".toList⟩] else [] := by
  rw [sanitizedFields_filter, filter_eq_nil_iff.mpr, map_nil, nil_append]
  · cases close <;> decide
  · intro h hh
    have hname : toAsciiLowercase h.name = "connection".toList :=
      eqIgnoreAsciiCase_iff.mp (mem_filter.mp hh).2
    have hte : ("connection".toList == "transfer-encoding".toList) = false := by decide
    have hhop : isHopByHopHeaderName "connection".toList = true := by decide
    rw [isRetainedResponseHeader, isEndToEnd, hname, hte, hhop, Bool.false_or, Bool.not_true,
      Bool.false_and]
    exact Bool.false_ne_true

/-- The scan of the sanitized fields: the length is gone if `Connection` names it. -/
def sanitizedScan (fields : List Header) (close : Bool) (scan : FramingHeaders) : FramingHeaders :=
  { scan with
    contentLength := if "content-length".toList ∈ connectionHeaderTokens fields then none
      else scan.contentLength
    connectionClose := close }

theorem scans_sanitizedFields {scan : FramingHeaders} (hscans : Scans {} fields scan) :
    Scans {} (sanitizedFields fields close) (sanitizedScan fields close scan) := by
  have hcodings : transferCodings (sanitizedFields fields close) = transferCodings fields := by
    rw [transferCodings, sanitizedFields_transferEncoding, flatMap_map, transferCodings]
    exact congrArg (fun f => flatMap f _) (funext respaced_splitOn)
  have hlengths : lengthValues (sanitizedFields fields close) =
      if "content-length".toList ∈ connectionHeaderTokens fields then []
      else lengthValues fields := by
    rw [lengthValues, sanitizedFields_contentLength, lengthValues]
    split
    · rfl
    · rw [map_map]
      exact map_congr_left fun h _ => h.respaced_trim
  have hany : ∀ hs : List Header, hs.any isTransferEncoding =
      !(hs.filter isTransferEncoding).isEmpty := by
    intro hs
    induction hs with
    | nil => rfl
    | cons h _ ih =>
      rw [any_cons, filter_cons, ih]
      cases h.isTransferEncoding <;> rfl
  have htokens : connectionHeaderTokens (sanitizedFields fields close) =
      if close then ["close".toList] else [] := by
    rw [connectionHeaderTokens, sanitizedFields_connection]
    cases close <;> decide
  refine ⟨by rw [hcodings]; exact hscans.codings, ?_, ?_, ?_, ?_, ?_⟩
  · rw [hlengths, sanitizedScan]
    dsimp only
    split
    · rfl
    · exact hscans.length
  · rw [hany, sanitizedFields_transferEncoding, isEmpty_map, ← hany]
    exact hscans.present
  · rw [hcodings]
    exact hscans.chunked
  · rw [hcodings]
    exact hscans.seen
  · rw [htokens]
    cases close <;> rfl

def sanitizedBlock (head : Bytes) (close : Bool) : Bytes :=
  encode (joinCrlf (responseStatusLine head ::
    (sanitizedFields (responseFields head) close).map Header.rawLine) ++ "\r\n\r\n".toList)

variable {head : Bytes} {code : ℕ} {scan : FramingHeaders}

theorem FramedHead.statusLine_not_infix (hhead : FramedHead head code scan) :
    ¬ ['\r', '\n'] <:+: responseStatusLine head := by
  obtain ⟨text, -, hlines⟩ := splitResponseHead_eq_some_iff.mp hhead.split
  exact not_infix_of_mem_splitPair (t := text)
    (by rw [← splitCrlf, hlines]; exact mem_cons_self)

theorem sanitizedFields_rawLine (hclean : ∀ h ∈ fields, h.Clean) :
    ∀ l ∈ (sanitizedFields fields close).map rawLine, l ≠ [] ∧ '\r' ∉ l := by
  intro l hl
  obtain ⟨h, hh, rfl⟩ := mem_map.mp hl
  exact (sanitizedFields_clean hclean h hh).rawLine_spec

theorem FramedHead.lines_not_infix (hhead : FramedHead head code scan) (close : Bool) :
    ∀ l ∈ responseStatusLine head :: (sanitizedFields (responseFields head) close).map rawLine,
      ¬ ['\r', '\n'] <:+: l :=
  forall_mem_cons.mpr ⟨hhead.statusLine_not_infix, fun l hl =>
    not_infix_of_notMem (sanitizedFields_rawLine hhead.clean l hl).2⟩

theorem FramedHead.sanitized (hhead : FramedHead head code scan) (close : Bool) :
    FramedHead (sanitizedBlock head close) code
        (sanitizedScan (responseFields head) close scan) ∧
      splitHeaderEnd (sanitizedBlock head close) =
        some (encode (joinCrlf (responseStatusLine head ::
          (sanitizedFields (responseFields head) close).map rawLine)), []) := by
  have hlines : ∀ l ∈ (sanitizedFields (responseFields head) close).map rawLine,
      l ≠ [] ∧ '\r' ∉ l := sanitizedFields_rawLine hhead.clean
  have hsplit : splitResponseHead (sanitizedBlock head close) = some (responseStatusLine head,
      (sanitizedFields (responseFields head) close).map rawLine) :=
    splitResponseHead_eq_some_iff.mpr ⟨_, decode_encode _,
      splitCrlf_joinCrlf_of_not_infix (cons_ne_nil _ _) (hhead.lines_not_infix close)⟩
  obtain ⟨hstatus, hfields⟩ :=
    responseFields_of_split hsplit (sanitizedFields_clean hhead.clean)
  refine ⟨⟨?_, ?_, ?_, ?_, ?_, hhead.final⟩, ?_⟩
  · rw [hstatus, hfields]
    exact hsplit
  · rw [hstatus]
    exact hhead.status
  · rw [hfields]
    exact sanitizedFields_clean hhead.clean
  · rw [hfields]
    exact scans_sanitizedFields hhead.scans
  · intro hpresent
    rw [sanitizedScan, hhead.exclusive hpresent, ite_self]
  · rw [sanitizedBlock, encode_append]
    exact splitHeaderEnd_lines hhead.statusLine_not_infix (fun l hl => (hlines l hl).2)
      (fun l hl => (hlines l hl).1) []

end Sanitized

section InStep

open HttpResponseFraming UpstreamResponseHeaderSanitizer

variable {f f' : HttpResponseFraming} {s s' : UpstreamResponseHeaderSanitizer} {bs : Bytes}

/-- The framer and the sanitizer have seen the same header bytes: the sanitizer forwards once the
framer is past the headers. -/
structure InStep (f : HttpResponseFraming) (s : UpstreamResponseHeaderSanitizer) : Prop where
  maxHeaderBytes : s.maxHeaderBytes = f.maxHeaderBytes
  headers : ∀ buf, f.state = .headers buf →
    s.forwardingBody = false ∧ s.headers = buf ∧ ¬ headerTerminator <:+: buf
  forwarding : (∀ buf, f.state ≠ .headers buf) → s.forwardingBody = true

theorem inStep_fresh (maxHeaderBytes maxLineBytes : ℕ) (e : ResponseBodyExpectation)
    (close : Bool) :
    InStep (withBodyExpectation maxHeaderBytes maxLineBytes e) (.new maxHeaderBytes close) where
  maxHeaderBytes := rfl
  headers := by
    rintro buf h
    obtain rfl : [] = buf := by simpa [withBodyExpectation] using h
    exact ⟨rfl, rfl, by decide⟩
  forwarding h := absurd rfl (h [])

theorem advance_forwarding (b : UInt8) (hbody : ∀ buf, f.state ≠ .headers buf) :
    (∀ buf, (f.advance b []).2.state ≠ .headers buf) ∧
      (f.advance b []).2.maxHeaderBytes = f.maxHeaderBytes := by
  constructor
  · intro buf
    unfold advance
    repeat' split
    all_goals simp_all [fail]
    all_goals split <;> simp
  · unfold advance
    repeat' split
    all_goals simp_all [fail]

theorem HttpResponseFraming.Feeds.inStep_forwarding (h : f.Feeds bs f') (hin : InStep f s)
    (hbody : ∀ buf, f.state ≠ .headers buf) : InStep f' s := by
  induction bs generalizing f with
  | nil =>
    obtain rfl : f = f' := by simpa [Feeds, consume] using h
    exact hin
  | cons b _ ih =>
    obtain ⟨-, _, _, hn, hg⟩ := h.cons
    have hstep := advance_forwarding b hbody
    rw [hn] at hstep
    refine ih hg ⟨hin.maxHeaderBytes.trans hstep.2.symm, fun buf hbuf => ?_, fun _ => ?_⟩ hstep.1
    · exact absurd hbuf (hstep.1 buf)
    · exact hin.forwarding hbody

theorem HttpResponseFraming.advance_headers_eq {b : UInt8} {buf : Bytes}
    (hstate : f.state = .headers buf) : f.advance b [] =
    if f.maxHeaderBytes ≤ buf.length then
      (.error ⟨.resourcePayloadCapacityReached, "response framing buffer limit reached"⟩,
        { f with state := .failed })
    else if headerTerminator <:+ buf ++ [b] then f.finishHeaders (buf ++ [b])
    else (.ok 1, { f with state := .headers (buf ++ [b]) }) := by
  simp only [advance, hstate, tryPushBounded]
  by_cases hlen : f.maxHeaderBytes ≤ buf.length
  · rw [if_pos hlen, if_pos hlen]
  · rw [if_neg hlen, if_neg hlen]
    simp only [isSuffixOf_iff_suffix]

variable {n : ℕ} {g : HttpResponseFraming}

theorem advance_headers {b : UInt8} {buf : Bytes}
    (hbuf : f.state = .headers buf) (hn : f.advance b [] = (.ok n, g)) :
    buf.length < f.maxHeaderBytes ∧
      ((¬ headerTerminator <:+ buf ++ [b]) ∧ g = { f with state := .headers (buf ++ [b]) } ∨
        headerTerminator <:+ buf ++ [b] ∧ f.finishHeaders (buf ++ [b]) = (.ok n, g)) := by
  rw [advance_headers_eq hbuf] at hn
  split_ifs at hn with hlen hsuff
  · simp at hn
  · exact ⟨by omega, .inr ⟨hsuff, hn⟩⟩
  · exact ⟨by omega, .inl ⟨hsuff, (Prod.mk.inj hn).2.symm⟩⟩

theorem finishHeaders_ok {headers : Bytes}
    (h : f.finishHeaders headers = (.ok n, g)) : ∃ code framing connectionClose,
      parseResponseFramingHeaders headers f.bodyExpectation = .ok (code, framing, connectionClose) ∧
      g.state = bodyState framing ∧ g.maxHeaderBytes = f.maxHeaderBytes ∧
      g.statusCode = some code := by
  unfold finishHeaders at h
  split at h
  · simp at h
  · next code framing close hparse =>
    simp only [Prod.mk.injEq] at h
    obtain ⟨-, rfl⟩ := h
    refine ⟨code, framing, close, hparse, rfl, ?_, ?_⟩
    all_goals split <;> rfl

theorem finishHeaders_spec
    (h : f.finishHeaders head = (.ok n, g)) : ∃ code scan, FramedHead head code scan ∧
      g.state = bodyState (bodyFraming f.bodyExpectation code scan) ∧
      g.statusCode = some code := by
  obtain ⟨code, _, _, hparse, hstate, -, hstatus⟩ := finishHeaders_ok h
  obtain ⟨scan, hhead, rfl, -⟩ := parseResponseFramingHeaders_ok_iff.mp hparse
  exact ⟨code, scan, hhead, hstate, hstatus⟩

theorem bodyState_ne_headers (h : framing ≠ .interim)
    (buf : Bytes) : bodyState framing ≠ .headers buf := by
  cases framing with
  | interim => exact absurd rfl h
  | contentLength n => cases n <;> simp [bodyState]
  | none | chunked | closeDelimited => simp [bodyState]

theorem InStep.collecting (hin : InStep f s) (hfwd : s.forwardingBody = false) :
    f.state = .headers s.headers ∧ ¬ headerTerminator <:+: s.headers := by
  obtain ⟨buf, hbuf⟩ : ∃ buf, f.state = .headers buf := by
    by_contra hne
    rw [hin.forwarding (fun buf hbuf => hne ⟨buf, hbuf⟩)] at hfwd
    cases hfwd
  obtain ⟨-, rfl, hinfix⟩ := hin.headers buf hbuf
  exact ⟨hbuf, hinfix⟩

theorem sanitizeResponseHeaderBlock_of_framed {e : ResponseBodyExpectation}
    (closeFinalResponse : Bool)
    (h : parseResponseFramingHeaders head e = .ok (code, framing, close)) :
    ∃ sanitized, sanitized ≠ [] ∧ sanitizeResponseHeaderBlock head closeFinalResponse =
      .ok (sanitized, decide (framing = .interim)) := by
  obtain ⟨scan, hhead, rfl, -⟩ := parseResponseFramingHeaders_ok_iff.mp h
  have hinterim : decide (bodyFraming e code scan = .interim) = isInterimStatus code := by
    unfold bodyFraming
    split
    · next hi => simp [hi]
    · next hi => split <;> [skip; split <;> [skip; split]] <;> simp [hi]
  rw [hinterim]
  refine ⟨_, ?_, sanitizeResponseHeaderBlock_eq hhead closeFinalResponse⟩
  rw [ne_eq, encode_eq_nil_iff, append_eq_nil_iff]
  exact fun hnil => absurd hnil.2 (by decide)

theorem HttpResponseFraming.Feeds.sanitizeLoop (h : f.Feeds bs f') (hin : InStep f s)
    (hfwd : s.forwardingBody = false) (o : Bytes) :
    ∃ out s', s.sanitizeLoop o bs = (.ok (o ++ out), s') ∧ InStep f' s' ∧
      (out = [] ↔ ¬ headerTerminator <:+: s.headers ++ bs) ∧
      (out = [] → s'.forwardingBody = false) := by
  induction bs generalizing f s o with
  | nil =>
    obtain rfl : f = f' := by simpa [Feeds, consume] using h
    have hinfix := (hin.collecting hfwd).2
    exact ⟨[], s, by simp [UpstreamResponseHeaderSanitizer.sanitizeLoop], hin, by simpa,
      fun _ => hfwd⟩
  | cons b bs ih =>
    obtain ⟨hbuf, hinfix⟩ := hin.collecting hfwd
    obtain ⟨-, _, g, hn, hg⟩ := h.cons
    obtain ⟨hlen, ⟨hsuff, rfl⟩ | ⟨hsuff, hfinish⟩⟩ := advance_headers hbuf hn
    all_goals
      rw [UpstreamResponseHeaderSanitizer.sanitizeLoop, if_neg (by rw [hin.maxHeaderBytes]; omega)]
    · -- inside a header block
      rw [if_pos (by rw [Bool.not_eq_true', ← Bool.not_eq_true, isSuffixOf_iff_suffix]
                     exact hsuff)]
      have hin₁ : InStep { f with state := .headers (s.headers ++ [b]) }
          { s with headers := s.headers ++ [b] } := by
        refine ⟨hin.maxHeaderBytes, fun buf' hbuf' => ?_, fun hne => absurd rfl (hne _)⟩
        simp only [ResponseFramingState.headers.injEq] at hbuf'
        subst hbuf'
        exact ⟨hfwd, rfl, by rw [infix_concat_iff]; tauto⟩
      obtain ⟨out, s', hs', hin', hout, hnil⟩ := ih hg hin₁ hfwd o
      exact ⟨out, s', hs', hin', by simpa using hout, hnil⟩
    · -- the end of a header block
      obtain ⟨_, framing, _, hparse, hstate, hmax, -⟩ := finishHeaders_ok hfinish
      obtain ⟨sanitized, hne, hblock⟩ :=
        sanitizeResponseHeaderBlock_of_framed s.closeFinalResponse hparse
      have hmem : headerTerminator <:+: s.headers ++ b :: bs := by
        obtain ⟨pre, hpre⟩ := hsuff
        exact ⟨pre, bs, by rw [hpre]; simp⟩
      rw [if_neg (by simpa [isSuffixOf_iff_suffix] using hsuff), hblock]
      by_cases hinterim : framing = .interim
      · have hin₁ : InStep g { s with headers := [] } := by
          refine ⟨hin.maxHeaderBytes.trans hmax.symm, fun buf' hbuf' => ?_, fun hne' => ?_⟩
          · rw [hstate, hinterim, bodyState, ResponseFramingState.headers.injEq] at hbuf'
            subst hbuf'
            exact ⟨hfwd, rfl, by decide⟩
          · exact absurd (hstate.trans (by rw [hinterim]; rfl)) (hne' [])
        obtain ⟨out, s', hs', hin', -⟩ := ih hg hin₁ hfwd (o ++ sanitized)
        refine ⟨sanitized ++ out, s', ?_, hin', ?_, ?_⟩
        · simpa [hinterim] using hs'
        · simp [hne, hmem]
        · simp [hne]
      · have hbody : ∀ buf, g.state ≠ .headers buf := by
          rw [hstate]
          exact bodyState_ne_headers hinterim
        refine ⟨sanitized ++ bs, { s with headers := [], forwardingBody := true }, ?_, ?_, ?_, ?_⟩
        · simp [hinterim]
        · exact hg.inStep_forwarding ⟨hin.maxHeaderBytes.trans hmax.symm,
            fun buf hbuf => absurd hbuf (hbody buf), fun _ => rfl⟩ hbody
        · simp [hne, hmem]
        · simp [hne]

theorem HttpResponseFraming.Feeds.sanitize (h : f.Feeds bs f') (hin : InStep f s) :
    ∃ out s', s.sanitize bs = (.ok out, s') ∧ InStep f' s' ∧
      (s.forwardingBody = false → (out = [] ↔ ¬ headerTerminator <:+: s.headers ++ bs) ∧
        (out = [] → s'.forwardingBody = false)) := by
  cases hfwd : s.forwardingBody with
  | false =>
    obtain ⟨out, s', hs', hin', hout⟩ := h.sanitizeLoop hin hfwd []
    exact ⟨out, s', by simpa [UpstreamResponseHeaderSanitizer.sanitize, hfwd] using hs', hin',
      fun _ => hout⟩
  | true =>
    have hbody : ∀ buf, f.state ≠ .headers buf := fun buf hbuf => by
      rw [(hin.headers buf hbuf).1] at hfwd
      exact absurd hfwd (by decide)
    exact ⟨bs, s, by simp [UpstreamResponseHeaderSanitizer.sanitize, hfwd],
      h.inStep_forwarding hin hbody, by simp⟩

end InStep

end EdgeProxy

import EdgeProxy.Http.ResponseHead

/-! # What the client reads from a sanitized head

The block that the sanitizer writes is given to a framer again, as a client would read it. It has
the framing of the upstream's head unless the upstream names its `Content-Length` in `Connection`;
it is free of control bytes exactly if the status line is.
-/

namespace EdgeProxy

open Rust List UpstreamResponseHeaderSanitizer HttpResponseFraming

variable {l : Bytes} {maxHeaderBytes maxLineBytes : ℕ} {p : ResponseFramingProgress}

namespace HttpResponseFraming

variable {f g : HttpResponseFraming} {buf bs head : Bytes} {b : UInt8}

theorem feeds_cons_iff : f.Feeds (b :: bs) g ↔
    f.isTerminal = false ∧ ∃ n f', f.advance b [] = (.ok n, f') ∧ f'.Feeds bs g := by
  refine ⟨Feeds.cons, ?_⟩
  rintro ⟨hterm, _, f', hn, hfeeds⟩
  have hcount : f'.consume (0 + 1) bs = _ := consume_add 1
  rw [hfeeds] at hcount
  rw [Feeds, consume, if_neg (by rw [hterm]; exact Bool.false_ne_true), hn]
  exact hcount

theorem feeds_headers_iff (hstate : f.state = .headers buf)
    (hroom : buf.length ≤ f.maxHeaderBytes) (hno : ¬ headerTerminator <:+: buf ++ bs) :
    f.Feeds bs g ↔
      (buf ++ bs).length ≤ f.maxHeaderBytes ∧ g = { f with state := .headers (buf ++ bs) } := by
  induction bs generalizing f buf with
  | nil =>
    have hsame : { f with state := .headers buf } = f := by rw [← hstate]
    rw [append_nil, hsame]
    constructor
    · intro h
      exact ⟨hroom, by simpa [Feeds, consume, eq_comm] using h⟩
    · rintro ⟨-, rfl⟩
      exact feeds_nil
  | cons b bs ih =>
    have hsplit : buf ++ b :: bs = buf ++ [b] ++ bs := by rw [append_assoc]; rfl
    have hnot : ¬ headerTerminator <:+ buf ++ [b] := fun hs =>
      hno (hsplit ▸ hs.isInfix.trans (infix_append' [] _ bs))
    have hterm : f.isTerminal = false := by simp [isTerminal, hstate]
    rw [feeds_cons_iff, advance_headers_eq hstate, if_neg hnot, hsplit]
    split_ifs with hlen
    · constructor
      · rintro ⟨-, _, _, he, -⟩
        simp at he
      · rintro ⟨hlong, -⟩
        simp only [length_append, length_singleton] at hlong
        omega
    · have hnext := ih (f := { f with state := .headers (buf ++ [b]) }) rfl
        (by simp only [length_append, length_singleton]; omega) (hsplit ▸ hno)
      constructor
      · rintro ⟨-, _, _, he, hfeeds⟩
        obtain ⟨-, rfl⟩ := Prod.mk.inj he
        exact hnext.mp hfeeds
      · intro h
        exact ⟨hterm, _, _, rfl, hnext.mpr h⟩

theorem finishHeaders_state (s : ResponseFramingState) :
    ({ f with state := s } : HttpResponseFraming).finishHeaders head = f.finishHeaders head := by
  unfold finishHeaders
  dsimp only
  split
  · rfl
  · split <;> rfl

theorem finishHeaders_eq_ok {n : ℕ} (h : f.finishHeaders head = (.ok n, g)) : n = 1 := by
  unfold finishHeaders at h
  split at h
  · simp at h
  · exact (Except.ok.inj (Prod.mk.inj h).1).symm

theorem headerTerminator_last (l : Bytes) : headerTerminator <:+ l ++ [13, 10, 13] ++ [10] ∧
    (l ++ [13, 10, 13] ++ [10]).length = (l ++ [(13 : UInt8), 10, 13]).length + 1 :=
  ⟨⟨l, by simp [headerTerminator]⟩, length_append⟩

theorem feeds_headerBlock_iff (hstate : f.state = .headers [])
    (hblock : splitHeaderEnd head = some (l, [])) :
    f.Feeds head g ↔ head.length ≤ f.maxHeaderBytes ∧ f.finishHeaders head = (.ok 1, g) := by
  obtain ⟨rfl, hno⟩ := splitHeaderEnd_eq_some_iff.mp hblock
  have hhead : l ++ (emptyLine ++ []) = (l ++ [13, 10, 13]) ++ [10] := by simp
  have hcollect := fun g => feeds_headers_iff (g := g) hstate (Nat.zero_le _)
    (show ¬ headerTerminator <:+: [] ++ (l ++ [13, 10, 13]) from hno)
  obtain ⟨hsuffix, hlength⟩ := headerTerminator_last l
  rw [hhead, feeds_append_iff, hlength]
  simp only [hcollect, nil_append, feeds_cons_iff]
  constructor
  · rintro ⟨_, ⟨-, rfl⟩, -, _, f', hadvance, hnil⟩
    obtain rfl : f' = g := by simpa [Feeds, consume] using hnil
    rw [advance_headers_eq rfl, if_pos hsuffix, finishHeaders_state] at hadvance
    split at hadvance
    · simp at hadvance
    · next hroom =>
      obtain rfl := finishHeaders_eq_ok hadvance
      exact ⟨Nat.lt_of_not_le hroom, hadvance⟩
  · rintro ⟨hlen, hfinish⟩
    refine ⟨_, ⟨Nat.le_of_succ_le hlen, rfl⟩, rfl, 1, g, ?_, feeds_nil⟩
    rw [advance_headers_eq rfl, if_neg (Nat.not_le.mpr hlen), if_pos hsuffix, finishHeaders_state]
    exact hfinish

theorem push_headerBlock_iff {e : ResponseBodyExpectation}
    (hblock : splitHeaderEnd head = some (l, [])) :
    (withBodyExpectation maxHeaderBytes maxLineBytes e).push head = (.ok p, g) ↔
      head.length ≤ maxHeaderBytes ∧ p = g.progress head.length head.length ∧
        (withBodyExpectation maxHeaderBytes maxLineBytes e).finishHeaders head = (.ok 1, g) := by
  have hpos : (withBodyExpectation maxHeaderBytes maxLineBytes e).Positive := by
    simp [Positive, withBodyExpectation]
  have hfeeds := feeds_headerBlock_iff (f := withBodyExpectation maxHeaderBytes maxLineBytes e)
    (g := g) rfl hblock
  have hne : head ≠ [] := by
    rintro rfl
    simp [splitHeaderEnd] at hblock
  constructor
  · intro hpush
    rw [push_eq hpos rfl] at hpush
    split at hpush
    · simp at hpush
    · next n f' hconsume =>
      obtain ⟨hp, rfl⟩ := Prod.mk.inj hpush
      obtain rfl := Except.ok.inj hp
      obtain ⟨-, hle, hterm, -⟩ := consume_ok hconsume
      rw [Nat.zero_add] at hle hterm
      have htake := feeds_of_consume hconsume
      -- a framer that has seen a part of the block only is not at its end
      obtain rfl : n = head.length := by
        by_contra hn
        have hlt : n < head.length := by omega
        obtain ⟨hhead, hno⟩ := splitHeaderEnd_eq_some_iff.mp hblock
        have hshort : head.take n <+: l ++ [13, 10, 13] := by
          refine prefix_of_prefix_length_le ( take_prefix n head)
            (hhead ▸ prefix_emptyLine l []) ?_
          have hlen := congrArg List.length hhead
          simp only [length_append, length_take, length_cons, length_nil] at hlen ⊢
          omega
        have hpart : ¬ headerTerminator <:+: [] ++ head.take n := fun hi =>
          hno (hi.trans hshort.isInfix)
        have hstate := (feeds_headers_iff rfl (Nat.zero_le _) hpart).mp htake
        have hend := hterm hlt
        rw [hstate.2] at hend
        exact absurd hend Bool.false_ne_true
      rw [take_length] at htake
      exact ⟨(hfeeds.mp htake).1, rfl, (hfeeds.mp htake).2⟩
  · rintro ⟨hlen, rfl, hfinish⟩
    exact (hfeeds.mpr ⟨hlen, hfinish⟩).push_eq hne hpos

end HttpResponseFraming

namespace UpstreamResponseHeaderSanitizer

variable {s : UpstreamResponseHeaderSanitizer} {a head : Bytes}

theorem sanitizeLoop_collect (o rest : Bytes) (hno : ¬ headerTerminator <:+: s.headers ++ a)
    (hroom : (s.headers ++ a).length ≤ s.maxHeaderBytes) :
    s.sanitizeLoop o (a ++ rest) =
      ({ s with headers := s.headers ++ a } : UpstreamResponseHeaderSanitizer).sanitizeLoop o
        rest := by
  induction a generalizing s with
  | nil => rw [nil_append, append_nil]
  | cons b a ih =>
    have hsplit : s.headers ++ b :: a = s.headers ++ [b] ++ a := by rw [append_assoc]; rfl
    have hnot : ¬ headerTerminator <:+ s.headers ++ [b] := fun hs =>
      hno (hsplit ▸ hs.isInfix.trans (infix_append' [] _ a))
    have hlen : ¬ s.headers.length ≥ s.maxHeaderBytes := by
      rw [length_append, length_cons] at hroom
      omega
    have hnext := ih (s := { s with headers := s.headers ++ [b] }) (hsplit ▸ hno) (hsplit ▸ hroom)
    rw [cons_append, sanitizeLoop, if_neg hlen,
      if_pos (by rw [Bool.not_eq_true', ← Bool.not_eq_true, isSuffixOf_iff_suffix]
                 exact hnot), hnext]
    dsimp only
    rw [hsplit]

theorem sanitizeLoop_headerBlock {sanitized : Bytes} {interim : Bool} (o rest : Bytes)
    (hheaders : s.headers = []) (hblock : splitHeaderEnd head = some (l, []))
    (hroom : head.length ≤ s.maxHeaderBytes)
    (hwritten : sanitizeResponseHeaderBlock head s.closeFinalResponse = .ok (sanitized, interim)) :
    s.sanitizeLoop o (head ++ rest) =
      if !interim then
        (.ok (o ++ sanitized ++ rest), { s with headers := [], forwardingBody := true })
      else ({ s with headers := [] } : UpstreamResponseHeaderSanitizer).sanitizeLoop
        (o ++ sanitized) rest := by
  obtain ⟨rfl, hno⟩ := splitHeaderEnd_eq_some_iff.mp hblock
  have hhead : l ++ (emptyLine ++ []) ++ rest = (l ++ [13, 10, 13]) ++ 10 :: rest := by simp
  have hlast : l ++ (emptyLine ++ []) = l ++ [13, 10, 13] ++ [10] := by simp
  obtain ⟨hsuffix, hlength⟩ := HttpResponseFraming.headerTerminator_last l
  rw [hlast, hlength] at hroom
  rw [hlast] at hwritten
  rw [hhead, sanitizeLoop_collect o _ (by rw [hheaders]; exact hno)
    (by rw [hheaders]; exact Nat.le_of_succ_le hroom), sanitizeLoop]
  dsimp only
  rw [hheaders, nil_append, if_neg (Nat.not_le.mpr hroom),
    if_neg (by rw [Bool.not_eq_true', ← Bool.not_eq_true, not_not, isSuffixOf_iff_suffix]
               exact hsuffix), hwritten]

end UpstreamResponseHeaderSanitizer

variable {closeFinalResponse : Bool}

section Framing

open HttpResponseFraming

/-- One header block: the bytes up to and with the first empty line. -/
def IsHeaderBlock (head : Bytes) : Prop := ∃ l, splitHeaderEnd head = some (l, [])

/-- Any fresh framer that has room for the block takes it and then is where `g` is: it has the same
status and expects the same body. -/
def FramesAs (e : ResponseBodyExpectation) (block : Bytes) (g : HttpResponseFraming) : Prop :=
  ∀ maxHeaderBytes maxLineBytes, block.length ≤ maxHeaderBytes →
    ∃ p g', (withBodyExpectation maxHeaderBytes maxLineBytes e).push block = (.ok p, g') ∧
      p.consumed = block.length ∧ g'.statusCode = g.statusCode ∧ g'.state = g.state

/-- The body of the response is delimited by its `Content-Length`: it may have a body and the field
is there. -/
def DelimitedByLength (e : ResponseBodyExpectation) (head : Bytes) : Prop :=
  e = .normal ∧ (∃ code, parseStatusLine (responseStatusLine head) = .ok code ∧
    isInterimStatus code = false ∧ code ∉ [101, 204, 304]) ∧
  ∃ h ∈ responseFields head, h.isContentLength = true

variable {head : Bytes} {code : ℕ} {scan : FramingHeaders} {e : ResponseBodyExpectation}

theorem FramedHead.contentLength_isSome_iff (hhead : FramedHead head code scan) :
    scan.contentLength.isSome = true ↔ ∃ h ∈ responseFields head, h.isContentLength = true := by
  have hlength := hhead.scans.length
  have hmem : (∃ h ∈ responseFields head, h.isContentLength = true) ↔
      lengthValues (responseFields head) ≠ [] := by
    rw [lengthValues, ne_eq, map_eq_nil_iff, filter_eq_nil_iff]
    push Not
    rfl
  rw [hmem]
  rcases hvalues : lengthValues (responseFields head) with _ | ⟨v, _ | ⟨w, vs⟩⟩
  all_goals rw [hvalues] at hlength
  · have hnone : scan.contentLength = none := hlength
    simp [hnone]
  · obtain ⟨-, _, -, hn⟩ := hlength
    simp [hn]
  · exact hlength.elim

theorem FramedHead.chunked_present (hhead : FramedHead head code scan)
    (hchunked : scan.transferEncodingChunked = true) : scan.transferEncodingPresent = true := by
  rw [hhead.scans.present, Bool.false_or]
  by_contra hnone
  rw [Bool.not_eq_true, any_eq_false] at hnone
  have hfilter : (responseFields head).filter Header.isTransferEncoding = [] :=
    filter_eq_nil_iff.mpr hnone
  rw [hhead.scans.chunked, transferCodings, hfilter] at hchunked
  exact absurd hchunked Bool.false_ne_true

theorem FramedHead.delimitedByLength_iff (hhead : FramedHead head code scan) :
    DelimitedByLength e head ↔ ∃ n, bodyFraming e code scan = .contentLength n := by
  have hcode : (∃ code', parseStatusLine (responseStatusLine head) = .ok code' ∧
      isInterimStatus code' = false ∧ code' ∉ [101, 204, 304]) ↔
        isInterimStatus code = false ∧ code ∉ [101, 204, 304] := by
    rw [hhead.status]
    constructor
    · rintro ⟨_, hc, h⟩
      obtain rfl := Except.ok.inj hc
      exact h
    · intro h
      exact ⟨code, rfl, h⟩
  rw [DelimitedByLength, hcode, ← hhead.contentLength_isSome_iff, bodyFraming]
  constructor
  · rintro ⟨rfl, ⟨hinterim, hcode⟩, hsome⟩
    obtain ⟨n, hn⟩ := Option.isSome_iff_exists.mp hsome
    have hchunked : scan.transferEncodingChunked = false := by
      by_contra h
      rw [hhead.exclusive (hhead.chunked_present (Bool.not_eq_false _ ▸ h))] at hn
      simp at hn
    refine ⟨n, ?_⟩
    rw [hinterim, if_neg Bool.false_ne_true, if_neg (by simpa using hcode), hchunked,
      if_neg Bool.false_ne_true, hn]
  · rintro ⟨_, hn⟩
    split_ifs at hn with hinterim hbody
    rw [not_or] at hbody
    refine ⟨?_, ⟨Bool.eq_false_iff.mpr hinterim, hbody.2⟩, ?_⟩
    · cases e with
      | normal => rfl
      | headResponse => exact absurd rfl hbody.1
    · split at hn
      · next hlength => rw [hlength]; rfl
      · simp at hn

/-- A head that loses its length is read up to the end of the stream. -/
def withoutLength : ResponseBodyFraming → ResponseBodyFraming
  | .contentLength _ => .closeDelimited
  | framing => framing

theorem bodyFraming_withoutLength (code : ℕ) (scan : FramingHeaders) (close : Bool) :
    bodyFraming e code { scan with contentLength := none, connectionClose := close } =
      withoutLength (bodyFraming e code scan) := by
  unfold bodyFraming
  dsimp only
  split_ifs
  · rfl
  · rfl
  · rfl
  · cases scan.contentLength <;> rfl

theorem bodyState_contentLength_ne (n : ℕ) :
    bodyState .closeDelimited ≠ bodyState (.contentLength n) := by
  cases n <;> simp [bodyState]

theorem FramedHead.bodyState_sanitized_iff (hhead : FramedHead head code scan) (close : Bool) :
    bodyState (bodyFraming e code (sanitizedScan (responseFields head) close scan)) =
        bodyState (bodyFraming e code scan) ↔
      (DelimitedByLength e head →
        "content-length".toList ∉ connectionHeaderTokens (responseFields head)) := by
  rw [hhead.delimitedByLength_iff]
  by_cases htoken : "content-length".toList ∈ connectionHeaderTokens (responseFields head)
  · have hscan : sanitizedScan (responseFields head) close scan =
        { scan with contentLength := none, connectionClose := close } := by
      rw [sanitizedScan, if_pos htoken]
    rw [hscan, bodyFraming_withoutLength]
    constructor
    · rintro hsame ⟨n, hn⟩
      rw [hn] at hsame
      exact absurd hsame (bodyState_contentLength_ne n)
    · intro hdelimited
      cases hframing : bodyFraming e code scan with
      | contentLength n => exact absurd htoken (hdelimited ⟨n, hframing⟩)
      | interim | none | chunked | closeDelimited => rfl
  · have hsame : bodyFraming e code (sanitizedScan (responseFields head) close scan) =
        bodyFraming e code scan := by
      rw [bodyFraming, bodyFraming, sanitizedScan]
      dsimp only
      rw [if_neg htoken]
    rw [hsame]
    exact ⟨fun _ _ => htoken, fun _ => rfl⟩

theorem FramedHead.finishHeaders (hhead : FramedHead head code scan) (f : HttpResponseFraming) :
    ∃ g, f.finishHeaders head = (.ok 1, g) ∧
      g.state = bodyState (bodyFraming f.bodyExpectation code scan) ∧
      g.statusCode = some code := by
  have hparse : parseResponseFramingHeaders head f.bodyExpectation =
      .ok (code, bodyFraming f.bodyExpectation code scan, scan.connectionClose) :=
    parseResponseFramingHeaders_ok_iff.mpr ⟨scan, hhead, rfl, rfl⟩
  rw [HttpResponseFraming.finishHeaders, hparse]
  refine ⟨_, rfl, rfl, ?_⟩
  dsimp only
  split <;> rfl

theorem sanitize_framedHead (hblock : IsHeaderBlock head) (hroom : head.length ≤ maxHeaderBytes)
    (hhead : FramedHead head code scan) :
    ((new maxHeaderBytes closeFinalResponse).sanitize head).1 =
      .ok (sanitizedBlock head (!isInterimStatus code && closeFinalResponse)) := by
  obtain ⟨_, hl⟩ := hblock
  have hloop := sanitizeLoop_headerBlock (s := new maxHeaderBytes closeFinalResponse) [] [] rfl hl
    hroom (sanitizeResponseHeaderBlock_eq hhead closeFinalResponse)
  rw [append_nil] at hloop
  have hsanitize : (new maxHeaderBytes closeFinalResponse).sanitize head =
      (new maxHeaderBytes closeFinalResponse).sanitizeLoop [] head := rfl
  rw [hsanitize, hloop, sanitizedBlock]
  cases isInterimStatus code with
  | false => rw [Bool.not_false, if_pos rfl, nil_append, append_nil]
  | true => rfl

/-- The head sent to the client has the framing of the head received, exactly if a `Content-Length`
that delimits the body is not named in `Connection`. -/
theorem sanitized_head_frames_iff {g : HttpResponseFraming} (hblock : IsHeaderBlock head)
    (haccept : (withBodyExpectation maxHeaderBytes maxLineBytes e).push head = (.ok p, g))
    {block : Bytes} (hsanitize : ((UpstreamResponseHeaderSanitizer.new maxHeaderBytes
      closeFinalResponse).sanitize head).1 = .ok block) :
    FramesAs e block g ↔ (DelimitedByLength e head →
      "content-length".toList ∉ connectionHeaderTokens (responseFields head)) := by
  have ⟨_, hl⟩ := hblock
  obtain ⟨hroom, -, hfinish⟩ := (push_headerBlock_iff hl).mp haccept
  obtain ⟨code, _, hhead, hstate, hstatus⟩ := finishHeaders_spec hfinish
  obtain rfl := Except.ok.inj ((sanitize_framedHead hblock hroom hhead).symm.trans hsanitize)
  generalize (!isInterimStatus code && closeFinalResponse) = close at hsanitize ⊢
  obtain ⟨hsanitized, hend⟩ := hhead.sanitized close
  have hbody : (withBodyExpectation maxHeaderBytes maxLineBytes e).bodyExpectation = e := rfl
  rw [hbody] at hstate
  rw [← hhead.bodyState_sanitized_iff close, ← hstate]
  constructor
  · intro hframes
    obtain ⟨_, g', hpush, -, -, hsame⟩ := hframes _ 0 le_rfl
    obtain ⟨-, -, hfinish'⟩ := (push_headerBlock_iff hend).mp hpush
    obtain ⟨g'', hfinish'', hstate', -⟩ := hsanitized.finishHeaders
      (withBodyExpectation (sanitizedBlock head close).length 0 e)
    obtain rfl : g'' = g' := (Prod.mk.inj (hfinish''.symm.trans hfinish')).2
    exact hstate'.symm.trans hsame
  · intro hsame maxHeaderBytes' maxLineBytes' hroom'
    obtain ⟨g', hfinish', hstate', hstatus'⟩ := hsanitized.finishHeaders
      (withBodyExpectation maxHeaderBytes' maxLineBytes' e)
    exact ⟨_, g', (push_headerBlock_iff hend).mpr ⟨hroom', rfl, hfinish'⟩, rfl,
      hstatus'.trans hstatus.symm, hstate'.trans hsame⟩

def fiveByteHead (token : String) : Bytes :=
  encode ("HTTP/1.1 200 OK\r\nConnection: ".toList ++ token.toList ++
    "\r\nContent-Length:5\r\n\r\n".toList)

def fiveByteFramer : HttpResponseFraming :=
  { withBodyExpectation 99 9 .normal with state := .contentLength 5, statusCode := some 200 }

def clientHead : Bytes :=
  encode "HTTP/1.1 200 OK\r\nContent-Length: 5\r\nConnection: close\r\n\r\n".toList

theorem fiveByteHead_sanitized :
    splitHeaderEnd (fiveByteHead "x") = some ((fiveByteHead "x").take 48, []) ∧
      (withBodyExpectation 99 9 .normal).push (fiveByteHead "x") =
        (.ok (fiveByteFramer.progress 52 52), fiveByteFramer) ∧
      ((new 99 true).sanitize (fiveByteHead "x")).1 = .ok clientHead ∧
      "content-length".toList ∉ connectionHeaderTokens (responseFields (fiveByteHead "x")) ∧
      containsProhibitedHttpFieldValueControl (responseStatusLine (fiveByteHead "x")) = false := by
  decide +kernel

theorem length_kept_for_client : FramesAs .normal clientHead fiveByteFramer := by
  obtain ⟨hblock, haccept, hsanitize, hkept, -⟩ := fiveByteHead_sanitized
  exact (sanitized_head_frames_iff ⟨_, hblock⟩ haccept hsanitize).mpr fun _ => hkept

/-- An upstream that names `Content-Length` in `Connection` has its response sent without a
length: the client reads on after the body. -/
theorem length_lost_for_client :
    ∃ p block, (withBodyExpectation 99 9 .normal).push (fiveByteHead "content-length") =
        (.ok p, fiveByteFramer) ∧
      ((UpstreamResponseHeaderSanitizer.new 99 false).sanitize
        (fiveByteHead "content-length")).1 = .ok block ∧
      ¬ FramesAs .normal block fiveByteFramer := by
  refine ⟨fiveByteFramer.progress 65 65, encode "HTTP/1.1 200 OK\r\n\r\n".toList,
    by decide +kernel, by decide +kernel, fun hframes => ?_⟩
  obtain ⟨_, _, hpush, -, -, hstate⟩ := hframes 19 9 (by decide)
  have hclose : ((withBodyExpectation 19 9 .normal).push
      (encode "HTTP/1.1 200 OK\r\n\r\n".toList)).2.state = .closeDelimited := by
    decide +kernel
  rw [hpush] at hclose
  exact absurd (hstate.symm.trans hclose) (by decide)

end Framing

def isControlByte (b : UInt8) : Bool := (b < 32 && b != 9) || b == 127

/-- Carriage returns and line feeds occur only in pairs, and there is no other control byte. -/
def crlfOnly : Bytes → Bool
  | [] => true
  | 13 :: 10 :: bs => crlfOnly bs
  | b :: bs => !isControlByte b && crlfOnly bs

theorem crlfOnly_cons {b : UInt8} {bs : Bytes} (h : ¬ lineTerminator <+: b :: bs) :
    crlfOnly (b :: bs) = (!isControlByte b && crlfOnly bs) := by
  rw [crlfOnly]
  rintro t rfl rfl
  exact h ⟨t, rfl⟩

theorem crlfOnly_append (h : (13 : UInt8) ∉ l) (bs : Bytes) :
    crlfOnly (l ++ bs) = (!l.any isControlByte && crlfOnly bs) := by
  induction l with
  | nil => rfl
  | cons _ _ ih =>
    rw [mem_cons, not_or] at h
    rw [cons_append, crlfOnly_cons fun hp => h.1 (cons_prefix_cons.mp hp).1, ih h.2,
      any_cons, Bool.not_or, Bool.and_assoc]

theorem any_isControlByte (c : Char) :
    (String.utf8EncodeChar c).any isControlByte = isProhibitedFieldControl c := by
  have hbyte : ∀ n : ℕ, n < 128 → isControlByte (UInt8.ofNat n) =
      (n ≤ 8 || (10 ≤ n && n ≤ 31) || n == 127) := by
    decide +kernel
  have hc : c.toNat = c.val.toNat := rfl
  rw [isProhibitedFieldControl]
  by_cases hascii : c.toNat < 128
  · have hsize : c.utf8Size = 1 := by
      rw [Char.utf8Size_eq_one_iff, UInt32.le_iff_toNat_le, ← hc]
      exact Nat.le_of_lt_succ hascii
    rw [String.utf8EncodeChar_eq_singleton hsize, any_cons, any_nil, Bool.or_false,
      ← hbyte _ hascii]
    rfl
  · have hnone : (String.utf8EncodeChar c).any isControlByte = false := by
      refine any_eq_false.mpr fun b hb hcontrol => hascii ?_
      have hb' : b.toNat < 128 := by
        rw [isControlByte, Bool.or_eq_true, Bool.and_eq_true, decide_eq_true_eq,
          beq_iff_eq, UInt8.lt_iff_toNat_lt] at hcontrol
        rcases hcontrol with ⟨h, -⟩ | rfl
        · exact h.trans (by decide)
        · decide
      rw [toNat_eq_of_mem_utf8EncodeChar hb hb']
      exact hb'
    rw [hnone]
    simp only [Bool.false_eq, Bool.or_eq_false_iff, Bool.and_eq_false_iff, decide_eq_false_iff_not,
      beq_eq_false_iff_ne]
    omega

theorem crlfOnly_line {l : Text} (h : ¬ ['\r', '\n'] <:+: l) (bs : Bytes) :
    crlfOnly (encode l ++ 13 :: 10 :: bs) =
      (!containsProhibitedHttpFieldValueControl l && crlfOnly bs) := by
  rw [containsProhibitedHttpFieldValueControl]
  induction l with
  | nil => rfl
  | cons c _ ih =>
    rw [infix_cons_iff, not_or] at h
    rw [encode_cons, append_assoc, any_cons, Bool.not_or, Bool.and_assoc, ← ih h.2]
    by_cases hc : c = '\r'
    · subst hc
      exact crlfOnly_cons (not_crlf_prefix_encode h.1 _)
    · have hcr : (13 : UInt8) ∉ encode [c] :=
        cr_notMem_encode fun hm => hc (mem_singleton.mp hm).symm
      rw [encode_cons, encode_nil, append_nil] at hcr
      rw [crlfOnly_append hcr, any_isControlByte]

theorem crlfOnly_lines {ls : List Text} (h : ∀ l ∈ ls, ¬ ['\r', '\n'] <:+: l) :
    crlfOnly (encode (ls.flatMap (· ++ ['\r', '\n'])) ++ [13, 10]) =
      ls.all fun l => !containsProhibitedHttpFieldValueControl l := by
  induction ls with
  | nil => rfl
  | cons _ ls ih =>
    rw [forall_mem_cons] at h
    have hline := crlfOnly_line h.1 (encode (ls.flatMap (· ++ ['\r', '\n'])) ++ [13, 10])
    rw [ih h.2] at hline
    rw [flatMap_cons, encode_append, encode_append, all_cons, ← hline]
    simp only [append_assoc]
    rfl

theorem not_isProhibitedFieldControl_of_token {c : Char} (h : isHttpTokenChar c = true) :
    isProhibitedFieldControl c = false := by
  rw [isHttpTokenChar, Bool.or_eq_true, contains_iff_mem] at h
  rcases h with h | h
  · rw [isAsciiAlphanumeric_iff] at h
    simp only [isProhibitedFieldControl, Bool.or_eq_false_iff, Bool.and_eq_false_iff,
      decide_eq_false_iff_not, beq_eq_false_iff_ne]
    omega
  · have hall : ∀ c ∈ tokenSpecials, isProhibitedFieldControl c = false := by decide
    exact hall c h

theorem Header.Clean.rawLine_control {h : Header} (hclean : h.Clean) :
    containsProhibitedHttpFieldValueControl h.rawLine = false := by
  have hname := hclean.name
  have hvalue := hclean.value
  rw [isHttpToken, Bool.and_eq_true, all_eq_true] at hname
  rw [containsProhibitedHttpFieldValueControl, any_eq_false] at hvalue ⊢
  intro c hc
  rcases mem_append.mp hc with hc | hc
  · rw [not_isProhibitedFieldControl_of_token (hname.2 c hc)]
    exact Bool.false_ne_true
  · rcases mem_cons.mp hc with rfl | hc
    · decide
    · exact hvalue c hc

/-- The head sent to the client has no stray control byte, exactly if the status line received has
none. -/
theorem sanitized_head_unsplit_iff {head : Bytes} {e : ResponseBodyExpectation}
    {g : HttpResponseFraming} (hblock : IsHeaderBlock head)
    (haccept : (HttpResponseFraming.withBodyExpectation maxHeaderBytes maxLineBytes e).push head =
      (.ok p, g)) {block : Bytes} (hsanitize : ((UpstreamResponseHeaderSanitizer.new maxHeaderBytes
      closeFinalResponse).sanitize head).1 = .ok block) :
    crlfOnly block = true ↔
      containsProhibitedHttpFieldValueControl (responseStatusLine head) = false := by
  have ⟨_, hl⟩ := hblock
  obtain ⟨hroom, -, hfinish⟩ := (push_headerBlock_iff hl).mp haccept
  obtain ⟨code, _, hhead, -, -⟩ := finishHeaders_spec hfinish
  obtain rfl := Except.ok.inj ((sanitize_framedHead hblock hroom hhead).symm.trans hsanitize)
  generalize (!isInterimStatus code && closeFinalResponse) = close
  have hlines : ∀ h ∈ sanitizedFields (responseFields head) close, h.Clean :=
    sanitizedFields_clean hhead.clean
  have hend : "\r\n\r\n".toList = ['\r', '\n'] ++ ['\r', '\n'] := by decide
  have hbytes : encode ['\r', '\n'] = [13, 10] := by decide
  have hfields : ((sanitizedFields (responseFields head) close).map Header.rawLine).all
      (fun l => !containsProhibitedHttpFieldValueControl l) = true := by
    rw [all_map, all_eq_true]
    intro h hh
    rw [Function.comp_apply, (hlines h hh).rawLine_control, Bool.not_false]
  rw [sanitizedBlock, hend, ← append_assoc, joinCrlf_append_crlf (cons_ne_nil _ _),
    encode_append, hbytes, crlfOnly_lines (hhead.lines_not_infix close), all_cons, hfields,
    Bool.and_true, Bool.not_eq_true']

theorem five_byte_head_unsplit : crlfOnly clientHead = true := by
  obtain ⟨hblock, haccept, hsanitize, -, hstatus⟩ := fiveByteHead_sanitized
  exact (sanitized_head_unsplit_iff ⟨_, hblock⟩ haccept hsanitize).mpr hstatus

/-- A line feed in the reason phrase starts a line of its own for the client. -/
theorem reason_phrase_splits_head :
    ∃ p g, (HttpResponseFraming.withBodyExpectation 99 9 .normal).push (encode
        "HTTP/1.1 200 OK\nSet-Cookie: a=b\r\n\r\n".toList) = (.ok p, g) ∧
      ((UpstreamResponseHeaderSanitizer.new 99 false).sanitize (encode
        "HTTP/1.1 200 OK\nSet-Cookie: a=b\r\n\r\n".toList)).1 =
          .ok (encode "HTTP/1.1 200 OK\nSet-Cookie: a=b\r\n\r\n".toList) ∧
      crlfOnly (encode "HTTP/1.1 200 OK\nSet-Cookie: a=b\r\n\r\n".toList) = false :=
  ⟨⟨35, 35, .closeDelimited, some 200⟩, { withBodyExpectation 99 9 .normal with
      state := .closeDelimited, statusCode := some 200, closeDelimited := true },
    by decide +kernel⟩

end EdgeProxy

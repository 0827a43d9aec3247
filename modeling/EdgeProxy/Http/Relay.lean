import EdgeProxy.Http.SanitizedHead
import EdgeProxy.Http.Segmentation

/-! # Framer and sanitizer on one stream

The runtime gives each read to the framer and what the framer took to the sanitizer. The two find
the same header ends, so the sanitizer refuses nothing that the framer takes, and what it writes is
a function of the bytes taken: the sanitized header blocks, then the body as it came.
-/

namespace EdgeProxy

open Rust List UpstreamResponseHeaderSanitizer

/-- The sanitized header blocks of a stream, up to the first final one, and the bytes after it. -/
def projectResponse (close : Bool) (bs : Bytes) : Bytes :=
  match _hsplit : splitHeaderEnd bs with
  | none => []
  | some (l, rest) =>
    match sanitizeResponseHeaderBlock (l ++ emptyLine) close with
    | .error _ => []
    | .ok (block, interim) => block ++ if interim then projectResponse close rest else rest
  termination_by bs.length
  decreasing_by
    have hlength := congrArg length (splitHeaderEnd_eq_some_iff.mp _hsplit).1
    simp only [length_append, length_cons] at hlength
    omega

/-- Framer and sanitizer of one exchange, with the bytes taken and the bytes written so far. -/
structure ResponseRelay where
  framing : HttpResponseFraming
  sanitizer : UpstreamResponseHeaderSanitizer
  consumed : Bytes := []
  output : Bytes := []

inductive RelayVerdict where
  | accepted | refused (e : AppError) | unsanitized (e : AppError)

namespace ResponseRelay

/-- `begin_response_framing`: both are given the same header limit. -/
def start (maxHeaderBytes maxLineBytes : ℕ) (e : ResponseBodyExpectation) (close : Bool) :
    ResponseRelay where
  framing := .withBodyExpectation maxHeaderBytes maxLineBytes e
  sanitizer := .new maxHeaderBytes close

def run (r : ResponseRelay) : List Bytes → RelayVerdict × ResponseRelay
  | [] => (.accepted, r)
  | input :: inputs =>
    if r.framing.phase = .complete then (.accepted, r)
    else
      match r.framing.push input with
      | (.error e, _) => (.refused e, r)
      | (.ok progress, framing) =>
        match r.sanitizer.sanitize (input.take progress.consumed) with
        | (.error e, _) => (.unsanitized e, r)
        | (.ok bytes, sanitizer) =>
          run { framing, sanitizer, consumed := r.consumed ++ input.take progress.consumed
                output := r.output ++ bytes } inputs

end ResponseRelay

section Project

open HttpResponseFraming

variable {f f' : HttpResponseFraming} {s : UpstreamResponseHeaderSanitizer} {bs : Bytes}

theorem projectResponse_none {close : Bool} (h : splitHeaderEnd bs = none) :
    projectResponse close bs = [] := by
  rw [projectResponse]
  split
  · rfl
  · next hsome => simp [h] at hsome

theorem projectResponse_some {close interim : Bool} {l rest block : Bytes}
    (h : splitHeaderEnd bs = some (l, rest))
    (hblock : sanitizeResponseHeaderBlock (l ++ emptyLine) close = .ok (block, interim)) :
    projectResponse close bs = block ++ if interim then projectResponse close rest else rest := by
  rw [projectResponse]
  split
  · next hnone => simp [h] at hnone
  · next l' rest' hsome =>
    obtain ⟨rfl, rfl⟩ : l' = l ∧ rest' = rest := by simpa using hsome.symm.trans h
    rw [hblock]

theorem HttpResponseFraming.Feeds.sanitizeLoop_eq (hstate : f.state = .headers [])
    (hfeeds : f.Feeds bs f') (hheaders : s.headers = [])
    (hmax : s.maxHeaderBytes = f.maxHeaderBytes) (o : Bytes) :
    (s.sanitizeLoop o bs).1 = .ok (o ++ projectResponse s.closeFinalResponse bs) := by
  induction hn : bs.length using Nat.strong_induction_on generalizing f s o bs with
  | _ n ih =>
    cases hsplit : splitHeaderEnd bs with
    | none =>
      have hno := splitHeaderEnd_eq_none_iff.mp hsplit
      obtain ⟨hroom, -⟩ := (feeds_headers_iff hstate (Nat.zero_le _) hno).mp hfeeds
      have hcollect := sanitizeLoop_collect (s := s) (a := bs) o []
        (by rw [hheaders]; exact hno) (by rw [hheaders, hmax]; exact hroom)
      rw [append_nil] at hcollect
      rw [hcollect, projectResponse_none hsplit, append_nil]
      rfl
    | some p =>
      obtain ⟨l, rest⟩ := p
      obtain ⟨rfl, hno⟩ := splitHeaderEnd_eq_some_iff.mp hsplit
      have hhead : splitHeaderEnd (l ++ emptyLine) = some (l, []) :=
        splitHeaderEnd_eq_some_iff.mpr ⟨by rw [append_nil], hno⟩
      rw [← append_assoc, feeds_append_iff] at hfeeds
      obtain ⟨g, hblock, hrest⟩ := hfeeds
      obtain ⟨hroom, hfinish⟩ := (feeds_headerBlock_iff hstate hhead).mp hblock
      obtain ⟨code, _, hframed, hg, -⟩ := finishHeaders_spec hfinish
      have hwritten := sanitizeResponseHeaderBlock_eq hframed s.closeFinalResponse
      rw [projectResponse_some hsplit hwritten, ← append_assoc,
        sanitizeLoop_headerBlock o rest hheaders hhead
          (by rw [hmax]; exact hroom) hwritten]
      cases hinterim : isInterimStatus code with
      | false =>
        rw [Bool.not_false, if_pos rfl, if_neg Bool.false_ne_true, append_assoc]
      | true =>
        have hstate' : g.state = .headers [] := by
          rw [hg, bodyFraming, hinterim, if_pos rfl, bodyState]
        obtain ⟨_, _, _, -, -, hmax', -⟩ := finishHeaders_ok hfinish
        rw [Bool.not_true, if_neg Bool.false_ne_true, if_pos rfl]
        have hshort : rest.length < n := by
          rw [← hn]
          simp only [length_append, length_cons]
          omega
        have hnext := fun o' => ih rest.length hshort hstate' hrest
          (s := { s with headers := [] }) rfl (hmax.trans hmax'.symm) o' rfl
        rw [hnext, append_assoc]

end Project

section Run

open HttpResponseFraming

variable {maxHeaderBytes maxLineBytes : ℕ} {e : ResponseBodyExpectation} {close : Bool}

structure ResponseRelay.Sound (maxHeaderBytes maxLineBytes : ℕ) (e : ResponseBodyExpectation)
    (close : Bool) (r : ResponseRelay) : Prop where
  feeds : (withBodyExpectation maxHeaderBytes maxLineBytes e).Feeds r.consumed r.framing
  sanitized : (UpstreamResponseHeaderSanitizer.new maxHeaderBytes close).sanitize r.consumed =
    (.ok r.output, r.sanitizer)
  inStep : InStep r.framing r.sanitizer

theorem ResponseRelay.sound_start :
    (ResponseRelay.start maxHeaderBytes maxLineBytes e close).Sound maxHeaderBytes maxLineBytes e
      close where
  feeds := feeds_nil
  sanitized := rfl
  inStep := inStep_fresh maxHeaderBytes maxLineBytes e close

variable {r : ResponseRelay}

theorem ResponseRelay.Sound.output (h : r.Sound maxHeaderBytes maxLineBytes e close) :
    r.output = projectResponse close r.consumed := by
  have hloop := h.feeds.sanitizeLoop_eq (s := .new maxHeaderBytes close) rfl rfl rfl []
  have hsanitized := congrArg Prod.fst h.sanitized
  exact Except.ok.inj (hsanitized.symm.trans hloop)

theorem ResponseRelay.Sound.read
    (h : r.Sound maxHeaderBytes maxLineBytes e close) {taken : Bytes} {f : HttpResponseFraming}
    (hfeeds : r.framing.Feeds taken f) :
    ∃ bytes s, r.sanitizer.sanitize taken = (.ok bytes, s) ∧
      ResponseRelay.Sound maxHeaderBytes maxLineBytes e close
        ⟨f, s, r.consumed ++ taken, r.output ++ bytes⟩ := by
  obtain ⟨bytes, s, hs, hin, -⟩ := hfeeds.sanitize h.inStep
  refine ⟨bytes, s, hs, feeds_append_iff.mpr ⟨_, h.feeds, hfeeds⟩, ?_, hin⟩
  rw [sanitize_append, h.sanitized]
  simp only [hs]

theorem ResponseRelay.Sound.run
    (h : r.Sound maxHeaderBytes maxLineBytes e close) (hfailed : r.framing.state ≠ .failed)
    (reads : List Bytes) :
    (r.run reads).2.Sound maxHeaderBytes maxLineBytes e close ∧
      ((∃ n f, r.framing.consume 0 reads.flatten = (.ok n, f) ∧ (r.run reads).1 = .accepted ∧
          (r.run reads).2.consumed = r.consumed ++ reads.flatten.take n) ∨
        ∃ err f, r.framing.consume 0 reads.flatten = (.error err, f) ∧
          (r.run reads).1 = .refused err ∧
          (r.run reads).2.consumed <+: r.consumed ++ reads.flatten) := by
  induction reads generalizing r with
  | nil => exact ⟨h, .inl ⟨0, r.framing, rfl, rfl, by simp [ResponseRelay.run]⟩⟩
  | cons input inputs ih =>
    have hpos : r.framing.Positive :=
      h.feeds.positive (withBodyExpectation_spec maxHeaderBytes maxLineBytes e).1
    rw [flatten_cons, consume_append, ResponseRelay.run]
    by_cases hphase : r.framing.phase = .complete
    · have hterm : r.framing.isTerminal = true := by
        simp [isTerminal, phase_eq_complete_iff.mp hphase]
      rw [if_pos hphase, consume_terminal hterm]
      exact ⟨h, .inl ⟨0, r.framing, consume_terminal hterm, rfl, by simp⟩⟩
    · rw [if_neg hphase, push_eq hpos (isTerminal_eq_false hfailed hphase)]
      rcases hconsume : r.framing.consume 0 input with ⟨err | n, f⟩
      · exact ⟨h, .inr ⟨err, f, rfl, rfl, prefix_append _ _⟩⟩
      · have hcount := consume_ok hconsume
        obtain ⟨_, _, hs, hsound⟩ := h.read (feeds_of_consume hconsume)
        obtain ⟨hend, hnext⟩ := ih hsound (consume_state_ne_failed hfailed hconsume)
        have hadd : f.consume (0 + n) inputs.flatten = _ := consume_add n
        rw [Nat.zero_add] at hadd hcount
        simp only [HttpResponseFraming.progress, hs, hadd]
        refine ⟨hend, ?_⟩
        -- a read is taken in part only at the end of the response
        have hpart : n = input.length ∨ n < input.length ∧ f.isTerminal = true :=
          (Nat.lt_or_eq_of_le hcount.2.1).elim (fun hlt => .inr ⟨hlt, hcount.2.2.1 hlt⟩) .inl
        rcases hnext with ⟨m, g, hm, hverdict, htaken⟩ | ⟨err, g, hm, hverdict, htaken⟩
        · refine .inl ⟨m + n, g, by rw [hm], hverdict, ?_⟩
          rw [htaken, append_assoc]
          refine congrArg _ ?_
          rcases hpart with rfl | ⟨hlt, hterm⟩
          · rw [take_length, Nat.add_comm, take_length_add_append]
          · rw [consume_terminal hterm] at hm
            obtain rfl : 0 = m := Except.ok.inj (Prod.mk.inj hm).1
            rw [take_zero, append_nil, Nat.zero_add, take_append_of_le_length hlt.le]
        · refine .inr ⟨err, g, by rw [hm], hverdict, ?_⟩
          rcases hpart with rfl | ⟨-, hterm⟩
          · simp only [take_length, append_assoc] at htaken ⊢
            exact htaken
          · simp [consume_terminal hterm] at hm

/-- However the stream is cut: the sanitizer refuses nothing that the framer takes, it forwards the
body exactly while the framer is past the headers, and what it has written is the projection of the
bytes taken. Two cuts of one accepted stream give the same output. -/
theorem relay_in_step (maxHeaderBytes maxLineBytes : ℕ) (e : ResponseBodyExpectation)
    (close : Bool) (reads : List Bytes) :
    let start := ResponseRelay.start maxHeaderBytes maxLineBytes e close
    let (verdict, r) := start.run reads
    (∀ err, verdict ≠ .unsanitized err) ∧
      (r.sanitizer.forwardingBody = true ↔ r.framing.phase ≠ .headers) ∧
      r.output = projectResponse close r.consumed ∧ r.consumed <+: reads.flatten ∧
      ∀ reads', reads'.flatten = reads.flatten → verdict = .accepted →
        (start.run reads').1 = .accepted ∧ (start.run reads').2.output = r.output := by
  have hrun := ResponseRelay.sound_start.run (r := .start maxHeaderBytes maxLineBytes e close)
    (withBodyExpectation_spec maxHeaderBytes maxLineBytes e).2
  obtain ⟨hsound, hverdict⟩ := hrun reads
  have hnil : (ResponseRelay.start maxHeaderBytes maxLineBytes e close).consumed = [] := rfl
  refine ⟨fun err => ?_, ?_, hsound.output, ?_, fun reads' hsame haccepted => ?_⟩
  · rcases hverdict with ⟨_, _, -, h, -⟩ | ⟨_, _, -, h, -⟩ <;> rw [h] <;> simp
  · have hheaders : ∀ f : HttpResponseFraming,
        f.phase ≠ .headers ↔ ∀ buf, f.state ≠ .headers buf := by
      intro f
      rw [phase]
      cases f.state <;> simp
    rw [hheaders]
    refine ⟨fun hforward buf hbuf => ?_, hsound.inStep.forwarding⟩
    rw [(hsound.inStep.headers buf hbuf).1] at hforward
    exact absurd hforward Bool.false_ne_true
  · rcases hverdict with ⟨n, _, -, -, h⟩ | ⟨_, _, -, -, h⟩
    · rw [h]
      exact take_prefix _ _
    · exact h
  · obtain ⟨hsound', hverdict'⟩ := hrun reads'
    rcases hverdict with ⟨n, _, hn, -, htaken⟩ | ⟨_, _, -, h, -⟩
    · rcases hverdict' with ⟨n', _, hn', haccepted', htaken'⟩ | ⟨_, _, hn', -, -⟩
      · rw [hsame, hn] at hn'
        obtain rfl : n = n' := Except.ok.inj (Prod.mk.inj hn').1
        rw [hsound.output, hsound'.output, htaken, htaken', hsame]
        exact ⟨haccepted', rfl⟩
      · rw [hsame, hn] at hn'
        simp at hn'
    · rw [h] at haccepted
      simp at haccepted

def chunkedHead : Bytes := encode "HTTP/1.1 200 OK\r\nTransfer-Encoding: chunked\r\n\r\n".toList

/-- The read that is refused writes nothing, so a stream refused at its first chunk size leaves the
head written only if a read ends between the two. -/
theorem refused_output_depends_on_cut :
    let start := ResponseRelay.start 100 100 .normal false
    (start.run [chunkedHead ++ [90, 13, 10]]).2.output = [] ∧
      (start.run [chunkedHead, [90, 13, 10]]).2.output = chunkedHead := by
  decide

end Run

end EdgeProxy

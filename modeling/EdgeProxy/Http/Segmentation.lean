import EdgeProxy.Http.Framing

/-! # Responses cut into pushes

A response reaches the framer in pieces. Whatever the pieces, the framer does what it does on the
whole byte string taken byte by byte. Only the counts that it reports before an error depend on the
pieces: a push that fails reports none.
-/

namespace EdgeProxy

open Rust

namespace HttpResponseFraming

variable {f : HttpResponseFraming}

/-- Feeds the pushes until the framer is complete or refuses one: the verdict, the sum of the counts
reported, and the framer. -/
def feedPushes (f : HttpResponseFraming) (consumed : ℕ) :
    List Bytes → Except AppError Unit × ℕ × HttpResponseFraming
  | [] => (.ok (), consumed, f)
  | input :: inputs =>
    if f.phase = .complete then (.ok (), consumed, f)
    else
      match f.push input with
      | (.error e, f) => (.error e, consumed, f)
      | (.ok progress, f) => feedPushes f (consumed + progress.consumed) inputs

theorem phase_eq_complete_iff : f.phase = .complete ↔ f.state = .complete := by
  unfold phase
  cases f.state <;> simp

theorem isTerminal_eq_false (hfailed : f.state ≠ .failed) (hphase : f.phase ≠ .complete) :
    f.isTerminal = false := by
  rw [Ne, phase_eq_complete_iff] at hphase
  simp [isTerminal, hfailed, hphase]

theorem feedPushes_eq (hpos : f.Positive) (hfailed : f.state ≠ .failed) (c : ℕ) (xs : List Bytes) :
    (∃ n f', f.consume c xs.flatten = (.ok n, f') ∧ f.feedPushes c xs = (.ok (), n, f')) ∨
      ∃ e n f', f.consume c xs.flatten = (.error e, f') ∧
        f.feedPushes c xs = (.error e, n, f') := by
  induction xs generalizing f c with
  | nil => exact .inl ⟨c, f, rfl, rfl⟩
  | cons input _ ih =>
    rw [List.flatten_cons, consume_append, feedPushes]
    by_cases hphase : f.phase = .complete
    · have hterm : f.isTerminal = true := by
        simp [isTerminal, phase_eq_complete_iff.mp hphase]
      rw [if_pos hphase, consume_terminal hterm]
      exact .inl ⟨c, f, consume_terminal hterm, rfl⟩
    have hcount : f.consume (0 + c) input = _ := consume_add c
    have hpos' : (f.consume 0 input).2.Positive := consume_positive hpos
    rw [Nat.zero_add] at hcount
    rw [if_neg hphase, push_eq hpos (isTerminal_eq_false hfailed hphase), hcount]
    rcases hconsume : f.consume 0 input with ⟨e | n, f'⟩
    · exact .inr ⟨e, c, f', rfl, rfl⟩
    · rw [hconsume] at hpos'
      simp only [progress]
      rw [Nat.add_comm c n]
      exact ih hpos' (consume_state_ne_failed hfailed hconsume) (n + c)

theorem withBodyExpectation_spec (maxHeaderBytes maxLineBytes : ℕ) (e : ResponseBodyExpectation) :
    (withBodyExpectation maxHeaderBytes maxLineBytes e).Positive ∧
      (withBodyExpectation maxHeaderBytes maxLineBytes e).state ≠ .failed := by
  simp [Positive, withBodyExpectation]

end HttpResponseFraming

/-- What can be observed of a framer that was fed a response, and then perhaps told that the
upstream closed the connection. -/
structure FramingOutcome where
  fed : Except AppError Unit
  consumed : ℕ
  finished : Option (Except AppError ResponseFramingProgress)
  phase : ResponseFramingPhase
  statusCode : Option ℕ
  reusable : Bool

def frameResponse (maxHeaderBytes maxLineBytes : ℕ) (expectation : ResponseBodyExpectation)
    (pushes : List Bytes) (eof : Bool) : FramingOutcome :=
  let f := HttpResponseFraming.withBodyExpectation maxHeaderBytes maxLineBytes expectation
  let (fed, consumed, f) := f.feedPushes 0 pushes
  let (finished, f) := if eof then
      let (result, f) := f.finishOnEof
      (some result, f)
    else (none, f)
  { fed, consumed, finished, phase := f.phase, statusCode := f.statusCode
    reusable := f.isKeepAliveReusable }

/-- Two cuts of one byte string differ at most in the counts reported before an error. -/
theorem framing_independent_of_cut (maxHeaderBytes maxLineBytes : ℕ)
    (expectation : ResponseBodyExpectation) (eof : Bool) {xs ys : List Bytes}
    (h : xs.flatten = ys.flatten) :
    let a := frameResponse maxHeaderBytes maxLineBytes expectation xs eof
    let b := frameResponse maxHeaderBytes maxLineBytes expectation ys eof
    a = { b with consumed := a.consumed } ∧ (a.fed = .ok () → a.consumed = b.consumed) := by
  obtain ⟨hpos, hfailed⟩ :=
    HttpResponseFraming.withBodyExpectation_spec maxHeaderBytes maxLineBytes expectation
  have hx := HttpResponseFraming.feedPushes_eq hpos hfailed 0 xs
  have hy := HttpResponseFraming.feedPushes_eq hpos hfailed 0 ys
  rw [h] at hx
  rcases hx with ⟨n, f, hn, hx⟩ | ⟨e, n, f, hn, hx⟩ <;>
    rcases hy with ⟨m, g, hm, hy⟩ | ⟨e', m, g, hm, hy⟩ <;> rw [hn] at hm
  · obtain ⟨rfl, rfl⟩ : n = m ∧ f = g := by simpa using hm
    simp [frameResponse, hx, hy]
  · simp at hm
  · simp at hm
  · obtain ⟨rfl, rfl⟩ : e = e' ∧ f = g := by simpa using hm
    simp [frameResponse, hx, hy]

def emptyResponse : Bytes := encode "HTTP/1.1 204 X\r\n\r\n".toList

theorem empty_response_independent_of_cut :
    let whole := frameResponse 64 16 .normal [emptyResponse] false
    let cut := frameResponse 64 16 .normal [emptyResponse.take 9, emptyResponse.drop 9] false
    whole.fed = .ok () ∧ whole = { cut with consumed := whole.consumed } ∧
      whole.consumed = cut.consumed := by
  have hcut : [emptyResponse].flatten = [emptyResponse.take 9, emptyResponse.drop 9].flatten := by
    decide
  have hok : (frameResponse 64 16 .normal [emptyResponse] false).fed = .ok () := by decide
  have h := framing_independent_of_cut 64 16 .normal false hcut
  exact ⟨hok, h.1, h.2 hok⟩

/-- A malformed header block: in one push nothing is reported, in two the first byte is. -/
theorem rejected_count_depends_on_cut :
    let whole := frameResponse 64 16 .normal [[65, 13, 10, 13, 10]] false
    let cut := frameResponse 64 16 .normal [[65], [13, 10, 13, 10]] false
    whole.fed = cut.fed ∧ whole.phase = .failed ∧ whole.consumed = 0 ∧ cut.consumed = 1 := by
  decide

end EdgeProxy

import EdgeProxy.Core.Transport

/-! # TLS sessions under their transport

The transport of a TLS connection keeps a state beside its session and reads it again from the
session after most operations. The session of the adapters hands plaintext to a writer that holds a
bounded amount of output.
-/

namespace EdgeProxy

open Rust List

section Failure

def ReportsFailed {σ : Type} [TlsSession σ] (s : σ) : Prop :=
  ∃ code, TlsSession.progress s = .failed code

def TlsTransportState.IsFailed (state : TlsTransportState) : Prop := ∃ error, state = .failed error

theorem TlsTransport.isFailed_new {σ : Type} [TlsSession σ] {s : σ} :
    (new s).state.IsFailed ↔ ReportsFailed s := by
  rw [ReportsFailed, new]
  cases TlsSession.progress s <;> simp [stateFromProgress, TlsTransportState.IsFailed]

theorem TlsTransportState.IsFailed.isTerminal {state : TlsTransportState} (h : state.IsFailed) :
    state.isTerminal = true := by
  obtain ⟨_, rfl⟩ := h
  rfl

variable {σ : Type} [TlsSession σ]

inductive TlsTransportCall where
  | receiveEncrypted (bytes : Bytes)
  | takeDecrypted (maxBytes : ℕ)
  | receivePlaintext (bytes : Bytes)
  | takeEncrypted (maxBytes : ℕ)
  | requestCloseNotify
  | markHandshakeTimeout

namespace TlsTransport

variable (t : TlsTransport σ)

def markHandshakeTimeout : Except AppError Unit × TlsTransport σ :=
  if t.state ≠ .handshaking then (.ok (), t)
  else (.error handshakeTimeout, { t with state := .failed handshakeTimeout })

/-- The plaintext bytes that a call accepts from the proxy or delivers to it, and the transport
after it. -/
def call : TlsTransportCall → ℕ × TlsTransport σ
  | .receiveEncrypted bytes => (0, (t.receiveEncrypted bytes).2)
  | .takeDecrypted maxBytes => (t.takeDecrypted maxBytes).map length id
  | .receivePlaintext bytes => (t.receivePlaintext bytes).map (fun r => r.toOption.getD 0) id
  | .takeEncrypted maxBytes => (0, (t.takeEncrypted maxBytes).2)
  | .requestCloseNotify => (0, t.requestCloseNotify.2)
  | .markHandshakeTimeout => (0, t.markHandshakeTimeout.2)

def calls (cs : List TlsTransportCall) : TlsTransport σ :=
  cs.foldl (fun t c => (t.call c).2) t

end TlsTransport

/-- A session that reported a failure reports one after every operation. -/
structure KeepsFailed (σ : Type) [TlsSession σ] : Prop where
  receiveEncrypted : ∀ (s : σ) bytes,
    ReportsFailed s → ReportsFailed (TlsSession.receiveEncrypted bytes s).2
  takeDecrypted : ∀ (s : σ) n,
    ReportsFailed s → ReportsFailed (TlsSession.takeDecrypted n s).2
  receivePlaintext : ∀ (s : σ) bytes,
    ReportsFailed s → ReportsFailed (TlsSession.receivePlaintext bytes s).2
  takeEncrypted : ∀ (s : σ) n,
    ReportsFailed s → ReportsFailed (TlsSession.takeEncrypted n s).2
  requestCloseNotify : ∀ s : σ, ReportsFailed s → ReportsFailed (TlsSession.requestCloseNotify s).2

/-- However much of its output is taken, the session then reports a failure. -/
def FailsWhenDrained (s : σ) : Prop :=
  ∀ n, ReportsFailed (TlsSession.takeEncrypted n s).2

variable {t : TlsTransport σ}

theorem TlsTransport.call_failed (h : t.state.IsFailed) (c : TlsTransportCall) :
    t.call c = (0, t) ∨ ∃ n, t.call c =
      (0, .new (TlsSession.takeEncrypted n t.session).2) := by
  have hterminal := h.isTerminal
  have hstate : t.state ≠ .handshaking := by
    obtain ⟨_, he⟩ := h
    rw [he]
    nofun
  cases c with
  | takeEncrypted n => exact .inr ⟨n, rfl⟩
  | markHandshakeTimeout =>
    left
    simp [call, markHandshakeTimeout, hstate]
  | _ =>
    left
    simp [call, receiveEncrypted, takeDecrypted, receivePlaintext, requestCloseNotify,
      hterminal, Except.toOption]

theorem TlsTransport.calls_failed (hkeeps : KeepsFailed σ)
    (h : t.state.IsFailed) (hdrained : FailsWhenDrained t.session) (cs : List TlsTransportCall) :
    (t.calls cs).state.IsFailed ∧ FailsWhenDrained (t.calls cs).session := by
  refine foldlRecOn
    (motive := fun t : TlsTransport σ => t.state.IsFailed ∧ FailsWhenDrained t.session)
    cs _ ⟨h, hdrained⟩ ?_
  rintro t ⟨h, hdrained⟩ c -
  rcases TlsTransport.call_failed h c with hc | ⟨n, hc⟩ <;> rw [hc]
  · exact ⟨h, hdrained⟩
  · exact ⟨TlsTransport.isFailed_new.mpr (hdrained n),
      fun m => hkeeps.takeEncrypted _ m (hdrained n)⟩

/-- A failure of the transport is final exactly if the session reports one as well once its output
is taken: a failure that only the transport knows of ends with the next `take_encrypted`. -/
theorem failure_final_iff (hkeeps : KeepsFailed σ) (h : t.state.IsFailed) :
    (∀ cs, (t.calls cs).state.IsFailed ∧ ∀ c, ((t.calls cs).call c).1 = 0) ↔
      FailsWhenDrained t.session := by
  constructor
  · intro hfinal n
    exact TlsTransport.isFailed_new.mp (hfinal [.takeEncrypted n]).1
  · intro hdrained cs
    obtain ⟨hfailed, -⟩ := TlsTransport.calls_failed hkeeps h hdrained cs
    refine ⟨hfailed, fun c => ?_⟩
    rcases TlsTransport.call_failed hfailed c with hc | ⟨n, hc⟩ <;> rw [hc]

instance : TlsSession TlsSessionProgress where
  receiveEncrypted bytes s := (.ok bytes.length, s)
  takeDecrypted _ s := ([], s)
  receivePlaintext bytes s := (.ok bytes.length, s)
  takeEncrypted _ s := ([], s)
  requestCloseNotify s := (.ok (), s)
  progress s := s
  interest _ := ⟨true, true⟩
  pendingBytes _ := {}

theorem keepsFailed_progress : KeepsFailed TlsSessionProgress :=
  ⟨fun _ _ h => h, fun _ _ h => h, fun _ _ h => h, fun _ _ h => h, fun _ h => h⟩

theorem failure_final_reported :
    ((TlsTransport.new (TlsSessionProgress.failed .tlsHandshakeFailed)).calls
      [.takeEncrypted 64, .markHandshakeTimeout]).state.IsFailed :=
  ((failure_final_iff keepsFailed_progress ⟨_, rfl⟩).mpr (fun _ => ⟨_, rfl⟩) _).1

/-- A handshake times out; draining the transport puts it back into the handshake, and it takes
plaintext again. -/
theorem timeout_forgotten :
    let t := (TlsTransport.new TlsSessionProgress.handshaking).calls [.markHandshakeTimeout]
    t.state = .failed TlsTransport.handshakeTimeout ∧
      (t.calls [.takeEncrypted 64]).state = .handshaking ∧
      ((t.calls [.takeEncrypted 64]).call (.receivePlaintext [1, 2])).1 = 2 := by
  decide

end Failure

section Plaintext

/-- The record protection of an established connection: what its peer reads from the ciphertext of
a text is the text. -/
class RecordLayer (κ : Type) where
  isHandshaking : κ → Bool
  protect : Bytes → κ → Bytes × κ
  opens : κ → Bytes → Bytes
  opens_nil : ∀ keys, opens keys [] = []
  opens_protect : ∀ keys bytes, opens keys (protect bytes keys).1 = bytes
  length_le : ∀ keys bytes, bytes.length ≤ (protect bytes keys).1.length

/-- The output that the writer of a connection holds at most. -/
def writerLimit : ℕ := 64 * 1024

structure RustlsConnection (κ : Type) where
  keys : κ
  sendableTls : Bytes

variable {κ : Type} [RecordLayer κ]

namespace RustlsConnection

def room (c : RustlsConnection κ) : ℕ := writerLimit - c.sendableTls.length

/-- `writer().write` after the handshake: the number of bytes taken. -/
def write (bytes : Bytes) (c : RustlsConnection κ) : ℕ × RustlsConnection κ :=
  if min bytes.length c.room = 0 then (0, c)
  else
    let (ciphertext, keys) := RecordLayer.protect (bytes.take (min bytes.length c.room)) c.keys
    (min bytes.length c.room, ⟨keys, c.sendableTls ++ ciphertext⟩)

/-- `write_all`: fails with the first write that takes nothing. -/
def writeAll (bytes : Bytes) (c : RustlsConnection κ) : Bool × RustlsConnection κ :=
  if bytes = [] then (true, c)
  else if (c.write bytes).1 = 0 then (false, (c.write bytes).2)
  else writeAll (bytes.drop (c.write bytes).1) (c.write bytes).2
termination_by bytes.length
decreasing_by
  have := length_pos_iff.mpr ‹bytes ≠ []›
  rw [length_drop]
  omega

end RustlsConnection

structure RustlsTlsSession (κ : Type) where
  connection : RustlsConnection κ
  decrypted : Bytes
  encrypted : Bytes
  failed : Option ErrorCode
  closing : Bool
  failureCode : ErrorCode

namespace RustlsTlsSession

def markFailed (error : String) (s : RustlsTlsSession κ) : AppError × RustlsTlsSession κ :=
  (⟨s.failureCode,
    match s.failureCode with
    | .upstreamTlsIdentityMismatch => "upstream TLS identity verification failed"
    | .upstreamTlsUntrusted => "upstream TLS peer verification failed"
    | _ => error⟩, { s with failed := some s.failureCode })

def flushTlsOutput (s : RustlsTlsSession κ) : RustlsTlsSession κ :=
  { s with
    connection := { s.connection with sendableTls := [] }
    encrypted := s.encrypted ++ s.connection.sendableTls }

def receivePlaintext (bytes : Bytes) (s : RustlsTlsSession κ) :
    Except AppError ℕ × RustlsTlsSession κ :=
  if s.failed.isSome || s.closing then (.ok 0, s)
  else
    match s.connection.writeAll bytes with
    | (true, connection) => (.ok bytes.length, flushTlsOutput { s with connection })
    | (false, connection) =>
      let (error, s) := markFailed "failed to write whole buffer" { s with connection }
      (.error error, s)

def takeEncrypted (maxBytes : ℕ) (s : RustlsTlsSession κ) : Bytes × RustlsTlsSession κ :=
  (s.encrypted.take maxBytes, { s with encrypted := s.encrypted.drop maxBytes })

def progress (s : RustlsTlsSession κ) : TlsSessionProgress :=
  match s.failed with
  | some code => .failed code
  | none =>
    if s.closing then if s.encrypted.isEmpty then .peerClosed else .closing
    else if RecordLayer.isHandshaking s.connection.keys then .handshaking
    else .established

/-- The session takes all bytes, does not fail, and what `take_encrypted` returns then is the
output it held before and ciphertext that carries the bytes. -/
def Sends (s : RustlsTlsSession κ) (bytes : Bytes) : Prop :=
  ∃ s' ciphertext, s.receivePlaintext bytes = (.ok bytes.length, s') ∧ s'.failed = none ∧
    RecordLayer.opens s.connection.keys ciphertext = bytes ∧
    ∀ n, (s'.takeEncrypted n).1 = (s.encrypted ++ (s.connection.sendableTls ++ ciphertext)).take n

end RustlsTlsSession

variable {c : RustlsConnection κ} {bytes : Bytes} {s : RustlsTlsSession κ}

theorem RustlsConnection.writeAll_of_le (h : bytes.length ≤ c.room) :
    ∃ c' ciphertext, c.writeAll bytes = (true, c') ∧
      RecordLayer.opens c.keys ciphertext = bytes ∧
      c'.sendableTls = c.sendableTls ++ ciphertext := by
  by_cases hnil : bytes = []
  · refine ⟨c, [], ?_, ?_, (append_nil _).symm⟩
    · rw [writeAll, if_pos hnil]
    · rw [hnil, RecordLayer.opens_nil]
  · have hpos := length_pos_iff.mpr hnil
    have hwrite : c.write bytes = (bytes.length, ⟨(RecordLayer.protect bytes c.keys).2,
          c.sendableTls ++ (RecordLayer.protect bytes c.keys).1⟩) := by
      rw [write, Nat.min_eq_left h, if_neg hpos.ne', take_length]
    refine ⟨(c.write bytes).2, _, ?_, RecordLayer.opens_protect c.keys bytes, by rw [hwrite]⟩
    rw [writeAll, if_neg hnil, hwrite, if_neg hpos.ne', drop_length, writeAll, if_pos rfl]

theorem RustlsConnection.writeAll_of_room_eq_zero (h : c.room = 0)
    (hne : bytes ≠ []) : (c.writeAll bytes).1 = false := by
  have hwrite : (c.write bytes).1 = 0 := by
    rw [write, h, Nat.min_zero, if_pos rfl]
  rw [writeAll, if_neg hne, if_pos hwrite]

theorem RustlsConnection.writeAll_of_lt (h : c.room < bytes.length) :
    (c.writeAll bytes).1 = false := by
  have hne : bytes ≠ [] := length_pos_iff.mp (by omega)
  by_cases hroom : c.room = 0
  · exact writeAll_of_room_eq_zero hroom hne
  · have hmin : min bytes.length c.room = c.room := Nat.min_eq_right h.le
    -- the first write fills the writer, the second one takes nothing
    have hwrite : c.write bytes = (c.room, ⟨(RecordLayer.protect (bytes.take c.room) c.keys).2,
          c.sendableTls ++ (RecordLayer.protect (bytes.take c.room) c.keys).1⟩) := by
      rw [write, hmin, if_neg hroom]
    rw [writeAll, if_neg hne, hwrite, if_neg hroom]
    apply writeAll_of_room_eq_zero
    · have hlength := RecordLayer.length_le c.keys (bytes.take c.room)
      rw [length_take] at hlength
      simp only [room, length_append] at hroom h hlength ⊢
      omega
    · rw [ne_eq, drop_eq_nil_iff]
      omega

theorem RustlsTlsSession.receivePlaintext_of_lt (hopen : s.failed = none ∧ s.closing = false)
    (h : s.connection.room < bytes.length) :
    ∃ error s', s.receivePlaintext bytes = (.error error, s') ∧ s'.failed = some s.failureCode := by
  have hall := RustlsConnection.writeAll_of_lt h
  rw [receivePlaintext, hopen.1, hopen.2]
  generalize s.connection.writeAll bytes = written at hall
  obtain ⟨_, _⟩ := written
  obtain rfl := hall
  exact ⟨_, _, rfl, rfl⟩

theorem RustlsTlsSession.isOpen_of_established (h : s.progress = .established) :
    s.failed = none ∧ s.closing = false := by
  rw [progress] at h
  split at h
  · nomatch h
  · next hfailed =>
    refine ⟨hfailed, Bool.eq_false_iff.mpr fun hclosing => ?_⟩
    rw [hclosing, if_pos rfl] at h
    split at h <;> nomatch h

/-- An established session sends a text exactly if its writer has room for all of it at once. -/
theorem plaintext_sent_iff {s : RustlsTlsSession κ} (h : s.progress = .established)
    (bytes : Bytes) :
    s.Sends bytes ↔ bytes.length ≤ writerLimit - s.connection.sendableTls.length := by
  have hopen := RustlsTlsSession.isOpen_of_established h
  constructor
  · rintro ⟨_, -, hsent, -⟩
    by_contra hlarge
    obtain ⟨_, _, hfailed, -⟩ :=
      RustlsTlsSession.receivePlaintext_of_lt hopen (not_le.mp hlarge)
    rw [hsent] at hfailed
    nomatch hfailed
  · intro hfits
    obtain ⟨connection, ciphertext, hall, hopens, hsendable⟩ :=
      RustlsConnection.writeAll_of_le (c := s.connection) hfits
    refine ⟨.flushTlsOutput { s with connection }, ciphertext, ?_, hopen.1, hopens, ?_⟩
    · rw [RustlsTlsSession.receivePlaintext, hopen.1, hopen.2, hall]
      rfl
    · intro n
      rw [← hsendable]
      rfl

instance : RecordLayer Unit where
  isHandshaking _ := false
  protect bytes _ := (bytes, ())
  opens _ ciphertext := ciphertext
  opens_nil _ := rfl
  opens_protect _ _ := rfl
  length_le _ _ := le_rfl

def plainSession : RustlsTlsSession Unit := ⟨⟨(), []⟩, [], [], none, false, .tlsHandshakeFailed⟩

theorem plaintext_sent_small : plainSession.progress = .established ∧ plainSession.Sends [1, 2] :=
  ⟨rfl, (plaintext_sent_iff rfl _).mpr (by decide)⟩

/-- A body of one byte more than the writer holds is admitted and fails the session. -/
theorem large_plaintext_fails :
    let bytes : Bytes := replicate (writerLimit + 1) 0
    bytes.length ≤ ({} : HttpLimits).maxBodyBytes ∧
      plainSession.progress = .established ∧ ¬ plainSession.Sends bytes ∧
      (plainSession.receivePlaintext bytes).2.progress = .failed .tlsHandshakeFailed := by
  intro bytes
  have hlength : bytes.length = writerLimit + 1 := length_replicate
  have hroom : plainSession.connection.room < bytes.length := by
    rw [hlength]
    exact Nat.lt_succ_self writerLimit
  obtain ⟨_, _, hreceive, hfailed⟩ :=
    RustlsTlsSession.receivePlaintext_of_lt ⟨rfl, rfl⟩ hroom
  refine ⟨hlength ▸ by decide, rfl, ?_, ?_⟩
  · rintro ⟨_, _, hsent, -⟩
    rw [hreceive] at hsent
    nomatch hsent
  · rw [hreceive, RustlsTlsSession.progress, hfailed]
    rfl

end Plaintext

end EdgeProxy

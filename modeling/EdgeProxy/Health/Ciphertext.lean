import EdgeProxy.Health.Probe

/-! # Delivery of ciphertext to TLS sessions

A session may take only the first bytes of what it is given and say how many. The transports of a
connection and the loops of a health probe all give a session each read once, and none of them
looks at the number: the rest of the read is lost. A recording session keeps what it was given and
what it took, so that the loss can be said of any session.
-/

namespace EdgeProxy

open Rust List TlsSession

/-- `receive_encrypted` takes a nonempty part of what it is given, from the front. -/
class TakesFront (σ : Type) [TlsSession σ] : Prop where
  takes : ∀ (bytes : Bytes) (session : σ), bytes ≠ [] →
    ∃ n, 0 < n ∧ n ≤ bytes.length ∧ (TlsSession.receiveEncrypted bytes session).1 = .ok n

/-- A session with the calls made to its `receive_encrypted`, each with the session before the call,
and the bytes that it took. -/
structure RecordingSession (σ : Type) where
  session : σ
  calls : List (σ × Bytes) := []
  taken : Bytes := []

namespace RecordingSession

variable {σ : Type}

def receiveEncrypted [TlsSession σ] (bytes : Bytes) (r : RecordingSession σ) :
    Except AppError ℕ × RecordingSession σ :=
  let (result, session) := TlsSession.receiveEncrypted bytes r.session
  let calls := r.calls ++ [(r.session, bytes)]
  match result with
  | .ok n => (.ok n, ⟨session, calls, r.taken ++ bytes.take n⟩)
  | .error e => (.error e, ⟨session, calls, r.taken⟩)

def lift {α : Type} (op : σ → α × σ) (r : RecordingSession σ) : α × RecordingSession σ :=
  let (a, session) := op r.session
  (a, { r with session })

instance [TlsSession σ] : TlsSession (RecordingSession σ) where
  receiveEncrypted := receiveEncrypted
  takeDecrypted maxBytes := lift (TlsSession.takeDecrypted maxBytes)
  receivePlaintext bytes := lift (TlsSession.receivePlaintext bytes)
  takeEncrypted maxBytes := lift (TlsSession.takeEncrypted maxBytes)
  requestCloseNotify := lift TlsSession.requestCloseNotify
  progress r := TlsSession.progress r.session
  interest r := TlsSession.interest r.session
  pendingBytes r := TlsSession.pendingBytes r.session

end RecordingSession

section Passing

variable {σ : Type} [TlsSession σ]

def TakesWhole (session : σ) (bytes : Bytes) : Prop :=
  ∀ n, (TlsSession.receiveEncrypted bytes session).1 = .ok n → bytes.length ≤ n

/-- From `r` to `r'` the session was to take `bytes`: it took no more of them than there are, and
all of them exactly if `live` holds and each call was taken whole. -/
def Passed (r r' : RecordingSession σ) (bytes : Bytes) (live : Prop) : Prop :=
  ∃ taken calls, r'.taken = r.taken ++ taken ∧ r'.calls = r.calls ++ calls ∧
    taken.length ≤ bytes.length ∧
    (taken = bytes ↔ live ∧ ∀ call ∈ calls, TakesWhole call.1 call.2)

def Kept (r r' : RecordingSession σ) : Prop := r'.taken = r.taken ∧ r'.calls = r.calls

omit [TlsSession σ] in
theorem kept_refl (r : RecordingSession σ) : Kept r r := ⟨rfl, rfl⟩

omit [TlsSession σ] in
theorem Kept.trans {r r' r'' : RecordingSession σ} (h : Kept r r') (h' : Kept r' r'') :
    Kept r r'' :=
  ⟨h'.1.trans h.1, h'.2.trans h.2⟩

omit [TlsSession σ] in
theorem kept_lift {α : Type} (op : σ → α × σ) (r : RecordingSession σ) : Kept r (r.lift op).2 :=
  ⟨rfl, rfl⟩

namespace Passed

variable {r r' r'' : RecordingSession σ} {a b : Bytes} {p q : Prop}

theorem same (h : Kept r r') : Passed r r' [] True :=
  ⟨[], [], by simp [h.1], by simp [h.2], le_rfl, by simp⟩

theorem congr (h : Passed r r' a p) (hpq : p ↔ q) : Passed r r' a q := by
  rwa [propext hpq] at h

theorem trans (h₁ : Passed r r' a p) (h₂ : Passed r' r'' b q) : Passed r r'' (a ++ b) (p ∧ q) := by
  obtain ⟨t₁, c₁, ht₁, hc₁, hle₁, hiff₁⟩ := h₁
  obtain ⟨t₂, c₂, ht₂, hc₂, hle₂, hiff₂⟩ := h₂
  refine ⟨t₁ ++ t₂, c₁ ++ c₂, by simp [ht₂, ht₁], by simp [hc₂, hc₁], ?_, ?_⟩
  · simp only [length_append]
    omega
  · have hsplit : t₁ ++ t₂ = a ++ b ↔ t₁ = a ∧ t₂ = b := by
      constructor
      · intro h
        have hlength := congrArg length h
        simp only [length_append] at hlength
        exact append_inj h (by omega)
      · rintro ⟨rfl, rfl⟩
        rfl
    rw [hsplit, hiff₁, hiff₂]
    simp only [mem_append, or_imp, forall_and]
    tauto

theorem trans_kept (h₁ : Passed r r' a p) (h₂ : Kept r' r'') : Passed r r'' a p := by
  have h := h₁.trans (same h₂)
  rw [append_nil] at h
  exact h.congr (and_iff_left trivial)

theorem kept_trans (h₁ : Kept r r') (h₂ : Passed r' r'' a p) : Passed r r'' a p :=
  ((same h₁).trans h₂).congr (and_iff_right trivial)

end Passed

theorem passed_receiveEncrypted [TakesFront σ] (bytes : Bytes) (r : RecordingSession σ) :
    Passed r (TlsSession.receiveEncrypted bytes r).2 bytes True := by
  change Passed r (r.receiveEncrypted bytes).2 bytes True
  rcases hcall : TlsSession.receiveEncrypted bytes r.session with ⟨result, session⟩
  unfold RecordingSession.receiveEncrypted
  rw [hcall]
  cases result with
  | error =>
    -- a session refuses nothing but an empty read
    obtain rfl : bytes = [] := by
      by_contra hne
      obtain ⟨n, -, -, hn⟩ := TakesFront.takes bytes r.session hne
      simp [hcall] at hn
    exact ⟨[], [(r.session, [])], by simp, rfl, by simp, by simp [TakesWhole]⟩
  | ok n =>
    refine ⟨bytes.take n, [(r.session, bytes)], rfl, rfl, bytes.length_take_le' n, ?_⟩
    simp [TakesWhole, hcall, take_eq_self_iff]

end Passing

section Transports

variable {σ : Type} [TlsSession σ]

inductive TransportCall where
  | receiveSocketBytes (bytes : Bytes)
  | queueClientBytes (bytes : Bytes)
  | queueUpstreamBytes (bytes : Bytes)
  | takeSocketBytes
  | requestCloseNotify
  | markHandshakeTimeoutIfPending
  | pullFrom (output : WriteBuffer)
  | pullTunnelPlaintext (output : WriteBuffer) (bytes : Bytes)
  | queueTunnelPlaintext (output : WriteBuffer) (bytes : Bytes)

namespace TransportCall

def run (t : Transport σ) : TransportCall → Transport σ
  | receiveSocketBytes bytes => (t.receiveSocketBytes bytes).2
  | queueClientBytes bytes => (t.queueClientBytes bytes).2
  | queueUpstreamBytes bytes => (t.queueUpstreamBytes bytes).2
  | takeSocketBytes => t.takeSocketBytes.2
  | requestCloseNotify => t.requestCloseNotify.2
  | markHandshakeTimeoutIfPending => t.markHandshakeTimeoutIfPending.2
  | pullFrom output => (t.pullFrom output).2.2
  | pullTunnelPlaintext output bytes => (t.pullTunnelPlaintext output bytes).2.2
  | queueTunnelPlaintext output bytes => (t.queueTunnelPlaintext output bytes).2.2

def read : TransportCall → Bytes
  | receiveSocketBytes bytes => bytes
  | _ => []

/-- A transport that is closed or failed listens to no read. -/
def Heard (t : Transport σ) (call : TransportCall) : Prop :=
  call.read = [] ∨ ∀ state, t.tlsState = some state → state.isTerminal = false

end TransportCall

namespace TlsTransport

variable (t : TlsTransport (RecordingSession σ))

theorem kept_takeDecrypted (maxBytes : ℕ) :
    Kept t.session (t.takeDecrypted maxBytes).2.session := by
  unfold takeDecrypted
  split
  · exact kept_refl _
  · exact kept_lift _ _

theorem kept_takeEncrypted (maxBytes : ℕ) :
    Kept t.session (t.takeEncrypted maxBytes).2.session :=
  kept_lift _ _

theorem kept_receivePlaintext (bytes : Bytes) :
    Kept t.session (t.receivePlaintext bytes).2.session := by
  unfold receivePlaintext
  split
  · exact kept_refl _
  · rw [session_after]
    exact kept_lift _ _

theorem kept_requestCloseNotify : Kept t.session t.requestCloseNotify.2.session := by
  unfold requestCloseNotify
  split
  · exact kept_refl _
  · rw [session_after]
    exact kept_lift _ _

theorem passed_receive [TakesFront σ] (bytes : Bytes) :
    Passed t.session (t.receiveEncrypted bytes).2.session bytes
      (bytes = [] ∨ t.state.isTerminal = false) := by
  unfold receiveEncrypted
  split
  · next hterminal =>
    refine ⟨[], [], by simp, by simp, by simp, ?_⟩
    simp [hterminal, eq_comm]
  · next hlive =>
    rw [session_after]
    refine (passed_receiveEncrypted bytes t.session).congr ?_
    simp only [Bool.not_eq_true] at hlive
    simp [hlive]

end TlsTransport

namespace TransportCall

theorem kept_encryptTunnel (output : WriteBuffer) (t : TlsTransport (RecordingSession σ))
    (bytes : Bytes) :
    ∃ t', (Transport.encryptTunnel output t bytes).2.2 = .tls t' ∧ Kept t.session t'.session := by
  have hplain := t.kept_receivePlaintext bytes
  unfold Transport.encryptTunnel
  generalize t.receivePlaintext bytes = result at hplain ⊢
  rcases result with ⟨_ | _, t'⟩
  · exact ⟨t', rfl, hplain⟩
  · exact ⟨_, rfl, hplain.trans (t'.kept_takeEncrypted _)⟩

theorem passed_receiveSocketBytes [TakesFront σ] (t : TlsTransport (RecordingSession σ))
    (bytes : Bytes) :
    ∃ t', (Transport.receiveSocketBytes bytes (.tls t)).2 = .tls t' ∧
      Passed t.session t'.session bytes (bytes = [] ∨ t.state.isTerminal = false) := by
  have hreceive := t.passed_receive bytes
  simp only [Transport.receiveSocketBytes]
  generalize t.receiveEncrypted bytes = result at hreceive ⊢
  rcases result with ⟨_ | _, t'⟩
  · exact ⟨t', rfl, hreceive⟩
  · exact ⟨_, rfl, hreceive.trans_kept (t'.kept_takeDecrypted _)⟩

theorem kept_run (t : TlsTransport (RecordingSession σ)) {call : TransportCall}
    (hread : ∀ bytes, call ≠ .receiveSocketBytes bytes) :
    ∃ t', call.run (.tls t) = .tls t' ∧ Kept t.session t'.session := by
  cases call with
  | receiveSocketBytes bytes => exact absurd rfl (hread bytes)
  | queueClientBytes bytes => exact ⟨_, rfl, t.kept_receivePlaintext bytes⟩
  | queueUpstreamBytes bytes =>
    simp only [run, Transport.queueUpstreamBytes]
    split
    · exact ⟨_, rfl, t.kept_receivePlaintext bytes⟩
    · exact ⟨t, rfl, kept_refl _⟩
  | takeSocketBytes => exact ⟨_, rfl, t.kept_takeEncrypted _⟩
  | requestCloseNotify =>
    have hclose := t.kept_requestCloseNotify
    simp only [run, Transport.requestCloseNotify]
    generalize t.requestCloseNotify = result at hclose ⊢
    rcases result with ⟨_ | _, t'⟩ <;> exact ⟨_, rfl, hclose⟩
  | markHandshakeTimeoutIfPending =>
    simp only [run, Transport.markHandshakeTimeoutIfPending]
    split <;> exact ⟨_, rfl, kept_refl _⟩
  | pullFrom =>
    simp only [run, Transport.pullFrom]
    split
    · exact ⟨t, rfl, kept_refl _⟩
    · exact ⟨_, rfl, t.kept_takeEncrypted _⟩
  | pullTunnelPlaintext output bytes =>
    simp only [run, Transport.pullTunnelPlaintext]
    split
    · exact ⟨t, rfl, kept_refl _⟩
    · exact kept_encryptTunnel output t bytes
  | queueTunnelPlaintext output bytes =>
    simp only [run, Transport.queueTunnelPlaintext]
    split_ifs
    · exact ⟨t, rfl, kept_refl _⟩
    · exact kept_encryptTunnel output t bytes
    · exact ⟨t, rfl, kept_refl _⟩

theorem passed_run [TakesFront σ] (t : TlsTransport (RecordingSession σ)) (call : TransportCall) :
    ∃ t', call.run (.tls t) = .tls t' ∧
      Passed t.session t'.session call.read (call.Heard (.tls t)) := by
  by_cases hread : ∃ bytes, call = .receiveSocketBytes bytes
  · obtain ⟨bytes, rfl⟩ := hread
    obtain ⟨t', hrun, hpassed⟩ := passed_receiveSocketBytes t bytes
    exact ⟨t', hrun, hpassed.congr (by simp [Heard, read, Transport.tlsState])⟩
  · simp only [not_exists] at hread
    obtain ⟨t', hrun, hkept⟩ := kept_run t hread
    have hnothing : call.read = [] := by
      cases call <;> first | rfl | exact absurd rfl (hread _)
    refine ⟨t', hrun, ?_⟩
    rw [hnothing]
    exact (Passed.same hkept).congr (by simp [Heard, hnothing])

end TransportCall

def runTransport (calls : List TransportCall) (t : Transport σ) : Transport σ :=
  calls.foldl (fun t call => call.run t) t

def AllHeard : List TransportCall → Transport σ → Prop
  | [], _ => True
  | call :: calls, t => call.Heard t ∧ AllHeard calls (call.run t)

theorem passed_runTransport [TakesFront σ] (calls : List TransportCall)
    (t : TlsTransport (RecordingSession σ)) :
    ∃ t', runTransport calls (.tls t) = .tls t' ∧
      Passed t.session t'.session (calls.flatMap TransportCall.read) (AllHeard calls (.tls t)) := by
  induction calls generalizing t with
  | nil => exact ⟨t, rfl, Passed.same (kept_refl _)⟩
  | cons call _ ih =>
    obtain ⟨t₁, hrun₁, hpassed₁⟩ := call.passed_run t
    obtain ⟨t₂, hrun₂, hpassed₂⟩ := ih t₁
    refine ⟨t₂, ?_, ?_⟩
    · simp only [runTransport, foldl_cons, hrun₁]
      exact hrun₂
    · simp only [flatMap_cons, AllHeard, hrun₁]
      exact hpassed₁.trans hpassed₂

end Transports

section Probes

variable {σ : Type} [TlsSession σ]

def readOf (passes rest : List HealthPass) : Bytes :=
  (passes.take (passes.length - rest.length)).flatMap (·.read.data)

theorem kept_flush (writeFails : Bool) (r : RecordingSession σ) :
    Kept r (flushHealthTlsOutput writeFails r).2 := by
  have hkept : Kept r (takeEncrypted usizeMax r).2 := kept_lift _ r
  unfold flushHealthTlsOutput
  generalize takeEncrypted usizeMax r = result at hkept ⊢
  rcases result with ⟨_, _⟩
  simp only
  split_ifs <;> exact hkept

/-- A loop that leaves `rest` of its script gave the session all that it read before. -/
def Fed (passes rest : List HealthPass) (r r' : RecordingSession σ) : Prop :=
  ∃ used, passes = used ++ rest ∧ Passed r r' (used.flatMap (·.read.data)) True

namespace Fed

variable {pass : HealthPass} {passes rest : List HealthPass} {r r' r'' : RecordingSession σ}

theorem stop (h : Kept r r') : Fed passes passes r r' := ⟨[], rfl, Passed.same h⟩

theorem stop_after (h : Passed r r' pass.read.data True) : Fed (pass :: passes) passes r r' :=
  ⟨[pass], rfl, by simpa using h⟩

theorem next (h : Passed r r' pass.read.data True) (hrest : Fed passes rest r' r'') :
    Fed (pass :: passes) rest r r'' := by
  obtain ⟨used, rfl, hused⟩ := hrest
  exact ⟨pass :: used, rfl, (h.trans hused).congr (and_iff_left trivial)⟩

theorem trans {rest' : List HealthPass} (h : Fed passes rest r r') (h' : Fed rest rest' r' r'') :
    Fed passes rest' r r'' := by
  obtain ⟨used, rfl, hused⟩ := h
  obtain ⟨used', rfl, hused'⟩ := h'
  refine ⟨used ++ used', by simp, ?_⟩
  rw [flatMap_append]
  exact (hused.trans hused').congr (and_iff_left trivial)

theorem read_eq (h : Fed passes rest r r') : Passed r r' (readOf passes rest) True := by
  obtain ⟨_, rfl, hused⟩ := h
  simpa [readOf] using hused

end Fed

theorem passed_feed [TakesFront σ] (onTimeout onFailure : HealthProbeFailure) (read : HealthRead)
    (r : RecordingSession σ) :
    Passed r (feedHealthTls onTimeout onFailure read r).2 read.data True := by
  cases read with
  | timedOut => exact Passed.same (kept_refl r)
  | failed => exact Passed.same (kept_refl r)
  | bytes chunk =>
    have hreceive := passed_receiveEncrypted chunk.val r
    unfold feedHealthTls
    simp only [HealthRead.data]
    split_ifs with hempty
    · rw [isEmpty_iff.mp hempty]
      exact Passed.same (kept_refl r)
    · generalize TlsSession.receiveEncrypted chunk.val r = received at hreceive ⊢
      rcases received with ⟨_ | _, _⟩ <;> exact hreceive

theorem fed_driveHealthTlsHandshake [TakesFront σ] (passes : List HealthPass)
    (r : RecordingSession σ) :
    Fed passes (driveHealthTlsHandshake passes r).2.2 r (driveHealthTlsHandshake passes r).2.1 := by
  induction passes generalizing r with
  | nil => exact Fed.stop (kept_refl r)
  | cons pass _ ih =>
    have hflush := kept_flush pass.writeFails r
    unfold driveHealthTlsHandshake
    generalize flushHealthTlsOutput pass.writeFails r = flushed at hflush ⊢
    rcases flushed with ⟨_ | _, r₁⟩
    · exact Fed.stop hflush
    simp only
    split
    any_goals exact Fed.stop hflush
    split_ifs
    · exact Fed.stop hflush
    · exact Fed.stop hflush
    have hfeed := passed_feed .tlsHandshakeTimeout .tlsHandshake pass.read r₁
    generalize feedHealthTls .tlsHandshakeTimeout .tlsHandshake pass.read r₁ = fed at hfeed ⊢
    rcases fed with ⟨_ | _, r₂⟩
    · exact Fed.stop_after (Passed.kept_trans hflush hfeed)
    · exact Fed.next (Passed.kept_trans hflush hfeed) (ih r₂)

theorem fed_readTlsHealthStatus [TakesFront σ] (headers : Bytes) (passes : List HealthPass)
    (r : RecordingSession σ) :
    Fed passes (readTlsHealthStatus headers passes r).2.2 r
      (readTlsHealthStatus headers passes r).2.1 := by
  induction passes generalizing headers r with
  | nil => exact Fed.stop (kept_refl r)
  | cons pass _ ih =>
    unfold readTlsHealthStatus
    simp only
    split_ifs
    · exact Fed.stop (kept_refl r)
    have htake : Kept r (TlsSession.takeDecrypted
        (maxHealthResponseHeaderBytes + 1 - headers.length) r).2 := kept_lift _ r
    generalize TlsSession.takeDecrypted _ r = taken at htake ⊢
    rcases taken with ⟨_, r₁⟩
    simp only
    split
    · exact Fed.stop htake
    have hflush := htake.trans (kept_flush pass.writeFails r₁)
    generalize flushHealthTlsOutput pass.writeFails r₁ = flushed at hflush ⊢
    rcases flushed with ⟨_ | _, r₂⟩
    · exact Fed.stop hflush
    have hfeed := passed_feed .readTimeout .malformedResponse pass.read r₂
    simp only
    generalize feedHealthTls .readTimeout .malformedResponse pass.read r₂ = fed at hfeed ⊢
    rcases fed with ⟨_ | _, r₃⟩
    · exact Fed.stop_after (Passed.kept_trans hflush hfeed)
    · exact Fed.next (Passed.kept_trans hflush hfeed) (ih _ r₃)

theorem fed_executeTls [TakesFront σ] (wireRequest : Bytes) (passes : List HealthPass)
    (r : RecordingSession σ) :
    Fed passes (executeTls wireRequest passes r).2.2 r (executeTls wireRequest passes r).2.1 := by
  have hshake := fed_driveHealthTlsHandshake passes r
  unfold executeTls
  generalize driveHealthTlsHandshake passes r = shaken at hshake ⊢
  rcases shaken with ⟨_ | _ | _, r₁, rest⟩
  · exact hshake
  · exact hshake
  have hplain : Kept r₁ (receivePlaintext wireRequest r₁).2 := kept_lift _ r₁
  simp only
  generalize receivePlaintext wireRequest r₁ = sent at hplain ⊢
  rcases sent with ⟨_ | _, r₂⟩
  · exact hshake.trans (Fed.stop hplain)
  have hflush := hplain.trans (kept_flush ((rest.head?.map (·.writeFails)).getD false) r₂)
  simp only
  generalize flushHealthTlsOutput _ r₂ = flushed at hflush ⊢
  rcases flushed with ⟨_ | _, r₃⟩
  · exact hshake.trans (Fed.stop hflush)
  · exact (hshake.trans (Fed.stop hflush)).trans (fed_readTlsHealthStatus [] rest r₃)

end Probes

/-- Whoever reads ciphertext from a socket for a session. Both transports of a connection read
through `receive_socket_bytes`. -/
inductive CiphertextReader where
  | transport (calls : List TransportCall)
  | handshake (passes : List HealthPass)
  | status (headers : Bytes) (passes : List HealthPass)
  | probe (wireRequest : Bytes) (passes : List HealthPass)

namespace CiphertextReader

variable {σ : Type} [TlsSession σ]

def run (r : RecordingSession σ) : CiphertextReader → Bytes × RecordingSession σ
  | transport calls =>
    (calls.flatMap TransportCall.read,
      match runTransport calls (.tls (.new r)) with
      | .plaintext _ => r
      | .tls t => t.session)
  | handshake passes =>
    let (_, r, rest) := driveHealthTlsHandshake passes r
    (readOf passes rest, r)
  | status headers passes =>
    let (_, r, rest) := readTlsHealthStatus headers passes r
    (readOf passes rest, r)
  | probe wireRequest passes =>
    let (_, r, rest) := executeTls wireRequest passes r
    (readOf passes rest, r)

def Listens (session : σ) : CiphertextReader → Prop
  | transport calls =>
    AllHeard calls (.tls (.new ⟨session, [], []⟩) : Transport (RecordingSession σ))
  | _ => True

theorem passed_of_run [TakesFront σ] (session : σ) (reader : CiphertextReader) :
    Passed ⟨session, [], []⟩ (reader.run ⟨session, [], []⟩).2
      (reader.run ⟨session, [], []⟩).1 (reader.Listens session) := by
  cases reader with
  | transport calls =>
    obtain ⟨t', hrun, hpassed⟩ := passed_runTransport calls (.new ⟨session, [], []⟩)
    simp only [run, hrun]
    exact hpassed
  | handshake passes => exact (fed_driveHealthTlsHandshake passes _).read_eq
  | status headers passes => exact (fed_readTlsHealthStatus headers passes _).read_eq
  | probe wireRequest passes => exact (fed_executeTls wireRequest passes _).read_eq

end CiphertextReader

/-- The session takes what was read, all of it and in order, exactly if each read is as small as
what it takes in one call. -/
theorem ciphertext_delivered_iff {σ : Type} [TlsSession σ] [TakesFront σ] (session : σ)
    (reader : CiphertextReader) :
    (reader.run ⟨session, [], []⟩).2.taken = (reader.run ⟨session, [], []⟩).1 ↔
      reader.Listens session ∧
        ∀ call ∈ (reader.run ⟨session, [], []⟩).2.calls, TakesWhole call.1 call.2 := by
  obtain ⟨_, _, htaken, hcalls, -, hiff⟩ := reader.passed_of_run session
  rw [htaken, hcalls]
  exact hiff

/-- A session that takes 4 KiB in a call and is always in its handshake; its state is the number of
bytes that it took. -/
structure SmallSession where
  count : ℕ

namespace SmallSession

instance : TlsSession SmallSession where
  receiveEncrypted bytes s := (.ok (min 4096 bytes.length), ⟨s.count + min 4096 bytes.length⟩)
  takeDecrypted _ s := ([], s)
  receivePlaintext bytes s := (.ok bytes.length, s)
  takeEncrypted _ s := ([], s)
  requestCloseNotify s := (.ok (), s)
  progress _ := .handshaking
  interest _ := ⟨true, false⟩
  pendingBytes _ := {}

instance : TakesFront SmallSession where
  takes bytes _ hne :=
    ⟨min 4096 bytes.length, by have := length_pos_iff.mpr hne; omega, by omega, rfl⟩

def readersOf (chunk : { chunk : Bytes // chunk.length ≤ healthReadBytes }) :
    List CiphertextReader :=
  [.transport [.receiveSocketBytes chunk.val], .handshake [{ read := .bytes chunk }],
    .status [] [{ read := .bytes chunk }]]

def start : RecordingSession SmallSession := ⟨⟨0⟩, [], []⟩

theorem feed_nonempty {chunk : { chunk : Bytes // chunk.length ≤ healthReadBytes }}
    (hne : chunk.val.isEmpty = false) {onTimeout onFailure : HealthProbeFailure}
    (r : RecordingSession SmallSession) :
    feedHealthTls onTimeout onFailure (.bytes chunk) r =
      (.ok (), (r.receiveEncrypted chunk.val).2) := by
  simp only [feedHealthTls, hne]
  rfl

theorem run_readersOf {chunk : { chunk : Bytes // chunk.length ≤ healthReadBytes }}
    (hne : chunk.val.isEmpty = false) {reader : CiphertextReader} (h : reader ∈ readersOf chunk) :
    (reader.run start).1 = chunk.val ∧
      (reader.run start).2.taken = chunk.val.take (min 4096 chunk.val.length) := by
  simp only [readersOf, mem_cons, not_mem_nil, or_false] at h
  have hflush : flushHealthTlsOutput false start = (.ok (), start) := rfl
  have hprogress : progress start = .handshaking := rfl
  have htake (n : ℕ) : TlsSession.takeDecrypted n start = ([], start) := rfl
  have hverdict : healthVerdict ([] ++ []) = none := rfl
  rcases h with rfl | rfl | rfl
  · exact ⟨append_nil _, rfl⟩
  · have hrun : driveHealthTlsHandshake [{ read := .bytes chunk }] start =
        (none, (start.receiveEncrypted chunk.val).2, []) := by
      simp only [driveHealthTlsHandshake, hflush, hprogress, feed_nonempty hne]
      rfl
    simp only [CiphertextReader.run, hrun]
    exact ⟨append_nil _, rfl⟩
  · have hrun : readTlsHealthStatus [] [{ read := .bytes chunk }] start =
        (none, (start.receiveEncrypted chunk.val).2, []) := by
      simp only [readTlsHealthStatus, length_nil, htake, hverdict, hflush, feed_nonempty hne]
      rfl
    simp only [CiphertextReader.run, hrun]
    exact ⟨append_nil _, rfl⟩

def largeRead : { chunk : Bytes // chunk.length ≤ healthReadBytes } :=
  ⟨replicate 5000 0, by rw [length_replicate]; decide⟩

end SmallSession

/-- Reads within 4 KiB reach the session. -/
theorem small_reads_delivered :
    let reader := CiphertextReader.transport
      [.receiveSocketBytes [22, 3, 1], .takeSocketBytes, .receiveSocketBytes [22, 3, 3]]
    (reader.run SmallSession.start).2.taken = [22, 3, 1, 22, 3, 3] := by
  refine (ciphertext_delivered_iff (⟨0⟩ : SmallSession) _).mpr ⟨?_, ?_⟩
  · refine ⟨Or.inr ?_, Or.inl rfl, Or.inr ?_, trivial⟩ <;> rintro _ ⟨⟩ <;> rfl
  · intro call hcall
    rcases mem_pair.mp hcall with rfl | rfl <;> rintro n ⟨⟩ <;> decide

/-- Every reader loses the end of a read of 5000 bytes. -/
theorem large_read_loses_ciphertext :
    (SmallSession.readersOf SmallSession.largeRead).map (fun reader =>
        ((reader.run SmallSession.start).1.length,
          (reader.run SmallSession.start).2.taken.length)) =
      replicate 3 (5000, 4096) := by
  refine eq_replicate_iff.mpr ⟨rfl, fun lengths hlengths => ?_⟩
  obtain ⟨_, hreader, rfl⟩ := mem_map.mp hlengths
  have hlength : SmallSession.largeRead.val.length = 5000 := length_replicate
  obtain ⟨hread, htaken⟩ := SmallSession.run_readersOf rfl hreader
  rw [hread, htaken, length_take, hlength]
  rfl

end EdgeProxy

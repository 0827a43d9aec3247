import EdgeProxy.Core.Transport

/-! # Output in the order in which it was appended

Bytes for a socket pass through buffers and a transport. What was handed over, followed by what is
still buffered, is what was appended: this is said for one buffer, and for a transport with its
output buffer. With a TLS session, what counts is the plaintext that the session took.
-/

namespace EdgeProxy

open Rust List

/-- What was handed over is the beginning of what was appended, and all of it when nothing is
left. -/
def ExactFifo (handed appended : Bytes) (nothingLeft : Prop) : Prop :=
  handed <+: appended ∧ (nothingLeft → handed = appended)

theorem exactFifo_of_eq {handed buffered appended : Bytes} {nothingLeft : Prop}
    (h : handed ++ buffered = appended) (hempty : nothingLeft → buffered = []) :
    ExactFifo handed appended nothingLeft := by
  subst h
  refine ⟨prefix_append _ _, fun hnothing => ?_⟩
  rw [hempty hnothing, append_nil]

namespace WriteBuffer

variable {b b' : WriteBuffer}

theorem remaining_tryAppend {chunk : Bytes} (hwritten : b.written ≤ b.bytes.length)
    (h : b.tryAppend chunk = .ok b') : b'.remaining = b.remaining ++ chunk := by
  unfold tryAppend at h
  split_ifs at h
  obtain rfl : _ = b' := Except.ok.inj h
  simp only [remaining]
  exact drop_append_of_le_length hwritten

@[simp] theorem remaining_advanceAndClear (b : WriteBuffer) (n : ℕ) :
    (b.advanceAndClearIfComplete n).remaining = b.remaining.drop n := by
  simp [advanceAndClearIfComplete]

theorem remaining_tryReplace (h : b.isComplete = true) (bytes : Bytes) :
    (b.tryReplaceIfComplete bytes).remaining = bytes := by
  simp [tryReplaceIfComplete, h, remaining]

def Valid (b : WriteBuffer) : Prop := b.written ≤ b.bytes.length

theorem Valid.tryAppend {chunk : Bytes} (hb : b.Valid) (h : b.tryAppend chunk = .ok b') :
    b'.Valid := by
  unfold WriteBuffer.tryAppend at h
  split_ifs at h
  obtain rfl : _ = b' := Except.ok.inj h
  simp only [Valid, length_append] at hb ⊢
  omega

theorem Valid.advance (hb : b.Valid) (n : ℕ) : (b.advance n).2.Valid := by
  simp only [Valid, WriteBuffer.advance, remainingLen, remaining, length_drop] at hb ⊢
  omega

theorem Valid.clearIfComplete (hb : b.Valid) : b.clearIfComplete.Valid := by
  unfold WriteBuffer.clearIfComplete
  split
  · exact hb
  · exact Nat.zero_le _

theorem Valid.advanceAndClear (hb : b.Valid) (n : ℕ) : (b.advanceAndClearIfComplete n).Valid :=
  (hb.advance n).clearIfComplete

theorem Valid.tryReplace (hb : b.Valid) (bytes : Bytes) : (b.tryReplaceIfComplete bytes).Valid := by
  unfold tryReplaceIfComplete
  split
  · exact Nat.zero_le _
  · exact hb

end WriteBuffer

/-- The methods that change a buffer; a write that blocks and a change of interest do not. -/
inductive BufferCall where
  | tryAppend (chunk : Bytes)
  | advance (byteCount : ℕ)
  | advanceAndClearIfComplete (byteCount : ℕ)
  | clearIfComplete
  | tryReplaceIfComplete (bytes : Bytes)
  | blocked

structure TracedBuffer where
  buffer : WriteBuffer := {}
  appended : Bytes := []
  handed : Bytes := []

namespace TracedBuffer

def run (t : TracedBuffer) : BufferCall → TracedBuffer
  | .tryAppend chunk =>
    match t.buffer.tryAppend chunk with
    | .error _ => t
    | .ok buffer => { t with buffer, appended := t.appended ++ chunk }
  | .advance byteCount =>
    { t with buffer := (t.buffer.advance byteCount).2
             handed := t.handed ++ t.buffer.remaining.take byteCount }
  | .advanceAndClearIfComplete byteCount =>
    { t with buffer := t.buffer.advanceAndClearIfComplete byteCount
             handed := t.handed ++ t.buffer.remaining.take byteCount }
  | .clearIfComplete => { t with buffer := t.buffer.clearIfComplete }
  | .tryReplaceIfComplete bytes =>
    { t with buffer := t.buffer.tryReplaceIfComplete bytes
             appended := t.appended ++ if t.buffer.isComplete then bytes else [] }
  | .blocked => t

structure InOrder (t : TracedBuffer) : Prop where
  valid : t.buffer.Valid
  total : t.handed ++ t.buffer.remaining = t.appended

theorem InOrder.run {t : TracedBuffer} (h : t.InOrder) (call : BufferCall) :
    (t.run call).InOrder := by
  cases call with
  | tryAppend =>
    simp only [TracedBuffer.run]
    split
    · exact h
    · next buffer happend =>
      refine ⟨h.valid.tryAppend happend, ?_⟩
      simp only [WriteBuffer.remaining_tryAppend h.valid happend, ← h.total, append_assoc]
  | advance =>
    exact ⟨h.valid.advance _, by simp [TracedBuffer.run, ← h.total]⟩
  | advanceAndClearIfComplete =>
    exact ⟨h.valid.advanceAndClear _, by simp [TracedBuffer.run, ← h.total]⟩
  | clearIfComplete => exact ⟨h.valid.clearIfComplete, by simp [TracedBuffer.run, ← h.total]⟩
  | tryReplaceIfComplete bytes =>
    refine ⟨h.valid.tryReplace bytes, ?_⟩
    simp only [TracedBuffer.run, ← h.total]
    split
    · next hcomplete =>
      rw [WriteBuffer.remaining_tryReplace hcomplete, WriteBuffer.isComplete_iff.mp hcomplete,
        append_nil]
    · next hcomplete =>
      simp [WriteBuffer.tryReplaceIfComplete, hcomplete]
  | blocked => exact h

theorem inOrder_runs (calls : List BufferCall) : (calls.foldl run {}).InOrder :=
  foldlRecOn calls run ⟨Nat.zero_le _, rfl⟩ fun _ h call _ => h.run call

end TracedBuffer

structure Logged (σ : Type) where
  session : σ
  plaintext : Bytes := []

namespace Logged

variable {σ : Type}

def receivePlaintext [TlsSession σ] (bytes : Bytes) (s : Logged σ) : Except AppError ℕ × Logged σ :=
  match TlsSession.receivePlaintext bytes s.session with
  | (.ok n, session) => (.ok n, ⟨session, s.plaintext ++ bytes.take n⟩)
  | (.error e, session) => (.error e, ⟨session, s.plaintext⟩)

def lift {α : Type} (op : σ → α × σ) (s : Logged σ) : α × Logged σ :=
  let (a, session) := op s.session
  (a, { s with session })

instance [TlsSession σ] : TlsSession (Logged σ) where
  receiveEncrypted bytes := lift (TlsSession.receiveEncrypted bytes)
  takeDecrypted maxBytes := lift (TlsSession.takeDecrypted maxBytes)
  receivePlaintext := receivePlaintext
  takeEncrypted maxBytes := lift (TlsSession.takeEncrypted maxBytes)
  requestCloseNotify := lift TlsSession.requestCloseNotify
  progress s := TlsSession.progress s.session
  interest s := TlsSession.interest s.session
  pendingBytes s := TlsSession.pendingBytes s.session

end Logged

namespace TlsTransport

variable {σ : Type} [TlsSession σ] (t : TlsTransport (Logged σ))

theorem result_after {α : Type} (r : Except AppError α × Logged σ) : (after r).1 = r.1 := by
  rcases r with ⟨_ | _, _⟩ <;> rfl

@[simp] theorem plaintext_takeDecrypted (maxBytes : ℕ) :
    (t.takeDecrypted maxBytes).2.session.plaintext = t.session.plaintext := by
  unfold takeDecrypted
  split <;> rfl

@[simp] theorem plaintext_takeEncrypted (maxBytes : ℕ) :
    (t.takeEncrypted maxBytes).2.session.plaintext = t.session.plaintext := rfl

@[simp] theorem plaintext_receiveEncrypted (bytes : Bytes) :
    (t.receiveEncrypted bytes).2.session.plaintext = t.session.plaintext := by
  unfold receiveEncrypted
  split
  · rfl
  · rw [session_after]
    rfl

@[simp] theorem plaintext_requestCloseNotify :
    t.requestCloseNotify.2.session.plaintext = t.session.plaintext := by
  unfold requestCloseNotify
  split
  · rfl
  · rw [session_after]
    rfl

theorem plaintext_receivePlaintext (bytes : Bytes) :
    (t.receivePlaintext bytes).2.session.plaintext = t.session.plaintext ++
      match (t.receivePlaintext bytes).1 with
      | .ok n => bytes.take n
      | .error _ => [] := by
  unfold receivePlaintext
  split
  · simp
  · rw [session_after, result_after]
    change (t.session.receivePlaintext bytes).2.plaintext = _ ++
      match (t.session.receivePlaintext bytes).1 with
      | .ok n => bytes.take n
      | .error _ => []
    unfold Logged.receivePlaintext
    rcases TlsSession.receivePlaintext bytes t.session.session with ⟨_ | _, _⟩
    · simp
    · rfl

end TlsTransport

section Paths

variable {σ : Type} [TlsSession σ]

/-- What a connection does with a transport and its output buffer while it speaks HTTP. -/
inductive PathCall where
  | queueClientBytes (bytes : Bytes)
  | queueUpstreamBytes (bytes : Bytes)
  | pullFrom
  | receiveSocketBytes (bytes : Bytes)
  | requestCloseNotify
  | markHandshakeTimeoutIfPending
  /-- The socket takes so many bytes of the output. -/
  | advance (byteCount : ℕ)
  | blocked

def acceptedPart (bytes : Bytes) : Except AppError ℕ → Bytes
  | .ok n => bytes.take n
  | .error _ => []

/-- A transport and its output buffer, with the bytes that the transport took and those that the
socket took. -/
structure TracedPath (σ : Type) where
  transport : Transport (Logged σ)
  output : WriteBuffer := {}
  appended : Bytes := []
  socket : Bytes := []

namespace TracedPath

def run (p : TracedPath σ) : PathCall → TracedPath σ
  | .queueClientBytes bytes =>
    let (result, transport) := p.transport.queueClientBytes bytes
    { p with transport, appended := p.appended ++ acceptedPart bytes result }
  | .queueUpstreamBytes bytes =>
    let (result, transport) := p.transport.queueUpstreamBytes bytes
    { p with transport, appended := p.appended ++ acceptedPart bytes result }
  | .pullFrom =>
    let (_, output, transport) := p.transport.pullFrom p.output
    { p with output, transport }
  | .receiveSocketBytes bytes => { p with transport := (p.transport.receiveSocketBytes bytes).2 }
  | .requestCloseNotify => { p with transport := p.transport.requestCloseNotify.2 }
  | .markHandshakeTimeoutIfPending =>
    { p with transport := p.transport.markHandshakeTimeoutIfPending.2 }
  | .advance byteCount =>
    { p with output := (p.output.advance byteCount).2.clearIfComplete
             socket := p.socket ++ p.output.remaining.take byteCount }
  | .blocked => p

def handed (p : TracedPath σ) : Bytes :=
  match p.transport with
  | .plaintext _ => p.socket
  | .tls t => t.session.plaintext

def buffered (p : TracedPath σ) : Bytes :=
  match p.transport with
  | .plaintext queued => p.output.remaining ++ queued
  | .tls _ => []

def IsEmpty (p : TracedPath σ) : Prop :=
  p.output.isComplete = true ∧ ∀ queued, p.transport = .plaintext queued → queued = []

def InOrder (p : TracedPath σ) : Prop := p.handed ++ p.buffered = p.appended

variable {p : TracedPath σ} {t : TlsTransport (Logged σ)}

omit [TlsSession σ] in
theorem inOrder_plaintext {queued : Bytes} (h : p.transport = .plaintext queued) :
    p.InOrder ↔ p.socket ++ (p.output.remaining ++ queued) = p.appended := by
  simp only [InOrder, handed, buffered, h]

omit [TlsSession σ] in
theorem inOrder_tls (h : p.transport = .tls t) : p.InOrder ↔ t.session.plaintext = p.appended := by
  simp only [InOrder, handed, buffered, h, append_nil]

theorem InOrder.run_plaintext {queued : Bytes} (h : p.InOrder)
    (ht : p.transport = .plaintext queued) (call : PathCall) : (p.run call).InOrder := by
  obtain ⟨transport, _, _, _⟩ := p
  obtain rfl : transport = .plaintext queued := ht
  rw [inOrder_plaintext rfl] at h
  dsimp only at h
  cases call with
  | queueClientBytes bytes | queueUpstreamBytes bytes =>
    refine (inOrder_plaintext rfl).mpr ?_
    simp [TracedPath.run, Transport.queueClientBytes, Transport.queueUpstreamBytes, acceptedPart,
      ← h]
  | pullFrom =>
    simp only [TracedPath.run, Transport.pullFrom]
    split
    · exact (inOrder_plaintext rfl).mpr h
    · next hcomplete =>
      simp only [Bool.not_eq_true', Bool.not_eq_false] at hcomplete
      refine (inOrder_plaintext rfl).mpr ?_
      simpa [Transport.takeSocketBytes, WriteBuffer.isComplete_iff.mp hcomplete] using h
  | advance =>
    refine (inOrder_plaintext rfl).mpr ?_
    simp only [TracedPath.run, WriteBuffer.remaining_clearIfComplete,
      WriteBuffer.remaining_advance, ← h]
    rw [append_assoc, ← append_assoc (take _ _), take_append_drop]
  | receiveSocketBytes => exact (inOrder_plaintext rfl).mpr h
  | requestCloseNotify => exact (inOrder_plaintext rfl).mpr h
  | markHandshakeTimeoutIfPending => exact (inOrder_plaintext rfl).mpr h
  | blocked => exact (inOrder_plaintext rfl).mpr h

theorem InOrder.run_tls (h : p.InOrder) (ht : p.transport = .tls t) (call : PathCall) :
    (p.run call).InOrder := by
  obtain ⟨transport, output, appended, socket⟩ := p
  obtain rfl : transport = .tls t := ht
  rw [inOrder_tls rfl] at h
  dsimp only at h
  have hplain (bytes : Bytes) := t.plaintext_receivePlaintext bytes
  cases call with
  | queueClientBytes bytes =>
    have hrun : (TracedPath.run ⟨.tls t, output, appended, socket⟩
      (.queueClientBytes bytes)).transport
        = .tls (t.receivePlaintext bytes).2 := rfl
    rw [inOrder_tls hrun, hplain, h]
    rfl
  | queueUpstreamBytes bytes =>
    simp only [TracedPath.run, Transport.queueUpstreamBytes]
    split
    · rw [inOrder_tls (t := (t.receivePlaintext bytes).2) rfl, hplain, h]
      rfl
    · refine (inOrder_tls rfl).mpr ?_
      simp [acceptedPart, h]
  | pullFrom =>
    simp only [TracedPath.run, Transport.pullFrom]
    split
    · exact (inOrder_tls rfl).mpr h
    · exact (inOrder_tls rfl).mpr ((t.plaintext_takeEncrypted _).trans h)
  | receiveSocketBytes bytes =>
    have hreceive := t.plaintext_receiveEncrypted bytes
    simp only [TracedPath.run, Transport.receiveSocketBytes]
    generalize t.receiveEncrypted bytes = received at hreceive ⊢
    rcases received with ⟨_ | _, t'⟩
    · exact (inOrder_tls rfl).mpr (hreceive.trans h)
    · exact (inOrder_tls rfl).mpr (((t'.plaintext_takeDecrypted _).trans hreceive).trans h)
  | requestCloseNotify =>
    have hclose := t.plaintext_requestCloseNotify
    simp only [TracedPath.run, Transport.requestCloseNotify]
    generalize t.requestCloseNotify = closed at hclose ⊢
    rcases closed with ⟨_ | _, _⟩ <;> exact (inOrder_tls rfl).mpr (hclose.trans h)
  | markHandshakeTimeoutIfPending =>
    simp only [TracedPath.run, Transport.markHandshakeTimeoutIfPending]
    split
    · refine (inOrder_tls rfl).mpr ?_
      exact h
    · exact (inOrder_tls rfl).mpr h
  | advance => exact (inOrder_tls rfl).mpr h
  | blocked => exact (inOrder_tls rfl).mpr h

theorem InOrder.runs (h : p.InOrder) (calls : List PathCall) : (calls.foldl run p).InOrder := by
  refine foldlRecOn calls run h fun p h call _ => ?_
  cases ht : p.transport with
  | plaintext => exact h.run_plaintext ht call
  | tls => exact h.run_tls ht call

omit [TlsSession σ] in
theorem IsEmpty.buffered (h : p.IsEmpty) : p.buffered = [] := by
  unfold TracedPath.buffered
  split
  · next queued ht => rw [WriteBuffer.isComplete_iff.mp h.1, h.2 queued ht, append_nil]
  · rfl

end TracedPath

end Paths

end EdgeProxy

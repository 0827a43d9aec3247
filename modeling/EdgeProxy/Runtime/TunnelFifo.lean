import EdgeProxy.Core.Fifo
import EdgeProxy.Core.Sync
import EdgeProxy.Runtime.Events

/-! # The two directions of a tunnel

A tunnel has two lanes, each with a plaintext buffer, the transport of the socket it ends at, and
that socket's output buffer. An event reads chunks into one lane, writes from the other, and then
makes the charges equal to what the lanes hold. Along a run, each lane hands over exactly what was
appended to it, in order.
-/

namespace EdgeProxy

open Rust Action PayloadAccounts Focus List Bool
open Transport (encryptTunnel pullTunnelPlaintext queueTunnelPlaintext isTls receiveSocketBytes)

variable {σ : Type}

structure Lane (σ : Type) where
  source : WriteBuffer
  transport : Transport σ
  output : WriteBuffer

namespace Lane

def handed (l : Lane (Logged σ)) (socket : Bytes) : Bytes :=
  match l.transport with
  | .plaintext _ => socket
  | .tls t => t.session.plaintext

def buffered (l : Lane σ) : Bytes :=
  match l.transport with
  | .plaintext _ => l.output.remaining ++ l.source.remaining
  | .tls _ => l.source.remaining

def IsEmpty (l : Lane σ) : Prop :=
  l.source.isComplete = true ∧ (l.transport.isTls = true ∨ l.output.isComplete = true)

def Drained (l : Lane σ) : Prop := ∀ queued, l.transport = .plaintext queued → queued = []

def total (l : Lane (Logged σ)) (socket : Bytes) : Bytes := l.handed socket ++ l.buffered

variable {l : Lane σ}

theorem IsEmpty.buffered (h : l.IsEmpty) : l.buffered = [] := by
  obtain ⟨_, _ | _, output⟩ := l
  · have houtput : output.isComplete = true := by simpa [isTls] using h.2
    simp [Lane.buffered, WriteBuffer.isComplete_iff.mp houtput, WriteBuffer.isComplete_iff.mp h.1]
  · exact WriteBuffer.isComplete_iff.mp h.1

section Steps

variable {l : Lane (Logged σ)} {source output : WriteBuffer} {socket queued : Bytes}
  {t : TlsTransport (Logged σ)}

@[simp] theorem total_plaintext : (⟨source, .plaintext queued, output⟩ : Lane (Logged σ)).total
    socket
    = socket ++ (output.remaining ++ source.remaining) :=
  rfl

@[simp] theorem total_tls : (⟨source, .tls t, output⟩ : Lane (Logged σ)).total socket
    = t.session.plaintext ++ source.remaining :=
  rfl

variable [TlsSession σ]

/-- The lane after a call that offered the source to the transport. -/
def offered (l : Lane σ) (r : Except AppError ℕ × WriteBuffer × Transport σ) : Lane σ where
  source := match r.1 with
    | .ok consumed => l.source.advanceAndClearIfComplete consumed
    | .error _ => l.source
  transport := r.2.2
  output := r.2.1

theorem total_encryptTunnel :
    (offered ⟨source, .tls t, output⟩ (encryptTunnel output t source.remaining)).total socket
      = t.session.plaintext ++ source.remaining := by
  have hplain := t.plaintext_receivePlaintext source.remaining
  unfold encryptTunnel
  generalize t.receivePlaintext source.remaining = result at hplain ⊢
  rcases result with ⟨_ | _, _⟩ <;> dsimp only at hplain
  · simp [offered, hplain]
  · simp [offered, TlsTransport.plaintext_takeEncrypted, hplain]

omit [TlsSession σ] in
theorem total_plaintextTunnel (hcomplete : output.isComplete = true) :
    (offered ⟨source, .plaintext queued, output⟩ (.ok source.remaining.length,
      output.tryReplaceIfComplete source.remaining, .plaintext queued) :
        Lane (Logged σ)).total socket = socket ++ (output.remaining ++ source.remaining) := by
  simp [offered, WriteBuffer.remaining_tryReplace hcomplete,
    WriteBuffer.isComplete_iff.mp hcomplete]

omit [TlsSession σ] in
theorem total_idleTunnel :
    (l.offered (.ok 0, l.output, l.transport)).total socket = l.total socket := by
  obtain ⟨_, _ | _, _⟩ := l
  · simp [offered]
  · simp [offered]

theorem total_pullTunnel :
    (l.offered (pullTunnelPlaintext l.output l.transport l.source.remaining)).total socket
      = l.total socket := by
  unfold pullTunnelPlaintext
  split
  · exact total_idleTunnel
  · next hcomplete =>
    simp only [not_eq_true', not_eq_false] at hcomplete
    obtain ⟨_, _ | _, _⟩ := l
    · exact total_plaintextTunnel hcomplete
    · exact total_encryptTunnel

theorem total_queueTunnel :
    (l.offered (queueTunnelPlaintext l.output l.transport l.source.remaining)).total socket
      = l.total socket := by
  unfold queueTunnelPlaintext
  split
  · exact total_idleTunnel
  · next hcomplete =>
    simp only [not_eq_true', not_eq_false] at hcomplete
    obtain ⟨_, _ | _, _⟩ := l
    · exact total_plaintextTunnel hcomplete
    · dsimp only
      split
      · exact total_encryptTunnel
      · exact total_idleTunnel

end Steps

section Good

/-- The lane is in order: what passed and what waits is what was appended. -/
structure Good (l : Lane (Logged σ)) (socket appended : Bytes) : Prop where
  valid : l.source.Valid
  total : l.total socket = appended

variable {l : Lane (Logged σ)} {socket appended : Bytes}

variable (h : l.Good socket appended)

include h

theorem Good.exactFifo :
    ExactFifo (l.handed socket) appended l.IsEmpty :=
  exactFifo_of_eq h.total IsEmpty.buffered

theorem Good.append {source : WriteBuffer} {chunk : Bytes}
    (happend : l.source.tryAppend chunk = .ok source) :
    ({ l with source } : Lane (Logged σ)).Good socket (appended ++ chunk) := by
  have hremaining := WriteBuffer.remaining_tryAppend h.valid happend
  refine ⟨h.valid.tryAppend happend, ?_⟩
  rw [← h.total]
  obtain ⟨_, _ | _, _⟩ := l
  · simp [hremaining]
  · simp [hremaining]

theorem Good.write (byteCount : ℕ) :
    ({ l with output := l.output.advanceAndClearIfComplete byteCount } : Lane (Logged σ)).Good
      (socket ++ l.output.remaining.take byteCount) appended := by
  refine ⟨h.valid, ?_⟩
  rw [← h.total]
  obtain ⟨_, _ | _, _⟩ := l
  · simp only [total_plaintext, WriteBuffer.remaining_advanceAndClear, append_assoc]
    rw [← append_assoc (List.take _ _), take_append_drop]
  · rfl

theorem Good.source {source : WriteBuffer} (hvalid : source.Valid)
    (hremaining : source.remaining = l.source.remaining) :
    ({ l with source } : Lane (Logged σ)).Good socket appended := by
  refine ⟨hvalid, ?_⟩
  rw [← h.total]
  simp only [Lane.total, handed, buffered, hremaining]

omit h in
theorem valid_offered {r : Except AppError ℕ × WriteBuffer × Transport (Logged σ)}
    (h : l.source.Valid) : (l.offered r).source.Valid := by
  unfold offered
  dsimp only
  split
  · exact h.advanceAndClear _
  · exact h

variable [TlsSession σ]

theorem Good.receive (bytes : Bytes) :
    ({ l with transport := (l.transport.receiveSocketBytes bytes).2 } : Lane (Logged σ)).Good
      socket appended := by
  refine ⟨h.valid, ?_⟩
  rw [← h.total]
  obtain ⟨_, _ | t, _⟩ := l
  · rfl
  · have hreceive := t.plaintext_receiveEncrypted bytes
    simp only [receiveSocketBytes]
    generalize t.receiveEncrypted bytes = received at hreceive ⊢
    rcases received with ⟨_ | _, t'⟩
    · exact congrArg (· ++ _) hreceive
    · exact congrArg (· ++ _) ((t'.plaintext_takeDecrypted _).trans hreceive)

theorem Good.pull (hdrained : l.Drained) (hcomplete : l.output.isComplete = true) :
    ({ l with transport := l.transport.takeSocketBytes.2
              output := .new l.transport.takeSocketBytes.1 } : Lane (Logged σ)).Good
      socket appended := by
  refine ⟨h.valid, ?_⟩
  rw [← h.total]
  obtain ⟨_, queued | _, _⟩ := l
  · obtain rfl := hdrained queued rfl
    rw [total_plaintext, WriteBuffer.isComplete_iff.mp hcomplete]
    rfl
  · rfl

theorem Good.pullTunnel :
    (l.offered (pullTunnelPlaintext l.output l.transport l.source.remaining)).Good
      socket appended :=
  ⟨valid_offered h.valid, by rw [total_pullTunnel, h.total]⟩

theorem Good.queueTunnel :
    (l.offered (queueTunnelPlaintext l.output l.transport l.source.remaining)).Good
      socket appended :=
  ⟨valid_offered h.valid, by rw [total_queueTunnel, h.total]⟩

omit h

theorem drained_pull (l : Lane σ) : Lane.Drained
    { l with
      transport := l.transport.takeSocketBytes.2
      output := .new l.transport.takeSocketBytes.1 } := by
  intro queued hq
  obtain ⟨_, _ | _, _⟩ := l
  · exact (Transport.plaintext.inj hq).symm
  · cases hq

theorem Drained.receive (h : l.Drained) (bytes : Bytes) :
    Lane.Drained { l with transport := (l.transport.receiveSocketBytes bytes).2 } := by
  intro queued hq
  obtain ⟨_, _ | _, _⟩ := l
  · exact h queued hq
  · simp only [receiveSocketBytes] at hq
    split at hq <;> cases hq

theorem Drained.queueTunnel (h : l.Drained) :
    (l.offered (queueTunnelPlaintext l.output l.transport l.source.remaining)).Drained := by
  intro queued hq
  unfold offered queueTunnelPlaintext at hq
  dsimp only at hq
  split at hq
  · exact h queued hq
  · obtain ⟨_, _ | _, _⟩ := l
    · exact h queued hq
    · dsimp only at hq
      split at hq
      · unfold encryptTunnel at hq
        split at hq <;> cases hq
      · cases hq

end Good

end Lane

namespace SnapshotMioConnection

def toUpstream (c : SnapshotMioConnection σ) : Lane σ :=
  ⟨c.tunnelClientToUpstream, c.upstreamTransport, c.pendingUpstreamOutput⟩

def toClient (c : SnapshotMioConnection σ) : Lane σ :=
  ⟨c.tunnelUpstreamToClient, c.clientTransport, c.pendingClientOutput⟩

end SnapshotMioConnection

namespace Focus

section Pieces

variable [TlsSession σ] {c : SnapshotMioConnection (Logged σ)} {socket appended : Bytes}

variable (bytes : Bytes)

def clientChunk (c : SnapshotMioConnection σ) : Bytes :=
  match (c.clientTransport.receiveSocketBytes bytes).1 with
  | .error _ => []
  | .ok plaintext =>
    match c.tunnelClientToUpstream.tryAppend plaintext with
    | .error _ => []
    | .ok _ => plaintext

def upstreamChunk (c : SnapshotMioConnection σ) : Bytes :=
  match (c.upstreamTransport.receiveSocketBytes bytes).1 with
  | .error _ => []
  | .ok plaintext =>
    match c.tunnelUpstreamToClient.tryAppend plaintext with
    | .error _ => []
    | .ok _ => plaintext

def SameRest (c c' : SnapshotMioConnection σ) : Prop :=
  c'.io = c.io ∧ c'.resourceCharges = c.resourceCharges

omit [TlsSession σ] in
theorem SameRest.trans {c c' c'' : SnapshotMioConnection σ} (h : SameRest c c')
    (h' : SameRest c' c'') : SameRest c c'' :=
  ⟨h'.1.trans h.1, h'.2.trans h.2⟩

theorem toUpstream_takeClient (h : c.toUpstream.Good socket appended) :
    (takeClientTunnelBytes bytes c).toUpstream.Good socket (appended ++ clientChunk bytes c) ∧
      (takeClientTunnelBytes bytes c).upstreamTransport = c.upstreamTransport ∧
      SameRest c (takeClientTunnelBytes bytes c) := by
  unfold takeClientTunnelBytes clientChunk
  rcases c.clientTransport.receiveSocketBytes bytes with ⟨_ | plaintext, _⟩
  · exact ⟨by rw [append_nil]; exact h, rfl, rfl, rfl⟩
  · dsimp only
    rcases happend : c.tunnelClientToUpstream.tryAppend plaintext with _ | source
    · exact ⟨by rw [append_nil]; exact h, rfl, rfl, rfl⟩
    · exact ⟨h.append happend, rfl, rfl, rfl⟩

theorem toClient_takeClient (h : c.toClient.Good socket appended) :
    (takeClientTunnelBytes bytes c).toClient.Good socket appended := by
  have hreceive : Lane.Good ⟨_, (c.clientTransport.receiveSocketBytes bytes).2, _⟩ _ _ :=
    h.receive bytes
  unfold takeClientTunnelBytes
  generalize c.clientTransport.receiveSocketBytes bytes = received at hreceive ⊢
  rcases received with ⟨_ | _, _⟩
  · exact hreceive
  · dsimp only
    split <;> exact hreceive

theorem stageClient_lanes (h : c.toClient.Good socket appended) :
    (stageClientTunnel c).2.toClient.Good socket appended ∧
      (stageClientTunnel c).2.toUpstream = c.toUpstream ∧ SameRest c (stageClientTunnel c).2 := by
  unfold stageClientTunnel
  split
  · exact ⟨h, rfl, rfl, rfl⟩
  · split
    · exact ⟨h, rfl, rfl, rfl⟩
    · have hpull : Lane.Good (c.toClient.offered (pullTunnelPlaintext c.pendingClientOutput
        c.clientTransport c.tunnelUpstreamToClient.remaining)) _ _ := h.pullTunnel
      generalize pullTunnelPlaintext c.pendingClientOutput c.clientTransport
        c.tunnelUpstreamToClient.remaining = pulled at hpull ⊢
      rcases pulled with ⟨_ | _, _, _⟩
      · exact ⟨hpull, rfl, rfl, rfl⟩
      · exact ⟨hpull, rfl, rfl, rfl⟩

theorem toClient_pullHandshake (c : SnapshotMioConnection (Logged σ)) :
    (pullHandshakeOutput c).toClient = c.toClient := by
  unfold pullHandshakeOutput
  split <;> rfl

theorem pullHandshake_lanes (h : c.toUpstream.Good socket appended)
    (hdrained : c.toUpstream.Drained) :
    (pullHandshakeOutput c).toUpstream.Good socket appended ∧
      (pullHandshakeOutput c).toUpstream.Drained ∧ SameRest c (pullHandshakeOutput c) := by
  unfold pullHandshakeOutput
  split
  · next hcomplete =>
    exact ⟨h.pull hdrained hcomplete, Lane.drained_pull c.toUpstream, rfl, rfl⟩
  · exact ⟨h, hdrained, rfl, rfl⟩

theorem toClient_takeUpstream (h : c.toClient.Good socket appended) :
    (takeUpstreamTunnelBytes bytes c).toClient.Good socket (appended ++ upstreamChunk bytes c) := by
  unfold takeUpstreamTunnelBytes upstreamChunk
  rcases c.upstreamTransport.receiveSocketBytes bytes with ⟨_ | plaintext, _⟩
  · rw [append_nil]
    exact h
  · dsimp only
    rcases happend : c.tunnelUpstreamToClient.tryAppend plaintext with _ | source
    · rw [append_nil, toClient_pullHandshake]
      exact h
    · rw [toClient_pullHandshake]
      exact h.append happend

theorem toUpstream_takeUpstream (h : c.toUpstream.Good socket appended)
    (hdrained : c.toUpstream.Drained) :
    (takeUpstreamTunnelBytes bytes c).toUpstream.Good socket appended ∧
      (takeUpstreamTunnelBytes bytes c).toUpstream.Drained ∧
      SameRest c (takeUpstreamTunnelBytes bytes c) := by
  have hreceive : Lane.Good ⟨_, (c.upstreamTransport.receiveSocketBytes bytes).2, _⟩ _ _ :=
    h.receive bytes
  have hkeeps : Lane.Drained ⟨_, (c.upstreamTransport.receiveSocketBytes bytes).2, _⟩ :=
    hdrained.receive bytes
  unfold takeUpstreamTunnelBytes
  generalize c.upstreamTransport.receiveSocketBytes bytes = received at hreceive hkeeps ⊢
  rcases received with ⟨_ | _, _⟩
  · exact ⟨hreceive, hkeeps, rfl, rfl⟩
  · dsimp only
    split
    · exact pullHandshake_lanes hreceive hkeeps
    · exact pullHandshake_lanes hreceive hkeeps

theorem stageUpstream_lanes (h : c.toUpstream.Good socket appended)
    (hdrained : c.toUpstream.Drained) :
    ((stageUpstreamTunnel c).2.toUpstream.Good socket appended ∧
      (stageUpstreamTunnel c).2.toUpstream.Drained) ∧
      (stageUpstreamTunnel c).2.toClient = c.toClient ∧ SameRest c (stageUpstreamTunnel c).2 := by
  unfold stageUpstreamTunnel
  split
  · exact ⟨⟨h, hdrained⟩, rfl, rfl, rfl⟩
  · next hcomplete =>
    simp only [not_eq_true', not_eq_false] at hcomplete
    split
    · exact ⟨⟨h.pull hdrained hcomplete, Lane.drained_pull c.toUpstream⟩, rfl, rfl, rfl⟩
    · have hqueue : Lane.Good (c.toUpstream.offered (queueTunnelPlaintext c.pendingUpstreamOutput
        c.upstreamTransport c.tunnelClientToUpstream.remaining)) _ _ := h.queueTunnel
      have hkeeps : Lane.Drained (c.toUpstream.offered (queueTunnelPlaintext
        c.pendingUpstreamOutput c.upstreamTransport c.tunnelClientToUpstream.remaining)) :=
        hdrained.queueTunnel
      generalize queueTunnelPlaintext c.pendingUpstreamOutput c.upstreamTransport
        c.tunnelClientToUpstream.remaining = queued at hqueue hkeeps ⊢
      rcases queued with ⟨_ | _ | _, _, _⟩
      · exact ⟨⟨hqueue, hkeeps⟩, rfl, rfl, rfl⟩
      · refine ⟨⟨hqueue.source h.valid ?_, hkeeps⟩, rfl, rfl, rfl⟩
        simp [Lane.offered, SnapshotMioConnection.toUpstream]
      · exact ⟨⟨hqueue, hkeeps⟩, rfl, rfl, rfl⟩

/-- What the socket takes in the writes of a tunnel. -/
def tunnelTook (stage : SnapshotMioConnection σ → Bool × SnapshotMioConnection σ)
    (sent : ℕ → SnapshotMioConnection σ → SnapshotMioConnection σ)
    (output : SnapshotMioConnection σ → WriteBuffer) :
    List WriteResult → SnapshotMioConnection σ → Bytes
  | [], _ => []
  | write :: writes, c =>
    match stage c with
    | (false, _) => []
    | (true, c) =>
      match write with
      | .wouldBlock | .written 0 | .error => []
      | .written (count + 1) =>
        (output c).remaining.take (count + 1) ++ tunnelTook stage sent output writes
          (sent (count + 1) c)

omit [TlsSession σ] in
theorem writeTunnel_keeps (stage : SnapshotMioConnection σ → Bool × SnapshotMioConnection σ)
    (sent : ℕ → SnapshotMioConnection σ → SnapshotMioConnection σ)
    (output : SnapshotMioConnection σ → WriteBuffer) {P : SnapshotMioConnection σ → Bytes → Prop}
    (hstage : ∀ c s, P c s → P (stage c).2 s) (hclose : ∀ c s, P c s → P (closeTunnel c) s)
    (hsent : ∀ c s n, P c s → P (sent n c) (s ++ (output c).remaining.take n))
    (writes : List WriteResult) (c : SnapshotMioConnection σ) (s : Bytes) (h : P c s) :
    P (writeTunnel stage sent writes c) (s ++ tunnelTook stage sent output writes c) := by
  induction writes generalizing c s with
  | nil => simpa [writeTunnel, tunnelTook] using hstage c s h
  | cons write _ ih =>
    have hstaged := hstage c s h
    unfold writeTunnel tunnelTook
    generalize stage c = staged at hstaged ⊢
    rcases staged with ⟨_ | _, _⟩
    · simpa using hstaged
    · rcases write with (_ | count) | _ | _
      · simpa using hstaged
      · simp only [← append_assoc]
        exact ih _ _ (hsent _ _ _ hstaged)
      · simpa using hstaged
      · simpa using hclose _ _ hstaged

end Pieces

section Frames

/-- The lanes, the state and the charges are those of `f`. -/
structure Beside (f f' : Focus σ) : Prop where
  toClient : f'.connection.toClient = f.connection.toClient
  toUpstream : f'.connection.toUpstream = f.connection.toUpstream
  io : f'.connection.io = f.connection.io
  accounts : f'.accounts = f.accounts
  removed : f'.removed = f.removed

theorem beside_refl (f : Focus σ) : Beside f f := ⟨rfl, rfl, rfl, rfl, rfl⟩

/-- An action that stays beside where it started, however it ends. -/
abbrev StaysBeside {α : Type} (x : ConnAction σ α) : Prop :=
  ∀ f, Action.Ensures (Beside f) x (Beside f)

theorem staysBeside_pure {α : Type} (a : α) : StaysBeside (pure a : ConnAction σ α) :=
  fun _ => holds_pure fun _ h => h

theorem staysBeside_fail {α : Type} (e : IoError) : StaysBeside (Action.fail e : ConnAction σ α) :=
  fun _ => holds_fail fun _ h => h

theorem StaysBeside.bind {α β : Type} {x : ConnAction σ α} {k : α → ConnAction σ β}
    (hx : StaysBeside x) (hk : ∀ a, StaysBeside (k a)) : StaysBeside (x >>= k) :=
  fun f => (hx f).bind fun a => hk a f

theorem staysBeside_read {β : Type} {k : Focus σ → ConnAction σ β}
    (hk : ∀ f, StaysBeside (k f)) : StaysBeside (Action.read >>= k) :=
  fun f => holds_read fun s hs => (hk s f).pre fun _ ht => ht ▸ hs

theorem staysBeside_update {g : SnapshotMioConnection σ → SnapshotMioConnection σ}
    (hc : ∀ c, (g c).toClient = c.toClient) (hu : ∀ c, (g c).toUpstream = c.toUpstream)
    (hio : ∀ c, (g c).io = c.io) (hcharges : ∀ c, (g c).resourceCharges = c.resourceCharges) :
    StaysBeside (update g : ConnAction σ PUnit) := by
  intro f
  refine holds_modify fun s hs => ?_
  refine ⟨(hc _).trans hs.toClient, (hu _).trans hs.toUpstream, (hio _).trans hs.io, ?_, hs.removed⟩
  rw [← hs.accounts]
  simp only [Focus.accounts, hcharges]

theorem staysBeside_registryFault : StaysBeside (registryFault : ConnAction σ Bool) := by
  intro f
  refine holds_of_ends fun s hs => ?_
  unfold registryFault
  split
  · exact hs
  · exact ⟨hs.toClient, hs.toUpstream, hs.io, hs.accounts, hs.removed⟩

theorem staysBeside_registryCall (accepts : Bool) (refusal : IoError) (stream : MioTcpStream)
    (registration : Option Interest) :
    StaysBeside (registryCall accepts refusal stream registration : ConnAction σ MioTcpStream) := by
  refine staysBeside_registryFault.bind fun fault => ?_
  intro f
  refine Holds.ite (fun _ => staysBeside_fail _ f) fun _ => ?_
  exact Holds.ite (fun _ => staysBeside_pure _ f) fun _ => staysBeside_fail _ f

theorem staysBeside_reconcileMio (stream : MioTcpStream) (interest : Option Interest)
    (registered : Bool) :
    StaysBeside (reconcileMioRegistration stream interest registered :
      ConnAction σ (MioTcpStream × Bool)) := by
  unfold reconcileMioRegistration
  split
  · exact (staysBeside_registryCall _ _ _ _).bind fun _ => staysBeside_pure _
  · exact (staysBeside_registryCall _ _ _ _).bind fun _ => staysBeside_pure _
  · exact (staysBeside_registryCall _ _ _ _).bind fun _ => staysBeside_pure _
  · exact staysBeside_pure _

theorem staysBeside_reconcileClient (interest : Option Interest) :
    StaysBeside (reconcileClient interest : ConnAction σ PUnit) :=
  staysBeside_read fun _ => (staysBeside_reconcileMio _ _ _).bind fun _ =>
    staysBeside_update (fun _ => rfl) (fun _ => rfl) (fun _ => rfl) fun _ => rfl

theorem staysBeside_reconcileUpstream (interest : Option Interest) :
    StaysBeside (reconcileUpstream interest : ConnAction σ PUnit) := by
  refine staysBeside_read fun f => ?_
  split
  · exact staysBeside_pure _
  · exact (staysBeside_reconcileMio _ _ _).bind fun _ =>
      staysBeside_update (fun _ => rfl) (fun _ => rfl) (fun _ => rfl) fun _ => rfl

theorem staysBeside_unlessRemoved {x : ConnAction σ PUnit} (hx : StaysBeside x) :
    StaysBeside (unlessRemoved x) := by
  intro f
  refine holds_of_ends fun s hs => ?_
  unfold unlessRemoved
  split
  · exact hs
  · exact (hx f).ends hs

variable [TlsSession σ]

theorem staysBeside_reregister (limits : RuntimeLimits) :
    StaysBeside (reregisterTunnelInterests limits : ConnAction σ PUnit) := by
  refine staysBeside_unlessRemoved (staysBeside_read fun f => ?_)
  intro f₀
  refine Holds.ite (fun _ => staysBeside_pure _ f₀) fun _ => ?_
  exact ((staysBeside_reconcileClient _).bind fun _ => staysBeside_reconcileUpstream _) f₀

end Frames

end Focus

section Events

/-- What was appended to a lane, and what the socket at its end took. -/
structure Flow where
  appended : Bytes
  socket : Bytes

structure InTunnel (up down : Flow) (f : Focus (Logged σ)) : Prop where
  present : f.removed = false
  tunneling : f.connection.io.state = .tunnelingWebSocket
  toUpstream : f.connection.toUpstream.Good up.socket up.appended
  drained : f.connection.toUpstream.Drained
  toClient : f.connection.toClient.Good down.socket down.appended
  owned : ∃ G O c, Owned G O c f.accounts

variable {up down : Flow} {f f' : Focus (Logged σ)}

/-- From `f` the action returns with `Q`, or the loop stops. -/
abbrev Leads (f : Focus (Logged σ)) (x : ConnAction (Logged σ) PUnit)
    (Q : Focus (Logged σ) → Prop) : Prop :=
  Holds (· = f) x (fun _ => Q) fun _ _ => True

theorem InTunnel.beside (h : InTunnel up down f) (hf : Beside f f') : InTunnel up down f' where
  present := hf.removed.trans h.present
  tunneling := by rw [hf.io, h.tunneling]
  toUpstream := hf.toUpstream ▸ h.toUpstream
  drained := hf.toUpstream ▸ h.drained
  toClient := hf.toClient ▸ h.toClient
  owned := hf.accounts ▸ h.owned

namespace Focus

variable [TlsSession σ] (limits : RuntimeLimits)

def clientRead (f : Focus σ) : Bytes :=
  if !(f.connection.tunnelFlowControl limits.resource).clientReadable then []
  else
    match f.firstRead with
    | .wouldBlock | .error => []
    | .data bytes => if bytes.isEmpty then [] else clientChunk bytes f.connection

def upstreamRead (f : Focus σ) : Bytes :=
  if f.connection.upstream.isNone then []
  else if !(f.connection.tunnelFlowControl limits.resource).upstreamReadable then []
  else
    match f.firstRead with
    | .wouldBlock | .error => []
    | .data bytes => if bytes.isEmpty then [] else upstreamChunk bytes f.connection

def clientTook (f : Focus σ) : Bytes :=
  tunnelTook stageClientTunnel sendClient (·.pendingClientOutput) f.world.writes f.connection

def upstreamTook (f : Focus σ) : Bytes :=
  if f.connection.upstream.isNone then []
  else tunnelTook stageUpstreamTunnel sendUpstream (·.pendingUpstreamOutput) f.world.writes
    f.connection

variable (limits : RuntimeLimits) (h : InTunnel up down f)

include h

theorem holds_reregister : Leads f (reregisterTunnelInterests limits) (InTunnel up down) := by
  refine (((staysBeside_reregister limits f).pre fun s hs => ?_).post
    fun _ s hs => h.beside hs).weakenError fun _ _ _ => trivial
  rw [hs]
  exact beside_refl _

omit h in
theorem holds_reregister_after
    {g : SnapshotMioConnection (Logged σ) → SnapshotMioConnection (Logged σ)}
    (h : InTunnel up down { f with connection := g f.connection }) :
    Leads f (do update g; reregisterTunnelInterests limits) (InTunnel up down) :=
  (holds_modify fun s hs => by rw [hs]).bind fun _ => holds_reregister limits h

omit [TlsSession σ] h in
theorem holds_unlessRemoved {x : ConnAction (Logged σ) PUnit}
    {Q : PUnit → Focus (Logged σ) → Prop} {E : IoError → Focus (Logged σ) → Prop}
    (hpresent : f.removed = false) (hx : Holds (· = f) x Q E) :
    Holds (· = f) (unlessRemoved x) Q E := by
  refine holds_of_ends fun s hs => ?_
  unfold unlessRemoved
  rw [if_neg (by rw [hs, hpresent]; exact false_ne_true)]
  exact hx.ends hs

omit [TlsSession σ] in
theorem inTunnel_update {up' down' : Flow} {c : SnapshotMioConnection (Logged σ)}
    (hrest : SameRest f.connection c) (hup : c.toUpstream.Good up'.socket up'.appended)
    (hdrained : c.toUpstream.Drained) (hdown : c.toClient.Good down'.socket down'.appended) :
    InTunnel up' down' { f with connection := c } where
  present := h.present
  tunneling := by
    dsimp only
    rw [hrest.1, h.tunneling]
  toUpstream := hup
  drained := hdrained
  toClient := hdown
  owned := by
    have howned := h.owned
    simp only [Focus.accounts] at howned ⊢
    rwa [hrest.2]

theorem inTunnel_takeClient (bytes : Bytes) :
    InTunnel ⟨up.appended ++ clientChunk bytes f.connection, up.socket⟩ down
      { f with connection := takeClientTunnelBytes bytes f.connection } := by
  obtain ⟨hup, htransport, hrest⟩ := toUpstream_takeClient bytes h.toUpstream
  refine inTunnel_update h hrest hup ?_ (toClient_takeClient bytes h.toClient)
  intro queued hqueued
  exact h.drained queued (htransport.symm.trans hqueued)

theorem inTunnel_takeUpstream (bytes : Bytes) :
    InTunnel up ⟨down.appended ++ upstreamChunk bytes f.connection, down.socket⟩
      { f with connection := takeUpstreamTunnelBytes bytes f.connection } := by
  obtain ⟨hup, hdrained, hrest⟩ := toUpstream_takeUpstream bytes h.toUpstream h.drained
  exact inTunnel_update h hrest hup hdrained (toClient_takeUpstream bytes h.toClient)

omit [TlsSession σ] in
theorem inTunnel_close :
    InTunnel up down { f with connection := closeTunnel f.connection } :=
  { h with }

theorem holds_readClientTunnel :
    Leads f (readClientTunnel limits)
      (InTunnel ⟨up.appended ++ clientRead limits f, up.socket⟩ down) := by
  refine holds_unlessRemoved h.present (holds_read_at ?_)
  unfold clientRead
  split
  · rw [append_nil]
    exact holds_reregister limits h
  rcases f.firstRead with bytes | _ | _
  · dsimp only
    split
    · rw [append_nil]
      exact holds_reregister_after limits (inTunnel_close h)
    · exact holds_reregister_after limits (inTunnel_takeClient h bytes)
  · simp only [append_nil]
    exact holds_reregister limits h
  · simp only [append_nil]
    exact holds_reregister_after limits (inTunnel_close h)

theorem holds_readUpstreamTunnel :
    Leads f (readUpstreamTunnel limits)
      (InTunnel up ⟨down.appended ++ upstreamRead limits f, down.socket⟩) := by
  refine holds_unlessRemoved h.present (holds_read_at ?_)
  unfold upstreamRead
  split
  · rw [append_nil]
    exact holds_pure fun t ht => ht ▸ h
  split
  · rw [append_nil]
    exact holds_reregister limits h
  rcases f.firstRead with bytes | _ | _
  · dsimp only
    split
    · rw [append_nil]
      exact holds_reregister_after limits (inTunnel_close h)
    · exact holds_reregister_after limits (inTunnel_takeUpstream h bytes)
  · simp only [append_nil]
    exact holds_reregister limits h
  · simp only [append_nil]
    exact holds_reregister_after limits (inTunnel_close h)

theorem holds_writeClientTunnel :
    Leads f (writeClientTunnel limits)
      (InTunnel up ⟨down.appended, down.socket ++ clientTook f⟩) := by
  refine holds_unlessRemoved h.present (holds_read_at ?_)
  refine holds_reregister_after limits ?_
  obtain ⟨hrest, hup, hdown⟩ := writeTunnel_keeps stageClientTunnel sendClient
    (·.pendingClientOutput)
    (P := fun c socket => SameRest f.connection c ∧ c.toUpstream = f.connection.toUpstream ∧
      c.toClient.Good socket down.appended)
    (fun c socket hc =>
      have hstage := stageClient_lanes hc.2.2
      ⟨hc.1.trans hstage.2.2, hstage.2.1.trans hc.2.1, hstage.1⟩)
    (fun c socket hc => hc)
    (fun c socket n hc => ⟨hc.1, hc.2.1, hc.2.2.write n⟩)
    f.world.writes f.connection down.socket ⟨⟨rfl, rfl⟩, rfl, h.toClient⟩
  exact inTunnel_update h hrest (hup ▸ h.toUpstream) (hup ▸ h.drained) hdown

theorem holds_writeUpstreamTunnel :
    Leads f (writeUpstreamTunnel limits)
      (InTunnel ⟨up.appended, up.socket ++ upstreamTook f⟩ down) := by
  refine holds_unlessRemoved h.present (holds_read_at ?_)
  unfold upstreamTook
  split
  · rw [append_nil]
    exact holds_pure fun t ht => ht ▸ h
  refine holds_reregister_after limits ?_
  obtain ⟨hrest, hdown, hup, hdrained⟩ := writeTunnel_keeps stageUpstreamTunnel sendUpstream
    (·.pendingUpstreamOutput)
    (P := fun c socket => SameRest f.connection c ∧ c.toClient = f.connection.toClient ∧
      c.toUpstream.Good socket up.appended ∧ c.toUpstream.Drained)
    (fun c socket hc =>
      have hstage := stageUpstream_lanes hc.2.2.1 hc.2.2.2
      ⟨hc.1.trans hstage.2.2, hstage.2.1.trans hc.2.1, hstage.1⟩)
    (fun c socket hc => hc)
    (fun c socket n hc => ⟨hc.1, hc.2.1, hc.2.2.1.write n, hc.2.2.2⟩)
    f.world.writes f.connection up.socket ⟨⟨rfl, rfl⟩, rfl, h.toUpstream, h.drained⟩
  exact inTunnel_update h hrest hup hdrained (hdown ▸ h.toClient)

omit h

def LanesCharged (f : Focus (Logged σ)) : Prop :=
  f.accounts.bytes .webSocketClientToUpstream = f.connection.toUpstream.buffered.length ∧
    f.accounts.bytes .webSocketUpstreamToClient = f.connection.toClient.buffered.length

omit [TlsSession σ] in
theorem length_buffered (l : Lane σ) : l.buffered.length =
    l.source.remainingLen + if l.transport.isTls then 0 else l.output.remainingLen := by
  obtain ⟨_, _ | _, _⟩ := l
  · simp [Lane.buffered, isTls, WriteBuffer.remainingLen, Nat.add_comm]
  · simp [Lane.buffered, isTls, WriteBuffer.remainingLen]

omit [TlsSession σ] in
theorem eq_add_of_orOverflow {message : String} {m n r : ℕ}
    (h : orOverflow message (checkedAdd m n) = .ok r) : r = m + n := by
  unfold checkedAdd at h
  split at h
  · exact (Except.ok.inj h).symm
  · cases h

theorem ownedBytes_eq {c : SnapshotMioConnection σ} {tlsBytes clientToUpstream upstreamToClient : ℕ}
    (hstate : c.io.state = .tunnelingWebSocket)
    (h : ownedBytes c = .ok (tlsBytes, clientToUpstream, upstreamToClient)) :
    clientToUpstream = c.toUpstream.buffered.length ∧
      upstreamToClient = c.toClient.buffered.length := by
  unfold ownedBytes at h
  obtain ⟨tls, -, h⟩ := bind_eq_ok.mp h
  rw [if_pos hstate] at h
  obtain ⟨⟨toUp, toDown⟩, howner, h⟩ := bind_eq_ok.mp h
  obtain ⟨-, rfl, rfl⟩ : tls = tlsBytes ∧ toUp = clientToUpstream ∧ toDown = upstreamToClient := by
    simpa [pure, Except.pure] using h
  obtain ⟨_, hup, howner⟩ := bind_eq_ok.mp howner
  obtain ⟨_, hdown, howner⟩ := bind_eq_ok.mp howner
  obtain ⟨rfl, rfl⟩ := Prod.mk.inj (Except.ok.inj howner)
  rw [length_buffered, length_buffered]
  exact ⟨eq_add_of_orOverflow hup, eq_add_of_orOverflow hdown⟩

theorem holds_syncTransport {a : PayloadAccounts} {G : ℕ} {O : Set ℕ}
    {c : ConnectionPayloadCharges} (ha : Owned G O c a)
    (connectionId tlsBytes clientToUpstream upstreamToClient : ℕ) :
    Holds (· = a)
      (syncTransportPayloadCharges connectionId tlsBytes clientToUpstream upstreamToClient)
      (fun _ a' => (∃ c', Owned G O c' a') ∧
        a'.bytes .webSocketClientToUpstream = clientToUpstream ∧
        a'.bytes .webSocketUpstreamToClient = upstreamToClient) fun _ _ => True := by
  refine (holds_sync ha _ connectionId clientToUpstream).bind fun _ => ?_
  rintro a₁ ⟨⟨c₁, ha₁⟩, hup⟩
  refine Holds.bind (holds_sync ha₁ _ connectionId upstreamToClient) (fun _ => ?_) a₁ rfl
  rintro a₂ ⟨⟨c₂, ha₂⟩, hdown⟩
  refine Holds.bind (holds_sync ha₂ _ connectionId tlsBytes) (fun _ => ?_) a₂ rfl
  rintro a₃ ⟨howned, htls⟩
  refine ⟨howned, ?_, ?_⟩
  · rw [htls.others _ (by decide), hdown.others _ (by decide), hup.bytes]
  · rw [htls.others _ (by decide), hdown.bytes]

omit [TlsSession σ] in
theorem holds_removeConnection {P : Focus σ → Prop} :
    Holds P removeConnection (fun _ f => f.removed = true) fun _ _ => True := by
  refine holds_of_ends fun s _ => ?_
  unfold removeConnection unlessRemoved
  split
  · next hremoved => exact hremoved
  · refine Holds.ends (P := fun _ => True) ?_ trivial
    refine holds_trivial.bind fun _ => holds_read fun f _ => ?_
    split
    · exact holds_modify fun _ _ => rfl
    · exact holds_modify fun _ _ => rfl

omit [TlsSession σ] in
theorem holds_dropConnection {P : Focus σ → Prop} :
    Holds P dropConnection (fun _ f => f.removed = true) fun _ _ => True :=
  holds_trivial.bind fun _ => holds_trivial.bind fun _ => holds_removeConnection

include h in
theorem holds_reconcileCharges :
    Leads f reconcileCharges fun f' =>
      f'.removed = false → InTunnel up down f' ∧ LanesCharged f' := by
  refine holds_unlessRemoved h.present (holds_read_at ?_)
  have hdrop {P : Focus (Logged σ) → Prop} : Holds P dropConnection
      (fun _ f' => f'.removed = false → InTunnel up down f' ∧ LanesCharged f') fun _ _ => True :=
    holds_dropConnection.post fun _ f' hremoved hpresent => by simp [hremoved] at hpresent
  rcases hbytes : ownedBytes f.connection with _ | ⟨tlsBytes, clientToUpstream, upstreamToClient⟩
  · exact hdrop
  obtain ⟨G, O, _, howned⟩ := h.owned
  obtain ⟨rfl, rfl⟩ := ownedBytes_eq h.tunneling hbytes
  have hsync := (holds_syncTransport howned f.connectionId tlsBytes
    f.connection.toUpstream.buffered.length f.connection.toClient.buffered.length).ends rfl
  refine holds_of_ends fun t ht => ?_
  subst ht
  rcases hrun : syncTransportPayloadCharges t.connectionId tlsBytes
    t.connection.toUpstream.buffered.length t.connection.toClient.buffered.length t.accounts
    with ⟨_ | _, a⟩ <;> rw [hrun] at hsync <;> dsimp only <;>
    rw [bind_ok (onAccounts_eq hrun)]
  · exact (hdrop (P := fun _ => True)).ends trivial
  · obtain ⟨⟨c', hc'⟩, hup, hdown⟩ := hsync
    intro _
    exact ⟨{ h with owned := ⟨G, O, c', hc'⟩ }, hup, hdown⟩

def clientFlows (readable writable : Bool) (f : Focus σ) : Bytes × Bytes :=
  let reading := readable && f.payloadLedger.pressureState == .normal
  let f₁ := (whenReady reading (readClientTunnel limits) f).2
  (if reading then clientRead limits f else [], if writable then clientTook f₁ else [])

def upstreamFlows (readable writable : Bool) (f : Focus σ) : Bytes × Bytes :=
  let reading := readable && f.payloadLedger.pressureState == .normal
  let f₁ := (whenReady reading (readUpstreamTunnel limits) f).2
  (if reading then upstreamRead limits f else [], if writable then upstreamTook f₁ else [])

theorem holds_readWrite (up₁ down₁ : Flow) {up₂ down₂ : Flow}
    {read write : ConnAction (Logged σ) PUnit}
    (hread : Leads f read (InTunnel up₁ down₁))
    (hwrite : InTunnel up₁ down₁ (read f).2 → Leads (read f).2 write (InTunnel up₂ down₂)) :
    Leads f (do read; write; reconcileCharges) fun f' =>
      f'.removed = false → InTunnel up₂ down₂ f' ∧ LanesCharged f' := by
  refine holds_of_ends fun s hs => ?_
  subst hs
  have h₁ := hread.ends rfl
  rcases hrun : read s with ⟨_ | _, f₁⟩ <;> rw [hrun] at h₁ hwrite
  · rw [bind_error hrun]
    trivial
  · rw [bind_ok hrun]
    refine Holds.ends (P := (· = f₁)) ?_ rfl
    exact (hwrite h₁).bind fun _ f₂ h₂ => holds_reconcileCharges h₂ f₂ rfl

omit [TlsSession σ] in
theorem holds_whenReady (Q : Bytes → Focus (Logged σ) → Prop) {ready : Bool}
    {x : ConnAction (Logged σ) PUnit} {bytes : Bytes} (hskip : Q [] f) (hx : Leads f x (Q bytes)) :
    Leads f (whenReady ready x) (Q (if ready then bytes else [])) := by
  cases ready with
  | false => exact holds_pure fun s hs => hs ▸ hskip
  | true => exact hx

include h in
theorem holds_clientEvent (readable writable transportError : Bool) :
    let flows := clientFlows limits readable writable f
    Leads f (clientEvent limits readable writable transportError) fun f' =>
      f'.removed = false →
        InTunnel ⟨up.appended ++ flows.1, up.socket⟩ ⟨down.appended, down.socket ++ flows.2⟩ f' ∧
          LanesCharged f' := by
  intro flows
  refine holds_read_at ?_
  rw [if_pos h.tunneling]
  refine holds_readWrite ⟨up.appended ++ flows.1, up.socket⟩ down ?_ ?_
  · exact holds_whenReady (fun bytes => InTunnel ⟨up.appended ++ bytes, up.socket⟩ down)
      (by simpa using h) (holds_readClientTunnel limits h)
  · intro h₁
    exact holds_whenReady (fun bytes => InTunnel _ ⟨down.appended, down.socket ++ bytes⟩)
      (by simpa using h₁) (holds_writeClientTunnel limits h₁)

include h in
theorem holds_upstreamEvent (readable writable : Bool) :
    let flows := upstreamFlows limits readable writable f
    Leads f (upstreamEvent limits readable writable) fun f' =>
      f'.removed = false →
        InTunnel ⟨up.appended, up.socket ++ flows.2⟩ ⟨down.appended ++ flows.1, down.socket⟩ f' ∧
          LanesCharged f' := by
  intro flows
  refine holds_read_at ?_
  rw [if_pos h.tunneling]
  refine holds_readWrite up ⟨down.appended ++ flows.1, down.socket⟩ ?_ ?_
  · exact holds_whenReady (fun bytes => InTunnel up ⟨down.appended ++ bytes, down.socket⟩)
      (by simpa using h) (holds_readUpstreamTunnel limits h)
  · intro h₁
    exact holds_whenReady (fun bytes => InTunnel ⟨up.appended, up.socket ++ bytes⟩ _)
      (by simpa using h₁) (holds_writeUpstreamTunnel limits h₁)

end Focus

end Events

section Runs

variable [TlsSession σ]

/-- A connection, with what was appended to its lanes and what their sockets took. -/
structure TunnelTrace (σ : Type) where
  focus : Focus (Logged σ)
  up : Flow
  down : Flow

/-- One event of the connection that the loop survives, or a change that the other connections make
to the ledger. -/
inductive TunnelStep (limits : RuntimeLimits) : TunnelTrace σ → TunnelTrace σ → Prop
  | client (t world readable writable transportError f') (hpresent : t.focus.removed = false)
      (hrun : clientEvent limits readable writable transportError { t.focus with world } =
        (.ok ⟨⟩, f')) :
      TunnelStep limits t
        ⟨f', ⟨t.up.appended ++ (clientFlows limits readable writable { t.focus with world }).1,
            t.up.socket⟩,
          ⟨t.down.appended,
            t.down.socket ++ (clientFlows limits readable writable { t.focus with world }).2⟩⟩
  | upstream (t world readable writable f') (hpresent : t.focus.removed = false)
      (hrun : upstreamEvent limits readable writable { t.focus with world } = (.ok ⟨⟩, f')) :
      TunnelStep limits t
        ⟨f', ⟨t.up.appended,
            t.up.socket ++ (upstreamFlows limits readable writable { t.focus with world }).2⟩,
          ⟨t.down.appended ++ (upstreamFlows limits readable writable { t.focus with world }).1,
            t.down.socket⟩⟩
  | others (t payloadLedger)
      (howned : ∃ G O c, Owned G O c ⟨t.focus.connection.resourceCharges, payloadLedger⟩)
      (hbytes : ∀ p, PayloadAccounts.bytes p ⟨t.focus.connection.resourceCharges, payloadLedger⟩ =
        t.focus.accounts.bytes p) :
      TunnelStep limits t { t with focus := { t.focus with payloadLedger } }

/-- A tunnel as it is opened: nothing was handed over yet, no plaintext waits inside a transport,
and what the lanes hold is charged. -/
structure TunnelStart (f : Focus (Logged σ)) : Prop where
  present : f.removed = false
  tunneling : f.connection.io.state = .tunnelingWebSocket
  upstreamValid : f.connection.tunnelClientToUpstream.Valid
  clientValid : f.connection.tunnelUpstreamToClient.Valid
  upstreamFresh : f.connection.toUpstream.handed [] = []
  clientFresh : f.connection.toClient.handed [] = []
  drained : f.connection.toUpstream.Drained
  owned : ∃ G O c, Owned G O c f.accounts
  charged : LanesCharged f

def TunnelTrace.start (f : Focus (Logged σ)) : TunnelTrace σ :=
  ⟨f, ⟨f.connection.toUpstream.buffered, []⟩, ⟨f.connection.toClient.buffered, []⟩⟩

def TunnelTrace.Sound (t : TunnelTrace σ) : Prop :=
  t.focus.removed = false → InTunnel t.up t.down t.focus ∧ LanesCharged t.focus

omit [TlsSession σ] in
variable {f : Focus (Logged σ)}

theorem TunnelStart.sound (h : TunnelStart f) : (TunnelTrace.start f).Sound := by
  refine fun _ => ⟨?_, h.charged⟩
  refine { present := h.present, tunneling := h.tunneling, drained := h.drained, owned := h.owned,
           toUpstream := ⟨h.upstreamValid, ?_⟩, toClient := ⟨h.clientValid, ?_⟩ }
  · simp only [Lane.total, TunnelTrace.start, h.upstreamFresh, nil_append]
  · simp only [Lane.total, TunnelTrace.start, h.clientFresh, nil_append]

omit [TlsSession σ] in
theorem InTunnel.world {up down : Flow} (h : InTunnel up down f)
    (world : World (Logged σ)) : InTunnel up down { f with world } :=
  { h with }

theorem TunnelStep.sound {limits : RuntimeLimits} {t t' : TunnelTrace σ}
    (hstep : TunnelStep limits t t') (h : t.Sound) : t'.Sound := by
  cases hstep with
  | client world readable writable transportError _ hpresent hrun =>
    have hevent := (holds_clientEvent limits ((h hpresent).1.world world) readable writable
      transportError).ends rfl
    rw [hrun] at hevent
    exact hevent
  | upstream world readable writable _ hpresent hrun =>
    have hevent := (holds_upstreamEvent limits ((h hpresent).1.world world) readable
      writable).ends rfl
    rw [hrun] at hevent
    exact hevent
  | others _ howned hbytes =>
    intro hpresent
    obtain ⟨hin, hcharged⟩ := h hpresent
    exact ⟨{ hin with owned := howned }, (hbytes _).trans hcharged.1, (hbytes _).trans hcharged.2⟩

theorem tunnel_sound {limits : RuntimeLimits} {t : TunnelTrace σ} (hstart : TunnelStart f)
    (hrun : Relation.ReflTransGen (TunnelStep limits) (TunnelTrace.start f) t) : t.Sound := by
  induction hrun with
  | refl => exact hstart.sound
  | tail _ hstep ih => exact hstep.sound ih

/-- Buffers, transports and tunnels hand over what was appended, all of it and in order, and between
its events a tunnel is charged for exactly what it holds. -/
theorem output_exact_fifo (limits : RuntimeLimits) :
    (∀ calls : List BufferCall,
      let t := calls.foldl TracedBuffer.run {}
      ExactFifo t.handed t.appended (t.buffer.isComplete = true)) ∧
    (∀ (p : TracedPath σ) (calls : List PathCall),
      p.handed = [] → p.buffered = [] → p.appended = [] →
      let q := calls.foldl TracedPath.run p
      ExactFifo q.handed q.appended q.IsEmpty) ∧
    ∀ (f : Focus (Logged σ)) (t : TunnelTrace σ), TunnelStart f →
      Relation.ReflTransGen (TunnelStep limits) (TunnelTrace.start f) t →
      t.focus.removed = false →
      let up := t.focus.connection.toUpstream
      let down := t.focus.connection.toClient
      ExactFifo (up.handed t.up.socket) t.up.appended up.IsEmpty ∧
        ExactFifo (down.handed t.down.socket) t.down.appended down.IsEmpty ∧
        t.focus.accounts.bytes .webSocketClientToUpstream = up.buffered.length ∧
        t.focus.accounts.bytes .webSocketUpstreamToClient = down.buffered.length := by
  refine ⟨fun calls => ?_, fun p calls hhanded hbuffered happended => ?_,
    fun f t hstart hrun hpresent => ?_⟩
  · exact exactFifo_of_eq (TracedBuffer.inOrder_runs calls).total WriteBuffer.isComplete_iff.mp
  · have hp : p.InOrder := by
      unfold TracedPath.InOrder
      rw [hhanded, hbuffered, happended]
      rfl
    exact exactFifo_of_eq (hp.runs calls) TracedPath.IsEmpty.buffered
  · obtain ⟨hin, hup, hdown⟩ := tunnel_sound hstart hrun hpresent
    exact ⟨hin.toUpstream.exactFifo, hin.toClient.exactFifo, hup, hdown⟩

end Runs

instance : TlsSession Empty where
  receiveEncrypted _ s := s.elim
  takeDecrypted _ s := s.elim
  receivePlaintext _ s := s.elim
  takeEncrypted _ s := s.elim
  requestCloseNotify s := s.elim
  progress s := s.elim
  interest s := s.elim
  pendingBytes s := s.elim

def sampleLimits : RuntimeLimits where
  http := {}
  resource :=
    { maxRequestBodyBytes := 16
      idleTimeout := 1
      connectTimeout := 1
      upstreamReadTimeout := 1
      clientWriteTimeout := 1
      maxResponseBufferBytes := 16 }

def plainTunnel : Focus (Logged Empty) where
  connectionId := 1
  connection :=
    { client := { registration := some .readable }
      clientTransport := .plaintext []
      upstream := some { registration := some .readable }
      upstreamRegistered := true
      clientIp := "127.0.0.1".toList
      deadline := none
      io := { state := .tunnelingWebSocket } }
  payloadLedger := .new .least 1
  world := { clock := 0, route := fun _ => .respond [] }

theorem plainTunnel_start : TunnelStart plainTunnel where
  present := rfl
  tunneling := rfl
  upstreamValid := Nat.zero_le _
  clientValid := Nat.zero_le _
  upstreamFresh := rfl
  clientFresh := rfl
  drained _ h := (Transport.plaintext.inj h).symm
  owned := by
    refine ⟨1, ∅, {}, rfl, ⟨PayloadBudgetLedger.conserved_new _ _, rfl, fun id => ?_, nofun⟩, nofun,
      nofun⟩
    simp [plainTunnel, Focus.accounts, PayloadBudgetLedger.new, ConnectionPayloadCharges.ids]
  charged := ⟨rfl, rfl⟩

def sampleWorld (bytes : Bytes) (writes : List WriteResult) : World (Logged Empty) where
  clock := 0
  reads := [.data bytes]
  writes
  route := fun _ => .respond []

def sampleRead : Except IoError PUnit × Focus (Logged Empty) :=
  clientEvent sampleLimits true false false
    { plainTunnel with world := sampleWorld [104, 105] [] }

def sampleAnswer : Except IoError PUnit × Focus (Logged Empty) :=
  upstreamEvent sampleLimits true true
    { sampleRead.2 with world := sampleWorld [33] [.written 1, .wouldBlock] }

/-- The upstream took one of two bytes and answered with one. -/
theorem bytes_charged_both_ways :
    let c := sampleAnswer.2.connection
    ExactFifo (c.toUpstream.handed [104]) [104, 105] c.toUpstream.IsEmpty ∧
      ExactFifo (c.toClient.handed []) [33] c.toClient.IsEmpty ∧
      sampleAnswer.2.accounts.bytes .webSocketClientToUpstream = 1 ∧
      sampleAnswer.2.accounts.bytes .webSocketUpstreamToClient = 1 := by
  have hrun {r : Except IoError PUnit × Focus (Logged Empty)} (h : r.1.isOk = true) :
      r = (.ok ⟨⟩, r.2) := by
    rcases r with ⟨_ | _, _⟩
    · cases h
    · rfl
  have hread := hrun (show sampleRead.1.isOk = true by decide)
  have hanswer := hrun (show sampleAnswer.1.isOk = true by decide)
  have hup : sampleAnswer.2.connection.toUpstream.buffered.length = 1 := by decide
  have hdown : sampleAnswer.2.connection.toClient.buffered.length = 1 := by decide
  have h := (output_exact_fifo sampleLimits).2.2 plainTunnel _ plainTunnel_start
    (.tail (.single (.client _ _ _ _ _ _ rfl hread)) (.upstream _ _ _ _ _ (by decide) hanswer))
    (by decide)
  exact ⟨h.1, h.2.1, h.2.2.1.trans hup, h.2.2.2.trans hdown⟩

end EdgeProxy

import EdgeProxy.Core.ConnectionIo
import EdgeProxy.Core.Ledger

/-! # Plaintext and TLS transports

What stands between the HTTP bytes of a connection and its two sockets. A TLS session is anything
with the operations of `TlsSession`: nothing is assumed about what it accepts or produces.
-/

namespace EdgeProxy

open Rust

inductive TlsSessionProgress where
  | handshaking | established | closing | peerClosed
  | failed (code : ErrorCode)

structure TlsSessionInterest where
  wantsRead : Bool
  wantsWrite : Bool

structure TlsPendingBytes where
  handshakeBytes : ℕ := 0
  decryptedBytes : ℕ := 0
  encryptedBytes : ℕ := 0

def checkedAdd (a b : ℕ) : Option ℕ := if a + b < usizeBound then some (a + b) else none

def TlsPendingBytes.totalBytes (p : TlsPendingBytes) : Option ℕ := do
  checkedAdd (← checkedAdd p.handshakeBytes p.decryptedBytes) p.encryptedBytes

def usizeMax : ℕ := usizeBound - 1

/-- The port that a TLS library implements. -/
class TlsSession (σ : Type) where
  receiveEncrypted : Bytes → σ → Except AppError ℕ × σ
  takeDecrypted : ℕ → σ → Bytes × σ
  receivePlaintext : Bytes → σ → Except AppError ℕ × σ
  takeEncrypted : ℕ → σ → Bytes × σ
  requestCloseNotify : σ → Except AppError Unit × σ
  progress : σ → TlsSessionProgress
  interest : σ → TlsSessionInterest
  pendingBytes : σ → TlsPendingBytes

inductive TlsTransportState where
  | handshaking | established | closing | peerClosed
  | failed (error : AppError)
  deriving DecidableEq

def TlsTransportState.isTerminal : TlsTransportState → Bool
  | .peerClosed | .failed _ => true
  | _ => false

def stateFromProgress : TlsSessionProgress → TlsTransportState
  | .handshaking => .handshaking
  | .established => .established
  | .closing => .closing
  | .peerClosed => .peerClosed
  | .failed code => .failed ⟨code, "TLS session reported a terminal failure"⟩

structure TlsTransport (σ : Type) where
  state : TlsTransportState
  session : σ

namespace TlsTransport

variable {σ : Type} [TlsSession σ]

def new (session : σ) : TlsTransport σ := ⟨stateFromProgress (TlsSession.progress session), session⟩

/-- The result of a session operation that may fail: the transport fails with it. -/
def after {α : Type} (r : Except AppError α × σ) : Except AppError α × TlsTransport σ :=
  match r with
  | (.error e, session) => (.error e, ⟨.failed e, session⟩)
  | (.ok a, session) => (.ok a, new session)

theorem session_after {α : Type} (r : Except AppError α × σ) : (after r).2.session = r.2 := by
  rcases r with ⟨_ | _, _⟩ <;> rfl

variable (maxBytes : ℕ) (bytes : Bytes) (t : TlsTransport σ)

def receiveEncrypted : Except AppError ℕ × TlsTransport σ :=
  if t.state.isTerminal then (.ok 0, t) else after (TlsSession.receiveEncrypted bytes t.session)

def takeDecrypted : Bytes × TlsTransport σ :=
  if t.state.isTerminal then ([], t)
  else
    let (bytes, session) := TlsSession.takeDecrypted maxBytes t.session
    (bytes, { t with session })

def receivePlaintext : Except AppError ℕ × TlsTransport σ :=
  if t.state.isTerminal then (.ok 0, t) else after (TlsSession.receivePlaintext bytes t.session)

def takeEncrypted : Bytes × TlsTransport σ :=
  let (bytes, session) := TlsSession.takeEncrypted maxBytes t.session
  (bytes, new session)

def requestCloseNotify : Except AppError Unit × TlsTransport σ :=
  if t.state.isTerminal then (.ok (), t) else after (TlsSession.requestCloseNotify t.session)

def handshakeTimeout : AppError := ⟨.tlsHandshakeTimeout, "TLS transport handshake timed out"⟩

def ioInterest : TlsSessionInterest :=
  if t.state.isTerminal then ⟨false, false⟩ else TlsSession.interest t.session

end TlsTransport

/-- `ClientTransport` and `UpstreamTransport`: they differ only in the methods below that name one
of the two. -/
inductive Transport (σ : Type) where
  | plaintext (socketOutput : Bytes)
  | tls (transport : TlsTransport σ)

namespace Transport

variable {σ : Type} [TlsSession σ]

def isTls : Transport σ → Bool
  | .plaintext _ => false
  | .tls _ => true

def forwardedScheme : Transport σ → Text
  | .plaintext _ => "http".toList
  | .tls _ => "https".toList

def tlsState : Transport σ → Option TlsTransportState
  | .plaintext _ => none
  | .tls t => some t.state

def pendingTlsBytes : Transport σ → TlsPendingBytes
  | .plaintext _ => {}
  | .tls t => TlsSession.pendingBytes t.session

variable (output : WriteBuffer) (t : Transport σ) (bytes : Bytes)

def receiveSocketBytes : Transport σ → Except AppError Bytes × Transport σ
  | .plaintext out => (.ok bytes, .plaintext out)
  | .tls t =>
    match t.receiveEncrypted bytes with
    | (.error e, t) => (.error e, .tls t)
    | (.ok _, t) =>
      let (decrypted, t) := t.takeDecrypted usizeMax
      (.ok decrypted, .tls t)

/-- `ClientTransport::queue_http_bytes`. -/
def queueClientBytes : Transport σ → Except AppError ℕ × Transport σ
  | .plaintext out => (.ok bytes.length, .plaintext (out ++ bytes))
  | .tls t =>
    let (result, t) := t.receivePlaintext bytes
    (result, .tls t)

/-- `UpstreamTransport::queue_http_bytes`: a session takes plaintext once it is established. -/
def queueUpstreamBytes : Transport σ → Except AppError ℕ × Transport σ
  | .plaintext out => (.ok bytes.length, .plaintext (out ++ bytes))
  | .tls t =>
    if t.state = .established then
      let (result, t) := t.receivePlaintext bytes
      (result, .tls t)
    else (.ok 0, .tls t)

def takeSocketBytes : Transport σ → Bytes × Transport σ
  | .plaintext out => (out, .plaintext [])
  | .tls t =>
    let (bytes, t) := t.takeEncrypted usizeMax
    (bytes, .tls t)

def requestCloseNotify : Transport σ → Except AppError Bool × Transport σ
  | .plaintext out => (.ok false, .plaintext out)
  | .tls t =>
    match t.requestCloseNotify with
    | (.error e, t) => (.error e, .tls t)
    | (.ok _, t) => (.ok true, .tls t)

/-- `mark_handshake_timeout_if_pending`: the error, if the handshake was still running. -/
def markHandshakeTimeoutIfPending : Transport σ → Option AppError × Transport σ
  | .plaintext out => (none, .plaintext out)
  | .tls t =>
    if t.state = .handshaking then
      (some TlsTransport.handshakeTimeout,
        .tls { t with state := .failed TlsTransport.handshakeTimeout })
    else (none, .tls t)

/-- `UpstreamTransport::merge_interest`. -/
def mergeUpstreamInterest (base : ConnectionInterest) : ConnectionInterest :=
  match t with
  | .plaintext _ => base
  | .tls t =>
    match t.state with
    | .handshaking | .closing =>
      { base with upstreamReadable := t.ioInterest.wantsRead
                  upstreamWritable := t.ioInterest.wantsWrite }
    | .established =>
      { base with upstreamReadable := base.upstreamReadable || t.ioInterest.wantsRead
                  upstreamWritable := base.upstreamWritable || t.ioInterest.wantsWrite }
    | .peerClosed | .failed _ =>
      { base with upstreamReadable := false, upstreamWritable := false }

/-- `PendingSocketOutput::pull_from`: refills an empty output buffer; the bytes pulled. -/
def pullFrom : ℕ × WriteBuffer × Transport σ :=
  if !output.isComplete then (0, output, t)
  else
    let (bytes, t) := t.takeSocketBytes
    (bytes.length, .new bytes, t)

/-- Encrypts tunnel bytes into an empty output buffer. -/
def encryptTunnel (t : TlsTransport σ) (bytes : Bytes) :
    Except AppError ℕ × WriteBuffer × Transport σ :=
  match t.receivePlaintext bytes with
  | (.error e, t) => (.error e, output, .tls t)
  | (.ok consumed, t) =>
    let (socketBytes, t) := t.takeEncrypted usizeMax
    (.ok consumed, output.tryReplaceIfComplete socketBytes, .tls t)

/-- `PendingSocketOutput::pull_tunnel_plaintext`. -/
def pullTunnelPlaintext : Except AppError ℕ × WriteBuffer × Transport σ :=
  if !output.isComplete then (.ok 0, output, t)
  else
    match t with
    | .plaintext out => (.ok bytes.length, output.tryReplaceIfComplete bytes, .plaintext out)
    | .tls t => encryptTunnel output t bytes

/-- `UpstreamTransport::queue_tunnel_plaintext`. -/
def queueTunnelPlaintext : Except AppError ℕ × WriteBuffer × Transport σ :=
  if !output.isComplete then (.ok 0, output, t)
  else
    match t with
    | .plaintext out => (.ok bytes.length, output.tryReplaceIfComplete bytes, .plaintext out)
    | .tls t =>
      if t.state = .established then encryptTunnel output t bytes else (.ok 0, output, .tls t)

end Transport

section Ownership

variable {σ : Type} [TlsSession σ]

def orOverflow (message : String) : Option ℕ → Except AppError ℕ
  | some n => .ok n
  | none => .error (resourceAccountingError message)

def tlsPendingOwnerBytes (clientTransport : Transport σ) (pendingClientOutput : WriteBuffer)
    (upstreamTransport : Transport σ) (pendingUpstreamOutput : WriteBuffer) :
    Except AppError ℕ := do
  let clientSession ← orOverflow "client TLS pending bytes overflowed"
    clientTransport.pendingTlsBytes.totalBytes
  let upstreamSession ← orOverflow "upstream TLS pending bytes overflowed"
    upstreamTransport.pendingTlsBytes.totalBytes
  let clientSocket := if clientTransport.isTls then pendingClientOutput.remainingLen else 0
  let upstreamSocket := if upstreamTransport.isTls then pendingUpstreamOutput.remainingLen else 0
  orOverflow "connection TLS pending bytes overflowed" do
    checkedAdd (← checkedAdd (← checkedAdd clientSession clientSocket) upstreamSession)
      upstreamSocket

def websocketPendingOwnerBytes (upstreamToClientPlaintext clientToUpstreamPlaintext : ℕ)
    (clientTransport : Transport σ) (pendingClientOutput : WriteBuffer)
    (upstreamTransport : Transport σ) (pendingUpstreamOutput : WriteBuffer) :
    Except AppError (ℕ × ℕ) := do
  let clientToUpstreamSocket :=
    if upstreamTransport.isTls then 0 else pendingUpstreamOutput.remainingLen
  let upstreamToClientSocket :=
    if clientTransport.isTls then 0 else pendingClientOutput.remainingLen
  let clientToUpstream ← orOverflow "client WebSocket pending bytes overflowed"
    (checkedAdd clientToUpstreamPlaintext clientToUpstreamSocket)
  let upstreamToClient ← orOverflow "upstream WebSocket pending bytes overflowed"
    (checkedAdd upstreamToClientPlaintext upstreamToClientSocket)
  return (clientToUpstream, upstreamToClient)

end Ownership

end EdgeProxy

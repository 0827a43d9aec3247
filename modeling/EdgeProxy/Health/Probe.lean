import EdgeProxy.Core.Transport
import EdgeProxy.Http.Framing

/-! # Health probes over TLS

The blocking loops of a health probe: the handshake, then the status line of the response. A loop
runs against a script that gives, for each of its passes, what the clock and the socket answer.
-/

namespace EdgeProxy

open Rust

inductive HealthProbeFailure where
  | connectTimeout | connectError | writeError | malformedResponse
  | statusMismatch (statusCode : ℕ)
  | readTimeout | responseTooLarge | tlsProfile | tlsHandshake | tlsHandshakeTimeout | cancelled
  | internal

def maxHealthResponseHeaderBytes : ℕ := 8 * 1024

def healthReadBytes : ℕ := 16 * 1024

/-- What `stream.read` returns: at most one buffer, and nothing at the end of the stream. -/
inductive HealthRead where
  | bytes (chunk : { chunk : Bytes // chunk.length ≤ healthReadBytes })
  | timedOut
  | failed

def HealthRead.data : HealthRead → Bytes
  | .bytes chunk => chunk.val
  | .timedOut | .failed => []

structure HealthPass where
  writeFails : Bool := false
  expired : Bool := false
  timeoutRefused : Bool := false
  read : HealthRead

def firstLine : Bytes → Option Bytes
  | [] => none
  | 13 :: 10 :: _ => some []
  | b :: bs => (firstLine bs).map (b :: ·)

def parseHealthStatusLine (headers : Bytes) : Except HealthProbeFailure ℕ :=
  match (firstLine headers).bind decode with
  | none => .error .malformedResponse
  | some statusLine =>
    match splitWhitespace statusLine with
    | version :: status :: _ =>
      if (version ≠ "HTTP/1.0".toList ∧ version ≠ "HTTP/1.1".toList) ∨ byteLen status ≠ 3 ∨
          ¬ status.all (fun c => '0' ≤ c && c ≤ '9') then
        .error .malformedResponse
      else
        match parseU16 status with
        | none => .error .malformedResponse
        | some code => if 100 ≤ code ∧ code ≤ 599 then .ok code else .error .malformedResponse
    | _ => .error .malformedResponse

/-- The verdict on the header bytes so far, if they already decide the probe. -/
def healthVerdict (headers : Bytes) : Option (Except HealthProbeFailure ℕ) :=
  match splitHeaderEnd headers with
  | some (block, _) =>
    if maxHealthResponseHeaderBytes < block.length + headerTerminator.length then
      some (.error .responseTooLarge)
    else some (parseHealthStatusLine (block ++ headerTerminator))
  | none =>
    if maxHealthResponseHeaderBytes < headers.length then some (.error .responseTooLarge) else none

section Loops

variable {σ : Type} [TlsSession σ]

/-- All of the output is taken; the source takes it in pieces until there is none left. -/
def flushHealthTlsOutput (writeFails : Bool) (session : σ) : Except HealthProbeFailure Unit × σ :=
  let (encrypted, session) := TlsSession.takeEncrypted usizeMax session
  if encrypted.isEmpty then (.ok (), session)
  else if writeFails then (.error .writeError, session)
  else (.ok (), session)

/-- One `stream.read` and the `receive_encrypted` of what it brought, as both loops have them, with
the failures that the loop reports. -/
def feedHealthTls (onTimeout onFailure : HealthProbeFailure) (read : HealthRead) (session : σ) :
    Except HealthProbeFailure Unit × σ :=
  match read with
  | .timedOut => (.error onTimeout, session)
  | .failed => (.error onFailure, session)
  | .bytes chunk =>
    if chunk.val.isEmpty then (.error onFailure, session)
    else
      match TlsSession.receiveEncrypted chunk.val session with
      | (.error _, session) => (.error onFailure, session)
      | (.ok _, session) => (.ok (), session)

/-- The result, once there is one, with the session and the part of the script left over. -/
def driveHealthTlsHandshake : List HealthPass → σ →
    Option (Except HealthProbeFailure Unit) × σ × List HealthPass
  | [], session => (none, session, [])
  | pass :: passes, session =>
    match flushHealthTlsOutput pass.writeFails session with
    | (.error e, session) => (some (.error e), session, pass :: passes)
    | (.ok (), session) =>
      match TlsSession.progress session with
      | .established => (some (.ok ()), session, pass :: passes)
      | .closing | .peerClosed | .failed _ =>
        (some (.error .tlsHandshake), session, pass :: passes)
      | .handshaking =>
        if pass.expired then (some (.error .tlsHandshakeTimeout), session, pass :: passes)
        else if pass.timeoutRefused then (some (.error .internal), session, pass :: passes)
        else
          match feedHealthTls .tlsHandshakeTimeout .tlsHandshake pass.read session with
          | (.error e, session) => (some (.error e), session, passes)
          | (.ok (), session) => driveHealthTlsHandshake passes session

def readTlsHealthStatus (headers : Bytes) : List HealthPass → σ →
    Option (Except HealthProbeFailure ℕ) × σ × List HealthPass
  | [], session => (none, session, [])
  | pass :: passes, session =>
    let remaining := maxHealthResponseHeaderBytes + 1 - headers.length
    if remaining = 0 then (some (.error .responseTooLarge), session, pass :: passes)
    else
      let (decrypted, session) := TlsSession.takeDecrypted remaining session
      let headers := headers ++ decrypted
      match healthVerdict headers with
      | some verdict => (some verdict, session, pass :: passes)
      | none =>
        match flushHealthTlsOutput pass.writeFails session with
        | (.error e, session) => (some (.error e), session, pass :: passes)
        | (.ok (), session) =>
          match feedHealthTls .readTimeout .malformedResponse pass.read session with
          | (.error e, session) => (some (.error e), session, passes)
          | (.ok (), session) => readTlsHealthStatus headers passes session

def executeTls (wireRequest : Bytes) (passes : List HealthPass) (session : σ) :
    Option (Except HealthProbeFailure ℕ) × σ × List HealthPass :=
  match driveHealthTlsHandshake passes session with
  | (none, session, passes) => (none, session, passes)
  | (some (.error e), session, passes) => (some (.error e), session, passes)
  | (some (.ok ()), session, passes) =>
    match TlsSession.receivePlaintext wireRequest session with
    | (.error _, session) => (some (.error .writeError), session, passes)
    | (.ok _, session) =>
      match flushHealthTlsOutput ((passes.head?.map (·.writeFails)).getD false) session with
      | (.error e, session) => (some (.error e), session, passes)
      | (.ok (), session) => readTlsHealthStatus [] passes session

end Loops

end EdgeProxy

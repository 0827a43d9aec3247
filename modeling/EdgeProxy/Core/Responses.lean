import EdgeProxy.Core.ConnectionIo

/-! # Responses that the proxy writes itself

The error responses of the data plane, and what the runtime reads back from a response that it
queues.
-/

namespace EdgeProxy

open Rust

variable (status : ℕ) (reason : String) (response : Bytes)

def statusText : Text :=
  (toString status).toList ++ ' ' :: reason.toList

/-- `plain_response`: a complete response that asks for the connection to be closed. -/
def plainResponse (body : Bytes) : Bytes :=
  encode ("HTTP/1.1 ".toList ++ statusText status reason ++ "\r\nContent-Length: ".toList ++
    (toString body.length).toList ++ "\r\nConnection: close\r\n\r\n".toList) ++ body

def httpErrorResponse : Bytes :=
  plainResponse status reason (encode (statusText status reason ++ ['\n']))

def errorResponseForCode (code : ErrorCode) : Bytes :=
  match code with
  | .httpRequestBodyTooLarge => httpErrorResponse 413 "Payload Too Large"
  | .httpRequestLineTooLarge => httpErrorResponse 414 "URI Too Long"
  | .httpHeaderTooLarge => httpErrorResponse 431 "Request Header Fields Too Large"
  | .httpConnectMethodRejected => httpErrorResponse 405 "Method Not Allowed"
  | .httpMalformedRequest | .httpTransferEncodingContentLengthConflict =>
    httpErrorResponse 400 "Bad Request"
  | .resourcePayloadCapacityReached | .resourceAllocationFailed =>
    httpErrorResponse 503 "Service Unavailable"
  | _ => httpErrorResponse 500 "Internal Server Error"

def upstreamFailureResponseSpec : UpstreamAttemptFailure → ℕ × String
  | .connect | .tlsHandshake | .write | .read | .resetBeforeResponse | .resetAfterResponse =>
    (502, "Bad Gateway")
  | .connectTimeout | .tlsHandshakeTimeout | .readTimeout => (504, "Gateway Timeout")

def upstreamFailureResponse (failure : UpstreamAttemptFailure) : Bytes :=
  httpErrorResponse (upstreamFailureResponseSpec failure).1 (upstreamFailureResponseSpec failure).2

def badGateway : Bytes := httpErrorResponse 502 "Bad Gateway"

def namesClose (value : Text) : Bool :=
  (value.splitOn ',').any fun token => eqIgnoreAsciiCase (trim token) "close".toList

def responseDeclaresConnectionClose : Bool :=
  match decode response with
  | none => false
  | some text =>
    (((splitCrlf text).drop 1).takeWhile fun line => !line.isEmpty).any fun line =>
      match splitOnce ':' line with
      | none => false
      | some (name, value) => eqIgnoreAsciiCase name "Connection".toList && namesClose value

/-- Splices a `Connection: close` line in before the first empty line. -/
def responseWithConnectionClose : Bytes :=
  match splitHeaderEnd response with
  | none => response
  | some (headers, body) =>
    headers ++ encode "\r\nConnection: close\r\n".toList ++ [13, 10, 13, 10] ++ body

end EdgeProxy

import OpalCpp.Model.Http.Http1
import OpalCpp.Model.Http.ServerDispatch

/-! # The socket transport

`SocketHttpClient::Send`: the checks, the bytes that are written and the response that is read. Names are
resolved, connections made and bytes exchanged by a network, which is a parameter; the sockets and the
deadline are its own. `SocketHttpServer` by what it does with one connection, of which it has one at a time.
-/

namespace OpalCpp.Http

open Bytes (ascii)

/-- What is outside of the client: `getaddrinfo` by the host and the port, `connect` to what it gave, and
the reads that follow the bytes that are sent, or nothing when they cannot be sent. -/
structure Network where
  resolves : Bytes → Bytes → Bool
  connects : Bytes → Bytes → Bool
  exchange : Bytes → Option Reads

/-- A string as C functions see it, which ends at a zero. -/
def cString (text : Bytes) : Bytes := text.takeWhile (· ≠ 0)

/-- `to_string`. -/
def portText (port : ℤ) : Bytes :=
  if port < 0 then '-'.toUInt8 :: Decimal.decimal port.natAbs else Decimal.decimal port.natAbs

def headerLine (name value : Bytes) : Bytes := name ++ ascii ": " ++ value ++ crlf

structure SocketHttpClient where
  host : Bytes
  port : ℤ
  maxResponseBytes : ℕ := kDefaultMaxBodyBytes

namespace SocketHttpClient

variable (client : SocketHttpClient)

/-- The error of a request that is refused before anything connects. -/
def refusal (request : HttpRequest) : Option Error :=
  if request.method = [] ∨ validRequestLineField request.method = false then
    some (.Validation "http: request method contains forbidden bytes or is empty")
  else if validRequestLineField request.target = false then
    some (.Validation "http: request target contains forbidden bytes")
  else
    (findUnsafeHeader request.headers).map fun name =>
      .Validation ("http: request header \"" ++ name.text ++ "\" contains forbidden bytes")

/-- The bytes up to the body. -/
def wireHead (request : HttpRequest) : Bytes :=
  request.method ++ ascii " " ++ request.target ++ ascii " HTTP/1.1\r\n" ++
    headerLine (ascii "host") (client.host ++ ascii ":" ++ portText client.port) ++
    (if request.headers.has (ascii "content-length") then []
      else headerLine (ascii "content-length") (Decimal.decimal request.body.length)) ++
    headerLine (ascii "connection") (ascii "close") ++
    (request.headers.entries.flatMap fun (name, value) => headerLine name value) ++ crlf

def wire (request : HttpRequest) : Bytes := client.wireHead request ++ request.body

/-- The message as a response. -/
def responseOf (message : Http1Message) : Outcome HttpResponse := do
  let status ← parseStatusLine message.startLine
  return { status, headers := message.headers, body := message.body }

/-- The bytes that are written, if it comes to that, and the outcome. -/
def send (network : Network) (request : HttpRequest) : Option Bytes × Outcome HttpResponse :=
  match refusal request with
  | some error => (none, .error error)
  | none =>
    if network.resolves (cString client.host) (portText client.port) = false then
      (none, .error (.Transport ("http: cannot resolve host " ++ client.host.text)))
    else if network.connects (cString client.host) (portText client.port) = false then
      (none, .error (.Transport ("http: cannot connect to " ++ client.host.text ++ ":" ++ (portText client.port).text)))
    else
      (some (client.wire request),
        match network.exchange (client.wire request) with
        | none => .error (.Transport "http: write failed")
        | some reads => do
          -- The response to a HEAD is its headers, whatever they say of a body.
          let message ← readHttp1Message reads true (request.method ≠ ascii "HEAD") client.maxResponseBytes
          responseOf message)

end SocketHttpClient

namespace SocketHttpServer

/-- The response to what was read of a connection, and whether its body is withheld. -/
def respond (handler : Option RequestHandler) (minted : TraceContext) (peerAddress : Bytes)
    (message : Outcome Http1Message) :
    HttpResponse × Bool :=
  match message with
  | .error error => ({ status := 400, body := ascii error.message }, false)
  | .ok message =>
    match parseRequestLine message.startLine with
    | none => ({ status := 400, body := ascii "malformed request line" }, false)
    | some (method, target) =>
      (invokeHandlerGuarded handler minted { method, target, headers := message.headers, body := message.body, peerAddress },
        method = ascii "HEAD")

/-- The framing is that of the transport, and a header that would split the head is not written. -/
def framed (response : HttpResponse) : HttpResponse :=
  let headers :=
    ((response.headers.remove (ascii "content-length")).remove (ascii "transfer-encoding")).remove (ascii "connection")
  if (findUnsafeHeader headers).isSome then
    { status := 500
      headers := Headers.set {} (ascii "content-type") (ascii "text/plain")
      body := ascii "internal error: response header contains forbidden bytes" }
  else { response with headers }

/-- The bytes up to the body; the length is that of the body even if it is withheld. -/
def wireHead (response : HttpResponse) : Bytes :=
  ascii "HTTP/1.1 " ++ portText response.status ++ ascii " \r\n" ++
    headerLine (ascii "content-length") (Decimal.decimal response.body.length) ++
    headerLine (ascii "connection") (ascii "close") ++
    (response.headers.entries.flatMap fun (name, value) => headerLine name value) ++ crlf

def wire (response : HttpResponse) (head : Bool) : Bytes :=
  wireHead response ++ (if head then [] else response.body)

/-- What the server writes on a connection, before it closes it. -/
def serve (handler : Option RequestHandler) (minted : TraceContext) (peerAddress : Bytes) (reads : Reads) : Bytes :=
  let (response, head) := respond handler minted peerAddress (readHttp1Message reads false)
  wire (framed response) head

end SocketHttpServer

end OpalCpp.Http

import OpalCpp.Machine.Traced
import OpalCpp.Model.Core.Error
import OpalCpp.Model.Http.Headers

/-! # Client transports

What a transport is to those who call it, the sink of a streamed body, and the streaming that a transport
has by default. A callback of the caller may throw; where that is contained, the `what()` of the
exception is what is seen of it, and nothing of one that is not a standard exception.
-/

namespace OpalCpp.Http

/-- `what()` of what was thrown. -/
abbrev Thrown := Option String

/-- Where the body of a response goes. A missing callback is an empty `std::function`. -/
structure BodySink (World : Type*) where
  accept : Option (ℤ → Headers → World → Except Thrown Bool × World)
  write : Option (Bytes → World → Except Thrown Bool × World)

/-- What a response carries on the wire: the windows in which its body arrives, and how it ends. -/
structure WireResponse where
  status : ℤ
  headers : Headers
  contentLength : Option ℕ := none
  windows : List Bytes
  /-- The message of the failure that ends it, or else its final headers, trailers included, and whether
  the connection may be used again. -/
  ending : Except String (Headers × Bool)
deriving DecidableEq

/-- The body, as far as it arrives. -/
def WireResponse.body (response : WireResponse) : Bytes := response.windows.flatten

/-- What a transport does with the network and with a sink. -/
inductive TransportEvent where
  /-- A connection is opened. -/
  | dialed
  /-- A request is sent. -/
  | sent
  /-- The head of a response is there, and its body is streamed or not. -/
  | responded (response : WireResponse) (streamed : Bool)
  /-- A piece is passed to `write`. -/
  | wrote (piece : Bytes)
deriving DecidableEq

/-- A transport by its two virtual functions. -/
structure HttpClient (World : Type*) where
  send : HttpRequest → Traced TransportEvent World (Outcome HttpResponse)
  sendStreaming : HttpRequest → BodySink World → Traced TransportEvent World (Outcome HttpResponse)

section DefaultStreaming

variable {World : Type*}

/-- A response that is there as a whole. -/
def wholeResponse (response : HttpResponse) : WireResponse where
  status := response.status
  headers := response.headers
  windows := [response.body]
  ending := .ok (response.headers, false)

/-- The part of the default `SendStreaming` that is contained. -/
def handOver (response : HttpResponse) (accept : ℤ → Headers → World → Except Thrown Bool × World)
    (write : Bytes → World → Except Thrown Bool × World) :
    Traced TransportEvent World (Except Thrown (Outcome HttpResponse)) := do
  match ← Traced.silent (accept response.status response.headers) with
  | .error thrown => return .error thrown
  | .ok false =>
    Traced.emit (.responded (wholeResponse response) false)
    return .ok (.ok response)
  | .ok true =>
    Traced.emit (.responded (wholeResponse response) true)
    if response.body = [] then return .ok (.ok response)
    else
      Traced.emit (.wrote response.body)
      match ← Traced.silent (write response.body) with
      | .error thrown => return .error thrown
      | .ok false => return .ok (.error (.Transport "http: the response body sink aborted the transfer" false))
      | .ok true => return .ok (.ok { response with body := [] })

/-- The default `SendStreaming`: it buffers as `Send` does and hands the body over in one piece. -/
def defaultSendStreaming (send : HttpRequest → World → Outcome HttpResponse × World) (request : HttpRequest)
    (sink : BodySink World) : Traced TransportEvent World (Outcome HttpResponse) := do
  Traced.emit .sent
  match ← Traced.silent (send request), sink.accept, sink.write with
  | .ok response, some accept, some write =>
    match ← handOver response accept write with
    | .ok outcome => return outcome
    | .error thrown =>
      return .error (.Transport ("http: the response body sink threw: " ++ thrown.getD "unknown exception") false)
  | outcome, _, _ => return outcome

/-- A transport that does not override `SendStreaming`. -/
def bufferingClient (send : HttpRequest → World → Outcome HttpResponse × World) : HttpClient World where
  send request := do
    Traced.emit .sent
    Traced.silent (send request)
  sendStreaming := defaultSendStreaming send

end DefaultStreaming

end OpalCpp.Http

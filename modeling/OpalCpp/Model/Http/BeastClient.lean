import OpalCpp.Model.Http.Transport

/-! # The pooled client

`BeastHttpClient` from the checks of a request to the return of its connection. What the network and the
peer do is a parameter: whether a connection is idle, whether a dial succeeds, and what comes of a request
on a connection.
-/

namespace OpalCpp.Http

open Bytes (ascii)

namespace BeastHttpClient

structure Options where
  host : Bytes
  maxResponseBytes : ℕ := 64 * 1024 * 1024

/-- What comes of a request on a connection. -/
inductive Exchange where
  | writeFailed (message : String)
  | readFailed (gotSome timedOut : Bool) (message : String)
  | responded (response : WireResponse)
deriving DecidableEq

/-- The pool, the dials and the peer. -/
structure Network (World : Type*) where
  /-- The error of `SetupClientTlsContext`, which is empty on success. -/
  setupError : String
  takeIdle : World → Bool × World
  returnIdle : World → World
  dial : World → Outcome Unit × World
  exchange : HttpRequest → World → Exchange × World

variable {World : Type*}

/-- Not retryable: the peer would send the same body again. -/
def overResponseCap (options : Options) : Error :=
  .Transport ("beast client: response body exceeds max_response_bytes (" ++ toString options.maxResponseBytes ++
    " bytes)") false

/-- Whether the response is streamed: there is a sink, with both its callbacks, that accepts it. -/
def streams (sink : Option (BodySink World)) (status : ℤ) (headers : Headers) (world : World) : Except Thrown Bool × World :=
  match sink with
  | some ⟨some accept, some _⟩ => accept status headers world
  | _ => (.ok false, world)

/-- Where the pieces of a response go that is streamed. -/
def writer (sink : Option (BodySink World)) (stream : Bool) : Option (Bytes → World → Except Thrown Bool × World) :=
  if stream then sink.bind BodySink.write else none

/-- The loop over the windows: the body so far, and whether the sink has taken bytes. -/
def readBody (options : Options) (write : Option (Bytes → World → Except Thrown Bool × World))
    (ending : Except String (Headers × Bool)) :
    List Bytes → Bytes → Bool → Traced TransportEvent World (Except Thrown (Outcome (Bytes × Headers × Bool) × Bool))
  | [], body, took =>
    match ending with
    | .error message =>
      -- Mid-body, so never a stale connection; with nothing handed to a sink it may be tried again.
      pure (.ok (.error (.Transport ("beast client: read failed: " ++ message) !took), took))
    | .ok (headers, keepAlive) => pure (.ok (.ok (body, headers, keepAlive), took))
  | window :: windows, body, took =>
    if window = [] then readBody options write ending windows body took
    else match write with
      | some write => do
        Traced.emit (.wrote window)
        match ← Traced.silent (write window) with
        | .error thrown => return .error thrown
        | .ok false =>
          return .ok (.error (.Transport "beast client: the response body sink aborted the transfer" false), took)
        | .ok true => readBody options (some write) ending windows body true
      | none =>
        if options.maxResponseBytes < body.length + window.length then pure (.ok (.error (overResponseCap options), took))
        else readBody options none ending windows (body ++ window) took

/-- The outcome of a round trip, and what it reports about the connection. -/
structure Trip where
  outcome : Outcome HttpResponse
  stale : Bool := false
  keepAlive : Bool := false
  sinkTookBytes : Bool := false
deriving DecidableEq

/-- The part of `RoundTrip` after the head of the response. The sink can be asked only now. -/
def receive (options : Options) (sink : Option (BodySink World)) (response : WireResponse) :
    Traced TransportEvent World (Except Thrown Trip) := do
  match ← Traced.silent (streams sink response.status response.headers) with
  | .error thrown => return .error thrown
  | .ok stream =>
    Traced.emit (.responded response stream)
    -- Refused on the declaration, before a byte of it is read.
    if !stream && response.contentLength.any (options.maxResponseBytes < ·) then
      return .ok { outcome := .error (overResponseCap options) }
    else
      match ← readBody options (writer sink stream) response.ending response.windows [] false with
      | .error thrown => return .error thrown
      | .ok (.error error, sinkTookBytes) => return .ok { outcome := .error error, sinkTookBytes }
      | .ok (.ok (body, headers, keepAlive), sinkTookBytes) =>
        return .ok { outcome := .ok { status := response.status, headers, body }, keepAlive, sinkTookBytes }

def roundTrip (options : Options) (network : Network World) (request : HttpRequest) (sink : Option (BodySink World)) :
    Traced TransportEvent World (Except Thrown Trip) := do
  Traced.emit .sent
  match ← Traced.silent (network.exchange request) with
  | .writeFailed message =>
    -- A reused connection the server already closed fails the write.
    return .ok { outcome := .error (.Transport ("beast client: write failed: " ++ message)), stale := true }
  | .readFailed gotSome timedOut message =>
    return .ok { outcome := .error (.Transport ("beast client: read failed: " ++ message)), stale := !gotSome && !timedOut }
  | .responded response => receive options sink response

/-- The refusals before anything is dialed. -/
def refusal (options : Options) (network : Network World) (request : HttpRequest) : Option Error :=
  if options.host = [] then some (.Validation "beast client: options need a host")
  else if request.method = [] ∨ validRequestLineField request.method = false then
    some (.Validation "beast client: request method contains forbidden bytes or is empty")
  else if validRequestLineField request.target = false then
    some (.Validation "beast client: request target contains forbidden bytes")
  else match findUnsafeHeader request.headers with
    | some name => some (.Validation ("beast client: request header \"" ++ name.text ++ "\" contains forbidden bytes"))
    | none => if network.setupError ≠ "" then some (.Validation network.setupError) else none

def dial (network : Network World) : Traced TransportEvent World (Outcome Unit) := do
  Traced.emit .dialed
  Traced.silent network.dial

/-- A connection of the pool or a new one, and whether it is reused. -/
def connect (network : Network World) : Traced TransportEvent World (Outcome Bool) := do
  if ← Traced.silent network.takeIdle then return .ok true
  else return (← dial network).map fun _ => false

/-- The end of `SendContained`, which keeps a connection that may be used again. -/
def finish (network : Network World) (trip : Trip) : Traced TransportEvent World (Except Thrown (Outcome HttpResponse)) :=
  Traced.silent fun world =>
    (.ok trip.outcome, if trip.outcome.isOk && trip.keepAlive then network.returnIdle world else world)

/-- A pooled connection that died between requests is replaced by a new one, once. -/
def sendOn (options : Options) (network : Network World) (request : HttpRequest) (sink : Option (BodySink World))
    (reused : Bool) :
    Traced TransportEvent World (Except Thrown (Outcome HttpResponse)) := do
  match ← roundTrip options network request sink with
  | .error thrown => return .error thrown
  | .ok trip =>
    if !trip.outcome.isOk && reused && trip.stale && !trip.sinkTookBytes then
      match ← dial network with
      | .error error => return .ok (.error error)
      | .ok () =>
        match ← roundTrip options network request sink with
        | .error thrown => return .error thrown
        | .ok trip => finish network trip
    else finish network trip

def sendContained (options : Options) (network : Network World) (request : HttpRequest) (sink : Option (BodySink World)) :
    Traced TransportEvent World (Except Thrown (Outcome HttpResponse)) :=
  match refusal options network request with
  | some error => pure (.ok (.error error))
  | none => do
    match ← connect network with
    | .error error => return .ok (.error error)
    | .ok reused => sendOn options network request sink reused

/-- What was thrown, as an error that is retryable or not. -/
def contained (retryable : Bool) (outcome : Except Thrown (Outcome HttpResponse)) : Outcome HttpResponse :=
  match outcome with
  | .ok outcome => outcome
  | .error thrown => .error (.Transport ("beast client: send failed: " ++ thrown.getD "unknown exception") retryable)

def send (options : Options) (network : Network World) (request : HttpRequest) :
    Traced TransportEvent World (Outcome HttpResponse) := do
  return contained true (← sendContained options network request none)

def sendStreaming (options : Options) (network : Network World) (request : HttpRequest) (sink : BodySink World) :
    Traced TransportEvent World (Outcome HttpResponse) := do
  return contained false (← sendContained options network request (some sink))

end BeastHttpClient

def beastHttpClient {World : Type*} (options : BeastHttpClient.Options) (network : BeastHttpClient.Network World) :
    HttpClient World where
  send := BeastHttpClient.send options network
  sendStreaming := BeastHttpClient.sendStreaming options network

end OpalCpp.Http

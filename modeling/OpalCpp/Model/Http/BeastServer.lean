import OpalCpp.Machine.Run
import OpalCpp.Model.Http.ServerDispatch
import OpalCpp.Model.Http.WsSession

/-! # The connections of the server transport

`BeastServerTransport` after a connection is accepted: its reads, the calls of the handler, the writes of the
responses and the upgrades, and what a stop does to them. A connection is on a strand of its own, so that a completion
on it is one step, and connections take their steps in any order; a handler runs on the pool, if there is one. What
the wire does to an operation is in the label.
-/

namespace OpalCpp.Http

open Bytes (ascii)

/-! ## Responses -/

def isFramingHeader (name : Bytes) : Bool :=
  headerNameEquals name (ascii "content-length") || headerNameEquals name (ascii "transfer-encoding") ||
    headerNameEquals name (ascii "connection")

/-- What is written of a response. -/
structure BeastResponse where
  status : ℤ
  fields : Headers
  keepAlive : Bool
  contentLength : Option ℕ
  body : Bytes
deriving DecidableEq

/-- The text that takes the place of a response with a header that would split the head. -/
def guardUnsafe (response : HttpResponse) : HttpResponse :=
  if (findUnsafeHeader response.headers).isSome then
    { status := 500
      headers := Headers.set {} (ascii "content-type") (ascii "text/plain")
      body := ascii "internal error: response header contains forbidden bytes" }
  else response

/-- `ToWireResponse`, where Beast inserts the fields and takes the status and the length of the body: it gives the
length that it declares, if it declares one. Either of them may throw. -/
def toWireResponse (insert : Headers → Bytes × Bytes → Option Headers) (prepare : ℤ → ℕ → Option (Option ℕ))
    (response : HttpResponse) (keepAlive : Bool) : Option BeastResponse := do
  let fields ← (response.headers.entries.filter fun field => !isFramingHeader field.1).foldlM insert {}
  let contentLength ← prepare response.status response.body.length
  return { status := response.status, fields, keepAlive, contentLength, body := response.body }

/-- `ToHeadWireResponse`: the fields are inserted again. -/
def toHeadWireResponse (insert : Headers → Bytes × Bytes → Option Headers) (full : BeastResponse) :
    Option BeastResponse := do
  let others := full.fields.entries.filter fun field => !headerNameEquals field.1 (ascii "content-length")
  let fields ← others.foldlM insert {}
  return { full with fields, contentLength := full.contentLength.map fun _ => full.body.length, body := [] }

/-! ## Options -/

structure BeastServerOptions where
  handlerThreads : ℤ := 16
  onWebsocket : Bool := false
  onWebsocketSession : Bool := false
  websocketGate : Option (HttpRequest → Except Thrown (Option HttpResponse)) := none
  websocketAcceptJsonFrames : Bool := false
  websocketRawTextFrames : Bool := false
  onConnectionEvent : Bool := false

namespace BeastServerOptions

variable (options : BeastServerOptions)

def servesWebsockets : Bool := options.onWebsocket || options.onWebsocketSession

/-- The checks of `StartContained` on the options of the handlers and of the WebSocket path. -/
def refusal : Option Error :=
  if options.onWebsocket && options.onWebsocketSession then
    some (.Validation ("beast: on_websocket and on_websocket_session cannot both be set (the borrowed and " ++
      "shared serve seams cannot both claim an upgrade)"))
  else if options.servesWebsockets && options.handlerThreads ≤ 0 then
    some (.Validation "beast: on_websocket / on_websocket_session needs handler_threads > 0")
  else if options.websocketGate.isSome && !options.servesWebsockets then
    some (.Validation "beast: websocket_gate without on_websocket / on_websocket_session never runs")
  else if options.websocketAcceptJsonFrames && !options.servesWebsockets then
    some (.Validation ("beast: websocket_accept_json_frames without on_websocket / on_websocket_session never " ++
      "negotiates"))
  else if options.websocketRawTextFrames && !options.servesWebsockets then
    some (.Validation ("beast: websocket_raw_text_frames without on_websocket / on_websocket_session never " ++
      "applies"))
  else if options.websocketRawTextFrames && options.websocketAcceptJsonFrames then
    some (.Validation ("beast: websocket_raw_text_frames and websocket_accept_json_frames cannot both be set " ++
      "(raw text claims every upgrade; nothing is left to negotiate)"))
  else none

/-- There is a pool of handlers. -/
def pooled : Bool := 0 < options.handlerThreads

/-- `InvokeGateGuarded` -/
def invokeGateGuarded (request : HttpRequest) : Option HttpResponse :=
  match options.websocketGate with
  | none => none
  | some gate =>
    match gate request with
    | .ok refusal => refusal
    | .error _ => some { status := 500 }

/-- `OffersJsonFrames` -/
def offersJsonFrames (request : HttpRequest) : Bool :=
  (request.headers.getAll (ascii "sec-websocket-protocol")).any fun value =>
    (splitHeaderListValues value).any fun token => token = ascii "smithy.eventstream.v1+json"

/-- The wire of the session that a request is upgraded to. -/
def upgradeWire (request : HttpRequest) : Wire :=
  if options.websocketRawTextFrames then .rawText
  else if options.websocketAcceptJsonFrames && offersJsonFrames request then .jsonFrames
  else .binary

end BeastServerOptions

/-! ## Connections -/

def kOverLimitDrainBudgetBytes : ℕ := 256 * 1024

/-- The size of the buffer that is read into when what is left of a request is discarded. -/
def kDrainBuffer : ℕ := 8192

/-- `ConnectionEvent::Kind` -/
inductive EventKind where
  | tlsHandshakeFailure | framingError | readTimeout | dropped | upgradeFailure
deriving DecidableEq

/-- Why a TLS handshake fails: `probe` where the peer went away or idled. -/
inductive HandshakeFailure where
  | probe | mismatch
deriving DecidableEq

/-- Why a request is not read. -/
inductive ReadFailure where
  | endOfStream | streamTruncated | timeout | partialMessage | parse | transport
deriving DecidableEq

/-- `NotifyReadFailure` -/
def readFailureEvent (failure : ReadFailure) (gotSome : Bool) : Option EventKind :=
  match failure with
  | .endOfStream => none
  | .streamTruncated => if gotSome then some .dropped else none
  | .timeout => if gotSome then some .readTimeout else none
  | .partialMessage => some .dropped
  | .parse => some .framingError
  | .transport => some .dropped

/-- What a read completes with. -/
inductive RequestRead where
  | request (request : HttpRequest) (keepAlive upgrade : Bool)
  | overLimit (status : ℤ) (method target : Bytes)
  | failed (failure : ReadFailure) (gotSome : Bool)
deriving DecidableEq

/-- What happens on a connection. -/
inductive Happening where
  /-- A request is read whole and counted, and its connection is to be kept alive or not. -/
  | request (request : HttpRequest) (keepAlive : Bool)
  /-- The handler is called, and this is what is made of its answer. -/
  | called (request : HttpRequest) (response : HttpResponse)
  /-- A response is written. -/
  | responded (wire : BeastResponse)
  /-- A response is not written, for the peer is gone. -/
  | lost
  /-- A request for an upgrade is read. -/
  | upgrade (request : HttpRequest)
  /-- The gate refuses the upgrade. -/
  | refused (request : HttpRequest) (response : HttpResponse)
  /-- The upgrade is complete. -/
  | upgraded (wire : Wire)
  /-- The observer is told of a request over a limit, which is then answered with the status. -/
  | rejected (status : ℤ) (method target : Bytes)
  /-- Bytes of a rejected request are discarded. -/
  | discarded (count : ℕ)
  | event (kind : EventKind)
  /-- `CloseStream` -/
  | halfClosed
deriving DecidableEq

/-- What a connection waits for. -/
inductive ConnectionPhase where
  | handshaking
  | reading
  /-- The request is with the pool. -/
  | dispatched (request : HttpRequest) (keepAlive : Bool)
  /-- The response is posted to the strand. -/
  | answered (response : HttpResponse) (keepAlive head : Bool)
  | writing (wire : BeastResponse) (keepAlive : Bool)
  | rejecting
  | draining (budget : ℕ)
  /-- The gate is with the pool. -/
  | gating (request : HttpRequest) (keepAlive : Bool)
  | gated (request : HttpRequest) (keepAlive : Bool) (refusal : Option HttpResponse)
  | accepting (request : HttpRequest)
  /-- The upgrade is complete, and the transport was not stopping. -/
  | admitted
  /-- `RegisterWebSocket` has let go of its lock; the race with the sweep is lost or not. -/
  | registering (lost : Bool)
  /-- A session, of which nothing more is here. -/
  | session
  | closed
  /-- A completion handler threw, and the stream went with it. -/
  | abandoned
deriving DecidableEq

structure ServerConnection where
  phase : ConnectionPhase
  /-- What happened, oldest first. -/
  log : List Happening := []
  /-- The session of the connection is aborted. -/
  aborted : Bool := false
deriving DecidableEq

namespace ServerConnection

variable (connection : ServerConnection)

def happens (happenings : List Happening) : ServerConnection := { connection with log := connection.log ++ happenings }

def enter (phase : ConnectionPhase) : ServerConnection := { connection with phase }

/-- `CloseStream`, and the last that is done with the stream. -/
def close : ServerConnection := (connection.happens [.halfClosed]).enter .closed

/-- The connection has a session that the transport may know of. -/
def live : Bool :=
  match connection.phase with
  | .registering _ => true
  | .session => true
  | _ => false

end ServerConnection

/-- What the connections share. -/
structure BeastState where
  stopping : Bool := false
  /-- Requests read of which the responses are not written yet. -/
  active : ℤ := 0
  websocketsAborted : Bool := false
  /-- The registered sessions, by the numbers of their connections. -/
  websockets : List ℕ := []
deriving DecidableEq

/-- The steps of one connection. -/
inductive ConnectionStep where
  | handshaken (failure : Option HandshakeFailure)
  /-- A trace context is minted if the handler is called at once. -/
  | read (result : RequestRead) (minted : TraceContext)
  | handled (minted : TraceContext)
  | responds
  | written (failed : Bool)
  | drained (count : Option ℕ)
  | gateRan
  | gateAnswers
  | accepted (failed : Bool)
  | registers
  | registered
  | sessionEnds
deriving DecidableEq

/-- What is the same for every connection. `insert` is `fields::insert` of Beast and `prepare` is its
`prepare_payload`. -/
structure BeastService where
  options : BeastServerOptions
  handler : Option RequestHandler
  insert : Headers → Bytes × Bytes → Option Headers
  prepare : ℤ → ℕ → Option (Option ℕ)

namespace BeastService

variable (service : BeastService)

/-- `NotifyConnectionEvent` -/
def notify (state : BeastState) (kind : EventKind) (connection : ServerConnection) : ServerConnection :=
  if !service.options.onConnectionEvent || state.stopping then connection else connection.happens [.event kind]

/-- What is written of a response: `ToWireResponse`, and for a HEAD `ToHeadWireResponse`. -/
def wireOf (response : HttpResponse) (keepAlive head : Bool) : Option BeastResponse := do
  let full ← toWireResponse service.insert service.prepare (guardUnsafe response) keepAlive
  if head then toHeadWireResponse service.insert full else some full

/-- `Respond`, to the write that `WriteWire` starts. -/
def respond (connection : ServerConnection) (response : HttpResponse) (keepAlive head : Bool) : ServerConnection :=
  match service.wireOf response keepAlive head with
  | some wire => connection.enter (.writing wire keepAlive)
  | none => connection.enter .abandoned

/-- The call of the handler. -/
def call (connection : ServerConnection) (request : HttpRequest) (minted : TraceContext) :
    ServerConnection × HttpResponse :=
  let response := invokeHandlerGuarded service.handler minted request
  (connection.happens [.called request response], response)

/-- `Dispatch`: on the pool, or else at once. -/
def dispatch (connection : ServerConnection) (request : HttpRequest) (keepAlive : Bool) (minted : TraceContext) :
    ServerConnection :=
  if service.options.pooled then connection.enter (.dispatched request keepAlive)
  else
    let (connection, response) := service.call connection request minted
    service.respond connection response keepAlive (request.method = ascii "HEAD")

/-- The completion handler of `ReadNext`. -/
def onRead (state : BeastState) (connection : ServerConnection) (result : RequestRead) (minted : TraceContext) :
    BeastState × ServerConnection :=
  match result with
  | .overLimit status method target => (state, (connection.happens [.rejected status method target]).enter .rejecting)
  | .failed failure gotSome =>
    match readFailureEvent failure gotSome with
    | some kind => (state, (service.notify state kind connection).close)
    | none => (state, connection.close)
  | .request request keepAlive upgrade =>
    if service.options.servesWebsockets && upgrade then
      if state.stopping then (state, connection.close)
      else (state, (connection.happens [.upgrade request]).enter (.gating request keepAlive))
    else
      let keepAlive := keepAlive && !state.stopping
      ({ state with active := state.active + 1 },
        service.dispatch (connection.happens [.request request keepAlive]) request keepAlive minted)

/-- The completion handler of `WriteWire`. -/
def onWritten (state : BeastState) (connection : ServerConnection) (wire : BeastResponse) (keepAlive failed : Bool) :
    BeastState × ServerConnection :=
  let state := { state with active := state.active - 1 }
  if failed then (state, (service.notify state .dropped (connection.happens [.lost])).close)
  else if !keepAlive then (state, (connection.happens [.responded wire]).close)
  else (state, (connection.happens [.responded wire]).enter .reading)

/-- What follows the gate, on the strand. -/
def onGateAnswers (state : BeastState) (connection : ServerConnection) (request : HttpRequest) (keepAlive : Bool)
    (refusal : Option HttpResponse) : BeastState × ServerConnection :=
  if state.stopping then (state, connection.close)
  else
    match refusal with
    | none => (state, connection.enter (.accepting request))
    | some response =>
      let keepAlive := keepAlive && !state.stopping
      let connection := connection.happens [.request request keepAlive, .refused request response]
      ({ state with active := state.active + 1 }, service.respond connection response keepAlive false)

/-- The completion handler of the handshake, up to its call of `RegisterWebSocket`. -/
def onAccepted (state : BeastState) (connection : ServerConnection) (request : HttpRequest) (failed : Bool) :
    ServerConnection :=
  if failed then (service.notify state .upgradeFailure connection).enter .closed
  else
    let connection := connection.happens [.upgraded (service.options.upgradeWire request)]
    if state.stopping then { connection with phase := .session, aborted := true } else connection.enter .admitted

/-- The hold of the lock in `RegisterWebSocket`. -/
def register (state : BeastState) (alive : ℕ → Bool) (index : ℕ) (connection : ServerConnection) :
    BeastState × ServerConnection :=
  if state.websocketsAborted then (state, connection.enter (.registering true))
  else ({ state with websockets := state.websockets.filter alive ++ [index] }, connection.enter (.registering false))

/-- A step of a connection, or nothing where it does not wait for that. -/
def connectionStep (state : BeastState) (alive : ℕ → Bool) (index : ℕ) (connection : ServerConnection) :
    ConnectionStep → Option (BeastState × ServerConnection)
  | .handshaken failure =>
    match connection.phase with
    | .handshaking =>
      match failure with
      | none => some (state, connection.enter .reading)
      | some .probe => some (state, connection.enter .closed)
      | some .mismatch => some (state, (service.notify state .tlsHandshakeFailure connection).enter .closed)
    | _ => none
  | .read result minted =>
    match connection.phase with
    | .reading => some (service.onRead state connection result minted)
    | _ => none
  | .handled minted =>
    match connection.phase with
    | .dispatched request keepAlive =>
      let (connection, response) := service.call connection request minted
      some (state, connection.enter (.answered response keepAlive (request.method = ascii "HEAD")))
    | _ => none
  | .responds =>
    match connection.phase with
    | .answered response keepAlive head => some (state, service.respond connection response keepAlive head)
    | _ => none
  | .written failed =>
    match connection.phase with
    | .writing wire keepAlive => some (service.onWritten state connection wire keepAlive failed)
    | .rejecting =>
      -- The end of `RejectOverLimit`: half-closed, then drained or closed.
      let connection := connection.happens [.halfClosed]
      some (state, connection.enter (if failed then .closed else .draining kOverLimitDrainBudgetBytes))
    | _ => none
  | .drained count =>
    match connection.phase, count with
    | .draining _, none => some (state, connection.enter .closed)
    | .draining budget, some count =>
      if 0 < count ∧ count ≤ kDrainBuffer then
        let next := if budget ≤ count then .closed else .draining (budget - count)
        some (state, (connection.happens [.discarded count]).enter next)
      else none
    | _, _ => none
  | .gateRan =>
    match connection.phase with
    | .gating request keepAlive =>
      some (state, connection.enter (.gated request keepAlive (service.options.invokeGateGuarded request)))
    | _ => none
  | .gateAnswers =>
    match connection.phase with
    | .gated request keepAlive refusal => some (service.onGateAnswers state connection request keepAlive refusal)
    | _ => none
  | .accepted failed =>
    match connection.phase with
    | .accepting request => some (state, service.onAccepted state connection request failed)
    | _ => none
  | .registers =>
    match connection.phase with
    | .admitted => some (register state alive index connection)
    | _ => none
  | .registered =>
    match connection.phase with
    | .registering lost => some (state, { connection with phase := .session, aborted := connection.aborted || lost })
    | _ => none
  | .sessionEnds =>
    match connection.phase with
    | .session => some (state, connection.enter .closed)
    | _ => none

end BeastService

/-! ## The transport -/

structure BeastServer where
  state : BeastState := {}
  connections : List ServerConnection := []
  /-- The sessions that `AbortWebSockets` has still to abort. -/
  aborting : List ℕ := []
deriving DecidableEq

inductive BeastServerLabel where
  /-- A connection is accepted, with or without a handshake of TLS before its first read. -/
  | connected (tls : Bool)
  | connection (index : ℕ) (step : ConnectionStep)
  | stop
  /-- The hold of the lock in `AbortWebSockets`. -/
  | sweep
  /-- It aborts the next of the sessions it found. -/
  | abort
deriving DecidableEq

namespace BeastServer

variable (service : BeastService)

/-- The session of the number is not destroyed. -/
def alive (server : BeastServer) (index : ℕ) : Bool :=
  (server.connections[index]?.map ServerConnection.live).getD false

def step (server : BeastServer) : BeastServerLabel → Option BeastServer
  | .connected tls =>
    if server.state.stopping then none
    else some { server with connections := server.connections ++ [{ phase := if tls then .handshaking else .reading }] }
  | .connection index step => do
    let connection ← server.connections[index]?
    let (state, connection) ← service.connectionStep server.state server.alive index connection step
    return { server with state, connections := server.connections.set index connection }
  | .stop => some { server with state := { server.state with stopping := true } }
  | .sweep =>
    if server.state.stopping ∧ server.state.websocketsAborted = false then
      some { server with
        state := { server.state with websocketsAborted := true }
        aborting := server.state.websockets.filter server.alive }
    else none
  | .abort =>
    match server.aborting with
    | [] => none
    | index :: rest =>
      some { server with
        connections := server.connections.modify index fun connection => { connection with aborted := true }
        aborting := rest }

def machine : Machine BeastServer BeastServerLabel where
  step := step service

end BeastServer

end OpalCpp.Http

import OpalCpp.Model.Codegen.Errors
import OpalCpp.Model.EventStream.JsonFrame
import OpalCpp.Model.Http.WsSession

/-! # Event streams of generated services

The codecs that are generated for a streaming operation, the typed session around a socket, and what the serve
drivers put on the socket for what a handler does.
-/

namespace OpalCpp.Streams

open scoped Bytes
open Bytes (ascii)
open EventStream (Message EventEnvelope encodeMessage decodeMessage makeEventMessage parseEnvelope kMaxMessageBytes
  JsonFrame.encode
  JsonFrame.decode)
open EventStream.JsonRpc (Role Received classifyInbound encodeNotification kVersionMember kVersionValue kIdMember
  kResultMember)
open Http (Wire)
open JsonRpc2 (ValidationFailure)
open ModeledErrors (TypedError)
open ModeledErrors.Service (callId ofError)
open OrderedMap (tryEmplace)
open Typed (Value Member)

/-! ## The wires -/

/-- `EncodeRawTextFrame` -/
def encodeRawTextFrame (message : Message) : Outcome Bytes :=
  if !message.headers.isEmpty then
    .error (.Validation ("websocket: the raw-text wire carries headerless messages only (framing belongs to the " ++
      "envelope layer above the transport, ADR-0023)"))
  else if kMaxMessageBytes < message.payload.length then .error (.Validation "websocket: message over the 16 MiB limit")
  else .ok message.payload

/-- The event-stream library behind a session. -/
def codec (backend : Json.Backend) : Http.Codec Message Bytes where
  encodeMessage := encodeMessage
  encodeJsonFrame := JsonFrame.encode backend
  encodeRawTextFrame := encodeRawTextFrame
  decodeMessage bytes := (decodeMessage bytes).map fun frame => frame.map fun frame => (frame.message, frame.bytesConsumed)
  decodeJsonFrame := JsonFrame.decode backend
  rawMessage bytes := { payload := bytes }
  size := List.length

/-- What the session of the peer reads of a message. -/
def transmit (backend : Json.Backend) (wire : Wire) (message : Message) : Outcome (Except String Message) :=
  ((codec backend).encodeForWire wire message).map ((codec backend).decodeFromWire wire (wire = .binary))

/-! ## The codecs -/

/-- A streaming operation of a service: the unions of the events of its input and of its output, and the validators
of the unions that have constraints. -/
structure Stream (Id : Type*) where
  service : ModeledErrors.Service Id
  name : Bytes
  errors : List Id := []
  input : Option Id
  output : Option Id
  validate : Id → Option (Value → List ValidationFailure) := fun _ => none

namespace Stream

variable {Id : Type*} [DecidableEq Id] (stream : Stream Id)

def operation : ModeledErrors.Operation Id where
  name := stream.name
  errors := stream.errors
  outputEvents := stream.output.isSome

/-- The events that an end sends. -/
def tx : Role → Option Id
  | .client => stream.input
  | .server => stream.output

/-- The events that an end receives. -/
def rx : Role → Option Id
  | .client => stream.output
  | .server => stream.input

def events (union : Id) : List (Member Id) :=
  match (stream.service.serde.model.shape union).type with
  | .union members _ => members
  | _ => []

/-- `Encode<Op>Event` -/
def encodeEvent (union : Id) (event : Value) : Outcome Message :=
  let notEngaged := Error.Validation ((stream.service.typeName union).text ++ ": no event member engaged")
  match event with
  | .alternative index value =>
    match (stream.events union)[index]? with
    | some member =>
      .ok (makeEventMessage member.memberName stream.service.contentType
        (stream.service.encode (stream.service.serde.serialize value member.target .epochSeconds)))
    | none => .error notEngaged
  | _ => .error notEngaged

/-- What the validator finds of an event that an end receives; clients have none. -/
def violations (role : Role) (union : Id) (event : Value) : List ValidationFailure :=
  match role with
  | .client => []
  | .server => (stream.validate union).elim [] (· event)

/-- `Check<Op>Event`, where there is one. -/
def checkEvent (role : Role) (union : Id) (event : Value) : Outcome Value :=
  match stream.violations role union event with
  | failure :: _ => .error (.Validation failure.message.text)
  | [] => .ok event

/-- The event of an envelope: the ladder over the names of the members. -/
def envelopeEvent (role : Role) (union : Id) (envelope : EventEnvelope) : Outcome Value :=
  match (stream.events union).zipIdx.find? (·.1.memberName = envelope.type) with
  | some (member, index) => do
    let doc ← stream.service.decode envelope.payload
    let event ← stream.service.serde.deserialize (doc, member.target)
    stream.checkEvent role union (.alternative index event)
  | none => .error (.Serialization (stream.name.text ++ ": unknown event type: " ++ envelope.type.text))

/-- `Decode<Op>Event` -/
def decodeEvent (role : Role) (message : Message) : Except (TypedError Id) Value :=
  match stream.rx role with
  | none => .error (ofError (.Serialization (stream.name.text ++ ": no events are modeled in this direction")))
  | some union =>
    match parseEnvelope message with
    | .error error => .error (ofError error)
    | .ok envelope =>
      if envelope.kind = .exception then
        match role with
        | .client => .error (stream.service.decodeException stream.operation envelope)
        | .server => .error { kind := .modeled, code := envelope.type, message := ascii "peer sent an exception message" }
      else (stream.envelopeEvent role union envelope).mapError ofError

/-! ## The session -/

/-- What `Send` gives to the socket, which on the JSON-RPC wire is `TranslateOutbound`'s text. -/
def outbound (message : Message) : Outcome Message :=
  if stream.service.protocol = .jsonRpc2 then
    (encodeNotification stream.service.backend message callId).map fun text => { payload := text }
  else .ok message

/-- A receive of the socket, which on the JSON-RPC wire is classified. -/
def inbound (role : Role) (raw : Received) : Received :=
  if stream.service.protocol = .jsonRpc2 then (classifyInbound stream.service.backend raw callId role).result else raw

/-- What a receive of the typed session gives, and whether it ends the session. -/
structure Receipt (Id : Type*) where
  result : Except (TypedError Id) (Option Value)
  close : Bool := false

def sparesSession (error : TypedError Id) : Bool := error.kind = .validation

/-- `EventStream::Decode` -/
def decode (role : Role) (received : Received) : Receipt Id :=
  match received with
  | .error error => { result := .error (ofError error) }
  | .ok none => { result := .ok none }
  | .ok (some message) =>
    match stream.decodeEvent role message with
    | .error error => { result := .error error, close := !sparesSession error }
    | .ok event => { result := .ok (some event) }

def receive (role : Role) (raw : Received) : Receipt Id := stream.decode role (stream.inbound role raw)

/-- What `Send` gives to the socket for an event. -/
def sendEvent (union : Id) (event : Value) : Outcome Message := do
  let message ← stream.encodeEvent union event
  stream.outbound message

/-! ## The serve drivers -/

/-- `BuildJsonRpcTerminalResult` -/
def buildJsonRpcTerminalResult (id : Document) : Message where
  payload := Json.encode stream.service.backend (.map (tryEmplace kIdMember id (tryEmplace kResultMember (.map [])
    (tryEmplace kVersionMember (.string kVersionValue) []))))

/-- What a driver sends after its handler has returned, before it closes the stream. -/
def terminal (outcome : Except (TypedError Id) Unit) : List Message :=
  match outcome with
  | .ok () => if stream.service.protocol = .jsonRpc2 then [stream.buildJsonRpcTerminalResult callId] else []
  | .error error => [stream.service.failureMessage stream.operation error]

/-- What a driver puts on the socket for a handler that sends some events and returns. -/
def serve (union : Id) (events : List Value) (outcome : Except (TypedError Id) Unit) : Outcome (List Message) := do
  let messages ← events.mapM (stream.sendEvent union)
  return messages ++ stream.terminal outcome

end Stream

end OpalCpp.Streams

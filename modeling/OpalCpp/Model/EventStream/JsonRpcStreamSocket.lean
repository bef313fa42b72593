import OpalCpp.Model.EventStream.JsonRpcFrame

/-! # The JSON-RPC stream socket

The receivers of the wrapper around an inner socket. What they do to the inner socket and to the caller is
a list of effects: of the blocking receiver the effects of a call, of the asynchronous one what the
completions do as they fire.
-/

namespace OpalCpp.EventStream.JsonRpc

open Bytes (ascii)

inductive Role where
  | client | server
deriving DecidableEq

/-- What a receive gives: a message, nothing at the clean end, or an error. -/
abbrev Received := Outcome (Option Message)

/-- A completion, by role: the violation's text is what the server answers before the close. -/
structure Inbound where
  result : Received := .ok none
  violationText : Option Bytes := none
  close : Bool := false

def fromViolation (backend : Json.Backend) (code : Int64) (reason : Bytes) (id : Document) (role : Role) : Inbound where
  result := .error (.Serialization ("jsonrpc stream: " ++ reason.text))
  close := true
  violationText := if role = .server then some (encodeViolationResponse backend code reason id) else none

def kFramedReason : Bytes := ascii "an event-stream framed message on the JSON-RPC text wire"
def kResponseReason : Bytes := ascii "a response envelope from the client"

def classifyInbound (backend : Json.Backend) (raw : Received) (id : Document) (role : Role) : Inbound :=
  match raw with
  | .error _ => { result := raw }
  | .ok none => { result := raw }
  | .ok (some message) =>
    if !message.headers.isEmpty then fromViolation backend kInvalidRequestCode kFramedReason id role
    else
      match decodeFrame backend message.payload id with
      | .event event => { result := .ok (some event) }
      | .exception exception =>
        if role = .server then fromViolation backend kInvalidRequestCode kResponseReason id role
        else { result := .ok (some exception) }
      | .result _ =>
        if role = .server then fromViolation backend kInvalidRequestCode kResponseReason id role
        else { result := .ok none }
      | .violation code reason => fromViolation backend code reason id role

/-- `sent` is the completion of the inner socket's send, and `resume` the return to the caller. -/
inductive Effect where
  | send (frame : Message)
  | sent (outcome : Outcome Unit)
  | close
  | resume (result : Received)

/-- The raw-text message of a terminal. -/
def terminal (text : Bytes) : Message := { payload := text }

/-- `Police`, where the inner send comes back with this outcome, which is ignored. -/
def police (backend : Json.Backend) (id : Document) (role : Role) (raw : Received) (sent : Outcome Unit) : List Effect :=
  let inbound := classifyInbound backend raw id role
  (match inbound.violationText with
    | some text => [.send (terminal text), .sent sent]
    | none => []) ++
    (if inbound.close then [.close] else []) ++ [.resume inbound.result]

/-- The completion that the wrapper has with the inner socket: of a receive, or of the send of a terminal. -/
inductive Armed where
  | none
  | receive
  | send (result : Received)

structure AsyncReceiver where
  armed : Armed := .none
  effects : List Effect := []

inductive AsyncLabel where
  /-- The caller asks for a message. -/
  | receiveAsync
  /-- The inner socket's receive completes. -/
  | received (raw : Received)
  /-- The inner socket's send completes. -/
  | sent (outcome : Outcome Unit)

/-- `ReceiveAsync` with the completions of `PoliceAsync`. -/
def AsyncReceiver.step (backend : Json.Backend) (id : Document) (role : Role) (receiver : AsyncReceiver) :
    AsyncLabel → Option AsyncReceiver
  | .receiveAsync =>
    match receiver.armed with
    | .none => some { receiver with armed := .receive }
    | _ => none
  | .received raw =>
    match receiver.armed with
    | .receive =>
      let inbound := classifyInbound backend raw id role
      match inbound.violationText with
      | some text =>
        -- The close and the caller wait for the completion of the send.
        some { armed := .send inbound.result, effects := receiver.effects ++ [.send (terminal text)] }
      | none =>
        some {
          armed := .none
          effects := receiver.effects ++ (if inbound.close then [.close] else []) ++ [.resume inbound.result] }
    | _ => none
  | .sent outcome =>
    match receiver.armed with
    | .send result =>
      some { armed := .none, effects := receiver.effects ++ [.sent outcome, .close, .resume result] }
    | _ => none

end OpalCpp.EventStream.JsonRpc

import OpalCpp.Model.EventStream.JsonFrame

/-! # JSON-RPC stream frames

The text frames of the JSON-RPC wire after the opening request: notifications, responses, and what
everything else is classified as. A violation's reason is wire text.
-/

namespace OpalCpp.EventStream.JsonRpc

open Bytes (ascii)

def kVersionMember : Bytes := ascii "jsonrpc"
def kVersionValue : Bytes := ascii "2.0"
def kMethodMember : Bytes := ascii "method"
def kParamsMember : Bytes := ascii "params"
def kIdMember : Bytes := ascii "id"
def kResultMember : Bytes := ascii "result"
def kErrorMember : Bytes := ascii "error"
def kCodeMember : Bytes := ascii "code"
def kMessageMember : Bytes := ascii "message"
def kDataMember : Bytes := ascii "data"
def kTypeMember : Bytes := ascii "__type"
def kFallbackExceptionType : Bytes := ascii "JsonRpcError"
def kViolationExceptionType : Bytes := ascii "SerializationException"
def kParseErrorCode : Int64 := -32700
def kInvalidRequestCode : Int64 := -32600

def cannotEncode (what : String) : Error := .Validation ("jsonrpc stream: " ++ what)

/-- A received frame by its kind, with what the kind carries. -/
inductive StreamFrame where
  | event (message : Message)
  | exception (message : Message)
  | result (document : Document)
  | violation (code : Int64) (reason : Bytes)

def invalidRequest (reason : String) : StreamFrame := .violation kInvalidRequestCode (ascii reason)

/-- The first member with a name that is not one of these. -/
def unknownMember (known : List Bytes) (members : DocumentMap) : Option Bytes :=
  (members.find? fun member => member.1 ∉ known).map Prod.fst

def unknownMemberViolation (what : String) (name : Bytes) : StreamFrame :=
  .violation kInvalidRequestCode (ascii what ++ name)

/-- The string that is not empty. -/
def nonEmptyString : Document → Option Bytes
  | .string text => if text.isEmpty then none else some text
  | _ => none

/-- The members of an object, if it is one. -/
def members? : Document → Option DocumentMap
  | .map members => some members
  | _ => none

def decodeNotification (backend : Json.Backend) (envelope method id : Document) : StreamFrame :=
  match nonEmptyString method with
  | none => invalidRequest "\"method\" is not a non-empty string"
  | some type =>
    match (envelope.find kParamsMember).bind members? with
    | none => invalidRequest "notification \"params\" is missing or not a JSON object"
    | some params =>
      match unknownMember [kIdMember, kPayloadMember] params with
      | some name => unknownMemberViolation "unknown notification params member: " name
      | none =>
        match params.lookup kIdMember with
        | none => invalidRequest "notification params carry no \"id\" echo"
        | some echoed =>
          if echoed.equals id then
            match (params.lookup kPayloadMember).bind members? with
            | none => invalidRequest "notification \"payload\" is missing or not a JSON object"
            | some payload => .event (makeEventMessage type kJsonContentType (Json.encode backend (.map payload)))
          else invalidRequest "notification for a different call's id (one stream per socket)"

/-- The message of a terminal error, from the error's message and data. -/
def exceptionMessage (backend : Json.Backend) (message : Option Bytes) (data : Option DocumentMap) : Message :=
  let payload := data.getD []
  -- The message fills a data object that carries none.
  let payload := match message with
    | some text =>
      if text.isEmpty || (payload.lookup kMessageMember).isSome then payload
      else payload.insertOrAssign kMessageMember (.string text)
    | none => payload
  let type := ((data.getD []).lookup kTypeMember).bind nonEmptyString
  makeExceptionMessage (type.getD kFallbackExceptionType) kJsonContentType (Json.encode backend (.map payload))

def decodeError (backend : Json.Backend) (error : Document) : StreamFrame :=
  match error with
  | .map members =>
    match unknownMember [kCodeMember, kMessageMember, kDataMember] members with
    | some name => unknownMemberViolation "unknown error member: " name
    | none =>
      match members.lookup kCodeMember with
      | some (.int _) =>
        match members.lookup kMessageMember, members.lookup kDataMember with
        | none, none => .exception (exceptionMessage backend none none)
        | none, some (.map data) => .exception (exceptionMessage backend none (some data))
        | some (.string text), none => .exception (exceptionMessage backend (some text) none)
        | some (.string text), some (.map data) => .exception (exceptionMessage backend (some text) (some data))
        | none, some _ => invalidRequest "error \"data\" is not a JSON object"
        | some (.string _), some _ => invalidRequest "error \"data\" is not a JSON object"
        | some _, _ => invalidRequest "error \"message\" is not a string"
      | _ => invalidRequest "error \"code\" is missing or not an integer"
  | _ => invalidRequest "\"error\" is not a JSON object"

def decodeResponse (backend : Json.Backend) (envelope id : Document) : StreamFrame :=
  match envelope.find kIdMember with
  | none => invalidRequest "response envelope carries no \"id\""
  | some echoed =>
    if echoed.equals id then
      match envelope.find kResultMember, envelope.find kErrorMember with
      | some _, some _ => invalidRequest "response carries both \"result\" and \"error\""
      | none, none => invalidRequest "envelope is neither a notification nor a response"
      | some result, none => .result result
      | none, some error => decodeError backend error
    else invalidRequest "response for a different call's id (one stream per socket)"

/-- The classification of an envelope with the right members and version. -/
def decodeEnvelope (backend : Json.Backend) (envelope id : Document) : StreamFrame :=
  match envelope.find kMethodMember with
  | some method =>
    if (envelope.find kIdMember).isSome then invalidRequest "a request envelope after the opening call"
    else if (envelope.find kResultMember).isSome || (envelope.find kErrorMember).isSome then
      invalidRequest "envelope mixes a notification with a response"
    else decodeNotification backend envelope method id
  | none => decodeResponse backend envelope id

def envelopeMembers : List Bytes :=
  [kVersionMember, kMethodMember, kParamsMember, kIdMember, kResultMember, kErrorMember]

/-- `DecodeJsonRpcStreamFrame`. -/
def decodeFrame (backend : Json.Backend) (text : Bytes) (id : Document) : StreamFrame :=
  if kMaxMessageBytes < text.length then invalidRequest "message over the 16 MiB limit"
  else
    match Json.decode backend text with
    | .error _ => .violation kParseErrorCode (ascii "text frame is not JSON")
    | .ok (.map members) =>
      match unknownMember envelopeMembers members with
      | some name => unknownMemberViolation "unknown envelope member: " name
      | none =>
        match members.lookup kVersionMember with
        | some (.string version) =>
          if version = kVersionValue then decodeEnvelope backend (.map members) id
          else invalidRequest "expected jsonrpc: \"2.0\""
        | _ => invalidRequest "expected jsonrpc: \"2.0\""
    | .ok _ => invalidRequest "envelope is not a JSON object"

/-- `EncodeJsonRpcNotification`. -/
def encodeNotification (backend : Json.Backend) (message : Message) (id : Document) : Outcome Bytes :=
  match parseEnvelope message with
  | .error error => .error (cannotEncode error.message)
  | .ok envelope =>
    if envelope.kind ≠ .event then
      .error (cannotEncode ("exceptions do not ride notifications: the terminal error envelope is the generated " ++
        "serve path's business (ADR-0023)"))
    else do
      let payload ← encodablePayload backend cannotEncode message envelope
      let params : DocumentMap := [(kIdMember, id), (kPayloadMember, .map payload)]
      let fields : DocumentMap :=
        [(kVersionMember, .string kVersionValue), (kMethodMember, .string envelope.type), (kParamsMember, .map params)]
      checkedText cannotEncode (Json.encode backend (.map fields))

/-- The document of `EncodeJsonRpcViolationResponse`. -/
def violationEnvelope (code : Int64) (reason : Bytes) (id : Document) : Document :=
  .map [
    (kErrorMember, .map [
      (kCodeMember, .int code),
      (kDataMember, .map [(kTypeMember, .string kViolationExceptionType)]),
      (kMessageMember, .string reason)]),
    (kIdMember, id),
    (kVersionMember, .string kVersionValue)]

def encodeViolationResponse (backend : Json.Backend) (code : Int64) (reason : Bytes) (id : Document) : Bytes :=
  Json.encode backend (violationEnvelope code reason id)

end OpalCpp.EventStream.JsonRpc

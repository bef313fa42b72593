import OpalCpp.Model.Cbor.Decoder
import OpalCpp.Model.Codegen.JsonRpc2
import OpalCpp.Model.Codegen.TextValues
import OpalCpp.Model.EventStream.JsonRpcStreamSocket

/-! # Errors of generated services

What a generated server makes of a handler's error, as a response and as an exception of a stream, and what
generated clients make of both. An error carries its detail with the shape whose type it has.
-/

namespace OpalCpp.ModeledErrors

open scoped Bytes
open Bytes (ascii)
open EventStream (Message DecodedFrame EventEnvelope encodeMessage decodeMessage makeExceptionMessage parseEnvelope)
open EventStream.JsonRpc (kMessageMember kTypeMember kCodeMember kErrorMember kDataMember classifyInbound)
open Http (Headers HttpResponse)
open OrderedMap (tryEmplace)
open Typed (Value SerdeCodeGen)

/-! ## Errors -/

/-- `opal::Error` with its detail. -/
structure TypedError (Id : Type*) where
  kind : ErrorKind
  code : Bytes
  message : Bytes
  retryable : Bool := false
  detail : Option (Id × Value) := none

/-- `detail<T>()`, of the type of a shape. -/
def TypedError.detailAs {Id : Type*} [DecidableEq Id] (error : TypedError Id) (id : Id) : Option Value :=
  match error.detail with
  | some (type, value) => if type = id then some value else none
  | none => none

/-! ## Shapes -/

/-- What the value of a header is lifted from and patched into. -/
inductive HeaderKind where
  | text
  | integer (low high : ℤ)
  | floating
  | boolean

/-- A member bound to a header, of the targets that are not skipped. -/
structure HeaderMember where
  memberName : Bytes
  wireName : Bytes
  locationName : Bytes
  kind : HeaderKind

structure ErrorShape where
  namespace_ : Bytes
  name : Bytes
  httpError : Option ℤ := none
  isClientError : Bool := true
  retryable : Bool := false
  /-- In the order of their names. -/
  headerMembers : List HeaderMember := []

namespace ErrorShape

variable (shape : ErrorShape)

def errorStatus : ℤ := shape.httpError.getD (if shape.isClientError then 400 else 500)

/-- `ShapeId.toString()` -/
def shapeId : Bytes := shape.namespace_ ++ ascii "#" ++ shape.name

end ErrorShape

structure Operation (Id : Type*) where
  name : Bytes
  errors : List Id
  /-- `@http`'s code, and whether the status is a member of the output. -/
  httpCode : ℤ := 200
  responseCode : Bool := false
  /-- Whether the output has events. -/
  outputEvents : Bool := true

inductive Protocol where
  | httpJson (errorTypeHeader : Bytes) (statusFallback : Bool)
  | rpcv2Cbor
  | jsonRpc2
deriving DecidableEq

/-- What clients and servers are generated from. -/
structure Service (Id : Type*) where
  protocol : Protocol
  backend : Json.Backend
  serde : SerdeCodeGen Id
  errorShape : Id → ErrorShape
  operations : List (Operation Id)

/-- The document of an error: what its detail is serialized to. -/
def asMap : Document → DocumentMap
  | .map members => members
  | _ => []

namespace Service

variable {Id : Type*} [DecidableEq Id] (service : Service Id)

def typeName (id : Id) : Bytes := (service.serde.model.shape id).typeName

/-- The values of the `TreeMap` of shapes by the names of their types. -/
def sortedByType (ids : List Id) : List Id := (OrderedMap.keyed service.typeName ids).map Prod.snd

def errorShapes : List Id := service.sortedByType (service.operations.flatMap Operation.errors)

def encode (document : Document) : Bytes :=
  match service.protocol with
  | .rpcv2Cbor => Cbor.encode document
  | _ => Json.encode service.backend document

def decode (bytes : Bytes) : Outcome Document :=
  match service.protocol with
  | .rpcv2Cbor => Cbor.decode bytes
  | _ => Json.decode service.backend bytes

def contentType : Bytes :=
  match service.protocol with
  | .rpcv2Cbor => ascii "application/cbor"
  | _ => ascii "application/json"

/-! ## Servers -/

/-- The members of the detail, which is there if it is of the shape's type. -/
def detailMembers (id : Id) (error : TypedError Id) : DocumentMap :=
  match error.detailAs id with
  | some detail => asMap (service.serde.serialize detail id .epochSeconds)
  | none => []

/-- The detail's own message member wins over the generic one. -/
def withMessage (message : Bytes) (body : DocumentMap) : DocumentMap :=
  let hasMessage := (body.lookup kMessageMember).isSome || (body.lookup (ascii "Message")).isSome
  if !hasMessage && message ≠ [] then tryEmplace kMessageMember (.string message) body else body

/-- The text of a node as a header's value. -/
def headerText : HeaderKind → Document → Option Bytes
  | .text, .string text => some text
  | .integer _ _, .int value => some (Print.integerText value.toInt)
  | .floating, .double value => some (formatDouble value)
  | .boolean, .bool value => some (Print.boolText value)
  | _, _ => none

/-- A member that is there leaves the body for its header. -/
def liftHeaders : List HeaderMember → DocumentMap → DocumentMap × List (Bytes × Bytes)
  | [], body => (body, [])
  | member :: members, body =>
    match body.lookup member.memberName with
    | none => liftHeaders members body
    | some value =>
      let (rest, values) := liftHeaders members (body.filter fun entry => entry.1 ≠ member.memberName)
      match headerText member.kind value with
      | some text => (rest, (member.locationName, text) :: values)
      | none => (rest, values)

/-- `JsonError` and `CborError`. -/
def errorBody (status : ℤ) (code message : Bytes) (body : DocumentMap) : HttpResponse :=
  let body := if code = [] then body else body.insertOrAssign kTypeMember (.string code)
  let body := if message = [] then body else body.insertOrAssign kMessageMember (.string message)
  let headers : Headers := {}
  let headers :=
    if service.protocol = .rpcv2Cbor then headers.set (ascii "smithy-protocol") (ascii "rpc-v2-cbor") else headers
  { status := status, headers := headers.set (ascii "content-type") service.contentType, body := service.encode (.map body) }

/-- `JsonRpcError` -/
def jsonRpcError (status : ℤ) (code message : Bytes) (body : DocumentMap) (id : Document) : HttpResponse where
  status := 200
  headers := Headers.set {} (ascii "content-type") (ascii "application/json")
  body := service.encode (JsonRpc2.errorEnvelope (Int64.ofInt status) code message body id)

/-- The error function of the protocol, with the id that jsonRpc2 echoes. -/
def errorFn (status : ℤ) (code message : Bytes) (body : DocumentMap) (id : Document) : HttpResponse :=
  if service.protocol = .jsonRpc2 then service.jsonRpcError status code message body id
  else service.errorBody status code message body

/-- A modeled error of a shape. -/
def modeledResponse (shape : Id) (error : TypedError Id) (id : Document) : HttpResponse :=
  let body := withMessage error.message (service.detailMembers shape error)
  let info := service.errorShape shape
  match service.protocol with
  | .httpJson errorTypeHeader _ =>
    let (body, values) := liftHeaders info.headerMembers body
    let response := service.errorFn info.errorStatus [] [] body id
    let headers := values.foldl (fun headers value => headers.set value.1 value.2)
      (response.headers.set errorTypeHeader error.code)
    { response with headers := headers }
  | _ => service.errorFn info.errorStatus info.shapeId [] body id

/-- An error that is not a modeled one: only what is wrong with the request is told. -/
def unmodeledResponse (error : TypedError Id) (id : Document) : HttpResponse :=
  if error.kind = .validation ∨ error.kind = .serialization then
    match service.protocol with
    | .httpJson errorTypeHeader _ =>
      let response := service.errorFn 400 [] error.message [] id
      { response with headers := response.headers.set errorTypeHeader (ascii "SerializationException") }
    | _ => service.errorFn 400 (ascii "SerializationException") error.message [] id
  else service.errorFn 500 (ascii "InternalFailure") (ascii "internal failure") [] id

def errorToResponse (error : TypedError Id) (id : Document) : HttpResponse :=
  if error.kind = .modeled then
    match service.errorShapes.find? fun shape => error.code = (service.errorShape shape).name with
    | some shape => service.modeledResponse shape error id
    | none => service.errorFn 400 error.code error.message [] id
  else service.unmodeledResponse error id

/-- The body of an exception after every shape of the ladder with the error's code. -/
def exceptionBody (operation : Operation Id) (error : TypedError Id) : DocumentMap :=
  (service.sortedByType operation.errors).foldl (fun body shape =>
    if error.code = (service.errorShape shape).name ∧ (error.detailAs shape).isSome then service.detailMembers shape error
    else body) []

/-- `Build<Op>ExceptionMessage` -/
def buildExceptionMessage (operation : Operation Id) (error : TypedError Id) : Message :=
  let (type, message, body) :=
    match error.kind with
    | .modeled => (error.code, error.message, service.exceptionBody operation error)
    | .validation | .serialization => (ascii "SerializationException", error.message, [])
    | _ => (ascii "InternalFailure", ascii "internal failure", [])
  makeExceptionMessage type service.contentType (service.encode (.map (withMessage message body)))

/-! ## Clients -/

/-- The name of a shape without its namespace, and without what follows a colon. -/
def sanitizeErrorCode (raw : Bytes) : Bytes :=
  let raw := raw.takeWhile (· ≠ ':'.toUInt8)
  if '#'.toUInt8 ∈ raw then (raw.dropWhile (· ≠ '#'.toUInt8)).tail else raw

def kUnknownError : Bytes := ascii "UnknownError"

structure ParsedError where
  status : ℤ := 0
  code : Bytes := kUnknownError
  message : Bytes := []
  doc : Document := .null

def genericError (parsed : ParsedError) : TypedError Id where
  kind := if parsed.code = kUnknownError then .unknown else .modeled
  code := parsed.code
  message := parsed.message
  retryable := decide (500 ≤ parsed.status)

/-- The text of a member of a document, if it is a string. -/
def stringMember (doc : Document) (key : Bytes) : Option Bytes :=
  match doc.find key with
  | some (.string text) => some text
  | _ => none

/-- What the header says of an error. -/
def headerCode (headers : Headers) : Bytes :=
  match service.protocol with
  | .httpJson errorTypeHeader _ => (headers.get? errorTypeHeader).elim kUnknownError sanitizeErrorCode
  | _ => kUnknownError

/-- What the document says where no header does: the first of two members, if it is a string. -/
def documentCode (doc : Document) : Bytes :=
  match (doc.find kTypeMember).or (doc.find kCodeMember) with
  | some (.string text) => sanitizeErrorCode text
  | _ => kUnknownError

/-- `ParseError`, of the protocols but jsonRpc2. -/
def parseHttpError (response : HttpResponse) : ParsedError :=
  let doc := (service.decode response.body).toOption.getD .null
  let code := service.headerCode response.headers
  { status := response.status
    code := if code = kUnknownError then documentCode doc else code
    message := (stringMember doc kMessageMember).getD (ascii "HTTP " ++ Print.integerText response.status)
    doc := doc }

/-- The status that stands for the code of an envelope's error. -/
def rpcStatus (code : Int64) : ℤ :=
  if 100 ≤ code.toInt ∧ code.toInt < 600 then code.toInt else if code = -32603 then 500 else 400

/-- `ParseError` of jsonRpc2, which reads the error of the envelope. -/
def parseRpcError (response : HttpResponse) : ParsedError :=
  let unread : ParsedError :=
    { status := response.status, message := ascii "HTTP " ++ Print.integerText response.status }
  match (service.decode response.body).toOption.bind (Document.find kErrorMember) with
  | some (.map members) =>
    let error := Document.map members
    let doc := (error.find kDataMember).getD .null
    { status :=
        match error.find kCodeMember with
        | some (.int code) => rpcStatus code
        | _ => unread.status
      code := (stringMember doc kTypeMember).elim kUnknownError sanitizeErrorCode
      message := (stringMember error kMessageMember).getD unread.message
      doc := doc }
  | _ => unread

def parseError (response : HttpResponse) : ParsedError :=
  if service.protocol = .jsonRpc2 then service.parseRpcError response else service.parseHttpError response

/-- The node of a header's value. -/
def headerNode : HeaderKind → Bytes → Option Document
  | .text, text => some (.string text)
  | .integer low high, text => (parseInt64Text text low high).toOption.map fun value => .int (Int64.ofInt value)
  | .floating, text => (parseDoubleText text).toOption.map .double
  | .boolean, text => some (.bool (text = ascii "true"))

/-- `writeErrorDocPatches`: the headers of a response become members. -/
def patchHeaders (headers : Headers) (members : List HeaderMember) (doc : DocumentMap) : DocumentMap :=
  members.foldl (fun doc member =>
    match (headers.get? member.locationName).bind (headerNode member.kind) with
    | some node => doc.insertOrAssign member.wireName node
    | none => doc) doc

/-- `Make<Error>Error`: a detail that is refused is left out. -/
def makeError (id : Id) (response : HttpResponse) (parsed : ParsedError) : TypedError Id :=
  let info := service.errorShape id
  let doc := patchHeaders response.headers info.headerMembers (asMap parsed.doc)
  { kind := .modeled
    code := info.name
    message := parsed.message
    retryable := info.retryable || decide (500 ≤ parsed.status)
    detail := ((service.serde.deserialize (.map doc, id)).toOption).map fun detail => (id, detail) }

/-- The shape that stands for a status, being the only one of its operation with it. -/
def claimedBy (shapes : List Id) (status : ℤ) : Option Id :=
  match shapes.filter fun id => (service.errorShape id).errorStatus = status with
  | [id] => some id
  | _ => none

/-- `Parse<Op>Error` -/
def parseOperationError (operation : Operation Id) (response : HttpResponse) : TypedError Id :=
  let parsed := service.parseError response
  let shapes := service.sortedByType operation.errors
  match shapes.find? fun id => parsed.code = (service.errorShape id).name with
  | some id => service.makeError id response parsed
  | none =>
    match service.protocol with
    | .httpJson _ true =>
      if parsed.code = kUnknownError then
        (service.claimedBy shapes parsed.status).elim (genericError parsed) fun id => service.makeError id response parsed
      else genericError parsed
    | _ => genericError parsed

/-- Whether a response is one of success to the client. -/
def isSuccess (operation : Operation Id) (response : HttpResponse) : Bool :=
  match service.protocol with
  | .httpJson _ _ =>
    if operation.responseCode then 200 ≤ response.status && response.status < 400 else response.status = operation.httpCode
  | .rpcv2Cbor => response.status = 200
  | .jsonRpc2 =>
    response.status = 200 &&
      match service.decode response.body with
      | .ok (.map members) => (members.lookup kErrorMember).isNone
      | _ => false

/-- The error of a response that is none of success. -/
def responseError (operation : Operation Id) (response : HttpResponse) : Option (TypedError Id) :=
  if service.isSuccess operation response then none else some (service.parseOperationError operation response)

/-- The exception part of `Decode<Op>Event`. -/
def decodeException (operation : Operation Id) (envelope : EventEnvelope) : TypedError Id :=
  let doc : Document :=
    match service.decode envelope.payload with
    | .ok (.map members) => .map members
    | _ => .null
  let parsed : ParsedError :=
    { code := sanitizeErrorCode envelope.type, message := (stringMember doc kMessageMember).getD [], doc := doc }
  match (service.sortedByType operation.errors).find? fun id => parsed.code = (service.errorShape id).name with
  | some id => service.makeError id {} parsed
  | none => genericError parsed

/-- An error of the runtime, which has no detail. -/
def ofError (error : Error) : TypedError Id :=
  ⟨error.kind, ascii error.code, ascii error.message, error.retryable, none⟩

/-- `Decode<Op>Event`, as far as a message ends the stream with an error; an event gives none. -/
def decodeEventError (operation : Operation Id) (message : Message) : Option (TypedError Id) :=
  if operation.outputEvents then
    match parseEnvelope message with
    | .error error => some (ofError error)
    | .ok envelope => if envelope.kind = .exception then some (service.decodeException operation envelope) else none
  else some (ofError (.Serialization (operation.name.text ++ ": no events are modeled in this direction")))

/-! ## The wires of streams -/

/-- The id of every call of a generated client. -/
def callId : Document := .int 1

/-- The message of a failure as the server's driver sends it: an exception, or on the JSON-RPC wire the text of
the envelope. -/
def failureMessage (operation : Operation Id) (error : TypedError Id) : Message :=
  if service.protocol = .jsonRpc2 then { payload := (service.errorToResponse error callId).body }
  else service.buildExceptionMessage operation error

/-- The message as the client's decoder gets it: of a frame, or behind the stream socket of the JSON-RPC wire. -/
def receivedMessage (message : Message) : Outcome (Option Message) :=
  if service.protocol = .jsonRpc2 then (classifyInbound service.backend (.ok (some message)) callId .client).result
  else do
    let frame ← encodeMessage message
    let decoded ← decodeMessage frame
    return decoded.map DecodedFrame.message

end Service

end OpalCpp.ModeledErrors

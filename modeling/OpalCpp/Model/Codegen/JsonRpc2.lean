import OpalCpp.Model.Codegen.Serde
import OpalCpp.Model.Codegen.Validators
import OpalCpp.Model.EventStream.JsonRpcFrame
import OpalCpp.Model.Http.Headers

/-! # The endpoints of generated jsonRpc2 servers

What the route of the unary operations and the drivers of the streaming ones do with a request up to the call
of the operation's handler. A refusal is the envelope that goes out, as the body of a response or as the payload
of a message.
-/

namespace OpalCpp.JsonRpc2

open scoped Bytes
open Bytes (ascii)
open OrderedMap (tryEmplace)
open Codegen (ServiceModel MemberShape collectInputs)
open EventStream (Message)
open EventStream.JsonRpc (kVersionMember kVersionValue kMethodMember kParamsMember kIdMember kErrorMember kCodeMember
  kMessageMember kDataMember kTypeMember)
open Http (HttpRequest asciiLower isBlank)
open Typed (Value SerdeCodeGen)

/-! ## Error envelopes -/

/-- The envelope of `JsonRpcError`: a message that is empty is that of the data. -/
def errorEnvelope (code : Int64) (type message : Bytes) (data : DocumentMap) (id : Document) : Document :=
  let data := if type = [] then data else data.insertOrAssign kTypeMember (.string type)
  let text :=
    if message ≠ [] then message
    else
      match data.lookup kMessageMember with
      | some (.string text) => text
      | _ => []
  let error := tryEmplace kMessageMember (.string text) (tryEmplace kCodeMember (.int code) [])
  let error := if data.isEmpty then error else tryEmplace kDataMember (.map data) error
  .map (tryEmplace kIdMember id (tryEmplace kErrorMember (.map error)
    (tryEmplace kVersionMember (.string kVersionValue) [])))

def kSerializationException : Bytes := ascii "SerializationException"

/-- An error of the reserved codes, without data. -/
def reserved (code : Int64) (message : Bytes) (id : Document) : Document :=
  errorEnvelope code kSerializationException message [] id

structure ValidationFailure where
  path : Bytes
  message : Bytes
deriving DecidableEq

def validationErrorResponse (failures : List ValidationFailure) (id : Document) : Document :=
  let summary := ascii (toString failures.length) ++ ascii " validation error" ++
    (if failures.length = 1 then [] else ascii "s") ++ ascii " detected. " ++
    failures.tail.foldl (fun summary failure => summary ++ ascii "; " ++ failure.message)
      (failures.head?.elim [] (·.message))
  let fields := failures.map fun failure =>
    Document.map (tryEmplace (ascii "path") (.string failure.path) (tryEmplace kMessageMember (.string failure.message) []))
  errorEnvelope 400 (ascii "smithy.framework#ValidationException") summary [(ascii "fieldList", .list fields)] id

/-! ## The service -/

structure Operation (Id : Type) where
  name : Bytes
  input : Id
  output : Id
  /-- `@requestCompression` with gzip. -/
  compressed : Bool := false

/-- What a server is generated from: the shapes as the generators of serde and of validators read them, and the
operations, which have names of their own. Of a validator's checks of a member the failures are a parameter, and
so is what decompresses a body. -/
structure Service (Id : Type) [DecidableEq Id] where
  backend : Json.Backend
  serde : SerdeCodeGen Id
  shapes : ServiceModel Id
  members : Id → List (MemberShape Id)
  order : ∀ id, (members id).Perm (shapes.shape id).members
  operations : List (Operation Id)
  named : operations.Pairwise (·.name ≠ ·.name)
  known : ∀ operation ∈ operations, operation.input ∈ shapes.ids
  noModeledInput : Id → Bool
  /-- The place of the member with the event stream. -/
  streamMember : Id → Option ℕ
  memberChecks : Typed.Member Id → Value → List ValidationFailure
  gunzip : Bytes → Option Bytes

namespace Service

variable {Id : Type} [DecidableEq Id] (service : Service Id)

def streaming (operation : Operation Id) : Bool :=
  (service.streamMember operation.input).isSome || (service.streamMember operation.output).isSome

def streamingOperations : List (Operation Id) := service.operations.filter service.streaming

def unaryOperations : List (Operation Id) := service.operations.filter fun operation => !service.streaming operation

/-- The shapes with a validator, by a generator that is made for these operations. -/
def constrained (operations : List (Operation Id)) : Finset Id :=
  (collectInputs service.shapes service.members (operations.map Operation.input)).getD ∅

/-- The validator of an input structure. -/
def validate (input : Id) (value : Value) : List ValidationFailure :=
  match (service.serde.model.shape input).type, value with
  | .struct members, .struct values => (members.zip values).flatMap fun (member, value) => service.memberChecks member value
  | _, _ => []

/-- The validators over an input, if its operation has some. -/
def guard (constrained : Finset Id) (operation : Operation Id) (input : Value) (id : Document) : Except Document Unit :=
  if operation.input ∉ constrained then .ok ()
  else
    let failures := service.validate operation.input input
    if failures.isEmpty then .ok () else .error (validationErrorResponse failures id)

/-- `Deserialize<Input>`, whose failure is the message of the refusal. -/
def parsedInput (operation : Operation Id) (params id : Document) : Except Document Value :=
  match service.serde.deserialize (params, operation.input) with
  | .error error => .error (reserved (-32602) (ascii error.message) id)
  | .ok parsed => .ok parsed

/-! ## The unary endpoint -/

/-- `Handle<Op>`: the input that the handler is called with. -/
def handle (operation : Operation Id) (params id : Document) : Except Document Value := do
  let input ←
    if service.noModeledInput operation.input then .ok (.struct [])
    else
      match params with
      | .map _ => service.parsedInput operation params id
      | _ => .error (reserved (-32602) (ascii "params must be an object") id)
  service.guard (service.constrained service.operations) operation input id
  return input

/-- The text of the media type without parameters. -/
def mediaTypeOf (contentType : Bytes) : Bytes :=
  (((contentType.takeWhile (· ≠ ';'.toUInt8)).dropWhile isBlank).rdropWhile isBlank).map asciiLower

/-- The body, decompressed where an operation is compressed and the request says so. -/
def requestBody (request : HttpRequest) : Except Document Bytes :=
  if service.unaryOperations.any (·.compressed) then
    match request.headers.get? (ascii "content-encoding") with
    | some encoding =>
      if encoding = ascii "gzip" ∨ (ascii ", gzip").isSuffixOf encoding then
        match service.gunzip request.body with
        | some body => .ok body
        | none => .error (reserved (-32700) (ascii "invalid gzip request body") .null)
      else .ok request.body
    | none => .ok request.body
  else .ok request.body

/-- A present content type must be this one, whatever its parameters. -/
def otherMediaType (request : HttpRequest) : Bool :=
  match request.headers.get? (ascii "content-type") with
  | some contentType => mediaTypeOf contentType ≠ ascii "application/json"
  | none => false

def isMap : Document → Bool
  | .map _ => true
  | _ => false

def isVersion2 (envelope : Document) : Bool :=
  match envelope.find kVersionMember with
  | some (.string version) => version = kVersionValue
  | _ => false

def idOf (envelope : Document) : Document := (envelope.find kIdMember).getD .null

/-- Absent and null params are an empty object. -/
def paramsOf (envelope : Document) : Document :=
  match envelope.find kParamsMember with
  | some params => if params.isNull then .map [] else params
  | none => .map []

/-- The route of `POST /` up to the call of a handler. -/
def serveUnary (request : HttpRequest) : Except Document (Operation Id × Value) := do
  let body ← service.requestBody request
  if otherMediaType request then
    .error (errorEnvelope (-32600) (ascii "UnsupportedMediaTypeException")
      (ascii "expected content-type: application/json") [] .null)
  else
    match Json.decode service.backend body with
    | .error _ => .error (reserved (-32700) (ascii "request body is not valid JSON") .null)
    | .ok decoded =>
      if !isMap decoded then .error (reserved (-32600) (ascii "request is not a JSON-RPC 2.0 call") .null)
      else if !isVersion2 decoded then .error (reserved (-32600) (ascii "expected jsonrpc: \"2.0\"") (idOf decoded))
      else
        match decoded.find kMethodMember with
        | some (.string method) =>
          match service.unaryOperations.find? (·.name = method) with
          | some operation => (service.handle operation (paramsOf decoded) (idOf decoded)).map (operation, ·)
          | none =>
            .error (errorEnvelope (-32601) (ascii "UnknownOperationException") (ascii "unknown method: " ++ method) []
              (idOf decoded))
        | _ => .error (reserved (-32600) (ascii "expected a string method member") (idOf decoded))

/-! ## The stream endpoint -/

/-- `JsonRpcOpening`, of one that is not refused. -/
structure JsonRpcOpening where
  id : Document
  method : Bytes
  params : Document

def parseJsonRpcOpening (message : Message) : Except Document JsonRpcOpening :=
  if !message.headers.isEmpty then
    .error (reserved (-32600) (ascii "the opening message must be one JSON-RPC request envelope") .null)
  else
    match Json.decode service.backend message.payload with
    | .error _ => .error (reserved (-32700) (ascii "request body is not valid JSON") .null)
    | .ok decoded =>
      if !isMap decoded then .error (reserved (-32600) (ascii "request is not a JSON-RPC 2.0 call") .null)
      else if !isVersion2 decoded then .error (reserved (-32600) (ascii "expected jsonrpc: \"2.0\"") (idOf decoded))
      else
        match decoded.find kMethodMember with
        | some (.string method) =>
          -- A call without an id is a notification, which a stream has no answer to.
          if (idOf decoded).isNull then .error (reserved (-32600) (ascii "the opening call must carry an id") (idOf decoded))
          else .ok ⟨idOf decoded, method, paramsOf decoded⟩
        | _ => .error (reserved (-32600) (ascii "expected a string method member") (idOf decoded))

/-- `input.<member>.reset()` -/
def resetStream (operation : Operation Id) (input : Value) : Value :=
  match service.streamMember operation.input, input with
  | some index, .struct values => .struct (values.set index .nullopt)
  | _, input => input

/-- The ladder over the streaming operations. -/
def openingDispatch (opening : JsonRpcOpening) : Except Document (Operation Id × Value) :=
  match service.streamingOperations.find? (·.name = opening.method) with
  | some operation => do
    let input ←
      if service.noModeledInput operation.input then .ok (.struct [])
      else service.parsedInput operation opening.params opening.id
    service.guard (service.constrained service.streamingOperations) operation input opening.id
    return (operation, service.resetStream operation input)
  | none =>
    .error (errorEnvelope (-32601) (ascii "UnknownOperationException") (ascii "unknown method: " ++ opening.method)
      [] opening.id)

/-- Both drivers, up to the call of a handler. -/
def serveStream (message : Message) : Except Document (Operation Id × Value) := do
  let opening ← service.parseJsonRpcOpening message
  service.openingDispatch opening

end Service

end OpalCpp.JsonRpc2

import OpalCpp.Model.Codegen.Errors
import OpalCpp.Model.Server.GeneratedRoutes

/-! # Calls over the RPC protocols

What is generated for the unary operations of rpcv2Cbor and jsonRpc2 services: the request of the client, the route
of the server with its call of the handler, and what the client makes of the response.
-/

namespace OpalCpp.Rpc

open scoped Bytes
open Bytes (ascii)
open EventStream.JsonRpc (kVersionMember kVersionValue kMethodMember kParamsMember kIdMember)
open Http (Headers HttpRequest HttpResponse)
open JsonRpc2 (Operation ValidationFailure)
open JsonRpc2.Service (idOf paramsOf isMap isVersion2)
open ModeledErrors (TypedError ErrorShape)
open OrderedMap (tryEmplace)
open Server (Router RequestContext RouteHandler HttpOperation Segment)
open Typed (Value Member ShapeType)

/-- What clients and servers are generated from. -/
structure Service (Id : Type) [DecidableEq Id] where
  endpoint : JsonRpc2.Service Id
  name : Bytes
  errorShape : Id → ErrorShape
  errors : Operation Id → List Id
  gzip : Bytes → Outcome Bytes
  /-- `request_min_compression_size_bytes` -/
  minCompressionSize : ℕ := 10240

/-- The implementation of the operations. -/
abbrev Handler (Id : Type) := Operation Id → Value → RequestContext → Except (TypedError Id) Value

namespace Service

variable {Id : Type} [DecidableEq Id] (service : Service Id)

/-- What the ladders of errors are generated from. -/
def errorService (protocol : ModeledErrors.Protocol) : ModeledErrors.Service Id where
  protocol := protocol
  backend := service.endpoint.backend
  serde := service.endpoint.serde
  errorShape := service.errorShape
  operations :=
    service.endpoint.operations.map fun operation => { name := operation.name, errors := service.errors operation }

def errorOperation (operation : Operation Id) : ModeledErrors.Operation Id where
  name := operation.name
  errors := service.errors operation

/-- The members of a structure. -/
def members (id : Id) : List (Member Id) :=
  match (service.endpoint.serde.model.shape id).type with
  | .struct members => members
  | _ => []

def serialize (value : Value) (id : Id) : Document := service.endpoint.serde.serialize value id .epochSeconds

/-! ## Requests -/

/-- `writeRequestCompression` -/
def compressed (operation : Operation Id) (request : HttpRequest) : Outcome HttpRequest :=
  if operation.compressed && service.minCompressionSize ≤ request.body.length then do
    let body ← service.gzip request.body
    let encoding :=
      match request.headers.get? (ascii "content-encoding") with
      | some existing => if existing = [] then ascii "gzip" else existing ++ ascii ", gzip"
      | none => ascii "gzip"
    return { request with body := body, headers := request.headers.set (ascii "content-encoding") encoding }
  else .ok request

/-- The client's half of an rpcv2Cbor operation up to `Send`. -/
def cborRequest (operation : Operation Id) (input : Value) : Outcome HttpRequest :=
  let request : HttpRequest :=
    { method := ascii "POST"
      target := ascii "/service/" ++ service.name ++ ascii "/operation/" ++ operation.name
      headers := Headers.set {} (ascii "smithy-protocol") (ascii "rpc-v2-cbor") }
  let request :=
    if service.endpoint.noModeledInput operation.input then request
    else
      { request with
        headers := request.headers.set (ascii "content-type") (ascii "application/cbor")
        body := Cbor.encode (service.serialize input operation.input) }
  service.compressed operation request

/-- The envelope of a call. -/
def callEnvelope (operation : Operation Id) (input : Value) : DocumentMap :=
  let envelope := tryEmplace kVersionMember (.string kVersionValue) []
  let envelope := tryEmplace kMethodMember (.string operation.name) envelope
  let envelope := tryEmplace kIdMember (.int 1) envelope
  if service.endpoint.noModeledInput operation.input then envelope
  else tryEmplace kParamsMember (service.serialize input operation.input) envelope

/-- The client's half of a jsonRpc2 operation up to `Send`. -/
def jsonRpcRequest (operation : Operation Id) (input : Value) : Outcome HttpRequest :=
  service.compressed operation
    { method := ascii "POST"
      target := ascii "/"
      headers := Headers.set {} (ascii "content-type") (ascii "application/json")
      body := Json.encode service.endpoint.backend (.map (service.callEnvelope operation input)) }

/-! ## The rpcv2Cbor server -/

/-- The failures of an operation's validators over an input, none where it has no validators. -/
def validationFailures (operation : Operation Id) (input : Value) : List ValidationFailure :=
  if operation.input ∉ service.endpoint.constrained service.endpoint.operations then []
  else service.endpoint.validate operation.input input

def validationSummary (failures : List ValidationFailure) : Bytes :=
  ascii (toString failures.length) ++ ascii " validation error" ++ (if failures.length = 1 then [] else ascii "s") ++
    ascii " detected. " ++
      failures.tail.foldl (fun summary failure => summary ++ ascii "; " ++ failure.message)
        (failures.head?.elim [] (·.message))

def validationFields (failures : List ValidationFailure) : Document :=
  .list (failures.map fun failure =>
    .map (tryEmplace (ascii "path") (.string failure.path) (tryEmplace (ascii "message") (.string failure.message) [])))

/-- `CborError` -/
def cborError (status : ℤ) (code message : Bytes) (body : DocumentMap) : HttpResponse :=
  (service.errorService .rpcv2Cbor).errorBody status code message body

/-- `ValidationErrorResponse` -/
def cborValidationResponse (failures : List ValidationFailure) : HttpResponse :=
  service.cborError 400 (ascii "smithy.framework#ValidationException") (validationSummary failures)
    [(ascii "fieldList", validationFields failures)]

/-- The body, decompressed where the operation is compressed and the request says so. -/
def cborBody (operation : Operation Id) (request : HttpRequest) : Except HttpResponse Bytes :=
  if operation.compressed then
    match request.headers.get? (ascii "content-encoding") with
    | some encoding =>
      if encoding = ascii "gzip" ∨ (ascii ", gzip").isSuffixOf encoding then
        match service.endpoint.gunzip request.body with
        | some body => .ok body
        | none => .error (service.cborError 400 JsonRpc2.kSerializationException (ascii "invalid gzip request body") [])
      else .ok request.body
    | none => .ok request.body
  else .ok request.body

/-- A present content type must be this one, whatever its parameters. -/
def otherMediaType (request : HttpRequest) : Bool :=
  match request.headers.get? (ascii "content-type") with
  | some contentType => JsonRpc2.Service.mediaTypeOf contentType ≠ ascii "application/cbor"
  | none => false

/-- The document of the body: one that is absent is an empty map. -/
def cborDocument (body : Bytes) : Except HttpResponse Document :=
  if body = [] then .ok (.map [])
  else
    match Cbor.decode body with
    | .error error => .error (service.cborError 400 JsonRpc2.kSerializationException (ascii error.message) [])
    | .ok decoded => .ok decoded

/-- The input that the route parses. -/
def cborParsed (operation : Operation Id) (body : Bytes) : Except HttpResponse Value :=
  if service.endpoint.noModeledInput operation.input then .ok (.struct [])
  else do
    let document ← service.cborDocument body
    match service.endpoint.serde.deserialize (document, operation.input) with
    | .error error => .error (service.cborError 400 JsonRpc2.kSerializationException (ascii error.message) [])
    | .ok parsed => .ok parsed

/-- The route of an operation up to its validators. -/
def cborInput (operation : Operation Id) (request : HttpRequest) : Except HttpResponse Value := do
  let body ← service.cborBody operation request
  if (request.headers.get? (ascii "smithy-protocol")).getD [] ≠ ascii "rpc-v2-cbor" then
    .error (service.cborError 400 JsonRpc2.kSerializationException (ascii "expected smithy-protocol: rpc-v2-cbor") [])
  else if otherMediaType request then
    .error (service.cborError 415 (ascii "UnsupportedMediaTypeException")
      (ascii "expected content-type: application/cbor") [])
  else service.cborParsed operation body

/-- The response with an output. -/
def cborResponse (operation : Operation Id) (output : Value) : HttpResponse where
  headers := Headers.set (Headers.set {} (ascii "smithy-protocol") (ascii "rpc-v2-cbor")) (ascii "content-type")
    (ascii "application/cbor")
  body := Cbor.encode (service.serialize output operation.output)

/-- The validators, the handler and the response. -/
def cborAnswer (handler : Handler Id) (operation : Operation Id) (input : Value) (context : RequestContext) : HttpResponse :=
  let failures := service.validationFailures operation input
  if !failures.isEmpty then service.cborValidationResponse failures
  else
    match handler operation input context with
    | .error error => (service.errorService .rpcv2Cbor).errorToResponse error .null
    | .ok output => service.cborResponse operation output

/-- The handler of the route of an operation. -/
def cborRoute (handler : Handler Id) (operation : Operation Id) : RouteHandler := fun request context =>
  match service.cborInput operation request with
  | .error response => response
  | .ok input => service.cborAnswer handler operation input context

/-- The operation as its route is added: the pattern has no labels. -/
def cborOperation (handler : Handler Id) (operation : Operation Id) : HttpOperation where
  id := operation.name
  name := operation.name
  method := ascii "POST"
  segments := [ascii "service", service.name, ascii "operation", operation.name].map (Segment.mk .literal)
  handler := service.cborRoute handler operation

def cborRouter (handler : Handler Id) : Router :=
  Server.generatedRouter (service.endpoint.unaryOperations.map (service.cborOperation handler))

/-! ## The jsonRpc2 server -/

/-- A response of the endpoint, which is always one of status 200. -/
def jsonResponse (envelope : Document) : HttpResponse where
  headers := Headers.set {} (ascii "content-type") (ascii "application/json")
  body := Json.encode service.endpoint.backend envelope

def resultEnvelope (result id : Document) : Document :=
  .map (tryEmplace kIdMember id (tryEmplace (ascii "result") result (tryEmplace kVersionMember (.string kVersionValue) [])))

/-- `Handle<Op>` -/
def handle (handler : Handler Id) (operation : Operation Id) (params id : Document) (context : RequestContext) :
    HttpResponse :=
  match service.endpoint.handle operation params id with
  | .error envelope => service.jsonResponse envelope
  | .ok input =>
    match handler operation input context with
    | .error error => (service.errorService .jsonRpc2).errorToResponse error id
    | .ok output => service.jsonResponse (resultEnvelope (service.serialize output operation.output) id)

/-- The ladder over the methods. -/
def dispatch (handler : Handler Id) (decoded : Document) (context : RequestContext) : HttpResponse :=
  match decoded.find kMethodMember with
  | some (.string method) =>
    match service.endpoint.unaryOperations.find? (·.name = method) with
    | some operation =>
      { service.handle handler operation (paramsOf decoded) (idOf decoded) context with operation := operation.name }
    | none =>
      service.jsonResponse (JsonRpc2.errorEnvelope (-32601) (ascii "UnknownOperationException")
        (ascii "unknown method: " ++ method) [] (idOf decoded))
  | _ => service.jsonResponse (JsonRpc2.reserved (-32600) (ascii "expected a string method member") (idOf decoded))

/-- The handler of the route of the endpoint. -/
def jsonRpcRoute (handler : Handler Id) : RouteHandler := fun request context =>
  match service.endpoint.requestBody request with
  | .error envelope => service.jsonResponse envelope
  | .ok body =>
    if JsonRpc2.Service.otherMediaType request then
      service.jsonResponse (JsonRpc2.errorEnvelope (-32600) (ascii "UnsupportedMediaTypeException")
        (ascii "expected content-type: application/json") [] .null)
    else
      match Json.decode service.endpoint.backend body with
      | .error _ => service.jsonResponse (JsonRpc2.reserved (-32700) (ascii "request body is not valid JSON") .null)
      | .ok decoded =>
        if !isMap decoded then
          service.jsonResponse (JsonRpc2.reserved (-32600) (ascii "request is not a JSON-RPC 2.0 call") .null)
        else if !isVersion2 decoded then
          service.jsonResponse (JsonRpc2.reserved (-32600) (ascii "expected jsonrpc: \"2.0\"") (idOf decoded))
        else service.dispatch handler decoded context

def jsonRpcRouter (handler : Handler Id) : Router :=
  (Router.add {} (ascii "POST") (ascii "/") (service.jsonRpcRoute handler)).1

/-! ## Responses -/

/-- An output as `Out{}` makes it. -/
def initial (id : Id) : Value :=
  .struct ((service.members id).map fun member =>
    if Typed.plain (service.endpoint.serde.model.shape id)
        (service.endpoint.serde.model.shape member.target).type member then
      Typed.literal member
    else .nullopt)

def allOptional (id : Id) : Bool := (service.members id).all fun member => !member.isRequired

/-- `Deserialize<Output>` in a client. -/
def parsedOutput (operation : Operation Id) (document : Document) : Except (TypedError Id) Value :=
  match service.endpoint.serde.deserialize (document, operation.output) with
  | .error error => .error (ModeledErrors.Service.ofError error)
  | .ok output => .ok output

/-- The client's half of an rpcv2Cbor operation after `Send`. -/
def readCbor (operation : Operation Id) (response : HttpResponse) : Except (TypedError Id) Value :=
  match (service.errorService .rpcv2Cbor).responseError (service.errorOperation operation) response with
  | some error => .error error
  | none =>
    if service.members operation.output = [] then .ok (.struct [])
    else if service.allOptional operation.output && response.body.isEmpty then .ok (service.initial operation.output)
    else
      match Cbor.decode response.body with
      | .error error => .error (ModeledErrors.Service.ofError error)
      | .ok document => service.parsedOutput operation document

/-- The client's half of a jsonRpc2 operation after `Send`. -/
def readJsonRpc (operation : Operation Id) (response : HttpResponse) : Except (TypedError Id) Value :=
  match (service.errorService .jsonRpc2).responseError (service.errorOperation operation) response with
  | some error => .error error
  | none =>
    if service.members operation.output = [] then .ok (.struct [])
    else
      match (Json.decode service.endpoint.backend response.body).toOption.bind (Document.find (ascii "result")) with
      | none =>
        if service.allOptional operation.output then .ok (service.initial operation.output)
        else .error (ModeledErrors.Service.ofError (.Serialization "jsonRpc2: response has no result member"))
      | some result => service.parsedOutput operation result

end Service

end OpalCpp.Rpc

import OpalCpp.Model.Codegen.RpcCalls
import OpalCpp.Proofs.Codegen.ErrorIdentity
import OpalCpp.Proofs.Codegen.WireSerde
import OpalCpp.Proofs.Server.Reachability

/-! # Calls over the RPC protocols, from end to end

What a handler is called with is what the caller gave, and what the caller gets is what the handler returned: an
output, an error that the operation declares, or an error without what is not for the caller.
-/

namespace OpalCpp

open scoped Bytes
open Bytes (ascii)
open EventStream.JsonRpc (kMessageMember kTypeMember kErrorMember kCodeMember kDataMember kIdMember kVersionMember
  kVersionValue)
open Http (Headers HttpRequest HttpResponse)

namespace ModeledErrors.Service

open Typed (Value)

variable {Id : Type*} {service : Service Id}

/-! ## What clients make of error responses -/

/-- The protocols where a response tells its error in the body alone. -/
def Rpc (service : Service Id) : Prop := service.protocol = .rpcv2Cbor ∨ service.protocol = .jsonRpc2

/-- An error with a code is taken for a modeled one of that code. -/
theorem parseOperationError_of_code {operation : Operation Id} {response : HttpResponse}
    (known : (service.parseError response).code ≠ kUnknownError) :
    (service.parseOperationError operation response).kind = .modeled ∧
      (service.parseOperationError operation response).code = (service.parseError response).code ∧
      (service.parseOperationError operation response).message = (service.parseError response).message ∧
      (500 ≤ (service.parseError response).status → (service.parseOperationError operation response).retryable = true) := by
  have generic : (genericError (service.parseError response) : TypedError Id).kind = .modeled := if_neg known
  rw [parseOperationError]
  cases ladder : (service.sortedByType operation.errors).find? fun id =>
      (service.parseError response).code = (service.errorShape id).name with
  | some id =>
    have name : (service.parseError response).code = (service.errorShape id).name := by simpa using List.find?_some ladder
    refine ⟨rfl, name.symm, rfl, fun server => ?_⟩
    simp only [makeError, server, decide_true, Bool.or_true]
  | none =>
    cases protocol : service.protocol with
    | httpJson header fallback =>
      cases fallback with
      | true =>
        simp only [if_neg known]
        exact ⟨generic, rfl, rfl, fun server => decide_eq_true server⟩
      | false => exact ⟨generic, rfl, rfl, fun server => decide_eq_true server⟩
    | rpcv2Cbor | jsonRpc2 => exact ⟨generic, rfl, rfl, fun server => decide_eq_true server⟩

/-- The response of a client is read by its status and its body. -/
theorem responseError_congr (rpc : service.Rpc) (noHeaders : ∀ id, (service.errorShape id).headerMembers = [])
    {operation : Operation Id} {first second : HttpResponse} (status : first.status = second.status)
    (body : first.body = second.body) : service.responseError operation first = service.responseError operation second := by
  have success : service.isSuccess operation first = service.isSuccess operation second := by
    rw [isSuccess, isSuccess, status, body]
  have parsed : service.parseError first = service.parseError second := by
    have header (headers : Headers) : service.headerCode headers = kUnknownError := by
      rcases rpc with protocol | protocol <;> simp only [headerCode, protocol]
    rw [parseError, parseError, parseRpcError, parseRpcError, parseHttpError, parseHttpError, status, body, header, header]
  have made (id : Id) (error : ParsedError) : service.makeError id first error = service.makeError id second error := by
    rw [makeError, makeError, noHeaders]
    rfl
  have error : service.parseOperationError operation first = service.parseOperationError operation second := by
    rw [parseOperationError, parseOperationError, parsed]
    simp only [made]
  rw [responseError, responseError, success, error]

/-- The document of an error response. -/
def errorDocument (service : Service Id) (status : ℤ) (code message : Bytes) (body : DocumentMap) (id : Document) :
    Document :=
  if service.protocol = .jsonRpc2 then JsonRpc2.errorEnvelope (Int64.ofInt status) code message body id
  else .map ((body.insertOrAssign kTypeMember (.string code)).insertOrAssign kMessageMember (.string message))

section Told

variable {status : ℤ} {code message : Bytes} {body : DocumentMap} {id : Document}

theorem errorFn_body (named : code ≠ []) (told : message ≠ []) :
    (service.errorFn status code message body id).body =
      service.encode (service.errorDocument status code message body id) := by
  rw [errorFn, errorDocument]
  split_ifs with protocol
  · rfl
  · simp only [errorBody, if_neg named, if_neg told]

/-- What a client is told of an error. -/
theorem parseError_errorFn (rpc : service.Rpc) (named : code ≠ []) (told : message ≠ [])
    (server : 100 ≤ status ∧ status < 600)
    {wire : WireForm} (carried : service.Carries wire (service.errorDocument status code message body id)) :
    (service.parseError (service.errorFn status code message body id)).code = sanitizeErrorCode code ∧
      (service.parseError (service.errorFn status code message body id)).message = message ∧
      (service.parseError (service.errorFn status code message body id)).status = status := by
  have sent := @errorFn_body _ service status code message body id named told
  rcases rpc with protocol | protocol
  · have other : service.protocol ≠ .jsonRpc2 := by simp [protocol]
    have header (headers : Headers) : service.headerCode headers = kUnknownError := by simp only [headerCode, protocol]
    have type : OrderedMap.find? kTypeMember ((body.insertOrAssign kTypeMember (.string code)).insertOrAssign kMessageMember
        (.string message)) = some (.string code) := by
      rw [Typed.SerdeCodeGen.find_insertOrAssign_of_ne (by decide), Typed.SerdeCodeGen.find_insertOrAssign_self]
    have text := Typed.SerdeCodeGen.find_insertOrAssign_self kMessageMember (.string message)
      (body.insertOrAssign kTypeMember (.string code))
    have answered : (service.errorFn status code message body id).status = status := by rw [errorFn, if_neg other]; rfl
    rw [Carries, errorDocument, if_neg other, wire.map] at carried
    rw [errorDocument, if_neg other] at sent
    rw [parseError, if_neg other, parseHttpError, sent, carried, answered]
    simp only [header, if_true, documentCode, Except.toOption, Option.getD_some, stringMember, Document.find_map,
      OrderedMap.find?_mapValues, type, text, Option.map_some, Option.some_or, wire.string, and_self]
  · obtain ⟨least, most⟩ := server
    have whole : (Int64.ofInt status).toInt = status := Int64.toInt_ofInt_of_le (by omega) (by omega)
    have type := Typed.SerdeCodeGen.find_insertOrAssign_self kTypeMember (.string code) body
    rw [Carries, errorDocument, if_pos protocol, form_errorEnvelope wire _ named, if_pos told] at carried
    rw [errorDocument, if_pos protocol] at sent
    have read : service.parseRpcError (service.errorFn status code message body id) =
        { status := rpcStatus (Int64.ofInt status)
          code := (stringMember (.map (OrderedMap.mapValues wire.form (body.insertOrAssign kTypeMember (.string code))))
            kTypeMember).elim kUnknownError sanitizeErrorCode
          message := message
          doc := .map (OrderedMap.mapValues wire.form (body.insertOrAssign kTypeMember (.string code))) } := by
      rw [parseRpcError, sent, carried]
      rfl
    rw [parseError, if_pos protocol, read]
    simp only [stringMember, Document.find_map, OrderedMap.find?_mapValues, type, Option.map_some, wire.string,
      Option.elim_some, rpcStatus, whole, least, most, and_self, if_true]

theorem isSuccess_errorFn (rpc : service.Rpc) (named : code ≠ []) (told : message ≠ []) (failed : status ≠ 200)
    {wire : WireForm}
    (carried : service.Carries wire (service.errorDocument status code message body id)) (operation : Operation Id) :
    service.isSuccess operation (service.errorFn status code message body id) = false := by
  have sent := @errorFn_body _ service status code message body id named told
  rcases rpc with protocol | protocol
  · have other : service.protocol ≠ .jsonRpc2 := by simp [protocol]
    have answered : (service.errorFn status code message body id).status = status := by
      rw [errorFn, if_neg other]
      rfl
    simp only [isSuccess, protocol, answered]
    exact decide_eq_false failed
  · rw [Carries, errorDocument, if_pos protocol, form_errorEnvelope wire _ named, if_pos told] at carried
    rw [errorDocument, if_pos protocol] at sent
    simp only [isSuccess, protocol, sent, carried]
    exact Bool.and_false _

/-- A caller gets the error that the server tells of. -/
theorem responseError_errorFn [DecidableEq Id] (rpc : service.Rpc) (named : code ≠ []) (told : message ≠ [])
    (failed : status ≠ 200)
    (server : 100 ≤ status ∧ status < 600) (known : sanitizeErrorCode code ≠ kUnknownError) {wire : WireForm}
    (carried : service.Carries wire (service.errorDocument status code message body id)) (operation : Operation Id) :
    ∃ error, service.responseError operation (service.errorFn status code message body id) = some error ∧
      error.kind = .modeled ∧ error.code = sanitizeErrorCode code ∧ error.message = message ∧
        (500 ≤ status → error.retryable = true) := by
  obtain ⟨code_, message_, status_⟩ := parseError_errorFn rpc named told server carried
  obtain ⟨kind, isCode, isMessage, retried⟩ := @parseOperationError_of_code _ service operation
    (service.errorFn status code message body id) (code_ ▸ known)
  refine ⟨_, ?_, kind, isCode.trans code_, isMessage.trans message_, fun large => retried (status_.symm ▸ large)⟩
  rw [responseError, isSuccess_errorFn rpc named told failed carried, if_neg Bool.false_ne_true]

end Told

end ModeledErrors.Service

namespace Http.Headers

/-- A value that is set is found under other names as little as before. -/
theorem get?_set_of_ne {name other : Bytes} (differs : headerNameEquals name other = false) (headers : Headers)
    (value : Bytes) :
    (headers.set name value).get? other = headers.get? other := by
  have kept : headers.entries.find?
      (fun entry => decide ((!headerNameEquals entry.1 name) = true ∧ headerNameEquals entry.1 other = true)) =
        headers.entries.find? fun entry => headerNameEquals entry.1 other := by
    congr 1
    funext entry
    cases same : headerNameEquals entry.1 other with
    | false => exact decide_eq_false fun both => Bool.false_ne_true both.2
    | true =>
      rw [headerNameEquals, decide_eq_false_iff_not] at differs
      rw [headerNameEquals, decide_eq_true_eq] at same
      have apart : headerNameEquals entry.1 name = false := decide_eq_false fun equal => differs (equal.symm.trans same)
      rw [apart]
      rfl
  rw [set, add, remove, get?, get?, List.find?_append, List.find?_filter, kept, List.find?_singleton,
    if_neg (Bool.eq_false_iff.mp differs), Option.or_none]

end Http.Headers

namespace Typed.SerdeCodeGen

variable {Id : Type*} {serde : SerdeCodeGen Id}

/-- What is sent of a structure is a map. -/
theorem form_struct (wire : WireForm) {id : Id} {members : List (Member Id)}
    (type : (serde.model.shape id).type = .struct members)
    {value : Value} (typed : value.HasType serde.model ⟨id, false⟩) (format : TimestampFormat) :
    ∃ sent, wire.form (serde.serialize value id format) = .map sent := by
  obtain ⟨values, rfl⟩ := exists_struct type typed
  have written :
      serde.serialize (.struct values) id format = .map (OrderedMap.ofEntries (serde.serializeFields values members)) := by
    simp only [serialize, type]
  rw [written, wire.map]
  exact ⟨_, rfl⟩

end Typed.SerdeCodeGen

namespace Server.Router

/-- A handler is called with the request. -/
theorem request_of_dispatch {router : Router} {request : HttpRequest} {entry : RouteEntry} {context : RequestContext}
    (dispatched : router.dispatch request = .ok (entry, context)) : context.request = some request := by
  rw [dispatch] at dispatched
  split at dispatched
  · cases dispatched
  · split at dispatched
    · cases dispatched
    · cases dispatched
      rfl

end Server.Router

namespace Rpc

open JsonRpc2 (Operation)
open Typed (Value)

variable {Id : Type} [DecidableEq Id]

namespace Service

section Sendable

variable (service : Service Id)

def wire : ModeledErrors.Protocol → ValueWire
  | .rpcv2Cbor => .cbor
  | _ => .json

/-- The document is within the limits of the protocol's codec. -/
def Fits (protocol : ModeledErrors.Protocol) (document : Document) : Prop :=
  match protocol with
  | .rpcv2Cbor => document.WellFormed ∧ document.Representable ∧ document.nesting ≤ Cbor.kMaxDepth
  | _ => document.Spelled ∧ (Json.toBackend document).nesting ≤ 512

/-- A value of a shape that the codec of the protocol can send. -/
structure Sendable (protocol : ModeledErrors.Protocol) (value : Value) (id : Id) : Prop where
  typed : value.HasType service.endpoint.serde.model ⟨id, false⟩
  complete : value.Every service.endpoint.serde.model service.endpoint.serde.Complete id
  unhinted : value.Every service.endpoint.serde.model service.endpoint.serde.Unhinted id
  carried : service.endpoint.serde.Carried (wire protocol) value id .epochSeconds

def isIdentifierByte (c : UInt8) : Bool :=
  Decimal.isDigit c || c = '_'.toUInt8 || ('A'.toUInt8 ≤ c && c ≤ 'Z'.toUInt8) || ('a'.toUInt8 ≤ c && c ≤ 'z'.toUInt8)

/-- A name of a model. -/
def Identifier (name : Bytes) : Prop := name ≠ [] ∧ ∀ c ∈ name, isIdentifierByte c = true

/-- What is checked of a service before code is generated for it, and what the libraries promise. -/
structure Valid : Prop where
  serde : service.endpoint.serde.Valid
  lawful : service.endpoint.backend.Lawful
  gzip : ∀ body packed, service.gzip body = .ok packed → service.endpoint.gunzip packed = some body
  inputs : ∀ operation ∈ service.endpoint.operations, ∃ members,
    (service.endpoint.serde.model.shape operation.input).type = .struct members ∧
      (service.endpoint.noModeledInput operation.input = true → members = [])
  outputs : ∀ operation ∈ service.endpoint.operations, ∃ members,
    (service.endpoint.serde.model.shape operation.output).type = .struct members
  named : Identifier service.name ∧ ∀ operation ∈ service.endpoint.operations, Identifier operation.name
  noHeaders : ∀ id, (service.errorShape id).headerMembers = []
  errors : ∀ protocol, (service.errorService protocol).Valid
  apart : ∀ protocol, (service.errorService protocol).NamesApart

end Sendable

section Calls

variable {service : Service Id} (valid : service.Valid) {operation : Operation Id}

include valid

theorem carries_of_fits {protocol : ModeledErrors.Protocol} {document : Document} (fits : Fits protocol document) :
    (service.errorService protocol).Carries (wire protocol).toWireForm document := by
  cases protocol with
  | rpcv2Cbor => exact Cbor.decode_form fits.1 fits.2.1 fits.2.2
  | httpJson | jsonRpc2 =>
    exact Json.decode_encode_jsonForm valid.lawful (Document.stable_jsonForm _ fits.1) fits.2

/-- What was sent of a value is read as the value, but for its NaNs and the unset defaults of inputs. -/
theorem Sendable.arrives {protocol : ModeledErrors.Protocol} {value : Value} {id : Id} {members : List (Typed.Member Id)}
    (type : (service.endpoint.serde.model.shape id).type = .struct members) (sendable : service.Sendable protocol value id) :
    ∃ restored, service.endpoint.serde.deserialize ((wire protocol).form (service.serialize value id), id) = .ok restored ∧
      restored.canonical = (value.fill service.endpoint.serde.model id).canonical := by
  have aggregate : Typed.hasSerdeFunctions (service.endpoint.serde.model.shape id).type = true := by
    rw [type]
    rfl
  exact Typed.SerdeCodeGen.deserialize_form valid.serde aggregate sendable.typed sendable.complete sendable.unhinted
    sendable.carried

omit valid in
/-- What is sent of a structure is a map. -/
theorem Sendable.form_map {protocol : ModeledErrors.Protocol} {value : Value} {id : Id} {members : List (Typed.Member Id)}
    (type : (service.endpoint.serde.model.shape id).type = .struct members) (sendable : service.Sendable protocol value id) :
    ∃ sent, (wire protocol).form (service.serialize value id) = .map sent :=
  Typed.SerdeCodeGen.form_struct _ type sendable.typed .epochSeconds

/-! ## Requests -/

omit valid in
/-- A request as a server gets it: what carries it may add headers, but none that the protocols read. -/
structure Delivered (sent received : HttpRequest) : Prop where
  method : received.method = sent.method
  target : received.target = sent.target
  body : received.body = sent.body
  headers : ∀ name ∈ [ascii "content-encoding", ascii "content-type", ascii "smithy-protocol"],
    received.headers.get? name = sent.headers.get? name

omit valid in
/-- A request with its body compressed or as it was, which its encoding tells. -/
theorem compressed_cases {request sent : HttpRequest} (plain : request.headers.get? (ascii "content-encoding") = none)
    (built : service.compressed operation request = .ok sent) :
    sent = request ∨ operation.compressed = true ∧ ∃ packed, service.gzip request.body = .ok packed ∧
      sent = { request with body := packed, headers := request.headers.set (ascii "content-encoding") (ascii "gzip") } := by
  rw [compressed] at built
  split_ifs at built with large
  · obtain ⟨packed, packedOk, same⟩ := Outcome.bind_eq_ok.mp built
    cases same
    rw [Bool.and_eq_true] at large
    refine .inr ⟨large.1, packed, packedOk, ?_⟩
    rw [plain]
  · cases built
    exact .inl rfl

/-- A request is decompressed to what it was. -/
theorem compressed_delivered {request sent received : HttpRequest}
    (plain : request.headers.get? (ascii "content-encoding") = none)
    (built : service.compressed operation request = .ok sent) (delivered : Delivered sent received) :
    received.method = request.method ∧ received.target = request.target ∧
      (∀ name ∈ [ascii "content-type", ascii "smithy-protocol"], received.headers.get? name = request.headers.get? name) ∧
        (received.headers.get? (ascii "content-encoding") = none ∧ received.body = request.body ∨
          operation.compressed = true ∧ received.headers.get? (ascii "content-encoding") = some (ascii "gzip") ∧
            service.endpoint.gunzip received.body = some request.body) := by
  have encoding := delivered.headers (ascii "content-encoding") (by simp)
  have later {name : Bytes} (inside : name ∈ [ascii "content-type", ascii "smithy-protocol"]) :=
    delivered.headers name (List.mem_cons_of_mem _ inside)
  rcases compressed_cases plain built with rfl | ⟨gzipped, packed, packedOk, rfl⟩
  · exact ⟨delivered.method, delivered.target, fun name inside => later inside, .inl ⟨encoding.trans plain, delivered.body⟩⟩
  · refine ⟨delivered.method, delivered.target, fun name inside => (later inside).trans ?_, .inr ⟨gzipped, ?_, ?_⟩⟩
    · apply Headers.get?_set_of_ne
      revert name
      decide
    · exact encoding.trans (Headers.get?_set_self _ _ _)
    · rw [delivered.body]
      exact valid.gzip _ _ packedOk

/-! ## The rpcv2Cbor route -/

omit valid in
/-- The body as the route decodes it. -/
theorem cborBody_eq {received : HttpRequest} {body : Bytes}
    (packed : received.headers.get? (ascii "content-encoding") = none ∧ received.body = body ∨
      operation.compressed = true ∧ received.headers.get? (ascii "content-encoding") = some (ascii "gzip") ∧
        service.endpoint.gunzip received.body = some body) : service.cborBody operation received = .ok body := by
  rw [cborBody]
  rcases packed with ⟨plain, rfl⟩ | ⟨gzipped, encoding, unpacked⟩
  · rw [plain]
    split_ifs <;> rfl
  · rw [if_pos gzipped, encoding]
    simp only [true_or, if_true, unpacked]

omit valid in
/-- A structure without members has one value. -/
theorem Sendable.eq_empty {protocol : ModeledErrors.Protocol} {value : Value} {id : Id}
    (type : (service.endpoint.serde.model.shape id).type = .struct []) (sendable : service.Sendable protocol value id) :
    (Value.struct []).canonical = (value.fill service.endpoint.serde.model id).canonical := by
  have typed := sendable.typed
  obtain ⟨values, rfl⟩ := Typed.SerdeCodeGen.exists_struct type typed
  rw [Value.HasType] at typed
  obtain ⟨_, members, type', typed⟩ := typed
  cases type.symm.trans type'
  obtain rfl := List.length_eq_zero_iff.mp (Typed.SerdeCodeGen.length_fields typed)
  simp only [Value.fill, type, Value.fillFields]

/-- What is decoded of the input's document is parsed as the input. -/
theorem cborParsed_eq {input : Value} (offered : operation ∈ service.endpoint.operations)
    (sendable : service.Sendable .rpcv2Cbor input operation.input)
    (fits : Fits .rpcv2Cbor (service.serialize input operation.input)) :
    ∃ arrived, service.cborParsed operation
        (if service.endpoint.noModeledInput operation.input then []
          else Cbor.encode (service.serialize input operation.input)) =
          .ok arrived ∧
      arrived.canonical = (input.fill service.endpoint.serde.model operation.input).canonical := by
  obtain ⟨members, type, unit⟩ := valid.inputs operation offered
  rw [cborParsed]
  split_ifs with unmodeled
  · obtain rfl := unit unmodeled
    exact ⟨_, rfl, sendable.eq_empty type⟩
  · obtain ⟨restored, read, same⟩ := sendable.arrives valid type
    have decoded : Cbor.decode (Cbor.encode (service.serialize input operation.input)) =
        .ok ((wire .rpcv2Cbor).form (service.serialize input operation.input)) :=
      Cbor.decode_form fits.1 fits.2.1 fits.2.2
    have some_ : Cbor.encode (service.serialize input operation.input) ≠ [] :=
      List.ne_nil_of_length_pos (Cbor.length_encodeValue_pos _)
    refine ⟨restored, ?_, same⟩
    simp only [cborDocument, if_neg some_, decoded, bind, Except.bind, read]

/-- The route reads the input that the client was given. -/
theorem cborInput_delivered (offered : operation ∈ service.endpoint.operations) {input : Value}
    (sendable : service.Sendable .rpcv2Cbor input operation.input)
    (fits : Fits .rpcv2Cbor (service.serialize input operation.input)) {sent received : HttpRequest}
    (built : service.cborRequest operation input = .ok sent) (delivered : Delivered sent received) :
    received.method = ascii "POST" ∧
      received.target = ascii "/service/" ++ service.name ++ ascii "/operation/" ++ operation.name ∧
        ∃ arrived, service.cborInput operation received = .ok arrived ∧
          arrived.canonical = (input.fill service.endpoint.serde.model operation.input).canonical := by
  obtain ⟨arrived, parsed, same⟩ := cborParsed_eq valid offered sendable fits
  rw [cborRequest] at built
  have accepted (version : received.headers.get? (ascii "smithy-protocol") = some (ascii "rpc-v2-cbor"))
      (media : otherMediaType received = false) {body : Bytes} (unpacked : service.cborBody operation received = .ok body) :
      service.cborInput operation received = service.cborParsed operation body := by
    rw [cborInput, unpacked]
    simp only [bind, Except.bind, version, Option.getD_some, ne_eq, not_true_eq_false, if_false, media, Bool.false_eq_true]
  split_ifs at built parsed with unmodeled
  · obtain ⟨method, target, headers, packed⟩ := compressed_delivered valid (by rfl) built delivered
    refine ⟨method, target, arrived, ?_, same⟩
    rw [accepted ((headers _ (by simp)).trans rfl) _ (cborBody_eq packed)]
    · exact parsed
    · rw [otherMediaType, headers _ (by simp)]
      rfl
  · obtain ⟨method, target, headers, packed⟩ := compressed_delivered valid (by rfl) built delivered
    refine ⟨method, target, arrived, ?_, same⟩
    rw [accepted ((headers _ (by simp)).trans rfl) _ (cborBody_eq packed)]
    · exact parsed
    · rw [otherMediaType, headers _ (by simp)]
      rfl

omit valid in
theorem Identifier.notMem {name : Bytes} (identifier : Identifier name) {c : UInt8} (special : isIdentifierByte c = false) :
    c ∉ name := by
  intro inside
  rw [identifier.2 c inside] at special
  cases special

section Routes

variable {handler : Handler Id}

/-- The pattern of an operation is of names. -/
theorem segments_cborOperation (offered : operation ∈ service.endpoint.operations) :
    ∀ segment ∈ (service.cborOperation handler operation).segments, segment.kind = .literal ∧ Identifier segment.text := by
  intro segment inside
  obtain ⟨text, piece, rfl⟩ := List.mem_map.mp inside
  refine ⟨rfl, ?_⟩
  simp only [List.mem_cons, List.not_mem_nil, or_false] at piece
  rcases piece with rfl | rfl | rfl | rfl
  · exact ⟨by decide, by decide⟩
  · exact valid.named.1
  · exact ⟨by decide, by decide⟩
  · exact valid.named.2 operation offered

theorem admitted_cborOperation (offered : operation ∈ service.endpoint.operations) :
    Server.Admitted (service.cborOperation handler operation).segments where
  named segment inside := (segments_cborOperation valid offered segment inside).2.1
  plain segment inside := (segments_cborOperation valid offered segment inside).2.notMem (by decide)
  literals segment inside _ :=
    have identifier := (segments_cborOperation valid offered segment inside).2
    ⟨identifier.notMem (by decide), identifier.notMem (by decide), identifier.notMem (by decide)⟩
  labels segment inside label := absurd (segments_cborOperation valid offered segment inside).1 label

omit valid in
/-- Operations of different names have different routes. -/
theorem routeShape_cborOperation {other : Operation Id} (differs : operation.name ≠ other.name) :
    (service.cborOperation handler operation).routeShape ≠ (service.cborOperation handler other).routeShape := by
  intro same
  simp only [Server.HttpOperation.routeShape, cborOperation, List.map_cons, List.map_nil, List.foldl_cons, List.foldl_nil,
    Server.shapePiece] at same
  exact differs (List.cons_inj_right _ |>.mp (List.append_cancel_left same))

omit valid in
theorem rejectRouteConflicts_of_pairwise {seen operations : List Server.HttpOperation}
    (apart : operations.Pairwise (·.routeShape ≠ ·.routeShape))
    (unseen : ∀ operation ∈ operations, ∀ existing ∈ seen, existing.routeShape ≠ operation.routeShape) :
    Server.rejectRouteConflicts seen operations = .ok () := by
  induction operations generalizing seen with
  | nil => rfl
  | cons operation operations ih =>
    obtain ⟨first, rest⟩ := List.pairwise_cons.mp apart
    obtain ⟨here, later⟩ := List.forall_mem_cons.mp unseen
    have absent : seen.find? (fun existing => existing.routeShape = operation.routeShape) = none := by
      rw [List.find?_eq_none]
      intro existing inside
      simpa using here existing inside
    rw [Server.rejectRouteConflicts, absent]
    apply ih rest
    intro other inside existing before
    rcases List.mem_append.mp before with old | new
    · exact later other inside existing old
    · exact List.mem_singleton.mp new ▸ first other inside

/-- The request for an operation comes to the route of the operation. -/
theorem cborRouter_route (offered : operation ∈ service.endpoint.unaryOperations) {request : HttpRequest}
    (method : request.method = ascii "POST")
    (target : request.target = ascii "/service/" ++ service.name ++ ascii "/operation/" ++ operation.name) :
    ∃ context : Server.RequestContext, context.request = some request ∧ (service.cborRouter handler).route request =
      { service.cborRoute handler operation request context with operation := operation.name } := by
  have inAll {other : Operation Id} (unary : other ∈ service.endpoint.unaryOperations) :
    other ∈ service.endpoint.operations :=
    (List.mem_filter.mp unary).1
  have unary : Server.unaryOperations (service.endpoint.unaryOperations.map (service.cborOperation handler)) =
      service.endpoint.unaryOperations.map (service.cborOperation handler) := by
    rw [Server.unaryOperations, List.filter_eq_self, List.forall_mem_map]
    exact fun other _ => rfl
  have inside : service.cborOperation handler operation ∈
      Server.unaryOperations (service.endpoint.unaryOperations.map (service.cborOperation handler)) :=
    unary.symm ▸ List.mem_map_of_mem offered
  have admitted : ∀ other ∈ service.endpoint.unaryOperations.map (service.cborOperation handler),
      Server.Admitted other.segments := by
    rw [List.forall_mem_map]
    exact fun other member => admitted_cborOperation valid (inAll member)
  have generated : Server.rejectRouteConflicts [] (service.endpoint.unaryOperations.map (service.cborOperation handler)) =
      .ok () := by
    apply rejectRouteConflicts_of_pairwise
    · rw [List.pairwise_map]
      exact (service.endpoint.named.filter _).imp routeShape_cborOperation
    · exact fun _ _ existing before => absurd before List.not_mem_nil
  have literal : ∀ segment ∈ (service.cborOperation handler operation).segments,
      segment.kind = .literal ∧ Identifier segment.text := segments_cborOperation valid (inAll offered)
  have texts : ∀ segment ∈ (service.cborOperation handler operation).segments, segment.kind ≠ .literal →
      id segment.text ≠ [] := fun segment member label => absurd (literal segment member).1 label
  have written : request.target = (service.cborOperation handler operation).target id [] := by
    have service_ : ascii "/service/" = '/'.toUInt8 :: (ascii "service" ++ ['/'.toUInt8]) := rfl
    have operation_ : ascii "/operation/" = '/'.toUInt8 :: (ascii "operation" ++ ['/'.toUInt8]) := rfl
    have query : (Server.writeQuery [] []).toString = [] := rfl
    rw [target, service_, operation_]
    simp only [Server.HttpOperation.target, Http.writeTarget, cborOperation, List.map_cons, List.map_nil, List.foldl_cons,
      List.foldl_nil, Http.targetPiece, query, List.append_nil, List.nil_append, List.cons_append, List.append_assoc]
  have first : ∀ other ∈ Server.unaryOperations (service.endpoint.unaryOperations.map (service.cborOperation handler)),
      other.method = (service.cborOperation handler operation).method →
        Server.moreSpecific other.segments (service.cborOperation handler operation).segments = true →
          ∀ parsed, Server.normalizedTarget request = .ok parsed →
            (Server.matchSegments other.segments parsed.pathSegments).isSome = false := by
    rw [unary, List.forall_mem_map]
    intro other _ _ better
    simp [cborOperation, Server.moreSpecific, Server.rank] at better
  have back : Server.LeadsBack id (service.cborOperation handler operation).segments := by
    refine ⟨List.cons_ne_nil _ _, ?_, ?_⟩
    · exact fun segment member _ => (literal segment member).2.notMem (by decide)
    · intro segment member greedy
      rw [(literal segment member).1] at greedy
      cases greedy
  have last : ∀ other ∈ Server.unaryOperations (service.endpoint.unaryOperations.map (service.cborOperation handler)),
      Server.GreedyLast other.segments := by
    rw [unary, List.forall_mem_map]
    intro other member segment inside greedy
    have kind := (segments_cborOperation valid (inAll member) segment (List.mem_of_mem_dropLast inside)).1
    rw [kind] at greedy
    cases greedy
  obtain ⟨_, context, dispatched⟩ :=
    (Server.HttpOperation.exists_dispatch_iff admitted generated inside texts [] method written first).mpr ⟨last, back⟩
  refine ⟨context, Server.Router.request_of_dispatch dispatched, ?_⟩
  rw [cborRouter, Server.Router.route, dispatched]
  exact if_pos (valid.named.2 operation (inAll offered)).1

end Routes

/-! ## Answers -/

section Answers

variable (service)

/-- The document of the response with an output. -/
def outputDocument (protocol : ModeledErrors.Protocol) (operation : Operation Id) (output : Value) : Document :=
  match protocol with
  | .rpcv2Cbor => service.serialize output operation.output
  | _ => resultEnvelope (service.serialize output operation.output) (.int 1)

/-- The id that the server echoes to a generated client. -/
def echoedId : ModeledErrors.Protocol → Document
  | .rpcv2Cbor => .null
  | _ => .int 1

/-- A failure with an error that the operation declares, which the codec can send. -/
structure Declared (protocol : ModeledErrors.Protocol) (operation : Operation Id) (id : Id) (detail : Value)
    (error : ModeledErrors.TypedError Id) : Prop where
  failure : (service.errorService protocol).Failure (service.errorOperation operation) id detail error
  sendable : service.Sendable protocol detail id
  keeps : (service.errorService protocol).KeepsMessage id error
  unmarked : kTypeMember ∉ (service.errorService protocol).wireNames id
  refuses : (service.errorService protocol).Refuses (service.errorOperation operation) (service.errorShape id).errorStatus
  fits : Fits protocol ((service.errorService protocol).sentDocument id error (echoedId protocol))

/-- What a handler may return: an output, an error that the operation declares, one that blames the request, or one of
its own. -/
def Answerable (protocol : ModeledErrors.Protocol) (operation : Operation Id) :
    Except (ModeledErrors.TypedError Id) Value → Prop
  | .ok output =>
    service.Sendable protocol output operation.output ∧ Fits protocol (service.outputDocument protocol operation output)
  | .error error =>
    match error.kind with
    | .modeled => ∃ id detail, service.Declared protocol operation id detail error
    | .validation | .serialization => error.message ≠ [] ∧ Fits protocol ((service.errorService protocol).errorDocument 400
        JsonRpc2.kSerializationException error.message [] (echoedId protocol))
    | .transport | .unknown => True

/-- The error of a handler as the caller gets it: of the handler's own errors only that there was one. -/
def ConveyedError (error received : ModeledErrors.TypedError Id) : Prop :=
  match error.kind with
  | .modeled => received.code = error.code ∧ ∃ id detail restored, error.detail = some (id, detail) ∧
      received.detail = some (id, restored) ∧
        restored.canonical = (detail.fill service.endpoint.serde.model id).canonical
  | .validation | .serialization => received.code = JsonRpc2.kSerializationException ∧ received.message = error.message
  | .transport | .unknown => received.code = ascii "InternalFailure" ∧ received.message = ascii "internal failure" ∧
      received.retryable = true

/-- What a handler returns and what the caller gets. -/
def Conveyed (operation : Operation Id) : Except (ModeledErrors.TypedError Id) Value →
    Except (ModeledErrors.TypedError Id) Value → Prop
  | .ok output, .ok received => received.canonical = (output.fill service.endpoint.serde.model operation.output).canonical
  | .error error, .error received => received.kind = .modeled ∧ service.ConveyedError error received
  | _, _ => False

end Answers

/-- A declared error comes to the caller with its detail. -/
theorem Declared.conveyed {protocol : ModeledErrors.Protocol} (rpc : (service.errorService protocol).Rpc) {id : Id}
    {detail : Value} {error : ModeledErrors.TypedError Id} (declared : service.Declared protocol operation id detail error) :
    ∃ received, (service.errorService protocol).responseError (service.errorOperation operation)
        ((service.errorService protocol).errorToResponse error (echoedId protocol)) = some received ∧
      received.kind = .modeled ∧ service.ConveyedError error received := by
  have failure := declared.failure
  have noHttp (header : Bytes) (fallback : Bool) : (service.errorService protocol).protocol ≠ .httpJson header fallback := by
    rcases rpc with same | same <;> simp [same]
  obtain ⟨parsed, document, told⟩ :=
    failure.response (valid.errors protocol) (valid.apart protocol id failure.isError) declared.refuses
    (fun header fallback same => absurd same (noHttp header fallback)) (carries_of_fits valid declared.fits)
  obtain ⟨members, type⟩ := (valid.errors protocol).structures id failure.isError
  obtain ⟨restored, read, same⟩ := declared.sendable.arrives valid type
  have serialized : service.serialize detail id = .map ((service.errorService protocol).detailMembers id error) :=
    failure.serialized (valid.errors protocol)
  have sent := ModeledErrors.Service.find_sentMembers declared.keeps fun _ => declared.unmarked
  have agreed : service.endpoint.serde.deserialize
      (.map (OrderedMap.mapValues (wire protocol).form ((service.errorService protocol).sentMembers id error)), id) =
        .ok restored := by
    rw [← read, serialized, (wire protocol).map]
    apply Typed.SerdeCodeGen.deserialize_agree valid.serde type
    intro member inside
    rw [OrderedMap.find?_mapValues, OrderedMap.find?_mapValues, sent]
    rw [ModeledErrors.Service.wireNames, type]
    exact List.mem_map_of_mem inside
  refine ⟨_, told, rfl, ?_⟩
  rw [ConveyedError, failure.kind]
  exact ⟨failure.code.symm, id, detail, restored, failure.detail,
    @ModeledErrors.Service.makeError_detail _ (service.errorService protocol) id
      (valid.noHeaders id) _ _ agreed _ _ document, same⟩

omit valid in
/-- The envelope that tells of an error of the handler's own. -/
theorem spelled_internal :
    (JsonRpc2.errorEnvelope (Int64.ofInt 500) (ascii "InternalFailure") (ascii "internal failure") [] (.int 1)).Spelled ∧
      (Json.toBackend (JsonRpc2.errorEnvelope (Int64.ofInt 500) (ascii "InternalFailure") (ascii "internal failure") []
        (.int 1))).nesting + 2 ≤ 512 := by
  have plain {text : Bytes} (ascii : text.Plain) : Utf8.Valid text := Utf8.valid_of_ascii ascii
  have data : DocumentMap.insertOrAssign kTypeMember (.string (ascii "InternalFailure")) [] =
      [(kTypeMember, .string (ascii "InternalFailure"))] := rfl
  rw [ModeledErrors.errorEnvelope_eq _ (by decide), if_pos (by decide), data]
  refine ⟨?_, by decide⟩
  simp only [Document.Spelled, Document.MembersSpelled, List.map_cons, List.map_nil, and_true, true_and]
  refine ⟨by decide, plain (by decide),
    ⟨by decide, plain (by decide), plain (by decide), ?_, plain (by decide), plain (by decide)⟩,
    plain (by decide), plain (by decide), plain (by decide)⟩
  exact ⟨by decide, plain (by decide), plain (by decide)⟩

omit valid in
/-- The document that tells of an error of the handler's own. -/
theorem fits_internal {protocol : ModeledErrors.Protocol} (rpc : (service.errorService protocol).Rpc) :
    Fits protocol ((service.errorService protocol).errorDocument 500 (ascii "InternalFailure") (ascii "internal failure") []
      (echoedId protocol)) := by
  rcases rpc with same | same
  · obtain rfl : protocol = .rpcv2Cbor := same
    change Fits .rpcv2Cbor (.map [(kTypeMember, .string (ascii "InternalFailure")),
      (kMessageMember, .string (ascii "internal failure"))])
    refine ⟨?_, ?_, by decide⟩
    · simp only [Document.WellFormed, Document.membersWellFormed]
      decide
    · simp [Document.Representable, Document.membersRepresentable]
  · obtain rfl : protocol = .jsonRpc2 := same
    obtain ⟨spelled, shallow⟩ := spelled_internal
    exact ⟨spelled, Nat.le_of_add_right_le shallow⟩

/-- The error of a handler comes to the caller. -/
theorem error_conveyed {protocol : ModeledErrors.Protocol} (rpc : (service.errorService protocol).Rpc)
    {error : ModeledErrors.TypedError Id} (answerable : service.Answerable protocol operation (.error error)) :
    ∃ received, (service.errorService protocol).responseError (service.errorOperation operation)
        ((service.errorService protocol).errorToResponse error (echoedId protocol)) = some received ∧
      received.kind = .modeled ∧ service.ConveyedError error received := by
  have answered (other : error.kind ≠ .modeled) :
      (service.errorService protocol).errorToResponse error (echoedId protocol) =
        if error.kind = .validation ∨ error.kind = .serialization then
          (service.errorService protocol).errorFn 400 (ascii "SerializationException") error.message [] (echoedId protocol)
        else (service.errorService protocol).errorFn 500 (ascii "InternalFailure") (ascii "internal failure") []
          (echoedId protocol) := by
    rw [ModeledErrors.Service.errorToResponse, if_neg other, ModeledErrors.Service.unmodeledResponse]
    rcases rpc with same | same <;> simp only [same]
  rw [Answerable] at answerable
  simp only [ConveyedError]
  cases kind : error.kind with
  | modeled =>
    rw [kind] at answerable
    obtain ⟨id, detail, declared⟩ := answerable
    obtain ⟨received, told, isModeled, conveyed⟩ := declared.conveyed valid rpc
    rw [ConveyedError, kind] at conveyed
    exact ⟨received, told, isModeled, conveyed⟩
  | validation | serialization =>
    rw [kind] at answerable
    obtain ⟨received, told, isModeled, code, message, _⟩ := ModeledErrors.Service.responseError_errorFn rpc (by decide)
      answerable.1 (by decide) (by decide) (by decide) (carries_of_fits valid answerable.2)
        (service.errorOperation operation)
    rw [answered (by simp [kind])]
    simp only [kind, true_or, or_true, if_true]
    exact ⟨received, told, isModeled, code, message⟩
  | transport | unknown =>
    obtain ⟨received, told, isModeled, code, message, retryable⟩ :=
      ModeledErrors.Service.responseError_errorFn rpc (by decide)
      (by decide) (by decide) (by decide) (by decide) (carries_of_fits valid (fits_internal rpc))
        (service.errorOperation operation)
    rw [answered (by simp [kind])]
    simp only [kind, reduceCtorEq, or_self, if_false]
    exact ⟨received, told, isModeled, code, message, retryable (by decide)⟩

/-! ## Responses -/

omit valid in
/-- A response as the client gets it. -/
structure Returned (sent received : HttpResponse) : Prop where
  status : received.status = sent.status
  body : received.body = sent.body

theorem parsedOutput_eq {protocol : ModeledErrors.Protocol} (offered : operation ∈ service.endpoint.operations)
    {output : Value}
    (sendable : service.Sendable protocol output operation.output) :
    service.Conveyed operation (.ok output)
      (service.parsedOutput operation ((wire protocol).form (service.serialize output operation.output))) := by
  obtain ⟨members, type⟩ := valid.outputs operation offered
  obtain ⟨restored, read, same⟩ := sendable.arrives valid type
  rw [parsedOutput, read]
  exact same

/-- The caller reads the output of the handler. -/
theorem readCbor_output (offered : operation ∈ service.endpoint.operations) {output : Value}
    (answerable : service.Answerable .rpcv2Cbor operation (.ok output)) {response : HttpResponse}
    (returned : Returned (service.cborResponse operation output) response) :
    service.Conveyed operation (.ok output) (service.readCbor operation response) := by
  obtain ⟨sendable, wellFormed, window, shallow⟩ := answerable
  obtain ⟨members, type⟩ := valid.outputs operation offered
  have success : (service.errorService .rpcv2Cbor).responseError (service.errorOperation operation) response = none :=
    if_pos (decide_eq_true returned.status)
  have members_ : service.members operation.output = members := by rw [Service.members, type]
  have some_ : response.body.isEmpty = false := by
    rw [returned.body]
    exact List.isEmpty_eq_false_iff.mpr (List.ne_nil_of_length_pos (Cbor.length_encodeValue_pos _))
  have decoded : Cbor.decode response.body = .ok ((wire .rpcv2Cbor).form (service.serialize output operation.output)) := by
    rw [returned.body]
    exact Cbor.decode_form wellFormed window shallow
  rw [readCbor, success, members_]
  simp only [some_, Bool.and_false, Bool.false_eq_true, if_false, decoded]
  split_ifs with none_
  · subst none_
    exact sendable.eq_empty type
  · exact parsedOutput_eq valid offered sendable

/-- The caller reads the error of the handler. -/
theorem readCbor_error {error : ModeledErrors.TypedError Id}
    (answerable : service.Answerable .rpcv2Cbor operation (.error error))
    {response : HttpResponse}
    (returned : Returned ((service.errorService .rpcv2Cbor).errorToResponse error .null) response) :
    service.Conveyed operation (.error error) (service.readCbor operation response) := by
  obtain ⟨received, told, isModeled, conveyed⟩ := error_conveyed valid (.inl rfl) answerable
  have same : (service.errorService .rpcv2Cbor).responseError (service.errorOperation operation) response = _ :=
    ModeledErrors.Service.responseError_congr (.inl rfl) valid.noHeaders returned.status returned.body
  rw [readCbor, same.trans told]
  exact ⟨isModeled, conveyed⟩

section Refused

variable (service)

/-- The document of the response to an input that its validators refuse. -/
def validationDocument (protocol : ModeledErrors.Protocol) (failures : List JsonRpc2.ValidationFailure) : Document :=
  (service.errorService protocol).errorDocument 400 (ascii "smithy.framework#ValidationException")
    (validationSummary failures)
    [(ascii "fieldList", validationFields failures)] (echoedId protocol)

/-- What a caller gets whose input the validators refuse. -/
def Refused (failures : List JsonRpc2.ValidationFailure) : Except (ModeledErrors.TypedError Id) Value → Prop
  | .ok _ => False
  | .error error =>
    error.kind = .modeled ∧ error.code = ascii "ValidationException" ∧ error.message = validationSummary failures

end Refused

omit valid in
theorem validationSummary_ne_nil (failures : List JsonRpc2.ValidationFailure) : validationSummary failures ≠ [] := by
  rw [validationSummary]
  apply List.append_ne_nil_of_left_ne_nil
  exact List.append_ne_nil_of_right_ne_nil _ (by decide)

/-- The caller is told what the validators found. -/
theorem refusal_told {protocol : ModeledErrors.Protocol} (rpc : (service.errorService protocol).Rpc)
    {failures : List JsonRpc2.ValidationFailure} (fits : Fits protocol (service.validationDocument protocol failures)) :
    ∃ received, (service.errorService protocol).responseError (service.errorOperation operation)
        ((service.errorService protocol).errorFn 400 (ascii "smithy.framework#ValidationException")
          (validationSummary failures)
          [(ascii "fieldList", validationFields failures)] (echoedId protocol)) = some received ∧
      received.kind = .modeled ∧ received.code = ascii "ValidationException" ∧
        received.message = validationSummary failures := by
  obtain ⟨received, told, isModeled, code, message, _⟩ := ModeledErrors.Service.responseError_errorFn rpc (by decide)
    (validationSummary_ne_nil failures) (by decide) (by decide) (by decide) (carries_of_fits valid fits)
    (service.errorOperation operation)
  exact ⟨received, told, isModeled, code, message⟩

omit valid in
theorem cborValidationResponse_eq (failures : List JsonRpc2.ValidationFailure) : service.cborValidationResponse failures =
    (service.errorService .rpcv2Cbor).errorFn 400 (ascii "smithy.framework#ValidationException") (validationSummary failures)
      [(ascii "fieldList", validationFields failures)] (echoedId .rpcv2Cbor) := by
  have other : (service.errorService .rpcv2Cbor).protocol ≠ .jsonRpc2 := by simp [errorService]
  rw [cborValidationResponse, cborError, ModeledErrors.Service.errorFn, if_neg other]

/-- The caller reads the failures of the validators. -/
theorem readCbor_refused {failures : List JsonRpc2.ValidationFailure}
    (fits : Fits .rpcv2Cbor (service.validationDocument .rpcv2Cbor failures)) {response : HttpResponse}
    (returned : Returned (service.cborValidationResponse failures) response) :
    Refused failures (service.readCbor operation response) := by
  obtain ⟨received, told, refused⟩ := @refusal_told _ _ service valid operation _ (.inl rfl) _ fits
  have same : (service.errorService .rpcv2Cbor).responseError (service.errorOperation operation) response =
      (service.errorService .rpcv2Cbor).responseError (service.errorOperation operation)
        (service.cborValidationResponse failures) :=
    ModeledErrors.Service.responseError_congr (.inl rfl) valid.noHeaders returned.status returned.body
  rw [readCbor, same, cborValidationResponse_eq, told]
  exact refused

/-- A call of an rpcv2Cbor operation: the route of the operation hands its handler the input that the caller gave, with
the unset defaults, and the caller gets what the handler returns; or it is told the failures of the validators. -/
theorem cbor_call (offered : operation ∈ service.endpoint.unaryOperations) {input : Value}
    (sendable : service.Sendable .rpcv2Cbor input operation.input)
    (fits : Fits .rpcv2Cbor (service.serialize input operation.input)) {sent request : HttpRequest}
    (built : service.cborRequest operation input = .ok sent) (delivered : Delivered sent request) {handler : Handler Id}
    (answerable : ∀ arrived context,
      arrived.canonical = (input.fill service.endpoint.serde.model operation.input).canonical →
      service.Answerable .rpcv2Cbor operation (handler operation arrived context))
    (refusable : ∀ arrived, arrived.canonical = (input.fill service.endpoint.serde.model operation.input).canonical →
      service.validationFailures operation arrived ≠ [] →
        Fits .rpcv2Cbor (service.validationDocument .rpcv2Cbor (service.validationFailures operation arrived)))
    {response : HttpResponse} (returned : Returned ((service.cborRouter handler).route request) response) :
    ∃ arrived context, arrived.canonical = (input.fill service.endpoint.serde.model operation.input).canonical ∧
      context.request = some request ∧
        if service.validationFailures operation arrived = [] then
          service.Conveyed operation (handler operation arrived context) (service.readCbor operation response)
        else Refused (service.validationFailures operation arrived) (service.readCbor operation response) := by
  have inAll : operation ∈ service.endpoint.operations := (List.mem_filter.mp offered).1
  obtain ⟨method, target, arrived, parsed, same⟩ := cborInput_delivered valid inAll sendable fits built delivered
  obtain ⟨context, isRequest, routed⟩ := @cborRouter_route _ _ service valid operation handler offered request method target
  refine ⟨arrived, context, same, isRequest, ?_⟩
  have answer :
      service.cborRoute handler operation request context = service.cborAnswer handler operation arrived context := by
    rw [cborRoute, parsed]
  rw [routed, answer, cborAnswer] at returned
  split_ifs with accepted
  · rw [accepted] at returned
    have result := answerable arrived context same
    cases answered : handler operation arrived context with
    | ok output =>
      rw [answered] at result returned
      exact readCbor_output valid inAll result ⟨returned.status, returned.body⟩
    | error error =>
      rw [answered] at result returned
      exact readCbor_error valid result ⟨returned.status, returned.body⟩
  · have some_ : (!(service.validationFailures operation arrived).isEmpty) = true := by
      rw [List.isEmpty_eq_false_iff.mpr accepted]
      rfl
    rw [if_pos some_] at returned
    exact readCbor_refused valid (refusable arrived same accepted) ⟨returned.status, returned.body⟩

/-! ## The jsonRpc2 route -/

omit valid in
/-- A failure's text is never empty, and its document is that of the envelope. -/
theorem validationErrorResponse_eq (failures : List JsonRpc2.ValidationFailure) (id : Document) :
    JsonRpc2.validationErrorResponse failures id =
      JsonRpc2.errorEnvelope 400 (ascii "smithy.framework#ValidationException") (validationSummary failures)
        [(ascii "fieldList", validationFields failures)] id := rfl

omit valid in
/-- The endpoint has one route, which takes every request for its root. -/
theorem jsonRpcRouter_route {handler : Handler Id} {request : HttpRequest} (method : request.method = ascii "POST")
    (target : request.target = ascii "/") : ∃ context : Server.RequestContext, context.request = some request ∧
      (service.jsonRpcRouter handler).route request = service.jsonRpcRoute handler request context := by
  have root : Http.parseRequestTarget (ascii "/") = .ok {} := by
    have query : Http.parseQuery [] = .ok [] := by
      rw [Http.parseQuery_last List.not_mem_nil]
      rfl
    have path : Http.parsePath [] = .ok [] := by
      rw [Http.parsePath]
      rfl
    have cut : Delimited.cut '?'.toUInt8 (ascii "/") = (ascii "/", none) := by decide
    rw [Http.parseRequestTarget, cut]
    simp only [Option.getD_none, query]
    change (Http.parsePath []).bind _ = _
    rw [path]
    rfl
  have normalized : Server.normalizedTarget request = .ok {} := by
    rw [Server.normalizedTarget, target, root]
    rfl
  have found : Server.findBest Server.RouteEntry.segments (service.jsonRpcRouter handler).routes request.method [] =
      some ⟨[], service.jsonRpcRoute handler, []⟩ := by
    rw [method]
    rfl
  have dispatched : (service.jsonRpcRouter handler).dispatch request =
      .ok (⟨[], service.jsonRpcRoute handler, []⟩, { request := some request }) := by
    rw [Server.Router.dispatch, normalized]
    simp only [found]
    rfl
  refine ⟨_, Server.Router.request_of_dispatch dispatched, ?_⟩
  rw [Server.Router.route, dispatched]
  exact if_neg (not_not.mpr rfl)

omit valid in
/-- The body as the endpoint decodes it. -/
theorem requestBody_eq (offered : operation ∈ service.endpoint.unaryOperations) {received : HttpRequest} {body : Bytes}
    (packed : received.headers.get? (ascii "content-encoding") = none ∧ received.body = body ∨
      operation.compressed = true ∧ received.headers.get? (ascii "content-encoding") = some (ascii "gzip") ∧
        service.endpoint.gunzip received.body = some body) : service.endpoint.requestBody received = .ok body := by
  rw [JsonRpc2.Service.requestBody]
  rcases packed with ⟨plain, rfl⟩ | ⟨gzipped, encoding, unpacked⟩
  · rw [plain]
    split_ifs <;> rfl
  · have any : service.endpoint.unaryOperations.any (·.compressed) = true :=
      List.any_eq_true.mpr ⟨operation, offered, gzipped⟩
    rw [if_pos any, encoding]
    simp only [true_or, if_true, unpacked]

omit valid in
theorem callEnvelope_eq (input : Value) : service.callEnvelope operation input =
    (kIdMember, .int 1) :: (kVersionMember, .string kVersionValue) ::
      (EventStream.JsonRpc.kMethodMember, .string operation.name) ::
        if service.endpoint.noModeledInput operation.input then []
        else [(EventStream.JsonRpc.kParamsMember, service.serialize input operation.input)] := by
  rw [callEnvelope]
  split_ifs <;> rfl

omit valid in
/-- An input is handed on unless its validators find failures. -/
theorem handle_eq {params id : Document} {arrived : Value}
    (parsed : service.endpoint.noModeledInput operation.input = true ∧ arrived = .struct [] ∨
      service.endpoint.noModeledInput operation.input = false ∧ (∃ members, params = .map members) ∧
        service.endpoint.serde.deserialize (params, operation.input) = .ok arrived) :
    service.endpoint.handle operation params id =
      if service.validationFailures operation arrived = [] then .ok arrived
      else .error (JsonRpc2.validationErrorResponse (service.validationFailures operation arrived) id) := by
  have guarded : service.endpoint.guard (service.endpoint.constrained service.endpoint.operations) operation arrived id =
      if service.validationFailures operation arrived = [] then .ok ()
      else .error (JsonRpc2.validationErrorResponse (service.validationFailures operation arrived) id) := by
    rw [JsonRpc2.Service.guard, validationFailures]
    split_ifs <;> simp_all
  unfold JsonRpc2.Service.handle
  rcases parsed with ⟨unmodeled, rfl⟩ | ⟨modeled, ⟨members, rfl⟩, read⟩
  · simp only [unmodeled, if_true, bind, Except.bind, guarded]
    split_ifs <;> rfl
  · have input : service.endpoint.parsedInput operation (.map members) id = .ok arrived := by
      rw [JsonRpc2.Service.parsedInput, read]
    rw [if_neg (Bool.eq_false_iff.mp modeled)]
    change (service.endpoint.parsedInput operation (.map members) id).bind (fun input =>
      (service.endpoint.guard (service.endpoint.constrained service.endpoint.operations) operation input id).bind
        fun _ => .ok input) = _
    rw [input]
    simp only [Except.bind, guarded]
    split_ifs <;> rfl

/-- What `Handle<Op>` makes of an input for a generated client. -/
def jsonRpcAnswer (service : Service Id) (handler : Handler Id) (operation : Operation Id) (arrived : Value)
    (context : Server.RequestContext) : HttpResponse :=
  if service.validationFailures operation arrived = [] then
    match handler operation arrived context with
    | .error error => (service.errorService .jsonRpc2).errorToResponse error (.int 1)
    | .ok output => service.jsonResponse (service.outputDocument .jsonRpc2 operation output)
  else service.jsonResponse (JsonRpc2.validationErrorResponse (service.validationFailures operation arrived) (.int 1))

omit valid in
/-- The ladder finds the operation, since no other has its name. -/
theorem find_method (offered : operation ∈ service.endpoint.unaryOperations) :
    service.endpoint.unaryOperations.find? (·.name = operation.name) = some operation := by
  have distinct : (service.endpoint.unaryOperations.map JsonRpc2.Operation.name).Nodup :=
    List.pairwise_map.mpr (service.endpoint.named.filter _)
  have found := Typed.SerdeCodeGen.find?_of_nodup distinct offered
  simp only [eq_comm] at found ⊢
  exact found

/-- The envelope of a call of a generated client, with its params or none. -/
def callFrame (operation : Operation Id) (params : DocumentMap) : Document :=
  .map ((kIdMember, .int 1) :: (kVersionMember, .string kVersionValue) ::
    (EventStream.JsonRpc.kMethodMember, .string operation.name) :: params)

omit valid in
/-- An operation's handler is called for its frame. -/
theorem jsonRpcRoute_frame (offered : operation ∈ service.endpoint.unaryOperations) {received : HttpRequest} {body : Bytes}
    (unpacked : service.endpoint.requestBody received = .ok body) (media : JsonRpc2.Service.otherMediaType received = false)
    {params : DocumentMap} (decoded : Json.decode service.endpoint.backend body = .ok (callFrame operation params))
    {arrived : Value}
    (parsed : service.endpoint.noModeledInput operation.input = true ∧ arrived = .struct [] ∨
      service.endpoint.noModeledInput operation.input = false ∧
        (∃ members, JsonRpc2.Service.paramsOf (callFrame operation params) = .map members) ∧
          service.endpoint.serde.deserialize (JsonRpc2.Service.paramsOf (callFrame operation params), operation.input) =
            .ok arrived)
    (handler : Handler Id) (context : Server.RequestContext) : service.jsonRpcRoute handler received context =
      { service.jsonRpcAnswer handler operation arrived context with operation := operation.name } := by
  have isMap : JsonRpc2.Service.isMap (callFrame operation params) = true := rfl
  have version : JsonRpc2.Service.isVersion2 (callFrame operation params) = true := rfl
  have named : (callFrame operation params).find EventStream.JsonRpc.kMethodMember = some (.string operation.name) := rfl
  have echoed : JsonRpc2.Service.idOf (callFrame operation params) = .int 1 := rfl
  have answer : service.handle handler operation (JsonRpc2.Service.paramsOf (callFrame operation params)) (.int 1) context =
      service.jsonRpcAnswer handler operation arrived context := by
    rw [Service.handle, handle_eq parsed, jsonRpcAnswer]
    split_ifs
    · dsimp only
      cases handler operation arrived context <;> rfl
    · rfl
  simp only [jsonRpcRoute, unpacked, media, Bool.false_eq_true, if_false, decoded, isMap, Bool.not_true, version, dispatch,
    named, find_method offered, echoed, answer]

/-- The endpoint reads the call that the client made. -/
theorem jsonRpcRoute_delivered (offered : operation ∈ service.endpoint.unaryOperations) {input : Value}
    (sendable : service.Sendable .jsonRpc2 input operation.input)
    (fits : Fits .jsonRpc2 (.map (service.callEnvelope operation input))) {sent received : HttpRequest}
    (built : service.jsonRpcRequest operation input = .ok sent) (delivered : Delivered sent received) :
    received.method = ascii "POST" ∧ received.target = ascii "/" ∧
      ∃ arrived, arrived.canonical = (input.fill service.endpoint.serde.model operation.input).canonical ∧
        ∀ handler context, service.jsonRpcRoute handler received context =
          { service.jsonRpcAnswer handler operation arrived context with operation := operation.name } := by
  have inAll : operation ∈ service.endpoint.operations := (List.mem_filter.mp offered).1
  obtain ⟨members, type, unit⟩ := valid.inputs operation inAll
  obtain ⟨method, target, headers, packed⟩ := compressed_delivered valid (by rfl) built delivered
  refine ⟨method, target, ?_⟩
  have unpacked := requestBody_eq offered packed
  have media : JsonRpc2.Service.otherMediaType received = false := by
    rw [JsonRpc2.Service.otherMediaType, headers _ (by simp)]
    rfl
  have decoded : Json.decode service.endpoint.backend
      (Json.encode service.endpoint.backend (.map (service.callEnvelope operation input))) =
        .ok ((wire .jsonRpc2).form (.map (service.callEnvelope operation input))) :=
    Json.decode_encode_jsonForm valid.lawful (Document.stable_jsonForm _ fits.1) fits.2
  -- The members of the envelope but its params come back as they are.
  have framed : (wire .jsonRpc2).form (.map (service.callEnvelope operation input)) = callFrame operation
      (if service.endpoint.noModeledInput operation.input then []
        else [(EventStream.JsonRpc.kParamsMember, (wire .jsonRpc2).form (service.serialize input operation.input))]) := by
    rw [callEnvelope_eq, (wire .jsonRpc2).map]
    split_ifs <;>
      simp only [OrderedMap.mapValues, List.map_cons, List.map_nil, (wire .jsonRpc2).int, (wire .jsonRpc2).string, callFrame]
  rw [framed] at decoded
  cases unmodeled : service.endpoint.noModeledInput operation.input with
  | true =>
    obtain rfl := unit unmodeled
    exact ⟨.struct [], sendable.eq_empty type, jsonRpcRoute_frame offered unpacked media decoded (.inl ⟨unmodeled, rfl⟩)⟩
  | false =>
    obtain ⟨restored, read, same⟩ := sendable.arrives valid type
    obtain ⟨sentMembers, written⟩ := sendable.form_map type
    have params : JsonRpc2.Service.paramsOf (callFrame operation [(EventStream.JsonRpc.kParamsMember, .map sentMembers)]) =
        .map sentMembers := rfl
    rw [unmodeled, if_neg Bool.false_ne_true, written] at decoded
    refine ⟨restored, same, jsonRpcRoute_frame offered unpacked media decoded (.inr ⟨unmodeled, ⟨sentMembers, params⟩, ?_⟩)⟩
    rw [params, ← written, read]

section Read

variable {response : HttpResponse}

/-- The caller reads the output of the handler. -/
theorem readJsonRpc_output (offered : operation ∈ service.endpoint.operations) {output : Value}
    (answerable : service.Answerable .jsonRpc2 operation (.ok output))
    (returned : Returned (service.jsonResponse (service.outputDocument .jsonRpc2 operation output)) response) :
    service.Conveyed operation (.ok output) (service.readJsonRpc operation response) := by
  obtain ⟨sendable, fits⟩ := answerable
  obtain ⟨members, type⟩ := valid.outputs operation offered
  have members_ : service.members operation.output = members := by rw [Service.members, type]
  have decoded : Json.decode service.endpoint.backend response.body =
      .ok (.map [(kIdMember, .int 1), (kVersionMember, .string kVersionValue),
        (ascii "result", (wire .jsonRpc2).form (service.serialize output operation.output))]) := by
    have read : Json.decode service.endpoint.backend response.body =
        .ok ((wire .jsonRpc2).form (service.outputDocument .jsonRpc2 operation output)) := by
      rw [returned.body]
      exact Json.decode_encode_jsonForm valid.lawful (Document.stable_jsonForm _ fits.1) fits.2
    have written : service.outputDocument .jsonRpc2 operation output = .map [(kIdMember, .int 1),
        (kVersionMember, .string kVersionValue), (ascii "result", service.serialize output operation.output)] := rfl
    rw [read, written, (wire .jsonRpc2).map]
    simp only [OrderedMap.mapValues, List.map_cons, List.map_nil, (wire .jsonRpc2).int, (wire .jsonRpc2).string]
  have success : (service.errorService .jsonRpc2).responseError (service.errorOperation operation) response = none := by
    have status : response.status = 200 := returned.status
    have accepted : (service.errorService .jsonRpc2).isSuccess (service.errorOperation operation) response = true := by
      have decodes :
        (service.errorService .jsonRpc2).decode response.body = Json.decode service.endpoint.backend response.body :=
        rfl
      have protocol : (service.errorService .jsonRpc2).protocol = .jsonRpc2 := rfl
      simp only [ModeledErrors.Service.isSuccess, protocol, status, decide_true, Bool.true_and, decodes, decoded]
      rfl
    rw [ModeledErrors.Service.responseError, accepted, if_pos rfl]
  have found : (Json.decode service.endpoint.backend response.body).toOption.bind (Document.find (ascii "result")) =
      some ((wire .jsonRpc2).form (service.serialize output operation.output)) := by
    rw [decoded]
    rfl
  rw [readJsonRpc, success, members_]
  simp only [found]
  split_ifs with none_
  · subst none_
    exact sendable.eq_empty type
  · exact parsedOutput_eq valid offered sendable

/-- The caller reads the error of the handler. -/
theorem readJsonRpc_error {error : ModeledErrors.TypedError Id}
    (answerable : service.Answerable .jsonRpc2 operation (.error error))
    (returned : Returned ((service.errorService .jsonRpc2).errorToResponse error (.int 1)) response) :
    service.Conveyed operation (.error error) (service.readJsonRpc operation response) := by
  obtain ⟨received, told, isModeled, conveyed⟩ := error_conveyed valid (.inr rfl) answerable
  have same : (service.errorService .jsonRpc2).responseError (service.errorOperation operation) response = _ :=
    ModeledErrors.Service.responseError_congr (.inr rfl) valid.noHeaders returned.status returned.body
  rw [readJsonRpc, same.trans told]
  exact ⟨isModeled, conveyed⟩

omit valid in
theorem jsonResponse_validation (failures : List JsonRpc2.ValidationFailure) :
    service.jsonResponse (JsonRpc2.validationErrorResponse failures (.int 1)) =
      (service.errorService .jsonRpc2).errorFn 400 (ascii "smithy.framework#ValidationException")
        (validationSummary failures)
        [(ascii "fieldList", validationFields failures)] (echoedId .jsonRpc2) := by
  have protocol : (service.errorService .jsonRpc2).protocol = .jsonRpc2 := rfl
  rw [validationErrorResponse_eq, ModeledErrors.Service.errorFn, if_pos protocol]
  rfl

/-- The caller reads the failures of the validators. -/
theorem readJsonRpc_refused {failures : List JsonRpc2.ValidationFailure}
    (fits : Fits .jsonRpc2 (service.validationDocument .jsonRpc2 failures))
    (returned : Returned (service.jsonResponse (JsonRpc2.validationErrorResponse failures (.int 1))) response) :
    Refused failures (service.readJsonRpc operation response) := by
  obtain ⟨received, told, refused⟩ := @refusal_told _ _ service valid operation _ (.inr rfl) _ fits
  have same : (service.errorService .jsonRpc2).responseError (service.errorOperation operation) response =
      (service.errorService .jsonRpc2).responseError (service.errorOperation operation)
        (service.jsonResponse (JsonRpc2.validationErrorResponse failures (.int 1))) :=
    ModeledErrors.Service.responseError_congr (.inr rfl) valid.noHeaders returned.status returned.body
  rw [readJsonRpc, same, jsonResponse_validation, told]
  exact refused

end Read

/-- A call of a jsonRpc2 operation: the endpoint hands the operation's handler the input that the caller gave, with the
unset defaults, and the caller gets what the handler returns; or it is told the failures of the validators. -/
theorem json_rpc_call (offered : operation ∈ service.endpoint.unaryOperations) {input : Value}
    (sendable : service.Sendable .jsonRpc2 input operation.input)
    (fits : Fits .jsonRpc2 (.map (service.callEnvelope operation input))) {sent request : HttpRequest}
    (built : service.jsonRpcRequest operation input = .ok sent) (delivered : Delivered sent request) {handler : Handler Id}
    (answerable : ∀ arrived context,
      arrived.canonical = (input.fill service.endpoint.serde.model operation.input).canonical →
      service.Answerable .jsonRpc2 operation (handler operation arrived context))
    (refusable : ∀ arrived, arrived.canonical = (input.fill service.endpoint.serde.model operation.input).canonical →
      service.validationFailures operation arrived ≠ [] →
        Fits .jsonRpc2 (service.validationDocument .jsonRpc2 (service.validationFailures operation arrived)))
    {response : HttpResponse} (returned : Returned ((service.jsonRpcRouter handler).route request) response) :
    ∃ arrived context, arrived.canonical = (input.fill service.endpoint.serde.model operation.input).canonical ∧
      context.request = some request ∧
        if service.validationFailures operation arrived = [] then
          service.Conveyed operation (handler operation arrived context) (service.readJsonRpc operation response)
        else Refused (service.validationFailures operation arrived) (service.readJsonRpc operation response) := by
  have inAll : operation ∈ service.endpoint.operations := (List.mem_filter.mp offered).1
  obtain ⟨method, target, arrived, same, answer⟩ := jsonRpcRoute_delivered valid offered sendable fits built delivered
  obtain ⟨context, isRequest, routed⟩ := @jsonRpcRouter_route _ _ service handler request method target
  refine ⟨arrived, context, same, isRequest, ?_⟩
  rw [routed, answer, jsonRpcAnswer] at returned
  split_ifs at returned ⊢ with accepted
  · have result := answerable arrived context same
    cases answered : handler operation arrived context with
    | ok output =>
      rw [answered] at result returned
      exact readJsonRpc_output valid inAll result ⟨returned.status, returned.body⟩
    | error error =>
      rw [answered] at result returned
      exact readJsonRpc_error valid result ⟨returned.status, returned.body⟩
  · exact readJsonRpc_refused valid (refusable arrived same accepted) ⟨returned.status, returned.body⟩

end Calls

/-! ## A greeting -/

/-- A name, a greeting, and the string in them. -/
inductive GreetingId where
  | greetInput | greetOutput | text
deriving DecidableEq

def greetingShape : GreetingId → Typed.Shape GreetingId
  | .greetInput =>
    { type := .struct [{ target := .text, memberName := ascii "name" }], typeName := ascii "GreetInput", input := true }
  | .greetOutput =>
    { type := .struct [{ target := .text, memberName := ascii "greeting" }], typeName := ascii "GreetOutput" }
  | .text => { type := .string }

def greetingSerde : Typed.SerdeCodeGen GreetingId where
  model :=
    { shape := greetingShape
      stringKeys := by
        rintro (_ | _ | _) key value sparse ⟨⟩
      grounded := Typed.Model.grounded_of_optional (by rintro (_ | _ | _) members ⟨⟩ <;> decide) }

def greet : Operation GreetingId := { name := ascii "Greet", input := .greetInput, output := .greetOutput }

/-- A service of one operation, which has no errors. -/
def greetings : Service GreetingId where
  endpoint :=
    { backend := Json.Standard.library
      serde := greetingSerde
      shapes :=
        { ids := {.greetInput, .text}
          shape
            | .greetInput => { kind := .structureShape [{ target := .text }] }
            | _ => { kind := .simpleShape }
          closed := by decide
          stringKeys := by
            rintro (_ | _ | _) key value ⟨⟩ }
      members
        | .greetInput => [{ target := .text }]
        | _ => []
      order := by
        rintro (_ | _ | _) <;> exact .refl _
      operations := [greet]
      named := List.pairwise_singleton _ _
      known := by decide
      noModeledInput := fun _ => false
      streamMember := fun _ => none
      memberChecks := fun _ _ => []
      gunzip := some }
  name := ascii "Greetings"
  errorShape _ := { namespace_ := ascii "example", name := ascii "Refused" }
  errors _ := []
  gzip := .ok

theorem greetingSerde_valid : greetingSerde.Valid where
  fields := by
    rintro (_ | _ | _) members ⟨⟩
    · decide
    · decide
  tags := by
    rintro (_ | _ | _) members discriminator ⟨⟩
  values := by
    rintro (_ | _ | _) values ⟨⟩
  alternatives := by
    rintro (_ | _ | _) members discriminator ⟨⟩

theorem greetings_valid : greetings.Valid where
  serde := greetingSerde_valid
  lawful := Json.Standard.library_lawful
  gzip := by
    rintro body packed ⟨⟩
    rfl
  inputs := by
    intro operation offered
    obtain rfl := List.mem_singleton.mp offered
    exact ⟨_, rfl, fun unmodeled => absurd unmodeled Bool.false_ne_true⟩
  outputs := by
    intro operation offered
    obtain rfl := List.mem_singleton.mp offered
    exact ⟨_, rfl⟩
  named := by
    refine ⟨⟨by decide, by decide⟩, fun operation offered => ?_⟩
    obtain rfl := List.mem_singleton.mp offered
    exact ⟨by decide, by decide⟩
  noHeaders _ := rfl
  errors protocol :=
    { serde := greetingSerde_valid
      structures := fun _ inside => absurd inside List.not_mem_nil
      types := fun _ inside => absurd inside List.not_mem_nil
      colons := fun _ inside => absurd inside List.not_mem_nil
      hashes := fun _ inside => absurd inside List.not_mem_nil }
  apart _ _ inside := absurd inside List.not_mem_nil

def theName : Value := .struct [.engaged (.string (ascii "Ada"))]

def theGreeting : Value := .struct [.engaged (.string (ascii "Hello"))]

/-- A text can be sent as an input or an output. -/
theorem text_sendable (protocol : ModeledErrors.Protocol) (text : Bytes) {id : GreetingId} (aggregate : id ≠ .text) :
    greetings.Sendable protocol (.struct [.engaged (.string text)]) id where
  typed := by
    cases id <;> simp_all [Value.HasType, Value.FieldsHaveType, greetings, greetingSerde, greetingShape,
      Typed.Model.memberSlot, Typed.plain, Typed.populated, Typed.defaulted]
  complete := by
    cases id <;> simp_all [Value.Every, Value.FieldsEvery, greetings, greetingSerde, greetingShape,
      Typed.SerdeCodeGen.Complete]
  unhinted := by
    cases id <;> simp_all [Value.Every, Value.FieldsEvery, greetings, greetingSerde, greetingShape,
      Typed.SerdeCodeGen.Unhinted]
  carried := by
    cases id <;> simp_all [Typed.SerdeCodeGen.Carried, Typed.SerdeCodeGen.FieldsCarried, greetings, greetingSerde,
      greetingShape]

theorem theName_document : greetings.serialize theName .greetInput = .map [(ascii "name", .string (ascii "Ada"))] := by
  simp only [theName, Service.serialize, Typed.SerdeCodeGen.serialize, greetings, greetingSerde, greetingShape]
  rfl

theorem theGreeting_document :
    greetings.serialize theGreeting .greetOutput = .map [(ascii "greeting", .string (ascii "Hello"))] := by
  simp only [theGreeting, Service.serialize, Typed.SerdeCodeGen.serialize, greetings, greetingSerde, greetingShape]
  rfl

theorem greetings_accepts (input : Value) : greetings.validationFailures greet input = [] := by
  have none_ : greetings.endpoint.validate .greetInput input = [] := by
    cases input with
    | struct values => exact List.flatMap_eq_nil_iff.mpr fun _ _ => rfl
    | _ => rfl
  rw [validationFailures]
  split_ifs
  · exact none_
  · rfl

/-- It greets everyone. -/
def greeter : Handler GreetingId := fun _ _ _ => .ok theGreeting

/-- What is sent to greet a name over rpcv2Cbor. -/
def cborGreeting : HttpRequest where
  method := ascii "POST"
  target := ascii "/service/Greetings/operation/Greet"
  headers := Headers.set (Headers.set {} (ascii "smithy-protocol") (ascii "rpc-v2-cbor")) (ascii "content-type")
    (ascii "application/cbor")
  body := Cbor.encode (greetings.serialize theName .greetInput)

/-- The greeter is called with the name, and who calls it is greeted. -/
theorem cbor_call_greeting : ∃ (arrived : Value) (context : Server.RequestContext),
    arrived.canonical = (theName.fill greetingSerde.model .greetInput).canonical ∧ context.request = some cborGreeting ∧
      if greetings.validationFailures greet arrived = [] then
        greetings.Conveyed greet (greeter greet arrived context)
          (greetings.readCbor greet ((greetings.cborRouter greeter).route cborGreeting))
      else Refused (greetings.validationFailures greet arrived)
        (greetings.readCbor greet ((greetings.cborRouter greeter).route cborGreeting)) := by
  have fits : Fits .rpcv2Cbor (greetings.serialize theName .greetInput) ∧
      Fits .rpcv2Cbor (greetings.serialize theGreeting .greetOutput) := by
    rw [theName_document, theGreeting_document]
    constructor <;> refine ⟨?_, ?_, by decide⟩
    all_goals simp [Document.WellFormed, Document.membersWellFormed, Document.Representable, Document.membersRepresentable]
    all_goals decide
  have answerable : ∀ (arrived : Value) (context : Server.RequestContext),
      arrived.canonical = (theName.fill greetingSerde.model .greetInput).canonical →
        greetings.Answerable .rpcv2Cbor greet (greeter greet arrived context) :=
    fun _ _ _ => ⟨text_sendable .rpcv2Cbor _ (by decide), fits.2⟩
  exact cbor_call greetings_valid List.mem_cons_self (text_sendable .rpcv2Cbor _ (by decide)) fits.1
    (by rfl : greetings.cborRequest greet theName = .ok cborGreeting) ⟨rfl, rfl, rfl, fun _ _ => rfl⟩
    answerable (fun arrived _ refused => absurd (greetings_accepts arrived) refused) ⟨rfl, rfl⟩

/-- What is sent to greet a name over jsonRpc2. -/
def jsonRpcGreeting : HttpRequest where
  method := ascii "POST"
  target := ascii "/"
  headers := Headers.set {} (ascii "content-type") (ascii "application/json")
  body := Json.encode Json.Standard.library (.map (greetings.callEnvelope greet theName))

/-- The greeter is called with the name, and who calls it is greeted. -/
theorem json_rpc_call_greeting : ∃ (arrived : Value) (context : Server.RequestContext),
    arrived.canonical = (theName.fill greetingSerde.model .greetInput).canonical ∧ context.request = some jsonRpcGreeting ∧
      if greetings.validationFailures greet arrived = [] then
        greetings.Conveyed greet (greeter greet arrived context)
          (greetings.readJsonRpc greet ((greetings.jsonRpcRouter greeter).route jsonRpcGreeting))
      else Refused (greetings.validationFailures greet arrived)
        (greetings.readJsonRpc greet ((greetings.jsonRpcRouter greeter).route jsonRpcGreeting)) := by
  have fits : Fits .jsonRpc2 (.map (greetings.callEnvelope greet theName)) := by
    have modeled : greetings.endpoint.noModeledInput greet.input = false := rfl
    have params : greetings.serialize theName greet.input = _ := theName_document
    rw [callEnvelope_eq, modeled, if_neg Bool.false_ne_true, params]
    refine ⟨?_, by decide⟩
    simp [Document.Spelled, Document.MembersSpelled]
    decide
  have answer : Fits .jsonRpc2 (greetings.outputDocument .jsonRpc2 greet theGreeting) := by
    have result : greetings.serialize theGreeting greet.output = _ := theGreeting_document
    have written : greetings.outputDocument .jsonRpc2 greet theGreeting = .map [(kIdMember, .int 1),
      (kVersionMember, .string kVersionValue), (ascii "result", greetings.serialize theGreeting greet.output)] := rfl
    rw [written, result]
    refine ⟨?_, by decide⟩
    simp [Document.Spelled, Document.MembersSpelled]
    decide
  have answerable : ∀ (arrived : Value) (context : Server.RequestContext),
      arrived.canonical = (theName.fill greetingSerde.model .greetInput).canonical →
        greetings.Answerable .jsonRpc2 greet (greeter greet arrived context) :=
    fun _ _ _ => ⟨text_sendable .jsonRpc2 _ (by decide), answer⟩
  exact json_rpc_call greetings_valid List.mem_cons_self (text_sendable .jsonRpc2 _ (by decide)) fits
    (by rfl : greetings.jsonRpcRequest greet theName = .ok jsonRpcGreeting) ⟨rfl, rfl, rfl, fun _ _ => rfl⟩
    answerable (fun arrived _ refused => absurd (greetings_accepts arrived) refused) ⟨rfl, rfl⟩

end Service

end Rpc

end OpalCpp

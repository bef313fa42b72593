import OpalCpp.Model.Codegen.Errors
import OpalCpp.Proofs.Codegen.SerdeRoundTrip
import OpalCpp.Proofs.Codegen.WireForms
import OpalCpp.Proofs.EventStream.Frame

/-! # The identity of modeled errors

A client finds the shape that the server named, and reads the detail from a document with the detail's own
members, beside which there are those of the protocol.
-/

namespace OpalCpp

open scoped Bytes
open Bytes (ascii)

namespace Http.Headers

theorem headerNameEquals_self (name : Bytes) : headerNameEquals name name = true := decide_eq_true rfl

theorem get?_set_self (headers : Headers) (name value : Bytes) : (headers.set name value).get? name = some value := by
  have removed : (headers.remove name).entries.find? (fun entry => headerNameEquals entry.1 name) = none := by
    rw [List.find?_eq_none]
    intro entry member
    simpa using (List.mem_filter.mp member).2
  rw [set, add, get?, List.find?_append, removed, Option.none_or, List.find?_singleton, if_pos (headerNameEquals_self name)]
  rfl

end Http.Headers

namespace Typed.SerdeCodeGen

variable {Id : Type*} {serde : SerdeCodeGen Id}

/-! ## Documents with other members -/

/-- A structure is read from the members it has the names of. -/
theorem readStruct_agree {read : Document × Id → Outcome Value} {container : Shape Id} {first second : Document}
    {members : List (Member Id)}
    (agree : ∀ member ∈ members, present first (serde.wireName member) = present second (serde.wireName member)) :
    serde.readStruct read container first members = serde.readStruct read container second members := by
  induction members with
  | nil => rfl
  | cons member members ih =>
    obtain ⟨here, later⟩ := List.forall_mem_cons.mp agree
    rw [readStruct, readStruct, ih later, readMember, readMember, here]

theorem deserialize_agree (valid : serde.Valid) {id : Id} {members : List (Member Id)}
    (type : (serde.model.shape id).type = .struct members) {first second : DocumentMap}
    (agree : ∀ member ∈ members, OrderedMap.find? (serde.wireName member) first =
      OrderedMap.find? (serde.wireName member) second) :
    serde.deserialize (.map first, id) = serde.deserialize (.map second, id) := by
  rw [deserialize_eq valid, deserialize_eq valid]
  simp only [deserializeStep, type]
  rw [readStruct_agree]
  intro member inside
  rw [present, present, Document.find_map, Document.find_map, agree member inside]

/-- The values of a structure are structures. -/
theorem exists_struct {id : Id} {members : List (Member Id)} (type : (serde.model.shape id).type = .struct members)
    {value : Value} (typed : value.HasType serde.model ⟨id, false⟩) : ∃ values, value = .struct values := by
  cases value with
  | struct values => exact ⟨values, rfl⟩
  | nullopt => cases typed
  | engaged => cases typed.1
  | enum | list | map | empty | alternative =>
    obtain ⟨_, _, other, _⟩ := typed
    simp_all
  | _ =>
    obtain ⟨_, other⟩ := typed
    rw [type] at other
    cases other

end Typed.SerdeCodeGen

namespace ModeledErrors

open EventStream (Message EventEnvelope encodeMessage decodeMessage makeExceptionMessage parseEnvelope)
open EventStream.JsonRpc (kMessageMember kTypeMember kCodeMember kErrorMember kDataMember kIdMember kVersionMember
  kVersionValue
  classifyInbound)
open Http (Headers HttpResponse)
open Typed (Value SerdeCodeGen)

variable {Id : Type*}

/-! ## Envelopes -/

/-- The message of an envelope whose error has none of its own. -/
def envelopeText (data : DocumentMap) : Bytes :=
  match data.lookup kMessageMember with
  | some (.string text) => text
  | _ => []

theorem errorEnvelope_eq (code : Int64) {type : Bytes} (named : type ≠ []) (message : Bytes) (data : DocumentMap)
    (id : Document) :
    JsonRpc2.errorEnvelope code type message data id = .map [
      (kErrorMember, .map [(kCodeMember, .int code), (kDataMember, .map (data.insertOrAssign kTypeMember (.string type))),
        (kMessageMember, .string
          (if message ≠ [] then message else envelopeText (data.insertOrAssign kTypeMember (.string type))))]),
      (kIdMember, id), (kVersionMember, .string kVersionValue)] := by
  have some_ : (data.insertOrAssign kTypeMember (.string type)).isEmpty = false := by
    cases data with
    | nil => rfl
    | cons first data =>
      rw [DocumentMap.insertOrAssign]
      split_ifs <;> rfl
  simp only [JsonRpc2.errorEnvelope, if_neg named, some_, Bool.false_eq_true, if_false]
  rfl

/-- The envelope as it comes back. -/
theorem form_errorEnvelope (wire : WireForm) (code : Int64) {type : Bytes} (named : type ≠ []) (message : Bytes)
    (data : DocumentMap) (id : Document) :
    wire.form (JsonRpc2.errorEnvelope code type message data id) = .map [
      (kErrorMember, .map [(kCodeMember, .int code),
        (kDataMember, .map (OrderedMap.mapValues wire.form (data.insertOrAssign kTypeMember (.string type)))),
        (kMessageMember, .string
          (if message ≠ [] then message else envelopeText (data.insertOrAssign kTypeMember (.string type))))]),
      (kIdMember, wire.form id), (kVersionMember, .string kVersionValue)] := by
  rw [errorEnvelope_eq code named, wire.map]
  simp only [OrderedMap.mapValues, List.map_cons, List.map_nil, wire.map, wire.string, wire.int]

/-! ## Names -/

theorem sanitizeErrorCode_name {name : Bytes} (noColon : ':'.toUInt8 ∉ name) (noHash : '#'.toUInt8 ∉ name) :
    Service.sanitizeErrorCode name = name := by
  have whole : name.takeWhile (· ≠ ':'.toUInt8) = name := by
    rw [List.takeWhile_eq_self_iff]
    intro c member
    simpa using fun same : c = ':'.toUInt8 => noColon (same ▸ member)
  rw [Service.sanitizeErrorCode, whole, if_neg noHash]

theorem sanitizeErrorCode_shapeId {shape : ErrorShape} (noColon : ':'.toUInt8 ∉ shape.shapeId)
    (noHash : '#'.toUInt8 ∉ shape.namespace_) : Service.sanitizeErrorCode shape.shapeId = shape.name := by
  have whole : shape.shapeId.takeWhile (· ≠ ':'.toUInt8) = shape.shapeId := by
    rw [List.takeWhile_eq_self_iff]
    intro c member
    simpa using fun same : c = ':'.toUInt8 => noColon (same ▸ member)
  have passed : ∀ c ∈ shape.namespace_, decide (c ≠ '#'.toUInt8) = true := by
    intro c member
    simpa using fun same : c = '#'.toUInt8 => noHash (same ▸ member)
  have spelled : shape.shapeId = shape.namespace_ ++ '#'.toUInt8 :: shape.name := by
    rw [ErrorShape.shapeId, List.append_assoc]
    rfl
  have hashed : '#'.toUInt8 ∈ shape.shapeId := by
    rw [spelled]
    exact List.mem_append_right _ List.mem_cons_self
  rw [Service.sanitizeErrorCode, whole, if_pos hashed, spelled, List.dropWhile_append_of_pos passed,
    List.dropWhile_cons_of_neg (by decide)]
  rfl

namespace Service

variable (service : Service Id)

/-- The errors that the operations of a service declare. -/
def errors : List Id := service.operations.flatMap Operation.errors

/-- What is checked of a service before code is generated for it: the errors are structures with types of their
own names, and the parts of a shape's id are identifiers. -/
structure Valid : Prop where
  serde : service.serde.Valid
  structures : ∀ id ∈ service.errors, ∃ members, (service.serde.model.shape id).type = .struct members
  types : ∀ id ∈ service.errors, ∀ other ∈ service.errors, service.typeName id = service.typeName other → id = other
  colons : ∀ id ∈ service.errors, ':'.toUInt8 ∉ (service.errorShape id).shapeId
  hashes : ∀ id ∈ service.errors,
    '#'.toUInt8 ∉ (service.errorShape id).namespace_ ∧ '#'.toUInt8 ∉ (service.errorShape id).name

/-- No other error has the name of this one, whatever their namespaces. -/
def NameApart (id : Id) : Prop :=
  ∀ other ∈ service.errors, (service.errorShape id).name = (service.errorShape other).name → id = other

/-- No two errors have one name. -/
def NamesApart : Prop := ∀ id ∈ service.errors, service.NameApart id

/-- The keys that the members of a shape have in its documents. -/
def wireNames (id : Id) : List Bytes :=
  match (service.serde.model.shape id).type with
  | .struct members => members.map service.serde.wireName
  | _ => []

/-- The status of an error is none of success to the client of the operation. -/
def Refuses (operation : Operation Id) (status : ℤ) : Prop :=
  match service.protocol with
  | .httpJson _ _ => if operation.responseCode then status < 200 ∨ 400 ≤ status else status ≠ operation.httpCode
  | .rpcv2Cbor => status ≠ 200
  | .jsonRpc2 => True

variable {service}

section Ladders

variable (valid : service.Valid) {operation : Operation Id} (offered : operation ∈ service.operations) {id : Id}
  (apart : service.NameApart id) (declared : id ∈ operation.errors)

include offered declared in
theorem mem_errors : id ∈ service.errors := List.mem_flatMap.mpr ⟨operation, offered, declared⟩

include valid apart

/-- A ladder over some of the errors finds the one of the name. -/
theorem find_ladder {ids : List Id} (among : ∀ other ∈ ids, other ∈ service.errors) (member : id ∈ ids) :
    (service.sortedByType ids).find? (fun other => (service.errorShape id).name = (service.errorShape other).name) =
      some id := by
  apply OrderedMap.find?_values_keyed
  · exact fun one first two second => valid.types one (among one first) two (among two second)
  · exact member
  · exact decide_eq_true rfl
  · intro other inside same
    exact (apart other (among other inside) (of_decide_eq_true same)).symm

include offered declared

theorem find_errorShapes :
    service.errorShapes.find? (fun other => (service.errorShape id).name = (service.errorShape other).name) = some id :=
  find_ladder valid apart (fun _ member => member) (mem_errors offered declared)

theorem find_operationErrors : (service.sortedByType operation.errors).find?
    (fun other => (service.errorShape id).name = (service.errorShape other).name) = some id :=
  find_ladder valid apart (fun _ member => mem_errors offered member) declared

end Ladders

/-! ## Bodies -/

/-- Where the message is not filled in, or not under the key, the body is that of the detail. -/
theorem find_withMessage {message key : Bytes} {body : DocumentMap}
    (kept : key ≠ kMessageMember ∨ message = [] ∨ (body.lookup kMessageMember).isSome = true ∨
      (body.lookup (ascii "Message")).isSome = true) :
    OrderedMap.find? key (withMessage message body) = OrderedMap.find? key body := by
  rw [withMessage]
  rcases kept with other | kept
  · split_ifs
    · exact OrderedMap.find?_tryEmplace_of_ne other _ _
    · rfl
  · rw [if_neg]
    rcases kept with none_ | there | there <;> simp [*]

/-- What a client reads of the members of a detail, and of those beside them that the shape has no names for. -/
theorem deserialize_beside (valid : service.Valid) (wire : WireForm) {id : Id} {members : List (Typed.Member Id)}
    (type : (service.serde.model.shape id).type = .struct members) {detail : Value} {body sent : DocumentMap}
    (serialized : service.serde.serialize detail id .epochSeconds = .map body)
    (restored : service.serde.deserialize (wire.form (service.serde.serialize detail id .epochSeconds), id) = .ok detail)
    (beside : ∀ key ∈ service.wireNames id, OrderedMap.find? key sent = OrderedMap.find? key body) :
    service.serde.deserialize (.map (OrderedMap.mapValues wire.form sent), id) = .ok detail := by
  rw [← restored, serialized, wire.map]
  apply Typed.SerdeCodeGen.deserialize_agree valid.serde type
  intro member inside
  rw [OrderedMap.find?_mapValues, OrderedMap.find?_mapValues, beside]
  rw [wireNames, type]
  exact List.mem_map_of_mem inside

/-! ## What a client makes of an error -/

/-- A modeled error of the shape, with a detail of its type if it has one. -/
structure IsOf (service : Service Id) (id : Id) (error : TypedError Id) : Prop where
  kind : error.kind = .modeled
  code : error.code = (service.errorShape id).name
  detail : ∀ detail ∈ error.detail, detail.1 = id

theorem makeError_isOf (id : Id) (response : HttpResponse) (parsed : ParsedError) :
    service.IsOf id (service.makeError id response parsed) where
  kind := rfl
  code := rfl
  detail := by
    intro detail made
    obtain ⟨value, _, rfl⟩ := Option.map_eq_some_iff.mp made
    rfl

theorem makeError_detail {id : Id} (noHeaders : (service.errorShape id).headerMembers = []) {doc : DocumentMap}
    {detail : Value}
    (read : service.serde.deserialize (.map doc, id) = .ok detail) (response : HttpResponse) {parsed : ParsedError}
    (document : parsed.doc = .map doc) : (service.makeError id response parsed).detail = some (id, detail) := by
  rw [makeError, noHeaders, document]
  simp only [patchHeaders, asMap, List.foldl_nil, read]
  rfl

/-! ## Responses -/

section Sent

variable [DecidableEq Id] (service)

/-- The body of a modeled error before the protocol marks it. -/
def sentBody (id : Id) (error : TypedError Id) : DocumentMap := withMessage error.message (service.detailMembers id error)

/-- The body with the id of the shape. -/
def markedBody (id : Id) (error : TypedError Id) : DocumentMap :=
  (service.sentBody id error).insertOrAssign kTypeMember (.string (service.errorShape id).shapeId)

/-- The document in the response to a modeled error. -/
def sentDocument (id : Id) (error : TypedError Id) (callId : Document) : Document :=
  match service.protocol with
  | .httpJson _ _ => .map (service.sentBody id error)
  | .rpcv2Cbor => .map (service.markedBody id error)
  | .jsonRpc2 =>
    JsonRpc2.errorEnvelope (Int64.ofInt (service.errorShape id).errorStatus) (service.errorShape id).shapeId []
      (service.sentBody id error) callId

/-- The members that reach the client. -/
def sentMembers (id : Id) (error : TypedError Id) : DocumentMap :=
  match service.protocol with
  | .httpJson _ _ => service.sentBody id error
  | _ => service.markedBody id error

/-- The codec carries a document. -/
def Carries (wire : WireForm) (document : Document) : Prop :=
  service.decode (service.encode document) = .ok (wire.form document)

/-- The message is not filled into a member of the detail. -/
def KeepsMessage (id : Id) (error : TypedError Id) : Prop :=
  kMessageMember ∉ service.wireNames id ∨ error.message = [] ∨
    ((service.detailMembers id error).lookup kMessageMember).isSome = true ∨
    ((service.detailMembers id error).lookup (ascii "Message")).isSome = true

end Sent

section Codecs

variable {document : Document}

theorem carries_cbor (protocol : service.protocol = .rpcv2Cbor) (wellFormed : document.WellFormed)
    (window : document.Representable) (shallow : document.nesting ≤ Cbor.kMaxDepth) : service.Carries .cbor document := by
  simp only [Carries, encode, decode, protocol]
  exact Cbor.decode_encode wellFormed window shallow

end Codecs

theorem shapeId_ne_nil (shape : ErrorShape) : shape.shapeId ≠ [] := by
  rw [ErrorShape.shapeId]
  exact List.append_ne_nil_of_left_ne_nil (List.append_ne_nil_of_right_ne_nil _ (by decide)) _

section Responses

variable [DecidableEq Id] {id : Id} {error : TypedError Id} {callId : Document}

theorem find_sentBody {key : Bytes} (kept : service.KeepsMessage id error) (isName : key ∈ service.wireNames id) :
    OrderedMap.find? key (service.sentBody id error) = OrderedMap.find? key (service.detailMembers id error) := by
  apply find_withMessage
  rcases kept with unnamed | kept
  · exact .inl fun same => unnamed (same ▸ isName)
  · exact .inr kept

theorem find_markedBody {key : Bytes} (kept : service.KeepsMessage id error) (unmarked : kTypeMember ∉ service.wireNames id)
    (isName : key ∈ service.wireNames id) :
    OrderedMap.find? key (service.markedBody id error) = OrderedMap.find? key (service.detailMembers id error) := by
  have other : key ≠ kTypeMember := fun same => unmarked (same ▸ isName)
  rw [markedBody, Typed.SerdeCodeGen.find_insertOrAssign_of_ne other]
  exact find_sentBody kept isName

/-- A modeled error without members in headers, by what its response carries. -/
theorem modeledResponse_eq (error : TypedError Id) (callId : Document)
    (noHeaders : (service.errorShape id).headerMembers = []) :
    (service.modeledResponse id error callId).body = service.encode (service.sentDocument id error callId) ∧
      (service.protocol ≠ .jsonRpc2 →
        (service.modeledResponse id error callId).status = (service.errorShape id).errorStatus) ∧
      ∀ header fallback, service.protocol = .httpJson header fallback →
        (service.modeledResponse id error callId).headers.get? header = some error.code := by
  have named := shapeId_ne_nil (service.errorShape id)
  cases protocol : service.protocol with
  | httpJson header fallback =>
    have other : service.protocol ≠ .jsonRpc2 := fun same => nomatch protocol.symm.trans same
    simp only [modeledResponse, protocol, noHeaders, liftHeaders, sentDocument, errorFn, errorBody, List.foldl_nil,
      reduceCtorEq, if_false, if_true, ne_eq, not_false_eq_true, true_implies, true_and]
    refine ⟨rfl, ?_⟩
    rintro _ _ ⟨⟩
    exact Headers.get?_set_self _ _ _
  | rpcv2Cbor =>
    simp only [modeledResponse, protocol, sentDocument, errorFn, errorBody, markedBody, sentBody, named, reduceCtorEq,
      if_false, if_true, ne_eq, not_false_eq_true, true_implies, true_and]
    rintro _ _ ⟨⟩
  | jsonRpc2 =>
    simp only [modeledResponse, protocol, sentDocument, errorFn, jsonRpcError, sentBody, if_true, ne_eq, not_true_eq_false,
      false_implies, true_and]
    rintro _ _ ⟨⟩

/-- The client reads the name of the shape and the members that were sent. -/
theorem parseError_modeledResponse (valid : service.Valid) (isError : id ∈ service.errors)
    (noHeaders : (service.errorShape id).headerMembers = []) (code : error.code = (service.errorShape id).name)
    (known : ∀ header fallback, service.protocol = .httpJson header fallback → (service.errorShape id).name ≠ kUnknownError)
    {wire : WireForm} (carried : service.Carries wire (service.sentDocument id error callId)) :
    (service.parseError (service.modeledResponse id error callId)).code = (service.errorShape id).name ∧
      (service.parseError (service.modeledResponse id error callId)).doc =
        .map (OrderedMap.mapValues wire.form (service.sentMembers id error)) := by
  obtain ⟨body, -, header⟩ := modeledResponse_eq error callId noHeaders
  have noColon := valid.colons id isError
  obtain ⟨space, name⟩ := valid.hashes id isError
  have marked :
    OrderedMap.find? kTypeMember (service.markedBody id error) = some (.string (service.errorShape id).shapeId) :=
    Typed.SerdeCodeGen.find_insertOrAssign_self _ _ _
  have sanitized := sanitizeErrorCode_shapeId noColon space
  cases protocol : service.protocol with
  | httpJson field fallback =>
    have nameColon : ':'.toUInt8 ∉ (service.errorShape id).name := fun member => noColon (List.mem_append_right _ member)
    have read : service.headerCode (service.modeledResponse id error callId).headers = (service.errorShape id).name := by
      simp only [headerCode, protocol, header field fallback protocol, Option.elim_some, code,
        sanitizeErrorCode_name nameColon name]
    simp only [sentDocument, protocol, Carries, wire.map] at carried
    simp only [parseError, protocol, reduceCtorEq, if_false, parseHttpError, read, known field fallback protocol, body,
      sentDocument, carried, sentMembers]
    exact ⟨trivial, rfl⟩
  | rpcv2Cbor =>
    have read (headers : Headers) : service.headerCode headers = kUnknownError := by simp only [headerCode, protocol]
    simp only [sentDocument, protocol, Carries, wire.map] at carried
    simp only [parseError, protocol, reduceCtorEq, if_false, parseHttpError, read, if_true, body, sentDocument, carried,
      sentMembers, Except.toOption, Option.getD_some, documentCode, Document.find_map, OrderedMap.find?_mapValues, marked,
      Option.map_some, Option.some_or, wire.string, sanitized]
    trivial
  | jsonRpc2 =>
    have named := shapeId_ne_nil (service.errorShape id)
    obtain ⟨received, isReceived⟩ : ∃ received, received = OrderedMap.mapValues wire.form (service.markedBody id error) :=
      ⟨_, rfl⟩
    have type : OrderedMap.find? kTypeMember received = some (.string (service.errorShape id).shapeId) := by
      rw [isReceived, OrderedMap.find?_mapValues, marked, Option.map_some, wire.string]
    have folded : (service.sentBody id error).insertOrAssign kTypeMember (.string (service.errorShape id).shapeId) =
        service.markedBody id error := rfl
    simp only [sentDocument, protocol, Carries, form_errorEnvelope wire _ named, folded, ← isReceived] at carried
    have read : service.parseRpcError (service.modeledResponse id error callId) =
        { status := rpcStatus (Int64.ofInt (service.errorShape id).errorStatus)
          code := (stringMember (.map received) kTypeMember).elim kUnknownError sanitizeErrorCode
          message := envelopeText (service.markedBody id error)
          doc := .map received } := by
      rw [parseRpcError, body]
      simp only [sentDocument, protocol, carried]
      rfl
    have members : service.sentMembers id error = service.markedBody id error := by simp only [sentMembers, protocol]
    rw [members, ← isReceived, parseError, if_pos protocol, read]
    simp only [stringMember, Document.find_map, type, Option.elim_some, sanitized]
    trivial

theorem isSuccess_modeledResponse (noHeaders : (service.errorShape id).headerMembers = []) {operation : Operation Id}
    (refuses : service.Refuses operation (service.errorShape id).errorStatus) {wire : WireForm}
    (carried : service.Carries wire (service.sentDocument id error callId)) :
    service.isSuccess operation (service.modeledResponse id error callId) = false := by
  obtain ⟨body, status, -⟩ := modeledResponse_eq error callId noHeaders
  cases protocol : service.protocol with
  | httpJson field fallback =>
    simp only [Refuses, protocol] at refuses
    simp only [isSuccess, protocol, status fun same => nomatch protocol.symm.trans same]
    split_ifs at refuses ⊢
    · simpa using fun least => refuses.resolve_left (not_lt.mpr least)
    · simpa using refuses
  | rpcv2Cbor =>
    simp only [Refuses, protocol] at refuses
    have sent := status fun same => nomatch protocol.symm.trans same
    simp only [isSuccess, protocol, sent]
    exact decide_eq_false refuses
  | jsonRpc2 =>
    have named := shapeId_ne_nil (service.errorShape id)
    simp only [sentDocument, protocol, Carries, form_errorEnvelope wire _ named] at carried
    simp only [isSuccess, protocol, body, sentDocument, carried]
    exact Bool.and_false _

/-- The members of the detail are among those that reach the client, as they are. -/
theorem find_sentMembers (kept : service.KeepsMessage id error)
    (unmarked : (∀ header fallback, service.protocol ≠ .httpJson header fallback) → kTypeMember ∉ service.wireNames id) :
    ∀ key ∈ service.wireNames id,
      OrderedMap.find? key (service.sentMembers id error) = OrderedMap.find? key (service.detailMembers id error) := by
  intro key isName
  cases protocol : service.protocol with
  | httpJson header fallback =>
    simp only [sentMembers, protocol]
    exact find_sentBody kept isName
  | rpcv2Cbor | jsonRpc2 =>
    simp only [sentMembers, protocol]
    exact find_markedBody kept (unmarked fun _ _ same => nomatch protocol.symm.trans same) isName

end Responses

/-! ## Failures -/

section Failures

variable [DecidableEq Id]

/-- The handler of an operation fails with a modeled error of a shape that the operation declares, which binds no
member to a header, and with a detail of the shape's type. -/
structure Failure (service : Service Id) (operation : Operation Id) (id : Id) (detail : Value) (error : TypedError Id) :
    Prop where
  offered : operation ∈ service.operations
  declared : id ∈ operation.errors
  noHeaders : (service.errorShape id).headerMembers = []
  typed : detail.HasType service.serde.model ⟨id, false⟩
  kind : error.kind = .modeled
  code : error.code = (service.errorShape id).name
  detail : error.detail = some (id, detail)

variable {operation : Operation Id} {id : Id} {detail : Value} {error : TypedError Id}

omit [DecidableEq Id] in
theorem Failure.isError (failure : service.Failure operation id detail error) : id ∈ service.errors :=
  mem_errors failure.offered failure.declared

theorem Failure.detailAs (failure : service.Failure operation id detail error) (other : Id) :
    error.detailAs other = if id = other then some detail else none := by
  rw [TypedError.detailAs, failure.detail]

/-- The detail is serialized to its members. -/
theorem Failure.serialized (valid : service.Valid) (failure : service.Failure operation id detail error) :
    service.serde.serialize detail id .epochSeconds = .map (service.detailMembers id error) := by
  obtain ⟨members, type⟩ := valid.structures id failure.isError
  obtain ⟨values, rfl⟩ := Typed.SerdeCodeGen.exists_struct type failure.typed
  rw [detailMembers, failure.detailAs, if_pos rfl]
  simp only [Typed.SerdeCodeGen.serialize, type, asMap]

/-- What the client makes of the members that it gets. -/
theorem Failure.made (valid : service.Valid) (failure : service.Failure operation id detail error) {wire : WireForm}
    (restored : service.serde.deserialize (wire.form (service.serde.serialize detail id .epochSeconds), id) = .ok detail)
    {sent : DocumentMap}
    (beside : ∀ key ∈ service.wireNames id,
      OrderedMap.find? key sent = OrderedMap.find? key (service.detailMembers id error))
    (response : HttpResponse) {parsed : ParsedError} (document : parsed.doc = .map (OrderedMap.mapValues wire.form sent)) :
    (service.makeError id response parsed).detail = some (id, detail) := by
  obtain ⟨members, type⟩ := valid.structures id failure.isError
  exact makeError_detail failure.noHeaders
    (deserialize_beside valid wire type (failure.serialized valid) restored beside) response document

/-- The response to a failure, as the client of the operation takes it. -/
theorem Failure.response (valid : service.Valid) (apart : service.NameApart id)
    (failure : service.Failure operation id detail error) {callId : Document} {wire : WireForm}
    (refuses : service.Refuses operation (service.errorShape id).errorStatus)
    (known : ∀ header fallback, service.protocol = .httpJson header fallback → (service.errorShape id).name ≠ kUnknownError)
    (carried : service.Carries wire (service.sentDocument id error callId)) :
    ∃ parsed : ParsedError, parsed.doc = .map (OrderedMap.mapValues wire.form (service.sentMembers id error)) ∧
      service.responseError operation (service.errorToResponse error callId) =
        some (service.makeError id (service.modeledResponse id error callId) parsed) := by
  have found := find_errorShapes valid failure.offered apart failure.declared
  have answered : service.errorToResponse error callId = service.modeledResponse id error callId := by
    rw [errorToResponse, if_pos failure.kind, failure.code, found]
  obtain ⟨name, document⟩ :=
    parseError_modeledResponse valid failure.isError failure.noHeaders failure.code known carried
  refine ⟨service.parseError (service.modeledResponse id error callId), document, ?_⟩
  rw [answered, responseError, isSuccess_modeledResponse failure.noHeaders refuses carried, if_neg Bool.false_ne_true,
    parseOperationError, name, find_operationErrors valid failure.offered apart failure.declared]

end Failures

end Service

end ModeledErrors

end OpalCpp

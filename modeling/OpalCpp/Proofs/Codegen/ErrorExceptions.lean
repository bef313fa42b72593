import OpalCpp.Proofs.Codegen.ErrorIdentity

/-! # Modeled errors on streams

The exception that a failure ends a stream with, in a frame or in the terminal envelope of a JSON-RPC call,
and what both paths come to.
-/

namespace OpalCpp.ModeledErrors

open scoped Bytes
open Bytes (ascii)
open EventStream (Message EventEnvelope encodeMessage decodeMessage makeExceptionMessage parseEnvelope kMaxMessageBytes
  kJsonContentType)
open EventStream.JsonRpc (kMessageMember kTypeMember classifyInbound decodeFrame)
open Typed (Value)

namespace Service

variable {Id : Type*} [DecidableEq Id] {service : Service Id}

/-! ## The messages of a failure -/

section Sent

variable (service)

/-- What is put on a stream for a failure is carried: the body of the exception, which a JSON-RPC client takes from the
envelope first. -/
def CarriesFailure (wire : WireForm) (id : Id) (error : TypedError Id) : Prop :=
  match service.protocol with
  | .jsonRpc2 =>
    service.Carries wire (service.sentDocument id error callId) ∧
      service.Carries wire (wire.form (.map (service.markedBody id error)))
  | _ => service.Carries wire (.map (service.sentBody id error))

/-- The message fits in a frame. -/
def Fits (message : Message) : Prop :=
  match service.protocol with
  | .jsonRpc2 => message.payload.length ≤ kMaxMessageBytes
  | _ => ∃ frame, encodeMessage message = .ok frame

/-- The members that a client of the stream gets. -/
def streamedMembers (id : Id) (error : TypedError Id) : DocumentMap :=
  match service.protocol with
  | .jsonRpc2 => service.markedBody id error
  | _ => service.sentBody id error

end Sent

theorem foldl_ite_of_eq {α β : Type*} {items : List α} {p : α → Prop} [DecidablePred p] {f : α → β} {start : β}
    (same : ∀ item ∈ items, p item → f item = start) :
    items.foldl (fun value item => if p item then f item else value) start = start := by
  induction items with
  | nil => rfl
  | cons item items ih =>
    obtain ⟨here, later⟩ := List.forall_mem_cons.mp same
    rw [List.foldl_cons]
    split_ifs with holds
    · rw [here holds]
      exact ih later
    · exact ih later

/-- Assignments that one item alone makes. -/
theorem foldl_ite_of_mem {α β : Type*} {items : List α} {p : α → Prop} [DecidablePred p] (f : α → β) {item : α} (start : β)
    (member : item ∈ items) (holds : p item) (alone : ∀ other ∈ items, p other → other = item) :
    items.foldl (fun value item => if p item then f item else value) start = f item := by
  induction items generalizing start with
  | nil => cases member
  | cons first items ih =>
    obtain ⟨here, later⟩ := List.forall_mem_cons.mp alone
    rw [List.foldl_cons]
    rcases List.mem_cons.mp member with rfl | after
    · rw [if_pos holds]
      exact foldl_ite_of_eq fun other inside holds => congrArg f (later other inside holds)
    · exact ih _ after later

section Exceptions

variable (valid : service.Valid) {operation : Operation Id} {id : Id} (apart : service.NameApart id) {detail : Value}
  {error : TypedError Id} (failure : service.Failure operation id detail error)

include valid apart failure

/-- The ladder of the exception serializes the detail. -/
theorem Failure.exceptionBody : service.exceptionBody operation error = service.detailMembers id error := by
  have found := find_operationErrors valid failure.offered apart failure.declared
  rw [Service.exceptionBody]
  apply foldl_ite_of_mem (service.detailMembers · error) [] (List.mem_of_find?_eq_some found)
  · exact ⟨failure.code, by rw [failure.detailAs, if_pos rfl]; rfl⟩
  · rintro other _ ⟨_, there⟩
    rw [failure.detailAs] at there
    by_contra differs
    rw [if_neg (Ne.symm differs)] at there
    cases there

omit [DecidableEq Id] in
/-- A client that gets an exception of the name with the members of a failure makes the error of the shape. -/
theorem Failure.decodeException {envelope : EventEnvelope}
    (name : sanitizeErrorCode envelope.type = (service.errorShape id).name)
    {members : DocumentMap} (decoded : service.decode envelope.payload = .ok (.map members)) :
    ∃ parsed : ParsedError, parsed.doc = .map members ∧
      service.decodeException operation envelope = service.makeError id {} parsed := by
  have found := find_operationErrors valid failure.offered apart failure.declared
  refine ⟨{ code := (service.errorShape id).name
            message := (stringMember (.map members) kMessageMember).getD []
            doc := .map members }, rfl, ?_⟩
  rw [Service.decodeException]
  simp only [decoded, name, found]

end Exceptions

/-! ## Frames -/

omit [DecidableEq Id] in
theorem parseEnvelope_exception (type payload : Bytes) :
    parseEnvelope (makeExceptionMessage type service.contentType payload) =
      .ok ⟨.exception, type, service.contentType, payload⟩ := by
  rw [contentType]
  split <;> rfl

section Framed

variable {message : Message}

omit [DecidableEq Id] in
theorem receivedMessage_framed (framed : service.protocol ≠ .jsonRpc2) (fits : service.Fits message) :
    service.receivedMessage message = .ok (some message) := by
  obtain ⟨frame, encoded⟩ : ∃ frame, encodeMessage message = .ok frame := by
    cases protocol : service.protocol with
    | jsonRpc2 => exact absurd protocol framed
    | httpJson | rpcv2Cbor => simpa only [Fits, protocol] using fits
  have decoded := EventStream.decodeMessage_encodeMessage encoded []
  rw [List.append_nil] at decoded
  rw [receivedMessage, if_neg framed, encoded]
  change (decodeMessage frame).bind _ = _
  rw [decoded]
  rfl

end Framed

/-! ## Terminal envelopes -/

/-- The message of a terminal envelope for a failure: its data is all that is there. -/
theorem decodeFrame_terminal {backend : Json.Backend} {text type : Bytes} {code : Int64} {members : DocumentMap}
    {message : Bytes}
    (short : text.length ≤ kMaxMessageBytes) (named : type ≠ [])
    (marked : OrderedMap.find? kTypeMember members = some (.string type))
    (filled : message ≠ [] → (OrderedMap.find? kMessageMember members).isSome = true)
    (decoded : Json.decode backend text = .ok (.map [
      (EventStream.JsonRpc.kErrorMember, .map [(EventStream.JsonRpc.kCodeMember, .int code),
        (EventStream.JsonRpc.kDataMember, .map members), (kMessageMember, .string message)]),
      (EventStream.JsonRpc.kIdMember, callId),
      (EventStream.JsonRpc.kVersionMember, .string EventStream.JsonRpc.kVersionValue)])) :
    decodeFrame backend text callId =
      .exception (makeExceptionMessage type kJsonContentType (Json.encode backend (.map members))) := by
  have typed : (members.lookup kTypeMember).bind EventStream.JsonRpc.nonEmptyString = some type := by
    rw [OrderedMap.lookup_eq_find?, marked, Option.bind_some]
    cases type with
    | nil => exact absurd rfl named
    | cons => rfl
  have payload : (if message.isEmpty || (members.lookup kMessageMember).isSome then members
      else members.insertOrAssign kMessageMember (.string message)) = members := by
    rcases eq_or_ne message [] with rfl | some_
    · rfl
    · rw [OrderedMap.lookup_eq_find?, filled some_, Bool.or_true, if_pos rfl]
  have exception : EventStream.JsonRpc.exceptionMessage backend (some message) (some members) =
      makeExceptionMessage type kJsonContentType (Json.encode backend (.map members)) := by
    simp only [EventStream.JsonRpc.exceptionMessage, Option.getD_some, payload, typed]
  rw [decodeFrame, if_neg (not_lt.mpr short), decoded]
  simp only
  rw [← exception]
  rfl

section Streams

variable (valid : service.Valid) {operation : Operation Id} {id : Id} (apart : service.NameApart id) {detail : Value}
  {error : TypedError Id} (failure : service.Failure operation id detail error) {wire : WireForm}

include valid apart failure

/-- A failure that comes in a frame. -/
theorem Failure.framed (framed : service.protocol ≠ .jsonRpc2)
    (carried : service.Carries wire (.map (service.sentBody id error)))
    (fits : service.Fits (service.failureMessage operation error)) :
    ∃ message envelope, service.receivedMessage (service.failureMessage operation error) = .ok (some message) ∧
      parseEnvelope message = .ok envelope ∧ envelope.kind = .exception ∧
      sanitizeErrorCode envelope.type = (service.errorShape id).name ∧
      service.decode envelope.payload = .ok (.map (OrderedMap.mapValues wire.form (service.sentBody id error))) := by
  have isError := failure.isError
  have built : service.failureMessage operation error = makeExceptionMessage (service.errorShape id).name service.contentType
      (service.encode (.map (service.sentBody id error))) := by
    rw [failureMessage, if_neg framed, buildExceptionMessage, failure.kind]
    simp only [failure.exceptionBody valid apart, failure.code]
    rfl
  have noColon : ':'.toUInt8 ∉ (service.errorShape id).name :=
    fun member => valid.colons id isError (List.mem_append_right _ member)
  rw [Carries, wire.map] at carried
  rw [built] at fits ⊢
  exact ⟨_, _, receivedMessage_framed framed fits, parseEnvelope_exception _ _, rfl,
    sanitizeErrorCode_name noColon (valid.hashes id isError).2, carried⟩

/-- A failure that comes in the terminal envelope of a call. -/
theorem Failure.terminal (protocol : service.protocol = .jsonRpc2)
    (carried : service.Carries wire (service.sentDocument id error callId))
    (again : service.Carries wire (wire.form (.map (service.markedBody id error))))
    (fits : service.Fits (service.failureMessage operation error)) :
    ∃ message envelope, service.receivedMessage (service.failureMessage operation error) = .ok (some message) ∧
      parseEnvelope message = .ok envelope ∧ envelope.kind = .exception ∧
      sanitizeErrorCode envelope.type = (service.errorShape id).name ∧
      service.decode envelope.payload = .ok (.map (OrderedMap.mapValues wire.form (service.markedBody id error))) := by
  have isError := failure.isError
  have named := shapeId_ne_nil (service.errorShape id)
  obtain ⟨received, isReceived⟩ : ∃ received, received = OrderedMap.mapValues wire.form (service.markedBody id error) :=
    ⟨_, rfl⟩
  have folded : (service.sentBody id error).insertOrAssign kTypeMember (.string (service.errorShape id).shapeId) =
      service.markedBody id error := rfl
  have coded (bytes : Bytes) : service.decode bytes = Json.decode service.backend bytes := by simp only [decode, protocol]
  have id_ : wire.form callId = callId := wire.int 1
  -- The envelope as the client reads it.
  simp only [Carries, sentDocument, protocol, form_errorEnvelope wire _ named, folded, ← isReceived, id_, coded] at carried
  have text : (service.failureMessage operation error).payload = service.encode (JsonRpc2.errorEnvelope
      (Int64.ofInt (service.errorShape id).errorStatus) (service.errorShape id).shapeId []
        (service.sentBody id error) callId) := by
    have found := find_errorShapes valid failure.offered apart failure.declared
    have answered := (modeledResponse_eq error callId failure.noHeaders).1
    simp only [sentDocument, protocol] at answered
    rw [failureMessage, if_pos protocol, errorToResponse, if_pos failure.kind, failure.code, found]
    exact answered
  have bare : (service.failureMessage operation error).headers = [] := by rw [failureMessage, if_pos protocol]
  simp only [Fits, protocol] at fits
  rw [← text] at carried
  -- The text of the envelope's error is that of the data.
  have marked : OrderedMap.find? kTypeMember received = some (.string (service.errorShape id).shapeId) := by
    rw [isReceived, OrderedMap.find?_mapValues, markedBody, Typed.SerdeCodeGen.find_insertOrAssign_self, Option.map_some,
      wire.string]
  have filled :
      envelopeText (service.markedBody id error) ≠ [] → (OrderedMap.find? kMessageMember received).isSome = true := by
    intro some_
    rw [isReceived, OrderedMap.find?_mapValues, Option.isSome_map]
    rw [envelopeText, OrderedMap.lookup_eq_find?] at some_
    cases there : OrderedMap.find? kMessageMember (service.markedBody id error) with
    | none => exact absurd (by rw [there]) some_
    | some => rfl
  have frame := decodeFrame_terminal fits named marked filled carried
  rw [Carries, wire.settled, wire.map, ← isReceived] at again
  have wired : makeExceptionMessage (service.errorShape id).shapeId kJsonContentType
      (Json.encode service.backend (.map received)) =
        makeExceptionMessage (service.errorShape id).shapeId service.contentType (service.encode (.map received)) := by
    simp only [contentType, encode, protocol]
    rfl
  have arrived : service.receivedMessage (service.failureMessage operation error) =
      .ok (some (makeExceptionMessage (service.errorShape id).shapeId service.contentType
        (service.encode (.map received)))) := by
    rw [receivedMessage, if_pos protocol, classifyInbound, bare, ← wired]
    simp only [List.isEmpty_nil, Bool.not_true, Bool.false_eq_true, if_false, frame]
    rfl
  rw [← isReceived]
  exact ⟨_, _, arrived, parseEnvelope_exception _ _, rfl,
    sanitizeErrorCode_shapeId (valid.colons id isError) (valid.hashes id isError).1, again⟩

/-- The failure of a stream, as its client takes it. -/
theorem Failure.streamed (events : operation.outputEvents = true) (carried : service.CarriesFailure wire id error)
    (fits : service.Fits (service.failureMessage operation error)) :
    ∃ message, ∃ parsed : ParsedError,
      service.receivedMessage (service.failureMessage operation error) = .ok (some message) ∧
      parsed.doc = .map (OrderedMap.mapValues wire.form (service.streamedMembers id error)) ∧
      service.decodeEventError operation message = some (service.makeError id {} parsed) := by
  have delivered :
      ∃ message envelope, service.receivedMessage (service.failureMessage operation error) = .ok (some message) ∧
      parseEnvelope message = .ok envelope ∧ envelope.kind = .exception ∧
      sanitizeErrorCode envelope.type = (service.errorShape id).name ∧
      service.decode envelope.payload = .ok (.map (OrderedMap.mapValues wire.form (service.streamedMembers id error))) := by
    rw [CarriesFailure] at carried
    rw [streamedMembers]
    cases protocol : service.protocol with
    | httpJson | rpcv2Cbor =>
      simp only [protocol] at carried ⊢
      exact failure.framed valid apart (by simp [protocol]) carried fits
    | jsonRpc2 =>
      simp only [protocol] at carried ⊢
      exact failure.terminal valid apart protocol carried.1 carried.2 fits
  obtain ⟨message, envelope, received, parsed, isException, name, decoded⟩ := delivered
  obtain ⟨made, document, same⟩ := failure.decodeException valid apart name decoded
  refine ⟨message, made, received, document, ?_⟩
  rw [decodeEventError, if_pos events, parsed]
  simp only [isException, if_true, same]

end Streams

/-- Of the members that a client gets those of the detail are as they were sent. -/
theorem find_streamedMembers {id : Id} {error : TypedError Id} (kept : service.KeepsMessage id error)
    (unmarked : service.protocol = .jsonRpc2 → kTypeMember ∉ service.wireNames id) :
    ∀ key ∈ service.wireNames id,
      OrderedMap.find? key (service.streamedMembers id error) = OrderedMap.find? key (service.detailMembers id error) := by
  intro key isName
  cases protocol : service.protocol with
  | httpJson | rpcv2Cbor =>
    simp only [streamedMembers, protocol]
    exact find_sentBody kept isName
  | jsonRpc2 =>
    simp only [streamedMembers, protocol]
    exact find_markedBody kept (unmarked protocol) isName

end Service

open Service (sanitizeErrorCode kUnknownError callId)

/-! ## The identity of an error -/

/-- A failure with a modeled error reaches the client as a modeled error of the same shape, as a response and as an
exception, if no other error of the service has the shape's name; with the same detail, if the protocol has no
member to add under a name of the detail's own. -/
theorem modeled_error_identity {Id : Type*} [DecidableEq Id] {service : Service Id} (valid : service.Valid)
    {operation : Operation Id} {id : Id} (apart : service.NameApart id) {detail : Value} {error : TypedError Id}
    (failure : service.Failure operation id detail error) {wire : WireForm}
    (restored : service.serde.deserialize (wire.form (service.serde.serialize detail id .epochSeconds), id) = .ok detail) :
    (∀ callId, service.Refuses operation (service.errorShape id).errorStatus →
      (∀ header fallback, service.protocol = .httpJson header fallback → (service.errorShape id).name ≠ kUnknownError) →
      service.Carries wire (service.sentDocument id error callId) →
      ∃ received, service.responseError operation (service.errorToResponse error callId) = some received ∧
        service.IsOf id received ∧
        (service.KeepsMessage id error →
          ((∀ header fallback, service.protocol ≠ .httpJson header fallback) → kTypeMember ∉ service.wireNames id) →
          received.detail = some (id, detail))) ∧
    (operation.outputEvents = true → service.CarriesFailure wire id error →
      service.Fits (service.failureMessage operation error) →
      ∃ message received, service.receivedMessage (service.failureMessage operation error) = .ok (some message) ∧
        service.decodeEventError operation message = some received ∧ service.IsOf id received ∧
        (service.KeepsMessage id error → (service.protocol = .jsonRpc2 → kTypeMember ∉ service.wireNames id) →
          received.detail = some (id, detail))) := by
  constructor
  · intro callId refuses known carried
    obtain ⟨parsed, document, response⟩ := failure.response valid apart refuses known carried
    refine ⟨_, response, Service.makeError_isOf _ _ _, ?_⟩
    intro kept unmarked
    exact failure.made valid restored (Service.find_sentMembers kept unmarked) _ document
  · intro events carried fits
    obtain ⟨message, parsed, arrived, document, decoded⟩ := failure.streamed valid apart events carried fits
    refine ⟨message, _, arrived, decoded, Service.makeError_isOf _ _ _, ?_⟩
    intro kept unmarked
    exact failure.made valid restored (Service.find_streamedMembers kept unmarked) _ document

/-! ### A shop -/

/-- Two errors, one with a reason and one with a message, and the texts of both. -/
inductive ShopId where
  | sold | missing | text
deriving DecidableEq

def shopShape : ShopId → Typed.Shape ShopId
  | .sold => { type := .struct [{ target := .text, memberName := ascii "reason" }], typeName := ascii "Sold" }
  | .missing => { type := .struct [{ target := .text, memberName := ascii "message" }], typeName := ascii "Missing" }
  | .text => { type := .string }

def shopSerde : Typed.SerdeCodeGen ShopId where
  model :=
    { shape := shopShape
      stringKeys := by
        rintro (_ | _ | _) key value sparse ⟨⟩
      grounded := Typed.Model.grounded_of_optional (by rintro (_ | _ | _) members ⟨⟩ <;> decide) }
  useJsonName := false

def shop : Service ShopId where
  protocol := .rpcv2Cbor
  backend := { parse := fun _ => none, dump := fun _ => [] }
  serde := shopSerde
  errorShape
    | .sold => { namespace_ := ascii "shop", name := ascii "Sold" }
    | .missing => { namespace_ := ascii "shop", name := ascii "Missing", httpError := some 404 }
    | .text => { namespace_ := ascii "shop", name := ascii "Text" }
  operations := [{ name := ascii "Buy", errors := [.sold, .missing] }]

theorem shop_valid : shop.Valid where
  serde :=
    { fields := by
        rintro (_ | _ | _) members ⟨⟩ <;> decide
      tags := by
        rintro (_ | _ | _) members discriminator ⟨⟩
      values := by
        rintro (_ | _ | _) values ⟨⟩
      alternatives := by
        rintro (_ | _ | _) members discriminator ⟨⟩ }
  structures := by
    rintro (_ | _ | _) isError
    · exact ⟨_, rfl⟩
    · exact ⟨_, rfl⟩
    · exact absurd isError (by decide)
  types := by decide
  colons := by decide
  hashes := by decide

theorem shop_apart : shop.NamesApart := by
  simp only [Service.NamesApart, Service.NameApart]
  decide

/-- Something that was bought is sold, for a reason. -/
def soldError : TypedError ShopId where
  kind := .modeled
  code := ascii "Sold"
  message := ascii "gone"
  detail := some (.sold, .struct [.engaged (.string (ascii "late"))])

/-- An error whose detail has no message of its own. -/
def missingError : TypedError ShopId where
  kind := .modeled
  code := ascii "Missing"
  message := ascii "gone"
  detail := some (.missing, .struct [.nullopt])

theorem soldError_failure : shop.Failure { name := ascii "Buy", errors := [.sold, .missing] } .sold
    (.struct [.engaged (.string (ascii "late"))]) soldError where
  offered := List.mem_singleton_self _
  declared := List.mem_cons_self
  noHeaders := rfl
  typed := by
    simp [Value.HasType, Value.FieldsHaveType, shop, shopSerde, shopShape, Typed.Model.memberSlot, Typed.plain,
      Typed.populated, Typed.defaulted]
  kind := rfl
  code := rfl
  detail := rfl

theorem missingError_failure : shop.Failure { name := ascii "Buy", errors := [.sold, .missing] } .missing
    (.struct [.nullopt]) missingError where
  offered := List.mem_singleton_self _
  declared := List.mem_cons_of_mem _ List.mem_cons_self
  noHeaders := rfl
  typed := by
    simp [Value.HasType, Value.FieldsHaveType, shop, shopSerde, shopShape, Typed.Model.memberSlot, Typed.plain,
      Typed.populated, Typed.defaulted]
  kind := rfl
  code := rfl
  detail := rfl

/-- The codec of the shop carries short texts. -/
theorem shop_carries (texts : List (Bytes × Bytes)) (ordered : (texts.map Prod.fst).Pairwise (· < ·))
    (few : texts.length < 2 ^ 63)
    (short : ∀ member ∈ texts, member.1.length < 2 ^ 63 ∧ member.2.length < 2 ^ 63) :
    shop.Carries .cbor (.map (texts.map fun member => (member.1, .string member.2))) := by
  have parts : Document.membersWellFormed (texts.map fun member => (member.1, .string member.2)) ∧
      Document.membersRepresentable (texts.map fun member => (member.1, .string member.2)) ∧
      Document.nestingMembers (texts.map fun member => (member.1, .string member.2)) ≤ 1 := by
    clear ordered few
    induction texts with
    | nil => exact ⟨trivial, trivial, Nat.zero_le _⟩
    | cons member texts ih =>
      obtain ⟨⟨shortKey, shortText⟩, later⟩ := List.forall_mem_cons.mp short
      obtain ⟨wellFormed, window, shallow⟩ := ih later
      simp only [List.map_cons, Document.membersWellFormed, Document.membersRepresentable, Document.nestingMembers,
        Document.WellFormed, Document.Representable, Document.nesting, Nat.max_le]
      exact ⟨⟨shortKey, shortText, wellFormed⟩, ⟨trivial, window⟩, Nat.zero_lt_one, Nat.le_refl 1, shallow⟩
  apply Service.carries_cbor rfl
  · rw [Document.WellFormed, List.length_map, List.map_map]
    exact ⟨few, ordered, parts.1⟩
  · rw [Document.Representable]
    exact parts.2.1
  · rw [Document.nesting, Cbor.kMaxDepth]
    omega

theorem modeled_error_identity_sold :
    (∃ received, shop.responseError { name := ascii "Buy", errors := [.sold, .missing] }
      (shop.errorToResponse soldError .null) =
        some received ∧ received.code = ascii "Sold" ∧
        received.detail = some (.sold, .struct [.engaged (.string (ascii "late"))])) ∧
    ∃ message received, shop.receivedMessage
      (shop.failureMessage { name := ascii "Buy", errors := [.sold, .missing] } soldError) =
        .ok (some message) ∧
      shop.decodeEventError { name := ascii "Buy", errors := [.sold, .missing] } message = some received ∧
      received.detail = some (.sold, .struct [.engaged (.string (ascii "late"))]) := by
  obtain ⟨response, exception⟩ :=
    @modeled_error_identity _ _ shop shop_valid _ _ (shop_apart _ soldError_failure.isError) _ _ soldError_failure .cbor rfl
  have kept : shop.KeepsMessage .sold soldError := .inl (by decide)
  have unmarked : kTypeMember ∉ shop.wireNames .sold := by decide
  have refused : shop.Refuses { name := ascii "Buy", errors := [.sold, .missing] } (shop.errorShape .sold).errorStatus :=
    show (400 : ℤ) ≠ 200 by decide
  have fits : shop.Fits (shop.failureMessage { name := ascii "Buy", errors := [.sold, .missing] } soldError) :=
    ⟨_, EventStream.encodeMessage_eq_ok.mpr ⟨_, rfl, by decide, by decide, _, rfl, rfl⟩⟩
  constructor
  · have carried : shop.Carries .cbor (shop.sentDocument .sold soldError .null) :=
      shop_carries [(ascii "__type", ascii "shop#Sold"), (ascii "message", ascii "gone"), (ascii "reason", ascii "late")]
        (by decide) (by decide) (by decide)
    obtain ⟨received, same, isOf, detail⟩ := response .null refused (fun _ _ same => nomatch same) carried
    exact ⟨received, same, isOf.code, detail kept fun _ => unmarked⟩
  · have carried : shop.CarriesFailure .cbor .sold soldError :=
      shop_carries [(ascii "message", ascii "gone"), (ascii "reason", ascii "late")] (by decide) (by decide) (by decide)
    obtain ⟨message, received, arrived, same, -, detail⟩ := exception rfl carried fits
    exact ⟨message, received, arrived, same, detail kept fun _ => unmarked⟩

/-- The server fills its message into a detail that leaves its own unset. -/
theorem modeled_error_filled :
    shop.serde.deserialize (WireForm.cbor.form (shop.serde.serialize (.struct [.nullopt]) .missing .epochSeconds),
      .missing) =
        .ok (.struct [.nullopt]) ∧
      shop.Carries .cbor (shop.sentDocument .missing missingError .null) ∧
      ∃ received, shop.responseError { name := ascii "Buy", errors := [.sold, .missing] }
          (shop.errorToResponse missingError .null) = some received ∧
        received.detail = some (.missing, .struct [.engaged (.string (ascii "gone"))]) ∧
        received.detail ≠ missingError.detail := by
  have carried : shop.Carries .cbor (shop.sentDocument .missing missingError .null) :=
    shop_carries [(ascii "__type", ascii "shop#Missing"), (ascii "message", ascii "gone")] (by decide) (by decide)
      (by decide)
  have refused : shop.Refuses { name := ascii "Buy", errors := [.sold, .missing] } (shop.errorShape .missing).errorStatus :=
    show (404 : ℤ) ≠ 200 by decide
  obtain ⟨parsed, document, response⟩ :=
    missingError_failure.response shop_valid (shop_apart _ missingError_failure.isError) refused
    (fun _ _ same => nomatch same) carried
  have filled : (shop.makeError .missing (shop.modeledResponse .missing missingError .null) parsed).detail =
      some (.missing, .struct [.engaged (.string (ascii "gone"))]) := by
    rw [Service.makeError, document]
    rfl
  refine ⟨rfl, carried, _, response, filled, ?_⟩
  rw [filled]
  intro same
  cases same

end OpalCpp.ModeledErrors

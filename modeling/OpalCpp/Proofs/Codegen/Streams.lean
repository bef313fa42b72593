import OpalCpp.Model.Codegen.Streams
import OpalCpp.Proofs.Codegen.ErrorExceptions
import OpalCpp.Proofs.Codegen.RpcCalls
import OpalCpp.Proofs.EventStream.JsonWires
import OpalCpp.Proofs.Http.PairChannel
import OpalCpp.Proofs.Http.WsReceive

/-! # Event streams, from end to end

The events that an end of a stream sends are the events that the other end receives, in their order, and after them
comes what the handler returned.
-/

namespace OpalCpp

namespace Http

/-! ## What a connection reads -/

section Reads

variable {Message Frame : Type*} {codec : Codec Message Frame} {wire : Wire}

/-- A message of the WebSocket that a read completes with. -/
def ConnectionLabel.messageRead : ConnectionLabel Message Frame → Option (Bool × Frame)
  | .onRead (.message gotBinary bytes) => some (gotBinary, bytes)
  | _ => none

namespace Connection

variable {source target : Connection Message Frame} {label : ConnectionLabel Message Frame}

/-- A step adds to the messages decoded the one it has read, if that decodes. -/
theorem decoded_step (stepped : (machine codec wire).step source label = some target) :
    target.decoded = source.decoded ++
      (label.messageRead.bind fun read => (codec.decodeFromWire wire read.1 read.2).toOption).toList := by
  change step codec wire source label = some target at stepped
  cases label with
  | onRead result =>
    cases result with
    | message gotBinary bytes =>
      rw [step] at stepped
      split at stepped
      · cases stepped
        simp only [onRead, ConnectionLabel.messageRead, Option.bind_some]
        cases codec.decodeFromWire wire gotBinary bytes with
        | ok message =>
          simp only [deliver]
          split <;> rfl
        | error violation => exact (List.append_nil _).symm
      · cases stepped
    | closed why | error ec => cases step_spec stepped <;> exact (List.append_nil _).symm
  | _ => cases step_spec stepped <;> exact (List.append_nil _).symm

theorem decoded_run {labels : List (ConnectionLabel Message Frame)}
    (reached : (machine codec wire).run source labels = some target) :
    target.decoded = source.decoded ++ (labels.filterMap ConnectionLabel.messageRead).filterMap fun read =>
      (codec.decodeFromWire wire read.1 read.2).toOption := by
  induction labels generalizing source with
  | nil =>
    cases reached
    exact (List.append_nil _).symm
  | cons label labels ih =>
    obtain ⟨middle, stepped, rest⟩ := (machine codec wire).run_cons_eq_some.mp reached
    rw [ih rest, decoded_step stepped, List.append_assoc]
    congr 1
    cases read : label.messageRead with
    | none =>
      rw [List.filterMap_cons_none read]
      rfl
    | some message =>
      rw [List.filterMap_cons_some read, List.filterMap_cons, Option.bind_some]
      cases decoded : (codec.decodeFromWire wire message.1 message.2).toOption <;> simp

end Connection

end Reads

end Http

namespace Streams

open scoped Bytes
open Bytes (ascii)
open EventStream (Message EventEnvelope encodeMessage decodeMessage makeEventMessage makeExceptionMessage parseEnvelope
  kMaxMessageBytes
  kJsonContentType)
open EventStream.JsonRpc (Role Received classifyInbound encodeNotification)
open Http (Wire)
open ModeledErrors (TypedError)
open ModeledErrors.Service (callId ofError)
open Typed (Value Member)

/-! ## Messages on the wires -/

section Messages

variable {backend : Json.Backend} {message raw : Message} {received : Except String Message}

/-- A message that is sent in a frame of its own is the one that is read. -/
theorem transmit_framed {wire : Wire} (own : wire ≠ .jsonFrames) (sent : transmit backend wire message = .ok received) :
    received = .ok message := by
  obtain ⟨frame, encoded, rfl⟩ := Outcome.map_eq_ok.mp sent
  cases wire with
  | jsonFrames => exact absurd rfl own
  | rawText =>
    change encodeRawTextFrame message = .ok frame at encoded
    rw [encodeRawTextFrame] at encoded
    split_ifs at encoded with some_ long
    cases encoded
    have bare : message.headers = [] := List.isEmpty_iff.mp (by simpa using some_)
    obtain ⟨headers, payload⟩ := message
    change Except.ok (⟨[], payload⟩ : Message) = _
    rw [show headers = [] from bare]
  | binary =>
    change encodeMessage message = .ok frame at encoded
    have decoded := EventStream.decodeMessage_encodeMessage encoded []
    rw [List.append_nil] at decoded
    have read : (codec backend).decodeMessage frame = .ok (some (message, frame.length)) := by
      change (decodeMessage frame).map _ = _
      rw [decoded]
      rfl
    simp only [Http.Codec.decodeFromWire, decide_true, Bool.not_true, Bool.false_eq_true, if_false, read]
    exact if_pos rfl

/-- Text frames are for messages of JSON. -/
theorem contentType_of_transmit (sent : transmit backend .jsonFrames message = .ok received) :
    ∃ envelope, parseEnvelope message = .ok envelope ∧
      (envelope.contentType = [] ∨ EventStream.mediaType envelope.contentType = kJsonContentType) := by
  obtain ⟨frame, encoded, _⟩ := Outcome.map_eq_ok.mp sent
  change EventStream.JsonFrame.encode backend message = .ok frame at encoded
  rw [EventStream.JsonFrame.encode] at encoded
  split at encoded
  · cases encoded
  · obtain ⟨doc, encodable, _⟩ := Outcome.bind_eq_ok.mp encoded
    refine ⟨_, by assumption, ?_⟩
    rw [EventStream.encodablePayload] at encodable
    split_ifs at encodable with unnamed few other many other
    · exact .inl (List.isEmpty_iff.mp unnamed)
    · rw [Bool.and_eq_true, not_and_or, Bool.not_eq_true, Bool.not_eq_false', List.isEmpty_iff] at other
      exact other.imp_right fun same => by simpa using same

/-- A message without headers is read as it is, being none of a text frame and not too long. -/
theorem transmit_bare {wire : Wire} (bare : message.headers = []) (sent : transmit backend wire message = .ok received) :
    received = .ok message ∧ message.payload.length ≤ kMaxMessageBytes := by
  have own : wire ≠ .jsonFrames := by
    rintro rfl
    obtain ⟨envelope, parsed, _⟩ := contentType_of_transmit sent
    obtain ⟨headers, _⟩ := message
    obtain rfl : headers = [] := bare
    cases parsed
  refine ⟨transmit_framed own sent, ?_⟩
  obtain ⟨frame, encoded, _⟩ := Outcome.map_eq_ok.mp sent
  cases wire with
  | jsonFrames => exact absurd rfl own
  | rawText =>
    change encodeRawTextFrame message = .ok frame at encoded
    rw [encodeRawTextFrame] at encoded
    split_ifs at encoded with some_ long
    exact Nat.le_of_not_lt long
  | binary =>
    change encodeMessage message = .ok frame at encoded
    obtain ⟨headers, _, _, small, _⟩ := EventStream.encodeMessage_eq_ok.mp encoded
    omega

/-- An event or an exception. -/
def envelopeMessage (isEvent : Bool) (type contentType payload : Bytes) : Message :=
  if isEvent then makeEventMessage type contentType payload else makeExceptionMessage type contentType payload

/-- The document of a text frame is that of the message. -/
theorem transmit_text {isEvent : Bool} {type payload : Bytes} {doc : DocumentMap} (lawful : backend.Lawful)
    (named : type ≠ [])
    (spelled : Utf8.Valid type) (decoded : Json.decode backend payload = .ok (.map doc))
    (shallow : (Json.toBackend (.map doc)).nesting + 1 ≤ 512)
    (sent : transmit backend .jsonFrames (envelopeMessage isEvent type kJsonContentType payload) = .ok received) :
    received = .ok (envelopeMessage isEvent type kJsonContentType (Json.encode backend (.map doc))) := by
  obtain ⟨frame, encoded, rfl⟩ := Outcome.map_eq_ok.mp sent
  change EventStream.JsonFrame.encode backend (envelopeMessage isEvent type kJsonContentType payload) = .ok frame at encoded
  obtain ⟨envelope, doc', parsed, again, short, rfl⟩ := EventStream.JsonFrame.encode_eq_ok encoded
  have isMessage := EventStream.parseEnvelope_makeMessage isEvent type payload
  rw [envelopeMessage] at parsed again
  cases isMessage.symm.trans parsed
  have same : Json.decode backend payload = .ok (.map doc') := by cases isEvent <;> exact again
  cases decoded.symm.trans same
  have document := Json.decode_encode_of_stable lawful
    (EventStream.JsonFrame.stable_document isEvent spelled (Json.stable_of_decode lawful decoded))
    (by rwa [EventStream.JsonFrame.nesting_document])
  have kind : decide ((if isEvent then EventEnvelope.Kind.event else .exception) = .event) = isEvent := by
    cases isEvent <;> rfl
  have read : (codec backend).decodeJsonFrame (Json.encode backend (EventStream.JsonFrame.document isEvent type doc)) = _ :=
    EventStream.JsonFrame.decode_document (by simpa only [kind] using short) document named
  simp only [Http.Codec.decodeFromWire, reduceCtorEq, decide_false, Bool.false_eq_true, if_false, kind, read]
  rfl

end Messages

variable {Id : Type*} [DecidableEq Id] {stream : Stream Id}

namespace Stream

section Arrivals

variable {raw : Message} {received : Except String Message} {wire : Wire} {type payload : Bytes} {doc : DocumentMap}

omit [DecidableEq Id] in
/-- A JSON-RPC notification carries the event. -/
theorem outbound_notification (protocol : stream.service.protocol = .jsonRpc2) (lawful : stream.service.backend.Lawful)
    (named : type ≠ []) (spelled : Utf8.Valid type) (decoded : Json.decode stream.service.backend payload = .ok (.map doc))
    (shallow : (Json.toBackend (.map doc)).nesting + 2 ≤ 512)
    (sent : stream.outbound (makeEventMessage type kJsonContentType payload) = .ok raw) (role : Role) :
    raw.headers = [] ∧ stream.inbound role (.ok (some raw)) =
      .ok (some (makeEventMessage type kJsonContentType (Json.encode stream.service.backend (.map doc)))) := by
  rw [outbound, if_pos protocol] at sent
  obtain ⟨text, encoded, rfl⟩ := Outcome.map_eq_ok.mp sent
  refine ⟨rfl, ?_⟩
  obtain ⟨envelope, doc', parsed, _, again, short, rfl⟩ := EventStream.JsonRpc.encodeNotification_eq_ok encoded
  have isEvent := EventStream.parseEnvelope_makeMessage true type payload
  rw [if_pos rfl, if_pos rfl] at isEvent
  cases isEvent.symm.trans parsed
  have same : Json.decode stream.service.backend payload = .ok (.map doc') := again
  cases decoded.symm.trans same
  have stableId : callId.Stable := by simp [callId, Document.Stable]
  have idNesting : (Json.toBackend callId).nesting = 0 := rfl
  have document := Json.decode_encode_of_stable lawful
    (EventStream.JsonRpc.stable_document spelled (Json.stable_of_decode lawful decoded) stableId)
    (by rw [EventStream.JsonRpc.nesting_document]; omega)
  have frame := EventStream.JsonRpc.decodeFrame_document short document named stableId
  rw [inbound, if_pos protocol, classifyInbound]
  simp only [List.isEmpty_nil, Bool.not_true, Bool.false_eq_true, if_false, frame]

omit [DecidableEq Id] in
theorem parseEnvelope_message (isEvent : Bool) (type payload : Bytes) :
    parseEnvelope (envelopeMessage isEvent type stream.service.contentType payload) =
      .ok ⟨if isEvent then .event else .exception, type, stream.service.contentType, payload⟩ := by
  rw [ModeledErrors.Service.contentType]
  cases isEvent <;> split <;> rfl

omit [DecidableEq Id] in
/-- A document of JSON that was read can be written anew. -/
theorem decode_again (lawful : stream.service.backend.Lawful) (json : stream.service.protocol ≠ .rpcv2Cbor)
    (decoded : stream.service.decode payload = .ok (.map doc)) (shallow : (Json.toBackend (.map doc)).nesting ≤ 512) :
    stream.service.contentType = kJsonContentType ∧ Json.decode stream.service.backend payload = .ok (.map doc) ∧
      stream.service.decode (Json.encode stream.service.backend (.map doc)) = .ok (.map doc) := by
  have coded (bytes : Bytes) : stream.service.decode bytes = Json.decode stream.service.backend bytes := by
    rw [ModeledErrors.Service.decode]
    split
    · contradiction
    · rfl
  have text : stream.service.contentType = kJsonContentType := by
    rw [ModeledErrors.Service.contentType]
    split
    · contradiction
    · rfl
  have read : Json.decode stream.service.backend payload = .ok (.map doc) := by rw [← coded, decoded]
  exact ⟨text, read, (coded _).trans (Json.decode_encode_of_stable lawful (Json.stable_of_decode lawful read) shallow)⟩

omit [DecidableEq Id] in
/-- A message of a stream that no JSON-RPC envelope is around is read as one of its kind and name, with its document. -/
theorem framed_carried (framed : stream.service.protocol ≠ .jsonRpc2) (lawful : stream.service.backend.Lawful)
    {isEvent : Bool}
    (named : type ≠ []) (spelled : Utf8.Valid type) (decoded : stream.service.decode payload = .ok (.map doc))
    (shallow : stream.service.protocol ≠ .rpcv2Cbor → (Json.toBackend (.map doc)).nesting + 2 ≤ 512)
    (transmitted : transmit stream.service.backend wire (envelopeMessage isEvent type stream.service.contentType payload) =
      .ok received) (role : Role) :
    ∃ message arrived content, received = .ok message ∧ stream.inbound role (.ok (some message)) = .ok (some arrived) ∧
      parseEnvelope arrived = .ok ⟨if isEvent then .event else .exception, type, stream.service.contentType, content⟩ ∧
      stream.service.decode content = .ok (.map doc) := by
  have passed (message : Message) : stream.inbound role (.ok (some message)) = .ok (some message) := if_neg framed
  rcases eq_or_ne wire .jsonFrames with rfl | own
  · have json : stream.service.protocol ≠ .rpcv2Cbor := by
      intro cbor
      obtain ⟨envelope, parsed, media⟩ := contentType_of_transmit transmitted
      cases (parseEnvelope_message isEvent type payload).symm.trans parsed
      have text : stream.service.contentType = ascii "application/cbor" := by rw [ModeledErrors.Service.contentType, cbor]
      simp only [text] at media
      exact absurd media (by decide)
    have shallow := shallow json
    obtain ⟨text, read, anew⟩ := decode_again lawful json decoded (by omega)
    rw [text] at transmitted
    have written := transmit_text lawful named spelled read (by omega) transmitted
    rw [← text] at written
    exact ⟨_, _, _, written, passed _, parseEnvelope_message isEvent type _, anew⟩
  · exact ⟨_, _, _, transmit_framed own transmitted, passed _, parseEnvelope_message isEvent type _, decoded⟩

omit [DecidableEq Id] in
/-- An event that is put on the wire is read as an event of its name, with its document. -/
theorem event_carried (lawful : stream.service.backend.Lawful) (named : type ≠ []) (spelled : Utf8.Valid type)
    (decoded : stream.service.decode payload = .ok (.map doc))
    (shallow : stream.service.protocol ≠ .rpcv2Cbor → (Json.toBackend (.map doc)).nesting + 2 ≤ 512)
    (sent : stream.outbound (makeEventMessage type stream.service.contentType payload) = .ok raw)
    (transmitted : transmit stream.service.backend wire raw = .ok received) (role : Role) :
    ∃ message arrived content, received = .ok message ∧ stream.inbound role (.ok (some message)) = .ok (some arrived) ∧
      parseEnvelope arrived = .ok ⟨.event, type, stream.service.contentType, content⟩ ∧
      stream.service.decode content = .ok (.map doc) := by
  rcases eq_or_ne stream.service.protocol .jsonRpc2 with rpc | framed
  · have json : stream.service.protocol ≠ .rpcv2Cbor := by simp [rpc]
    have shallow := shallow json
    obtain ⟨text, read, anew⟩ := decode_again lawful json decoded (by omega)
    rw [text] at sent
    obtain ⟨bare, arrived⟩ := outbound_notification rpc lawful named spelled read shallow sent role
    rw [← text] at arrived
    exact ⟨raw, _, _, (transmit_bare bare transmitted).1, arrived, parseEnvelope_message true type _, anew⟩
  · rw [outbound, if_neg framed] at sent
    cases sent
    exact @framed_carried _ stream received wire type payload doc framed lawful true named spelled decoded shallow
      transmitted role

end Arrivals

/-! ## Events -/

section Events

variable (stream)

/-- What is checked of a stream before code is generated for it: its events are structures with names of their own. -/
structure Valid : Prop where
  service : stream.service.Valid
  lawful : stream.service.backend.Lawful
  distinct : ∀ role, ∀ union ∈ stream.tx role, ((stream.events union).map Member.memberName).Nodup
  named : ∀ role, ∀ union ∈ stream.tx role, ∀ member ∈ stream.events union,
    member.memberName ≠ [] ∧ Utf8.Valid member.memberName
  structures : ∀ role, ∀ union ∈ stream.tx role, ∀ member ∈ stream.events union,
    ∃ members, (stream.service.serde.model.shape member.target).type = .struct members
  errors : ∀ id ∈ stream.errors, (stream.service.errorShape id).name ≠ [] ∧ Utf8.Valid (stream.service.errorShape id).name

def valueWire : ValueWire := Rpc.Service.wire stream.service.protocol

/-- The document of an event is within the limits of the codecs, two levels inside the envelope of a text frame. -/
def Fits (document : Document) : Prop :=
  match stream.service.protocol with
  | .rpcv2Cbor => document.WellFormed ∧ document.Representable ∧ document.nesting ≤ Cbor.kMaxDepth
  | _ => document.Spelled ∧ (Json.toBackend document).nesting + 2 ≤ 512

/-- An event that the codecs can send. -/
structure Sendable (union : Id) (event : Value) : Prop where
  typed : event.HasType stream.service.serde.model ⟨union, false⟩
  complete : event.Every stream.service.serde.model stream.service.serde.Complete union
  unhinted : event.Every stream.service.serde.model stream.service.serde.Unhinted union
  carried : stream.service.serde.Carried stream.valueWire event union .epochSeconds
  fits : ∀ index value member, event = .alternative index value → (stream.events union)[index]? = some member →
    stream.Fits (stream.service.serde.serialize value member.target .epochSeconds)

def peer : Role → Role
  | .client => .server
  | .server => .client

/-- What a receive of an event gives: of one that breaks its constraints the first failure, which spares the session. -/
def receipt (role : Role) (union : Id) (event : Value) : Receipt Id :=
  match stream.violations role union event with
  | [] => { result := .ok (some event) }
  | failure :: _ => { result := .error (ofError (.Validation failure.message.text)) }

end Events

variable {union : Id}

omit [DecidableEq Id] in
/-- The ladder finds the event by its name. -/
theorem find_event {members : List (Member Id)} (distinct : (members.map Member.memberName).Nodup) {index : ℕ}
    {member : Member Id} (place : members[index]? = some member) :
    members.zipIdx.find? (fun entry => decide (entry.1.memberName = member.memberName)) = some (member, index) := by
  have keys : (members.zipIdx.map fun entry => entry.1.memberName).Nodup := by
    have same :
        (members.zipIdx.map fun entry => entry.1.memberName) = (members.zipIdx.map Prod.fst).map Member.memberName := by
      rw [List.map_map]
      rfl
    rwa [same, List.zipIdx_map_fst]
  have inside : (member, index) ∈ members.zipIdx := List.mem_zipIdx_iff_getElem?.mpr place
  have found := Typed.SerdeCodeGen.find?_of_nodup keys inside
  simp only [eq_comm] at found ⊢
  exact found

omit [DecidableEq Id] in
/-- An event is decoded from its envelope. -/
theorem receive_event {role : Role} (received : stream.rx role = some union)
    (distinct : ((stream.events union).map Member.memberName).Nodup) {index : ℕ}
    {member : Member Id} (place : (stream.events union)[index]? = some member) {message arrived : Message} {content : Bytes}
    (inbound : stream.inbound role (.ok (some message)) = .ok (some arrived))
    (parsed : parseEnvelope arrived = .ok ⟨.event, member.memberName, stream.service.contentType, content⟩) {doc : Document}
    (decoded : stream.service.decode content = .ok doc) {restored : Value}
    (read : stream.service.serde.deserialize (doc, member.target) = .ok restored) :
    stream.receive role (.ok (some message)) = stream.receipt role union (.alternative index restored) := by
  have event : stream.envelopeEvent role union ⟨.event, member.memberName, stream.service.contentType, content⟩ =
      stream.checkEvent role union (.alternative index restored) := by
    rw [envelopeEvent]
    simp only [find_event distinct place, decoded]
    change (stream.service.serde.deserialize (doc, member.target)).bind _ = _
    rw [read]
    rfl
  have result : stream.decodeEvent role arrived =
      (stream.checkEvent role union (.alternative index restored)).mapError ofError := by
    rw [decodeEvent]
    simp only [received, parsed, event, reduceCtorEq, if_false]
  rw [receive, inbound, decode]
  simp only [result, receipt, checkEvent]
  cases stream.violations role union (.alternative index restored) <;> rfl

omit [DecidableEq Id] in
/-- What a document within the limits is decoded as, not too deep for an envelope around it. -/
theorem carries_of_fits (lawful : stream.service.backend.Lawful) {document : Document} (fits : stream.Fits document) :
    stream.service.Carries stream.valueWire.toWireForm document ∧ (stream.service.protocol ≠ .rpcv2Cbor →
      (Json.toBackend (stream.valueWire.form document)).nesting + 2 ≤ 512) := by
  rw [Fits] at fits
  rw [ModeledErrors.Service.Carries, ModeledErrors.Service.decode, ModeledErrors.Service.encode, valueWire]
  cases protocol : stream.service.protocol with
  | rpcv2Cbor =>
    simp only [protocol] at fits
    exact ⟨Cbor.decode_form fits.1 fits.2.1 fits.2.2, fun other => absurd rfl other⟩
  | httpJson | jsonRpc2 =>
    simp only [protocol] at fits
    refine ⟨Json.decode_encode_jsonForm lawful (Document.stable_jsonForm _ fits.1) (by omega), fun _ => ?_⟩
    change (Json.toBackend document.jsonForm).nesting + 2 ≤ 512
    rw [Json.toBackend_jsonForm]
    exact fits.2

omit [DecidableEq Id] in
/-- What comes back in JSON can be sent again. -/
theorem carries_again (json : stream.service.protocol = .jsonRpc2) (lawful : stream.service.backend.Lawful)
    {document : Document}
    (fits : stream.Fits document) :
    stream.service.Carries stream.valueWire.toWireForm (stream.valueWire.form document) := by
  rw [Fits] at fits
  simp only [json] at fits
  rw [ModeledErrors.Service.Carries, stream.valueWire.settled, ModeledErrors.Service.decode, ModeledErrors.Service.encode,
    valueWire]
  simp only [json]
  apply Json.decode_encode_of_stable lawful (Document.stable_jsonForm _ fits.1)
  rw [Json.toBackend_jsonForm]
  omega

omit [DecidableEq Id] in
/-- What is sent is an alternative of the union. -/
theorem sendEvent_eq_ok {event : Value} {raw : Message} (sent : stream.sendEvent union event = .ok raw) :
    ∃ index value member, event = .alternative index value ∧ (stream.events union)[index]? = some member ∧
      stream.outbound (makeEventMessage member.memberName stream.service.contentType
        (stream.service.encode (stream.service.serde.serialize value member.target .epochSeconds))) = .ok raw := by
  obtain ⟨message, encoded, out⟩ := Outcome.bind_eq_ok.mp sent
  rw [encodeEvent.eq_def] at encoded
  dsimp only at encoded
  split at encoded
  · rename_i index value
    split at encoded
    · cases encoded
      exact ⟨index, value, _, rfl, by assumption, out⟩
    · cases encoded
  · cases encoded

omit [DecidableEq Id] in
/-- The members of a union are those of its type. -/
theorem type_of_events {index : ℕ} {member : Member Id} (place : (stream.events union)[index]? = some member) :
    ∃ members discriminated, (stream.service.serde.model.shape union).type = .union members discriminated ∧
      stream.events union = members := by
  rw [events] at place ⊢
  split at place
  · exact ⟨_, _, by assumption, rfl⟩
  · cases place

omit [DecidableEq Id] in
/-- An event that an end sends is received by the other end, as the event or as what is wrong with it. -/
theorem event_arrives (valid : stream.Valid) {role : Role} (modeled : stream.tx role = some union) {event : Value}
    (sendable : stream.Sendable union event) {raw : Message} (sent : stream.sendEvent union event = .ok raw) {wire : Wire}
    {received : Except String Message} (transmitted : transmit stream.service.backend wire raw = .ok received) :
    ∃ message restored, received = .ok message ∧
      restored.canonical = (event.fill stream.service.serde.model union).canonical ∧
      stream.receive (peer role) (.ok (some message)) = stream.receipt (peer role) union restored := by
  obtain ⟨index, value, member, rfl, place, out⟩ := sendEvent_eq_ok sent
  obtain ⟨members, discriminated, type, events⟩ := type_of_events place
  have inside : member ∈ stream.events union := List.mem_of_getElem? place
  obtain ⟨named, spelled⟩ := valid.named role union modeled member inside
  obtain ⟨fields, struct⟩ := valid.structures role union modeled member inside
  have place' : members[index]? = some member := events ▸ place
  -- What is in the event is what its structure is read as.
  obtain ⟨typed, complete, unhinted, carried⟩ : value.HasType stream.service.serde.model ⟨member.target, false⟩ ∧
      value.Every stream.service.serde.model stream.service.serde.Complete member.target ∧
      value.Every stream.service.serde.model stream.service.serde.Unhinted member.target ∧
      stream.service.serde.Carried stream.valueWire value member.target .epochSeconds := by
    have typed := sendable.typed
    have complete := sendable.complete
    have unhinted := sendable.unhinted
    have carried := sendable.carried
    rw [Value.HasType] at typed
    rw [Value.Every, type] at complete unhinted
    rw [Typed.SerdeCodeGen.Carried, type] at carried
    simp only [place'] at complete unhinted carried
    obtain ⟨_, members', discriminated', member', type', there, typed⟩ := typed
    cases type.symm.trans type'
    cases place'.symm.trans there
    obtain ⟨values, rfl⟩ := Typed.SerdeCodeGen.exists_struct struct typed
    rw [Typed.SerdeCodeGen.Carried] at carried ⊢
    exact ⟨typed, complete.2, unhinted.2, carried⟩
  have aggregate : Typed.hasSerdeFunctions (stream.service.serde.model.shape member.target).type = true := by
    rw [struct]
    rfl
  obtain ⟨restored, read, same⟩ :=
    Typed.SerdeCodeGen.deserialize_form valid.service.serde aggregate typed complete unhinted carried
  obtain ⟨content, written⟩ := Typed.SerdeCodeGen.form_struct stream.valueWire.toWireForm struct typed .epochSeconds
  obtain ⟨decoded, shallow⟩ := carries_of_fits valid.lawful (sendable.fits index value member rfl place)
  rw [ModeledErrors.Service.Carries] at decoded
  rw [written] at decoded shallow read
  obtain ⟨message, arrived, text, isMessage, inbound, parsed, again⟩ :=
    event_carried valid.lawful named spelled decoded shallow out transmitted (peer role)
  have rx : stream.rx (peer role) = some union := by
    cases role <;> exact modeled
  refine ⟨message, .alternative index restored, isMessage, ?_,
    receive_event rx (valid.distinct role union modeled) place inbound parsed again read⟩
  simp only [Value.fill, type, place', Value.canonical, same]

/-! ## Failures -/

section Failures

variable (stream)

/-- The documents that a failure with an error of a shape is told in: on the JSON-RPC wire there is one in the other. -/
def failureDocuments (id : Id) (error : TypedError Id) : List Document :=
  match stream.service.protocol with
  | .jsonRpc2 => [stream.service.sentDocument id error callId, .map (stream.service.markedBody id error)]
  | _ => [.map (stream.service.sentBody id error)]

/-- The document that tells of an error without a shape. -/
def toldDocument (status : ℤ) (type message : Bytes) : Document :=
  match stream.service.protocol with
  | .jsonRpc2 => JsonRpc2.errorEnvelope (Int64.ofInt status) type message [] callId
  | _ => .map [(EventStream.JsonRpc.kMessageMember, .string message)]

/-- A failure with an error that the operation declares, which the codec can send. -/
structure Declared (id : Id) (detail : Value) (error : TypedError Id) : Prop where
  failure : stream.service.Failure stream.operation id detail error
  complete : detail.Every stream.service.serde.model stream.service.serde.Complete id
  unhinted : detail.Every stream.service.serde.model stream.service.serde.Unhinted id
  carried : stream.service.serde.Carried stream.valueWire detail id .epochSeconds
  keeps : stream.service.KeepsMessage id error
  unmarked : stream.service.protocol = .jsonRpc2 → EventStream.JsonRpc.kTypeMember ∉ stream.service.wireNames id
  fits : ∀ document ∈ stream.failureDocuments id error, stream.Fits document

/-- What a handler may return. -/
def Answerable : Except (TypedError Id) Unit → Prop
  | .ok () => True
  | .error error =>
    match error.kind with
    | .modeled => ∃ id detail, stream.Declared id detail error
    | .validation | .serialization => error.message ≠ [] ∧
        stream.Fits (stream.toldDocument 400 (ascii "SerializationException") error.message)
    | .transport | .unknown => True

/-- The error of a handler as the client gets it: of the handler's own errors only that there was one. -/
def ConveyedError (error received : TypedError Id) : Prop :=
  received.kind = .modeled ∧
    match error.kind with
    | .modeled => received.code = error.code ∧ ∃ id detail restored, error.detail = some (id, detail) ∧
        received.detail = some (id, restored) ∧
          restored.canonical = (detail.fill stream.service.serde.model id).canonical
    | .validation | .serialization => received.code = ascii "SerializationException" ∧ received.message = error.message
    | .transport | .unknown => received.code = ascii "InternalFailure" ∧ received.message = ascii "internal failure"

/-- What a client's last receive gives. -/
def Ends (outcome : Except (TypedError Id) Unit) (receipt : Receipt Id) : Prop :=
  match outcome with
  | .ok () => receipt = { result := .ok none }
  | .error error => ∃ received, receipt = { result := .error received, close := true } ∧ stream.ConveyedError error received

end Failures

omit [DecidableEq Id] in
/-- An exception with a name and a message, as the client takes it. -/
theorem decodeException_told {operation : ModeledErrors.Operation Id} {envelope : EventEnvelope} {doc : DocumentMap}
    {message : Bytes}
    (known : ModeledErrors.Service.sanitizeErrorCode envelope.type ≠ ModeledErrors.Service.kUnknownError)
    (decoded : stream.service.decode envelope.payload = .ok (.map doc))
    (text : OrderedMap.find? EventStream.JsonRpc.kMessageMember doc = some (.string message)) :
    (stream.service.decodeException operation envelope).kind = .modeled ∧
      (stream.service.decodeException operation envelope).code = ModeledErrors.Service.sanitizeErrorCode envelope.type ∧
      (stream.service.decodeException operation envelope).message = message := by
  have told : (ModeledErrors.Service.stringMember (.map doc) EventStream.JsonRpc.kMessageMember).getD [] = message := by
    rw [ModeledErrors.Service.stringMember, Document.find_map, text]
    rfl
  rw [ModeledErrors.Service.decodeException]
  simp only [decoded, told]
  split
  · rename_i id found
    have name : ModeledErrors.Service.sanitizeErrorCode envelope.type = (stream.service.errorShape id).name := by
      simpa using List.find?_some found
    exact ⟨rfl, name.symm, rfl⟩
  · exact ⟨if_neg known, rfl, rfl⟩

omit [DecidableEq Id] in
/-- An exception is the end of the stream. -/
theorem receive_exception (output : stream.output = some union) {message arrived : Message} {envelope : EventEnvelope}
    (inbound : stream.inbound .client (.ok (some message)) = .ok (some arrived))
    (parsed : parseEnvelope arrived = .ok envelope) (kind : envelope.kind = .exception)
    (modeled : (stream.service.decodeException stream.operation envelope).kind = .modeled) :
    stream.receive .client (.ok (some message)) =
      { result := .error (stream.service.decodeException stream.operation envelope), close := true } := by
  have decoded : stream.decodeEvent .client arrived = .error (stream.service.decodeException stream.operation envelope) := by
    have rx : stream.rx .client = some union := output
    rw [decodeEvent]
    simp only [rx, parsed, kind, if_true]
  rw [receive, inbound, decode]
  simp only [decoded, sparesSession, modeled]
  rfl

section Errors

variable (stream) in
/-- The message is an exception of the name, with the document. -/
def Told (message : Message) (name : Bytes) (doc : DocumentMap) : Prop :=
  ∃ arrived envelope, stream.inbound .client (.ok (some message)) = .ok (some arrived) ∧
    parseEnvelope arrived = .ok envelope ∧ envelope.kind = .exception ∧
    ModeledErrors.Service.sanitizeErrorCode envelope.type = name ∧ stream.service.decode envelope.payload = .ok (.map doc)

variable (valid : stream.Valid) {wire : Wire} {received : Except String Message}

include valid

/-- A failure with an error of a shape is told by the name of the shape, with the members of the detail. -/
theorem declared_told {id : Id} {detail : Value} {error : TypedError Id} (apart : stream.service.NameApart id)
    (declared : stream.Declared id detail error)
    (transmitted : transmit stream.service.backend wire (stream.service.failureMessage stream.operation error) =
      .ok received) :
    ∃ message, received = .ok message ∧ stream.Told message (stream.service.errorShape id).name
      (OrderedMap.mapValues stream.valueWire.form (stream.service.streamedMembers id error)) := by
  have failure := declared.failure
  have isError := failure.isError
  have noColon : ':'.toUInt8 ∉ (stream.service.errorShape id).name :=
    fun member => valid.service.colons id isError (List.mem_append_right _ member)
  have sanitized := ModeledErrors.sanitizeErrorCode_name noColon (valid.service.hashes id isError).2
  have fits := declared.fits
  rw [failureDocuments] at fits
  rcases eq_or_ne stream.service.protocol .jsonRpc2 with rpc | framed
  · simp only [rpc, List.forall_mem_cons] at fits
    have bare : (stream.service.failureMessage stream.operation error).headers = [] := by
      rw [ModeledErrors.Service.failureMessage, if_pos rpc]
    obtain ⟨isMessage, short⟩ := transmit_bare bare transmitted
    obtain ⟨arrived, envelope, inbound, parsed, kind, type, decoded⟩ := failure.terminal valid.service apart rpc
      (carries_of_fits valid.lawful fits.1).1 (carries_again rpc valid.lawful fits.2.1)
      (by simpa only [ModeledErrors.Service.Fits, rpc] using short)
    rw [ModeledErrors.Service.receivedMessage, if_pos rpc] at inbound
    refine ⟨_, isMessage, arrived, envelope, ?_, parsed, kind, type, ?_⟩
    · rw [Stream.inbound, if_pos rpc, inbound]
    · rw [decoded, ModeledErrors.Service.streamedMembers, rpc]
  · have fits : stream.Fits (.map (stream.service.sentBody id error)) := by
      apply fits
      cases protocol : stream.service.protocol with
      | jsonRpc2 => exact absurd protocol framed
      | httpJson | rpcv2Cbor => exact List.mem_singleton_self _
    obtain ⟨carried, shallow⟩ := carries_of_fits valid.lawful fits
    have built :
        stream.service.failureMessage stream.operation error = envelopeMessage false (stream.service.errorShape id).name
        stream.service.contentType (stream.service.encode (.map (stream.service.sentBody id error))) := by
      rw [ModeledErrors.Service.failureMessage, if_neg framed, ModeledErrors.Service.buildExceptionMessage, failure.kind]
      simp only [failure.exceptionBody valid.service apart, failure.code]
      rfl
    obtain ⟨named, spelled⟩ := valid.errors id failure.declared
    rw [ModeledErrors.Service.Carries, stream.valueWire.map] at carried
    rw [stream.valueWire.map] at shallow
    rw [built] at transmitted
    obtain ⟨message, arrived, content, isMessage, inbound, parsed, decoded⟩ :=
      framed_carried framed valid.lawful named spelled carried shallow transmitted .client
    refine ⟨message, isMessage, arrived, _, inbound, parsed, rfl, sanitized, ?_⟩
    rw [decoded, ModeledErrors.Service.streamedMembers]
    cases protocol : stream.service.protocol with
    | jsonRpc2 => exact absurd protocol framed
    | httpJson | rpcv2Cbor => rfl

omit [DecidableEq Id] valid in
/-- The exception of an envelope that tells a message beside its type. -/
theorem decodeFrame_told {backend : Json.Backend} {text type message : Bytes} {code : Int64}
    (short : text.length ≤ kMaxMessageBytes)
    (named : type ≠ []) (told : message ≠ [])
    (decoded : Json.decode backend text = .ok (JsonRpc2.errorEnvelope code type message [] callId)) :
    EventStream.JsonRpc.decodeFrame backend text callId = .exception (makeExceptionMessage type kJsonContentType
      (Json.encode backend (.map [(EventStream.JsonRpc.kTypeMember, .string type),
        (EventStream.JsonRpc.kMessageMember, .string message)]))) := by
  rw [ModeledErrors.errorEnvelope_eq code named, if_pos told] at decoded
  have data : DocumentMap.insertOrAssign EventStream.JsonRpc.kTypeMember (.string type) [] =
      [(EventStream.JsonRpc.kTypeMember, .string type)] := rfl
  have some_ : EventStream.JsonRpc.nonEmptyString (.string type) = some type := by
    rw [EventStream.JsonRpc.nonEmptyString, List.isEmpty_eq_false_iff.mpr named, if_neg Bool.false_ne_true]
  have exception :
      EventStream.JsonRpc.exceptionMessage backend (some message) (some [(EventStream.JsonRpc.kTypeMember, .string type)]) =
      makeExceptionMessage type kJsonContentType (Json.encode backend (.map [(EventStream.JsonRpc.kTypeMember, .string type),
        (EventStream.JsonRpc.kMessageMember, .string message)])) := by
    have typed : ([(EventStream.JsonRpc.kTypeMember, Document.string type)].lookup EventStream.JsonRpc.kTypeMember).bind
        EventStream.JsonRpc.nonEmptyString = some type := some_
    have absent :
        ([(EventStream.JsonRpc.kTypeMember, Document.string type)].lookup EventStream.JsonRpc.kMessageMember).isSome =
        false := rfl
    simp only [EventStream.JsonRpc.exceptionMessage, Option.getD_some, typed, List.isEmpty_eq_false_iff.mpr told, absent,
      Bool.or_self, Bool.false_eq_true, if_false]
    rfl
  rw [EventStream.JsonRpc.decodeFrame, if_neg (not_lt.mpr short), decoded, data]
  simp only
  rw [← exception]
  rfl

variable (stream) in
/-- The message of an error without a shape. -/
def toldMessage (status : ℤ) (type message : Bytes) : Message :=
  if stream.service.protocol = .jsonRpc2 then { payload := stream.service.encode (stream.toldDocument status type message) }
  else envelopeMessage false type stream.service.contentType
    (stream.service.encode (stream.toldDocument status type message))

omit [DecidableEq Id] in
/-- An error without a shape is told by its type and its message. -/
theorem told_of_fits {status : ℤ} {type message : Bytes} (named : type ≠ []) (told : message ≠ [])
    (spelled : Utf8.Valid type)
    (plain : ModeledErrors.Service.sanitizeErrorCode type = type)
    (fits : stream.Fits (stream.toldDocument status type message))
    (transmitted : transmit stream.service.backend wire (stream.toldMessage status type message) = .ok received) :
    ∃ arrived doc, received = .ok arrived ∧ stream.Told arrived type doc ∧
      OrderedMap.find? EventStream.JsonRpc.kMessageMember doc = some (.string message) := by
  rcases eq_or_ne stream.service.protocol .jsonRpc2 with rpc | framed
  · have document : stream.toldDocument status type message =
        JsonRpc2.errorEnvelope (Int64.ofInt status) type message [] callId := by rw [toldDocument, rpc]
    rw [toldMessage, if_pos rpc] at transmitted
    rw [document] at fits transmitted
    obtain ⟨isMessage, short⟩ := transmit_bare rfl transmitted
    have coded (doc : Document) : stream.service.encode doc = Json.encode stream.service.backend doc := by
      simp only [ModeledErrors.Service.encode, rpc]
    have decodes (bytes : Bytes) : stream.service.decode bytes = Json.decode stream.service.backend bytes := by
      simp only [ModeledErrors.Service.decode, rpc]
    have carried := (carries_of_fits valid.lawful fits).1
    have same : stream.valueWire.form (JsonRpc2.errorEnvelope (Int64.ofInt status) type message [] callId) =
        JsonRpc2.errorEnvelope (Int64.ofInt status) type message [] callId := by
      rw [ModeledErrors.form_errorEnvelope _ _ named, ModeledErrors.errorEnvelope_eq _ named, if_pos told]
      have id_ : stream.valueWire.form callId = callId := stream.valueWire.int 1
      have data : DocumentMap.insertOrAssign EventStream.JsonRpc.kTypeMember (.string type) [] =
          [(EventStream.JsonRpc.kTypeMember, .string type)] := rfl
      simp only [data, id_, OrderedMap.mapValues, List.map_cons, List.map_nil, stream.valueWire.string]
    rw [ModeledErrors.Service.Carries, decodes, coded, same] at carried
    rw [coded] at short isMessage
    have frame := decodeFrame_told short named told carried
    have messageSpelled : Utf8.Valid message := by
      rw [Fits] at fits
      simp only [rpc, ModeledErrors.errorEnvelope_eq _ named, if_pos told, Document.Spelled,
        Document.MembersSpelled] at fits
      exact fits.1.2.2.1.2.2.2.2.2.2.1
    have stable : (Document.map [(EventStream.JsonRpc.kTypeMember, .string type),
        (EventStream.JsonRpc.kMessageMember, .string message)]).Stable := by
      simp only [Document.Stable, Document.membersStable]
      have ordered : [EventStream.JsonRpc.kTypeMember, EventStream.JsonRpc.kMessageMember].Pairwise (· < ·) := by decide
      exact ⟨ordered, Utf8.valid_of_ascii (by decide), spelled, Utf8.valid_of_ascii (by decide), messageSpelled, trivial⟩
    have again := Json.decode_encode_of_stable valid.lawful stable
      (by simp [Json.toBackend, Json.toBackendMembers, JsonValue.nesting, JsonValue.nestingMembers])
    have inbound : stream.inbound .client (.ok (some
        { payload :=
            Json.encode stream.service.backend (JsonRpc2.errorEnvelope (Int64.ofInt status) type message [] callId) })) =
        .ok (some (makeExceptionMessage type kJsonContentType (Json.encode stream.service.backend
          (.map [(EventStream.JsonRpc.kTypeMember, .string type),
            (EventStream.JsonRpc.kMessageMember, .string message)])))) := by
      rw [Stream.inbound, if_pos rpc, classifyInbound]
      simp only [List.isEmpty_nil, Bool.not_true, Bool.false_eq_true, if_false, frame]
      rfl
    exact ⟨_, [(EventStream.JsonRpc.kTypeMember, .string type), (EventStream.JsonRpc.kMessageMember, .string message)],
      isMessage,
      ⟨_, _, inbound, EventStream.parseEnvelope_makeMessage false type _, rfl, plain, (decodes _).trans again⟩, rfl⟩
  · have document :
        stream.toldDocument status type message = .map [(EventStream.JsonRpc.kMessageMember, .string message)] := by
      rw [toldDocument]
      split
      · contradiction
      · rfl
    rw [toldMessage, if_neg framed] at transmitted
    rw [document] at fits transmitted
    obtain ⟨carried, shallow⟩ := carries_of_fits valid.lawful fits
    have same : stream.valueWire.form (.map [(EventStream.JsonRpc.kMessageMember, .string message)]) =
        .map [(EventStream.JsonRpc.kMessageMember, .string message)] := by
      rw [stream.valueWire.map]
      simp only [OrderedMap.mapValues, List.map_cons, List.map_nil, stream.valueWire.string]
    rw [ModeledErrors.Service.Carries, same] at carried
    rw [same] at shallow
    obtain ⟨arrived, envelope, content, isMessage, inbound, parsed, decoded⟩ :=
      framed_carried framed valid.lawful named spelled carried shallow transmitted .client
    exact ⟨arrived, _, isMessage, ⟨envelope, _, inbound, parsed, rfl, plain, decoded⟩, rfl⟩

omit valid in
/-- What is put on the stream for an error that the protocol tells by a type and a message. -/
theorem failureMessage_told {error : TypedError Id} {status : ℤ} {type message : Bytes} (named : type ≠ [])
    (told : message ≠ [])
    (response : stream.service.protocol = .jsonRpc2 →
      stream.service.errorToResponse error callId = stream.service.errorFn status type message [] callId)
    (exception : stream.service.buildExceptionMessage stream.operation error =
      makeExceptionMessage type stream.service.contentType
      (stream.service.encode (.map (ModeledErrors.Service.withMessage message [])))) :
    stream.service.failureMessage stream.operation error = stream.toldMessage status type message := by
  rw [ModeledErrors.Service.failureMessage, toldMessage, toldDocument]
  split_ifs with rpc
  · rw [response rpc, ModeledErrors.Service.errorFn_body named told, ModeledErrors.Service.errorDocument, if_pos rpc]
    simp only [rpc]
  · have body : ModeledErrors.Service.withMessage message [] = [(EventStream.JsonRpc.kMessageMember, .string message)] := by
      rw [ModeledErrors.Service.withMessage]
      simp only [List.lookup_nil, Option.isSome_none, Bool.or_self, Bool.not_false, Bool.true_and, decide_eq_true_eq, ne_eq,
        told, not_false_eq_true, if_true]
      rfl
    rw [exception, body]
    split
    · contradiction
    · rfl

omit [DecidableEq Id] valid in
theorem fits_internal : stream.Fits (stream.toldDocument 500 (ascii "InternalFailure") (ascii "internal failure")) := by
  have plain {text : Bytes} (ascii : text.Plain) : Utf8.Valid text := Utf8.valid_of_ascii ascii
  rw [Fits, toldDocument]
  cases stream.service.protocol with
  | rpcv2Cbor =>
    refine ⟨?_, ?_, by decide⟩
    · simp only [Document.WellFormed, Document.membersWellFormed]
      decide
    · simp [Document.Representable, Document.membersRepresentable]
  | httpJson =>
    have shallow :
        (Json.toBackend (.map [(EventStream.JsonRpc.kMessageMember, .string (ascii "internal failure"))])).nesting + 2 ≤
        512 := by decide
    refine ⟨?_, shallow⟩
    simp only [Document.Spelled, Document.MembersSpelled, List.map_cons, List.map_nil, and_true]
    exact ⟨by decide, plain (by decide), plain (by decide)⟩
  | jsonRpc2 => exact Rpc.Service.spelled_internal

variable (apart : stream.service.NamesApart) (output : stream.output = some union)

include apart output

/-- A client is told of the failure of a handler, which ends the stream. -/
theorem failure_arrives {error : TypedError Id} (answerable : stream.Answerable (.error error))
    (transmitted : transmit stream.service.backend wire (stream.service.failureMessage stream.operation error) =
      .ok received) :
    ∃ message told, received = .ok message ∧
      stream.receive .client (.ok (some message)) = { result := .error told, close := true } ∧
        stream.ConveyedError error told := by
  -- What comes of an exception that is told by a type and a message.
  have plainly {status : ℤ} {type message : Bytes} (named : type ≠ [] ∧ type.Plain) (told : message ≠ [])
      (plain : ModeledErrors.Service.sanitizeErrorCode type = type) (known : type ≠ ModeledErrors.Service.kUnknownError)
      (fits : stream.Fits (stream.toldDocument status type message))
      (same : stream.service.failureMessage stream.operation error = stream.toldMessage status type message) :
      ∃ arrived received', received = .ok arrived ∧
        stream.receive .client (.ok (some arrived)) = { result := .error received', close := true } ∧
          received'.kind = .modeled ∧ received'.code = type ∧ received'.message = message := by
    obtain ⟨arrived, doc, isMessage, ⟨content, envelope, inbound, parsed, kind, name, decoded⟩, text⟩ :=
      told_of_fits valid named.1 told (Utf8.valid_of_ascii named.2) plain fits (same ▸ transmitted)
    obtain ⟨modeled, code, message_⟩ :=
      @decodeException_told _ stream stream.operation envelope doc message (name ▸ known) decoded text
    exact ⟨arrived, _, isMessage, receive_exception output inbound parsed kind modeled, modeled, code.trans name, message_⟩
  rw [Answerable] at answerable
  simp only [ConveyedError]
  cases kind : error.kind with
  | modeled =>
    rw [kind] at answerable
    obtain ⟨id, detail, declared⟩ := answerable
    have failure := declared.failure
    have nameApart := apart id failure.isError
    obtain ⟨message, isMessage, content, envelope, inbound, parsed, isException, name, decoded⟩ :=
      declared_told valid nameApart declared transmitted
    obtain ⟨made, document, same⟩ := failure.decodeException valid.service nameApart name decoded
    obtain ⟨members, type⟩ := valid.service.structures id failure.isError
    have aggregate : Typed.hasSerdeFunctions (stream.service.serde.model.shape id).type = true := by
      rw [type]
      rfl
    obtain ⟨restored, read, restores⟩ := Typed.SerdeCodeGen.deserialize_form valid.service.serde aggregate failure.typed
      declared.complete declared.unhinted declared.carried
    have agreed : stream.service.serde.deserialize
        (.map (OrderedMap.mapValues stream.valueWire.form (stream.service.streamedMembers id error)), id) =
          .ok restored := by
      rw [← read, failure.serialized valid.service, stream.valueWire.map]
      apply Typed.SerdeCodeGen.deserialize_agree valid.service.serde type
      intro member inside
      rw [OrderedMap.find?_mapValues, OrderedMap.find?_mapValues,
        ModeledErrors.Service.find_streamedMembers declared.keeps declared.unmarked]
      rw [ModeledErrors.Service.wireNames, type]
      exact List.mem_map_of_mem inside
    refine ⟨message, _, isMessage, receive_exception output inbound parsed isException ?_, ?_⟩
    · rw [same]
      rfl
    · rw [same]
      exact ⟨rfl, failure.code.symm, id, detail, restored, failure.detail,
        ModeledErrors.Service.makeError_detail failure.noHeaders agreed _ document, restores⟩
  | validation | serialization =>
    rw [kind] at answerable
    have same :=
      @failureMessage_told _ _ stream error 400 (ascii "SerializationException") error.message (by decide) answerable.1
      (fun rpc => by
        rw [ModeledErrors.Service.errorToResponse, if_neg (by simp [kind]), ModeledErrors.Service.unmodeledResponse]
        simp [kind, rpc])
      (by rw [ModeledErrors.Service.buildExceptionMessage, kind])
    obtain ⟨arrived, received', isMessage, ends, told⟩ :=
      plainly ⟨by decide, by decide⟩ answerable.1 (by decide) (by decide) answerable.2 same
    exact ⟨arrived, received', isMessage, ends, told⟩
  | transport | unknown =>
    have same := @failureMessage_told _ _ stream error 500 (ascii "InternalFailure") (ascii "internal failure") (by decide)
      (by decide)
      (fun rpc => by
        rw [ModeledErrors.Service.errorToResponse, if_neg (by simp [kind]), ModeledErrors.Service.unmodeledResponse]
        simp [kind])
      (by rw [ModeledErrors.Service.buildExceptionMessage, kind])
    obtain ⟨arrived, received', isMessage, ends, told⟩ :=
      plainly ⟨by decide, by decide⟩ (by decide) (by decide) (by decide) fits_internal same
    exact ⟨arrived, received', isMessage, ends, told⟩

/-! ## Sessions -/

variable {events : List Value} {outcome : Except (TypedError Id) Unit} {messages : List Message}

/-- The receive of a client that was sent a message, or that its stream was closed. -/
def clientReceive (stream : Stream Id) (read : Option Message) : Receipt Id := stream.receive .client (.ok read)

omit [DecidableEq Id] valid apart output in
theorem clientReceive_none : stream.clientReceive none = { result := .ok none } := by
  rw [clientReceive, receive, inbound]
  split_ifs <;> rfl

omit [DecidableEq Id] apart in
/-- The events of a session, as its client receives them. -/
theorem events_arrive (sendable : ∀ event ∈ events, stream.Sendable union event)
    (sent : events.mapM (stream.sendEvent union) = .ok messages) {reads : List (Except String Message)}
    (transmitted : List.Forall₂ (fun message read =>
      transmit stream.service.backend wire message = .ok read) messages reads) :
    ∃ (arrivals : List Message) (restored : List Value), reads = arrivals.map .ok ∧
      List.Forall₂ (fun value event =>
        value.canonical = (event.fill stream.service.serde.model union).canonical) restored events ∧
      (arrivals.map some).map stream.clientReceive = restored.map fun event => { result := .ok (some event) } := by
  induction events generalizing messages reads with
  | nil =>
    cases sent
    cases transmitted
    exact ⟨[], [], rfl, .nil, rfl⟩
  | cons event events ih =>
    rw [List.mapM_cons] at sent
    obtain ⟨raw, first, sent⟩ := Outcome.bind_eq_ok.mp sent
    obtain ⟨raws, rest, same⟩ := Outcome.bind_eq_ok.mp sent
    obtain rfl := Except.ok.inj same
    obtain ⟨here, later⟩ := List.forall_mem_cons.mp sendable
    cases transmitted with
    | cons read transmitted =>
      have modeled : stream.tx .server = some union := output
      obtain ⟨message, value, rfl, same, received⟩ := event_arrives valid modeled here first read
      obtain ⟨arrivals, restored, rfl, alike, results⟩ := ih later rest transmitted
      refine ⟨message :: arrivals, value :: restored, rfl, .cons same alike, ?_⟩
      rw [List.map_cons, List.map_cons, List.map_cons, results]
      exact congrArg (· :: _) received

omit [DecidableEq Id] valid apart output in
/-- The result of a call is the clean end of its stream. -/
theorem receive_result (lawful : stream.service.backend.Lawful) (rpc : stream.service.protocol = .jsonRpc2)
    (short : (stream.buildJsonRpcTerminalResult callId).payload.length ≤ kMaxMessageBytes) :
    stream.clientReceive (some (stream.buildJsonRpcTerminalResult callId)) = { result := .ok none } := by
  have text : (stream.buildJsonRpcTerminalResult callId).payload = Json.encode stream.service.backend (.map
      [(EventStream.JsonRpc.kIdMember, callId),
        (EventStream.JsonRpc.kVersionMember, .string EventStream.JsonRpc.kVersionValue),
        (EventStream.JsonRpc.kResultMember, .map [])]) := rfl
  have stable : (Document.map [(EventStream.JsonRpc.kIdMember, callId),
      (EventStream.JsonRpc.kVersionMember, .string EventStream.JsonRpc.kVersionValue),
      (EventStream.JsonRpc.kResultMember, .map [])]).Stable := by
    simp only [callId, Document.Stable, Document.membersStable, and_true, true_and]
    refine ⟨by decide, ?_, ?_, ?_, ?_, by decide⟩ <;> exact Utf8.valid_of_ascii (by decide)
  have decoded := Json.decode_encode_of_stable lawful stable (by decide)
  have frame :
      EventStream.JsonRpc.decodeFrame stream.service.backend (stream.buildJsonRpcTerminalResult callId).payload callId =
      .result (.map []) := by
    rw [EventStream.JsonRpc.decodeFrame, if_neg (not_lt.mpr short), text, decoded]
    rfl
  have bare : (stream.buildJsonRpcTerminalResult callId).headers.isEmpty = true := rfl
  rw [clientReceive, receive, inbound, if_pos rpc, classifyInbound]
  simp only [bare, Bool.not_true, Bool.false_eq_true, if_false, frame, reduceCtorEq]
  rfl

/-- The terminal of a session, as its client receives it. -/
theorem terminal_arrives (answerable : stream.Answerable outcome) {reads : List (Except String Message)}
    (transmitted : List.Forall₂ (fun message read => transmit stream.service.backend wire message = .ok read)
      (stream.terminal outcome) reads) :
    ∃ (arrivals : List Message) (last : Receipt Id), reads = arrivals.map .ok ∧ stream.Ends outcome last ∧
      ((arrivals.map some ++ [none]).map stream.clientReceive).head? = some last := by
  cases outcome with
  | error error =>
    rw [terminal] at transmitted
    cases transmitted with
    | cons read transmitted =>
      cases transmitted
      obtain ⟨message, told, rfl, received, conveyed⟩ := failure_arrives valid apart output answerable read
      exact ⟨[message], _, rfl, ⟨told, rfl, conveyed⟩, congrArg some received⟩
  | ok done =>
    rw [terminal] at transmitted
    split_ifs at transmitted with rpc
    · cases transmitted with
      | cons read transmitted =>
        cases transmitted
        obtain ⟨rfl, short⟩ := transmit_bare rfl read
        exact ⟨[_], _, rfl, rfl, congrArg some (receive_result valid.lawful rpc short)⟩
    · cases transmitted
      exact ⟨[], _, rfl, rfl, congrArg some clientReceive_none⟩

/-- A whole session as its client receives it. -/
theorem serve_arrives (sendable : ∀ event ∈ events, stream.Sendable union event) (answerable : stream.Answerable outcome)
    (served : stream.serve union events outcome = .ok messages) {reads : List (Except String Message)}
    (transmitted : List.Forall₂ (fun message read =>
      transmit stream.service.backend wire message = .ok read) messages reads) :
    ∃ (arrivals : List Message) (restored : List Value) (last : Receipt Id), reads = arrivals.map .ok ∧
      List.Forall₂ (fun value event =>
        value.canonical = (event.fill stream.service.serde.model union).canonical) restored events ∧
      stream.Ends outcome last ∧
      ((arrivals.map some ++ [none]).map stream.clientReceive).take (events.length + 1) =
        (restored.map fun event => { result := .ok (some event) }) ++ [last] := by
  obtain ⟨sent, eventsSent, same⟩ := Outcome.bind_eq_ok.mp served
  obtain rfl := Except.ok.inj same
  have eventsRead := (List.forall₂_take_append reads sent (stream.terminal outcome) transmitted.flip).flip
  have terminalRead := (List.forall₂_drop_append reads sent (stream.terminal outcome) transmitted.flip).flip
  obtain ⟨arrivals, restored, first, alike, received⟩ := events_arrive valid output sendable eventsSent eventsRead
  obtain ⟨terminals, last, second, ends, final⟩ := terminal_arrives valid apart output answerable terminalRead
  have whole : reads = (arrivals ++ terminals).map .ok := by
    rw [← List.take_append_drop sent.length reads, first, second, List.map_append]
  have count : (restored.map fun event => ({ result := .ok (some event) } : Receipt Id)).length = events.length := by
    rw [List.length_map, alike.length_eq]
  refine ⟨arrivals ++ terminals, restored, last, whole, alike, ends, ?_⟩
  rw [@List.map_append _ _ some, List.append_assoc, List.map_append, received, ← count, List.take_length_add_append,
    List.take_one, final]
  rfl

end Errors

section Sessions

variable (valid : stream.Valid) (apart : stream.service.NamesApart) (output : stream.output = some union)
  {events : List Value} (sendable : ∀ event ∈ events, stream.Sendable union event)
  {outcome : Except (TypedError Id) Unit} (answerable : stream.Answerable outcome) {messages : List Message}
  (served : stream.serve union events outcome = .ok messages)

include valid apart output sendable answerable served

/-- A session over a WebSocket connection, on any of its wires and in every run of it: if what was read is what was sent, as
far as it has come, the receives of a client give the events that the handler sent, in their order, and then what the
handler returned. -/
theorem session_over_connection {wire : Wire} {frames : List Bytes}
    (encoded : List.Forall₂ (fun message frame => (codec stream.service.backend).encodeForWire wire message = .ok frame)
      messages frames)
    {labels : List (Http.ConnectionLabel Message Bytes)} {state : Http.Connection Message Bytes}
    (reached : (Http.Connection.machine (codec stream.service.backend) wire).run {} labels = some state)
    (read : labels.filterMap Http.ConnectionLabel.messageRead <+: frames.map ((decide (wire = .binary), ·))) :
    ∃ (restored : List Value) (last : Receipt Id),
      List.Forall₂ (fun value event =>
        value.canonical = (event.fill stream.service.serde.model union).canonical) restored events ∧
      stream.Ends outcome last ∧
      ((state.handed.map some).map stream.clientReceive).take (events.length + 1) <+:
        (restored.map fun event => { result := .ok (some event) }) ++ [last] ∧
      (labels.filterMap Http.ConnectionLabel.messageRead = frames.map ((decide (wire = .binary), ·)) →
        state.session.received = [] →
          ((state.handed.map some ++ [none]).map stream.clientReceive).take (events.length + 1) =
            (restored.map fun event => { result := .ok (some event) }) ++ [last]) := by
  let decodes (frame : Bytes) : Except String Message :=
    (codec stream.service.backend).decodeFromWire wire (wire = .binary) frame
  have transmitted : List.Forall₂ (fun message read => transmit stream.service.backend wire message = .ok read) messages
      (frames.map decodes) := by
    rw [List.forall₂_map_right_iff]
    exact encoded.imp fun message frame written => Outcome.map_eq_ok.mpr ⟨frame, written, rfl⟩
  obtain ⟨arrivals, restored, last, same, alike, ends, received⟩ :=
    serve_arrives valid apart output sendable answerable served transmitted
  have whole : (frames.map ((decide (wire = .binary), ·))).filterMap (fun read : Bool × Bytes =>
      ((codec stream.service.backend).decodeFromWire wire read.1 read.2).toOption) = arrivals := by
    have plain :
        (arrivals.map Except.ok).filterMap (Except.toOption : Except String Message → Option Message) = arrivals := by
      rw [List.filterMap_map]
      exact List.filterMap_some
    rw [List.filterMap_map, ← plain, ← same, List.filterMap_map]
    rfl
  have decoded := Http.Connection.decoded_run reached
  have conserved := (Http.Connection.queueing_of_run reached).conserved
  rw [decoded] at conserved
  refine ⟨restored, last, alike, ends, ?_, ?_⟩
  · have handed : state.handed <+: arrivals := by
      rw [← whole]
      exact (conserved ▸ List.prefix_append _ _).trans (read.filterMap _)
    rw [← received]
    have longer :
      (state.handed.map some).map stream.clientReceive <+: (arrivals.map some ++ [none]).map stream.clientReceive :=
      ((handed.map some).trans (List.prefix_append _ _)).map _
    exact longer.take _
  · intro all empty
    rw [empty, List.append_nil, all, whole] at conserved
    rw [← received, conserved]
    rfl

/-- A session over the in-memory pair, in every run: the receives of a client give the events that the handler sent, in
their order, and then what the handler returned, as far as they have come; and all of it when the stream has ended. -/
theorem session_over_pair (fits : ∀ message ∈ messages, ∃ frame, encodeMessage message = .ok frame)
    {labels : List (Http.PairLabel Message)} {state : Http.PairThreads Message}
    (reached : (Http.PairThreads.machine encodeMessage).run {} labels = some state)
    (accepted : state.accepted .first <+: messages) :
    ∃ (restored : List Value) (last : Receipt Id),
      List.Forall₂ (fun value event =>
        value.canonical = (event.fill stream.service.serde.model union).canonical) restored events ∧
      stream.Ends outcome last ∧
      (((state.handed .first).map some).map stream.clientReceive).take (events.length + 1) <+:
        (restored.map fun event => { result := .ok (some event) }) ++ [last] ∧
      (state.accepted .first = messages → state.ended .second = true →
        (((state.handed .first).map some ++ [none]).map stream.clientReceive).take (events.length + 1) =
          (restored.map fun event => { result := .ok (some event) }) ++ [last]) := by
  have own : ∀ message ∈ messages, transmit stream.service.backend .binary message = .ok (.ok message) := by
    intro message inside
    obtain ⟨frame, encoded⟩ := fits message inside
    have sent : transmit stream.service.backend .binary message = .ok _ := Outcome.map_eq_ok.mpr ⟨frame, encoded, rfl⟩
    rw [sent, transmit_framed (by decide) sent]
  have transmitted : List.Forall₂ (fun message read => transmit stream.service.backend .binary message = .ok read) messages
      (messages.map .ok) := List.forall₂_map_right_iff.mpr (List.forall₂_same.mpr own)
  obtain ⟨arrivals, restored, last, same, alike, ends, received⟩ :=
    serve_arrives valid apart output sendable answerable served transmitted
  obtain rfl : messages = arrivals := List.map_injective_iff.mpr (fun _ _ equal => Except.ok.inj equal) same
  have flow := Http.PairThreads.flow_of_run reached
  have conserved := flow.conserved .first
  refine ⟨restored, last, alike, ends, ?_, ?_⟩
  · have handed : state.handed .first <+: messages := (conserved ▸ List.prefix_append _ _).trans accepted
    rw [← received]
    have longer : ((state.handed .first).map some).map stream.clientReceive <+:
        (messages.map some ++ [none]).map stream.clientReceive :=
      ((handed.map some).trans (List.prefix_append _ _)).map _
    exact longer.take _
  · intro all ended
    have empty : state.pair.queues .first = [] := (flow.ended .second ended).2
    rw [empty, List.append_nil, all] at conserved
    rw [conserved, received]

end Sessions

end Stream

/-! ## A countdown -/

/-- The events of a countdown, its ticks, and the string in them. -/
inductive CountdownId where
  | events | tick | text
deriving DecidableEq

def countdownShape : CountdownId → Typed.Shape CountdownId
  | .events => { type := .union [{ target := .tick, memberName := ascii "tick" }] none, typeName := ascii "CountdownEvents" }
  | .tick => { type := .struct [{ target := .text, memberName := ascii "left" }], typeName := ascii "Tick" }
  | .text => { type := .string }

def countdownSerde : Typed.SerdeCodeGen CountdownId where
  model :=
    { shape := countdownShape
      stringKeys := by
        rintro (_ | _ | _) key value sparse ⟨⟩
      grounded := Typed.Model.grounded_of_optional (by rintro (_ | _ | _) members ⟨⟩; decide) }

/-- An operation that counts down, which has no errors. -/
def countdown (protocol : ModeledErrors.Protocol) : Stream CountdownId where
  service :=
    { protocol
      backend := Json.Standard.library
      serde := countdownSerde
      errorShape _ := { namespace_ := ascii "example", name := ascii "Refused" }
      operations := [] }
  name := ascii "CountDown"
  input := none
  output := some .events

namespace Countdown

variable {protocol : ModeledErrors.Protocol}

theorem serde_valid : countdownSerde.Valid where
  fields := by
    rintro (_ | _ | _) members ⟨⟩
    decide
  tags := by
    rintro (_ | _ | _) members discriminator ⟨⟩
    decide
  values := by
    rintro (_ | _ | _) values ⟨⟩
  alternatives := by
    rintro (_ | _ | _) members discriminator ⟨⟩

theorem service_valid : (countdown protocol).service.Valid where
  serde := serde_valid
  structures _ inside := absurd inside List.not_mem_nil
  types _ inside := absurd inside List.not_mem_nil
  colons _ inside := absurd inside List.not_mem_nil
  hashes _ inside := absurd inside List.not_mem_nil

theorem valid : (countdown protocol).Valid where
  service := service_valid
  lawful := Json.Standard.library_lawful
  distinct := by
    rintro (_ | _) union modeled
    · cases modeled
    · cases modeled
      exact List.nodup_singleton _
  named := by
    rintro (_ | _) union modeled member inside
    · cases modeled
    · cases modeled
      obtain rfl := List.mem_singleton.mp inside
      exact ⟨by decide, Utf8.valid_of_ascii (by decide)⟩
  structures := by
    rintro (_ | _) union modeled member inside
    · cases modeled
    · cases modeled
      obtain rfl := List.mem_singleton.mp inside
      exact ⟨_, rfl⟩
  errors _ inside := absurd inside List.not_mem_nil

theorem apart : (countdown protocol).service.NamesApart := fun _ inside => absurd inside List.not_mem_nil

def tick (left : Bytes) : Value := .alternative 0 (.struct [.engaged (.string left)])

theorem document (left : Bytes) :
    countdownSerde.serialize (.struct [.engaged (.string left)]) .tick .epochSeconds =
      .map [(ascii "left", .string left)] := by
  simp only [Typed.SerdeCodeGen.serialize, countdownSerde, countdownShape]
  rfl

theorem tick_sendable {left : Bytes} (fits : (countdown protocol).Fits (.map [(ascii "left", .string left)])) :
    (countdown protocol).Sendable .events (tick left) where
  typed := by
    simp [tick, Value.HasType, Value.FieldsHaveType, countdown, countdownSerde, countdownShape, Typed.Model.memberSlot,
      Typed.plain, Typed.populated, Typed.defaulted]
  complete := by
    simp only [tick, Value.Every, countdown, countdownSerde, countdownShape, Typed.SerdeCodeGen.Complete]
    refine ⟨?_, ?_⟩
    · rintro members discriminator member ⟨⟩ ⟨⟩ ⟨⟩
    · simp [Value.FieldsEvery, Value.Every, Typed.SerdeCodeGen.Complete]
  unhinted := by
    simp only [tick, Value.Every, countdown, countdownSerde, countdownShape, Typed.SerdeCodeGen.Unhinted]
    refine ⟨?_, ?_⟩
    · rintro members member ⟨⟩ ⟨⟩ _
      decide
    · simp [Value.FieldsEvery, Value.Every, Typed.SerdeCodeGen.Unhinted]
  carried := by
    simp [tick, Typed.SerdeCodeGen.Carried, Typed.SerdeCodeGen.FieldsCarried, countdown, countdownSerde, countdownShape]
  fits := by
    rintro index value member ⟨⟩ place
    cases place
    exact (document left).symm ▸ fits

theorem fits_three : (countdown .rpcv2Cbor).Fits (.map [(ascii "left", .string (ascii "3"))]) := by
  refine ⟨?_, ?_, by decide⟩
  · simp only [Document.WellFormed, Document.membersWellFormed]
    decide
  · simp [Document.Representable, Document.membersRepresentable]

theorem fits_three_json : (countdown .jsonRpc2).Fits (.map [(ascii "left", .string (ascii "3"))]) := by
  refine ⟨?_, by decide⟩
  simp only [Document.Spelled, Document.MembersSpelled]
  decide

theorem ticks_sendable (fits : (countdown protocol).Fits (.map [(ascii "left", .string (ascii "3"))])) :
    ∀ event ∈ [tick (ascii "3")], (countdown protocol).Sendable .events event := by
  intro event member
  rw [List.mem_singleton.mp member]
  exact tick_sendable fits

/-- The tick in its frame. -/
def framed : Message :=
  makeEventMessage (ascii "tick") (ascii "application/cbor") (Cbor.encode (.map [(ascii "left", .string (ascii "3"))]))

/-- The tick as a notification. -/
def notification : Message where
  payload := ascii
    "\x7b\"jsonrpc\":\"2.0\",\"method\":\"tick\",\"params\":\x7b\"id\":1,\"payload\":\x7b\"left\":\"3\"\x7d\x7d\x7d"

def result : Message where
  payload := ascii "\x7b\"id\":1,\"jsonrpc\":\"2.0\",\"result\":\x7b\x7d\x7d"

/-- The receiver reads the tick and the result of the call, and is told of them. -/
def reading : List (Http.ConnectionLabel Message Bytes) :=
  [.proceed, .proceed, .onRead (.message false notification.payload), .proceed, .proceed,
    .onRead (.message false result.payload), .receive false true, .receive false true]

/-- The tick is sent through the pair, whose ends close then. -/
def sending : List (Http.PairLabel Message) :=
  [.spawn, .spawn, .call 0 (.send .first framed), .acquire 0, .leave 0, .call 1 (.receive .second none), .acquire 1,
    .leave 1,
    .call 0 (.close .first), .acquire 0, .leave 0, .call 1 (.receive .second none), .acquire 1]

end Countdown

namespace Stream

open Countdown

/-- The tick arrives in a text frame. -/
theorem event_arrives_tick : ∃ message restored, (.ok notification : Except String Message) = .ok message ∧
    restored.canonical = ((tick (ascii "3")).fill countdownSerde.model .events).canonical ∧
      (countdown .jsonRpc2).receive .client (.ok (some message)) = { result := .ok (some restored) } :=
  @event_arrives _ (countdown .jsonRpc2) .events valid .server rfl _ (tick_sendable fits_three_json) notification
    (by decide +kernel) .rawText _ (by decide +kernel)

theorem session_over_connection_ticks :
    ∃ state, (Http.Connection.machine (codec Json.Standard.library) .rawText).run {} reading = some state ∧
      ∃ restored last,
        List.Forall₂ (fun value event => value.canonical = (event.fill countdownSerde.model .events).canonical) restored
          [tick (ascii "3")] ∧
        last = { result := .ok none } ∧
        ((state.handed.map some ++ [none]).map (countdown .jsonRpc2).clientReceive).take 2 =
          (restored.map fun event => { result := .ok (some event) }) ++ [last] := by
  refine ⟨_, (Option.some_get (by decide)).symm, ?_⟩
  have encoded : List.Forall₂ (fun message frame =>
      (codec (countdown .jsonRpc2).service.backend).encodeForWire .rawText message = .ok frame) [notification, result]
        [notification.payload, result.payload] := by
    refine .cons ?_ (.cons ?_ .nil) <;> decide +kernel
  obtain ⟨restored, last, alike, ends, _, whole⟩ :=
    @session_over_connection _ _ (countdown .jsonRpc2) .events valid apart rfl
    [tick (ascii "3")] (ticks_sendable fits_three_json) (.ok ()) trivial [notification, result] (by decide +kernel) .rawText
    [notification.payload, result.payload] encoded reading _
    (Option.some_get (by decide)).symm List.prefix_rfl
  exact ⟨restored, last, alike, ends, whole rfl (by decide)⟩

theorem session_over_pair_ticks :
    ∃ state, (Http.PairThreads.machine encodeMessage).run {} sending = some state ∧
      ∃ restored last,
        List.Forall₂ (fun value event => value.canonical = (event.fill countdownSerde.model .events).canonical) restored
          [tick (ascii "3")] ∧
        last = { result := .ok none } ∧
        (((state.handed .first).map some ++ [none]).map (countdown .rpcv2Cbor).clientReceive).take 2 =
          (restored.map fun event => { result := .ok (some event) }) ++ [last] := by
  refine ⟨_, (Option.some_get (by decide)).symm, ?_⟩
  have fits : ∀ message ∈ [framed], ∃ frame, encodeMessage message = .ok frame := by
    intro message member
    rw [List.mem_singleton.mp member]
    have encodes : (encodeMessage framed).isOk = true := by decide
    cases encoded : encodeMessage framed with
    | ok frame => exact ⟨frame, rfl⟩
    | error error =>
      rw [encoded] at encodes
      cases encodes
  obtain ⟨restored, last, alike, ends, _, whole⟩ := @session_over_pair _ _ (countdown .rpcv2Cbor) .events valid apart rfl
    [tick (ascii "3")] (ticks_sendable fits_three) (.ok ()) trivial [framed] rfl fits sending _
    (Option.some_get (by decide)).symm (by decide)
  exact ⟨restored, last, alike, ends, whole (by decide) (by decide)⟩

end Stream

end Streams

end OpalCpp

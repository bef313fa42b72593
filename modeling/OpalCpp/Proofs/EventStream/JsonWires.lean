import OpalCpp.Proofs.EventStream.JsonRpcGrammar

/-! # The JSON text wires

What one peer encodes as a text frame, the other one decodes: of which messages this is so.
-/

namespace OpalCpp

/-! ## Frames as documents -/

namespace Document

variable {members : DocumentMap} {name : Bytes} {value : Document}

theorem stable_of_lookup (stable : membersStable members) (found : members.lookup name = some value) : value.Stable := by
  induction members with
  | nil => cases found
  | cons member members ih =>
    obtain ⟨key, first⟩ := member
    rw [membersStable] at stable
    rw [List.lookup_cons] at found
    split at found
    · cases found
      exact stable.2.1
    · exact ih stable.2.2 found

theorem stable_of_find {document : Document} (stable : document.Stable) (found : document.find name = some value) :
    value.Stable := by
  cases document with
  | map members =>
    rw [Stable] at stable
    exact stable_of_lookup stable.2 found
  | _ => cases found

end Document

namespace EventStream

open Bytes (ascii)

variable {backend : Json.Backend} {message : Message} {text : Bytes}

/-- Both messages are events or exceptions of one type, with the same JSON value. -/
def SameEvent (backend : Json.Backend) (message other : Message) : Prop :=
  ∃ envelope envelope' value, parseEnvelope message = .ok envelope ∧ parseEnvelope other = .ok envelope' ∧
    envelope'.kind = envelope.kind ∧ envelope'.type = envelope.type ∧
    Json.decode backend message.payload = .ok value ∧ Json.decode backend other.payload = .ok value

/-- The type is some UTF-8, and the payload is not too deep for being wrapped in as many objects. -/
def Carriable (backend : Json.Backend) (levels : ℕ) (message : Message) : Prop :=
  ∃ envelope payload, parseEnvelope message = .ok envelope ∧ Json.decode backend message.payload = .ok payload ∧
    envelope.type ≠ [] ∧ Utf8.Valid envelope.type ∧ (Json.toBackend payload).nesting + levels ≤ 512

theorem parseEnvelope_makeMessage (isEvent : Bool) (type payload : Bytes) :
    parseEnvelope (if isEvent then makeEventMessage type kJsonContentType payload
      else makeExceptionMessage type kJsonContentType payload) =
      .ok ⟨if isEvent then .event else .exception, type, kJsonContentType, payload⟩ := by
  cases isEvent <;> rfl

theorem encodablePayload_eq_ok {cannotEncode : String → Error} {envelope : EventEnvelope} {payload : DocumentMap}
    (encodable : encodablePayload backend cannotEncode message envelope = .ok payload) :
    Json.decode backend message.payload = .ok (.map payload) := by
  rw [encodablePayload] at encodable
  split_ifs at encodable <;>
  · split at encodable
    · cases encodable
      assumption
    · cases encodable

theorem checkedText_eq_ok {cannotEncode : String → Error} {checked : Bytes}
    (encoded : checkedText cannotEncode text = .ok checked) : checked = text ∧ ¬ kMaxMessageBytes < text.length := by
  rw [checkedText] at encoded
  split_ifs at encoded with long
  cases encoded
  exact ⟨rfl, long⟩

namespace JsonFrame

/-- The frame as a document. -/
def document (isEvent : Bool) (type : Bytes) (payload : DocumentMap) : Document :=
  .map [(if isEvent then kEventMember else kExceptionMember, .string type), (kPayloadMember, .map payload)]

theorem encode_eq_ok (encoded : encode backend message = .ok text) :
    ∃ envelope payload, parseEnvelope message = .ok envelope ∧
    Json.decode backend message.payload = .ok (.map payload) ∧ ¬ kMaxMessageBytes < text.length ∧
    text = Json.encode backend (document (envelope.kind = .event) envelope.type payload) := by
  rw [encode] at encoded
  split at encoded
  · cases encoded
  · obtain ⟨payload, encodable, encoded⟩ := Outcome.bind_eq_ok.mp encoded
    obtain ⟨rfl, short⟩ := checkedText_eq_ok encoded
    refine ⟨_, payload, by assumption, encodablePayload_eq_ok encodable, short, ?_⟩
    simp only [document, decide_eq_true_eq]

theorem decodeTyped_eq_ok {envelope type : Document} {isEvent : Bool} {other : Message}
    (decoded : decodeTyped backend envelope type isEvent = .ok other) : ∃ text payload, type = .string text ∧ text ≠ [] ∧
      envelope.find kPayloadMember = some (.map payload) ∧
      other = if isEvent then makeEventMessage text kJsonContentType (Json.encode backend (.map payload))
        else makeExceptionMessage text kJsonContentType (Json.encode backend (.map payload)) := by
  rw [decodeTyped.eq_def] at decoded
  split at decoded
  · split at decoded
    · cases decoded
    · rename_i text some_
      rw [List.isEmpty_iff] at some_
      split at decoded
      · cases decoded
      · cases decoded
        exact ⟨text, _, rfl, some_, by assumption, rfl⟩
      · cases decoded
  · cases decoded

/-- What is decoded carries the text of a member of the frame as its type. -/
theorem decode_eq_ok {other : Message} (decoded : decode backend text = .ok other) :
    ∃ members, ∃ isEvent : Bool, ∃ type payload,
    Json.decode backend text = .ok (.map members) ∧
    members.lookup (if isEvent then kEventMember else kExceptionMember) = some (.string type) ∧ type ≠ [] ∧
    parseEnvelope other = .ok ⟨if isEvent then .event else .exception, type, kJsonContentType, payload⟩ := by
  rw [decode] at decoded
  split at decoded
  · cases decoded
  · split at decoded
    · cases decoded
    · split at decoded
      · cases decoded
      · dsimp only at decoded
        split at decoded
        · cases decoded
        · cases decoded
        · obtain ⟨type, payload, rfl, some_, found, rfl⟩ := decodeTyped_eq_ok decoded
          exact ⟨_, true, type, _, by assumption, by assumption, some_, parseEnvelope_makeMessage true _ _⟩
        · obtain ⟨type, payload, rfl, some_, found, rfl⟩ := decodeTyped_eq_ok decoded
          exact ⟨_, false, type, _, by assumption, by assumption, some_, parseEnvelope_makeMessage false _ _⟩
    · cases decoded

theorem stable_document (isEvent : Bool) {type : Bytes} {payload : DocumentMap} (valid : Utf8.Valid type)
    (stable : (Document.map payload).Stable) : (document isEvent type payload).Stable := by
  have first : Utf8.Valid (if isEvent then kEventMember else kExceptionMember) :=
    Utf8.valid_of_ascii (by cases isEvent <;> decide)
  have second : Utf8.Valid kPayloadMember := Utf8.valid_of_ascii (by decide)
  have ordered : [if isEvent then kEventMember else kExceptionMember, kPayloadMember].Pairwise (· < ·) := by
    cases isEvent <;> decide
  rw [Document.Stable] at stable
  simp only [document, Document.Stable, Document.membersStable]
  exact ⟨ordered, first, valid, second, stable, trivial⟩

theorem nesting_document (isEvent : Bool) (type : Bytes) (payload : DocumentMap) :
    (Json.toBackend (document isEvent type payload)).nesting = (Json.toBackend (.map payload)).nesting + 1 := by
  simp [document, Json.toBackend, Json.toBackendMembers, JsonValue.nesting, JsonValue.nestingMembers]

theorem decode_document {isEvent : Bool} {type : Bytes} {payload : DocumentMap} (short : ¬ kMaxMessageBytes < text.length)
    (decoded : Json.decode backend text = .ok (document isEvent type payload)) (some_ : type ≠ []) :
    decode backend text = .ok (if isEvent then makeEventMessage type kJsonContentType (Json.encode backend (.map payload))
      else makeExceptionMessage type kJsonContentType (Json.encode backend (.map payload))) := by
  have nonempty : type.isEmpty = false := List.isEmpty_eq_false_iff.mpr some_
  have typed (envelope : Document) (found : envelope.find kPayloadMember = some (.map payload)) :
      decodeTyped backend envelope (.string type) isEvent =
        .ok (if isEvent then makeEventMessage type kJsonContentType (Json.encode backend (.map payload))
          else makeExceptionMessage type kJsonContentType (Json.encode backend (.map payload))) := by
    simp only [decodeTyped, nonempty, if_neg Bool.false_ne_true, found]
  rw [decode, if_neg short, decoded]
  cases isEvent <;> exact typed _ rfl

theorem decode_encode_iff (lawful : backend.Lawful) (encoded : encode backend message = .ok text) :
    (∃ other, decode backend text = .ok other ∧ SameEvent backend message other) ↔ Carriable backend 1 message := by
  obtain ⟨envelope, payload, parsed, carried, short, rfl⟩ := encode_eq_ok encoded
  have stable := Json.stable_of_decode lawful carried
  constructor
  · rintro ⟨other, decoded, envelope', envelope'', value, parsed', parsed'', sameKind, sameType, _⟩
    rw [parsed] at parsed'
    cases parsed'
    obtain ⟨members, isEvent, type, payload', document_, found, some_, typed⟩ := decode_eq_ok decoded
    rw [typed] at parsed''
    cases parsed''
    have shallow := Json.shallow_of_decode_encode lawful document_
    rw [nesting_document] at shallow
    have stable' := Json.stable_of_decode lawful document_
    rw [Document.Stable] at stable'
    have valid := Document.stable_of_lookup stable'.2 found
    rw [Document.Stable] at valid
    dsimp only at sameType
    exact ⟨envelope, _, parsed, carried, sameType ▸ some_, sameType ▸ valid, shallow⟩
  · rintro ⟨envelope', value, parsed', carried', some_, valid, shallow⟩
    rw [parsed] at parsed'
    cases parsed'
    rw [carried] at carried'
    cases carried'
    have document_ := Json.decode_encode_of_stable lawful (stable_document (envelope.kind = .event) valid stable)
      (by rwa [nesting_document])
    refine ⟨_, decode_document short document_ some_, envelope, _, .map payload, parsed, parseEnvelope_makeMessage _ _ _,
      ?_, rfl, carried, ?_⟩
    · cases kind : envelope.kind <;> rfl
    · have again := Json.decode_encode_of_stable lawful stable (by omega)
      split_ifs <;> exact again

end JsonFrame

namespace JsonRpc

variable {id : Document}

/-- The notification as a document. -/
def document (type : Bytes) (payload : DocumentMap) (id : Document) : Document :=
  .map [(kVersionMember, .string kVersionValue), (kMethodMember, .string type),
    (kParamsMember, .map [(kIdMember, id), (kPayloadMember, .map payload)])]

theorem encodeNotification_eq_ok (encoded : encodeNotification backend message id = .ok text) :
    ∃ envelope payload, parseEnvelope message = .ok envelope ∧ envelope.kind = .event ∧
      Json.decode backend message.payload = .ok (.map payload) ∧ ¬ kMaxMessageBytes < text.length ∧
      text = Json.encode backend (document envelope.type payload id) := by
  rw [encodeNotification] at encoded
  split at encoded
  · cases encoded
  · split_ifs at encoded with isEvent
    obtain ⟨payload, encodable, encoded⟩ := Outcome.bind_eq_ok.mp encoded
    obtain ⟨rfl, short⟩ := checkedText_eq_ok encoded
    exact ⟨_, payload, by assumption, not_not.mp isEvent, encodablePayload_eq_ok encodable, short, rfl⟩

theorem stable_document {type : Bytes} {payload : DocumentMap} (valid : Utf8.Valid type)
    (stable : (Document.map payload).Stable) (stableId : id.Stable) : (document type payload id).Stable := by
  have keys : ∀ name ∈ [kVersionMember, kVersionValue, kMethodMember, kParamsMember, kIdMember, kPayloadMember],
      Utf8.Valid name := fun name member => Utf8.valid_of_ascii (by revert name; decide)
  simp only [List.forall_mem_cons] at keys
  obtain ⟨version, value, method, params, id_, payload_, _⟩ := keys
  have ordered : [kVersionMember, kMethodMember, kParamsMember].Pairwise (· < ·) ∧
      [kIdMember, kPayloadMember].Pairwise (· < ·) := by decide
  rw [Document.Stable] at stable
  simp only [document, Document.Stable, Document.membersStable]
  exact ⟨ordered.1, version, value, method, valid, params, ⟨ordered.2, id_, stableId, payload_, stable, trivial⟩, trivial⟩

theorem nesting_document (type : Bytes) (payload : DocumentMap) (id : Document) :
    (Json.toBackend (document type payload id)).nesting =
      max (Json.toBackend id).nesting (Json.toBackend (.map payload)).nesting + 2 := by
  simp [document, Json.toBackend, Json.toBackendMembers, JsonValue.nesting, JsonValue.nestingMembers]

/-- A notification echoes the id and carries the text of its method as its type. -/
theorem decodeNotification_eq_event {envelope method : Document} {other : Message}
    (decoded : decodeNotification backend envelope method id = .event other) : ∃ type params echoed payload,
      method = .string type ∧ type ≠ [] ∧ envelope.find kParamsMember = some (.map params) ∧
      params.lookup kIdMember = some echoed ∧ echoed.equals id = true ∧
      parseEnvelope other = .ok ⟨.event, type, kJsonContentType, payload⟩ := by
  rw [decodeNotification] at decoded
  split at decoded
  · cases decoded
  · rename_i type typed
    obtain ⟨rfl, some_⟩ := nonEmptyString_eq_some.mp typed
    split at decoded
    · cases decoded
    · rename_i params found
      have isParams := bind_members?_eq_some.mp found
      split at decoded
      · cases decoded
      · split at decoded
        · cases decoded
        · rename_i echoed echo
          split at decoded
          · rename_i equal
            split at decoded
            · cases decoded
            · cases decoded
              exact ⟨type, params, echoed, _, rfl, some_, isParams, echo, equal, parseEnvelope_makeMessage true _ _⟩
          · cases decoded

/-- No response is an event. -/
theorem decodeResponse_ne_event (envelope : Document) (other : Message) :
    decodeResponse backend envelope id ≠ .event other := by
  intro decoded
  rw [decodeResponse] at decoded
  split at decoded
  · cases decoded
  · split_ifs at decoded
    · split at decoded
      · cases decoded
      · cases decoded
      · cases decoded
      · rename_i error _ _
        obtain ⟨_, exception, isException⟩ | ⟨_, reason, isViolation⟩ := decodeError_decides backend error
        · rw [isException] at decoded
          cases decoded
        · rw [isViolation] at decoded
          cases decoded
    · cases decoded

theorem decodeFrame_eq_event {other : Message} (decoded : decodeFrame backend text id = .event other) :
    ∃ members type params echoed payload, Json.decode backend text = .ok (.map members) ∧
      members.lookup kMethodMember = some (.string type) ∧ type ≠ [] ∧ members.lookup kParamsMember = some (.map params) ∧
      params.lookup kIdMember = some echoed ∧ echoed.equals id = true ∧
      parseEnvelope other = .ok ⟨.event, type, kJsonContentType, payload⟩ := by
  rw [decodeFrame] at decoded
  split at decoded
  · cases decoded
  · split at decoded
    · cases decoded
    · rename_i members document_
      split at decoded
      · cases decoded
      · split at decoded
        · split at decoded
          · rw [decodeEnvelope] at decoded
            split at decoded
            · rename_i method isMethod
              split at decoded
              · cases decoded
              · split at decoded
                · cases decoded
                · obtain ⟨type, params, echoed, payload, rfl, some_, isParams, echo, equal, typed⟩ :=
                    decodeNotification_eq_event decoded
                  exact ⟨members, type, params, echoed, payload, document_, isMethod, some_, isParams, echo, equal, typed⟩
            · exact absurd decoded (decodeResponse_ne_event _ _)
          · cases decoded
        · cases decoded
    · cases decoded

theorem decodeFrame_document {type : Bytes} {payload : DocumentMap} (short : ¬ kMaxMessageBytes < text.length)
    (decoded : Json.decode backend text = .ok (document type payload id)) (some_ : type ≠ []) (stable : id.Stable) :
    decodeFrame backend text id = .event (makeEventMessage type kJsonContentType (Json.encode backend (.map payload))) := by
  have nonempty : nonEmptyString (.string type) = some type := by
    rw [nonEmptyString, List.isEmpty_eq_false_iff.mpr some_, if_neg Bool.false_ne_true]
  have notification : decodeNotification backend (document type payload id) (.string type) id =
      .event (makeEventMessage type kJsonContentType (Json.encode backend (.map payload))) := by
    have params : (document type payload id).find kParamsMember =
        some (.map [(kIdMember, id), (kPayloadMember, .map payload)]) := rfl
    have known : unknownMember [kIdMember, kPayloadMember] [(kIdMember, id), (kPayloadMember, .map payload)] = none := rfl
    have found : [(kIdMember, id), (kPayloadMember, .map payload)].lookup kIdMember = some id ∧
        [(kIdMember, id), (kPayloadMember, .map payload)].lookup kPayloadMember = some (.map payload) := ⟨rfl, rfl⟩
    simp only [decodeNotification, nonempty, params, Option.bind_some, members?, known, found,
      Document.equals_self id stable, if_true]
  rw [decodeFrame, if_neg short, decoded]
  exact notification

theorem decode_encodeNotification_iff (lawful : backend.Lawful)
    (encoded : encodeNotification backend message id = .ok text) :
    (∃ other, decodeFrame backend text id = .event other ∧ SameEvent backend message other) ↔
      Carriable backend 2 message ∧ id.Stable ∧ (Json.toBackend id).nesting + 2 ≤ 512 := by
  obtain ⟨envelope, payload, parsed, kind, carried, short, rfl⟩ := encodeNotification_eq_ok encoded
  have stable := Json.stable_of_decode lawful carried
  constructor
  · rintro ⟨other, decoded, envelope', envelope'', value, parsed', parsed'', sameKind, sameType, _⟩
    rw [parsed] at parsed'
    cases parsed'
    obtain ⟨members, type, params, echoed, payload', document_, found, some_, isParams, echo, equal, typed⟩ :=
      decodeFrame_eq_event decoded
    rw [typed] at parsed''
    cases parsed''
    have shallow := Json.shallow_of_decode_encode lawful document_
    rw [nesting_document] at shallow
    have stable' := Json.stable_of_decode lawful document_
    rw [Document.Stable] at stable'
    have valid := Document.stable_of_lookup stable'.2 found
    rw [Document.Stable] at valid
    have stableParams := Document.stable_of_lookup stable'.2 isParams
    rw [Document.Stable] at stableParams
    have stableId := Document.stable_of_equals _ _ equal (Document.stable_of_lookup stableParams.2 echo)
    dsimp only at sameType
    exact ⟨⟨envelope, _, parsed, carried, sameType ▸ some_, sameType ▸ valid, by omega⟩, stableId, by omega⟩
  · rintro ⟨⟨envelope', value, parsed', carried', some_, valid, shallow⟩, stableId, shallowId⟩
    rw [parsed] at parsed'
    cases parsed'
    rw [carried] at carried'
    cases carried'
    have document_ := Json.decode_encode_of_stable lawful (stable_document valid stable stableId)
      (by rw [nesting_document]; omega)
    refine ⟨_, decodeFrame_document short document_ some_ stableId, envelope, _, .map payload, parsed,
      parseEnvelope_makeMessage true _ _, kind.symm, rfl, carried, ?_⟩
    exact Json.decode_encode_of_stable lawful stable (by omega)

end JsonRpc

/-! ## The two wires -/

/-- The peer reads what was sent exactly if the type is UTF-8 and not empty, the payload is not too deep below
the envelope, and the id of a notification is JSON that is not too deep either. -/
theorem wires_carry_iff (lawful : backend.Lawful) (message : Message) :
    (∀ text, JsonFrame.encode backend message = .ok text →
      ((∃ other, JsonFrame.decode backend text = .ok other ∧ SameEvent backend message other) ↔
        Carriable backend 1 message)) ∧
    ∀ id text, JsonRpc.encodeNotification backend message id = .ok text →
      ((∃ other, JsonRpc.decodeFrame backend text id = .event other ∧ SameEvent backend message other) ↔
        Carriable backend 2 message ∧ id.Stable ∧ (Json.toBackend id).nesting + 2 ≤ 512) := by
  constructor
  · intro text encoded
    exact JsonFrame.decode_encode_iff lawful encoded
  · intro id text encoded
    exact JsonRpc.decode_encodeNotification_iff lawful encoded

section Standard

open Json.Standard

/-- The text of a stable document. -/
theorem encode_of_stable {document : Document} (stable : document.Stable) :
    Json.encode library document = JsonText.print dialect (Json.reparsed (Json.toBackend document)) := by
  rw [Json.encode, dump_of_valid (Json.valid_toBackend _ stable)]

/-- An event with an empty object. -/
def bare (type : Bytes) : Message := makeEventMessage type kJsonContentType (ascii "\x7b\x7d")

theorem decode_bare : Json.decode library (ascii "\x7b\x7d") = .ok (.map []) := by rfl

theorem stable_empty : (Document.map []).Stable := by
  rw [Document.Stable, Document.membersStable]
  exact ⟨List.Pairwise.nil, trivial⟩

theorem encode_bare {type : Bytes} (valid : Utf8.Valid type)
    (short : (JsonText.print dialect (Json.reparsed (Json.toBackend (JsonFrame.document true type [])))).length ≤
      kMaxMessageBytes) :
    JsonFrame.encode library (bare type) = .ok (Json.encode library (JsonFrame.document true type [])) := by
  have length := short
  rw [← encode_of_stable (JsonFrame.stable_document true valid stable_empty)] at length
  have checked : checkedText JsonFrame.cannotEncode (Json.encode library (JsonFrame.document true type [])) =
      .ok (Json.encode library (JsonFrame.document true type [])) := by rw [checkedText, if_neg (not_lt.mpr length)]
  exact checked

theorem encodeNotification_bare {type : Bytes} (valid : Utf8.Valid type)
    (short : (JsonText.print dialect (Json.reparsed (Json.toBackend (JsonRpc.document type [] (.int 1))))).length ≤
      kMaxMessageBytes) :
    JsonRpc.encodeNotification library (bare type) (.int 1) =
      .ok (Json.encode library (JsonRpc.document type [] (.int 1))) := by
  have length := short
  have stable : (Document.int 1).Stable := by rw [Document.Stable] <;> simp
  rw [← encode_of_stable (JsonRpc.stable_document valid stable_empty stable)] at length
  have checked : checkedText JsonRpc.cannotEncode (Json.encode library (JsonRpc.document type [] (.int 1))) =
      .ok (Json.encode library (JsonRpc.document type [] (.int 1))) := by rw [checkedText, if_neg (not_lt.mpr length)]
  exact checked

/-- A tick is read by the peer on both wires. -/
theorem wires_carry_tick :
    (∃ text, JsonFrame.encode library (bare (ascii "tick")) = .ok text ∧
      ∃ other, JsonFrame.decode library text = .ok other ∧ SameEvent library (bare (ascii "tick")) other) ∧
    ∃ text, JsonRpc.encodeNotification library (bare (ascii "tick")) (.int 1) = .ok text ∧
      ∃ other, JsonRpc.decodeFrame library text (.int 1) = .event other ∧ SameEvent library (bare (ascii "tick")) other := by
  have valid : Utf8.Valid (ascii "tick") := Utf8.valid_of_ascii (by decide)
  have carriable (levels : ℕ) (few : levels ≤ 2) : Carriable library levels (bare (ascii "tick")) := by
    refine ⟨_, .map [], rfl, decode_bare, by decide, valid, ?_⟩
    change 1 + levels ≤ 512
    omega
  have encoded := encode_bare valid (by decide)
  have notified := encodeNotification_bare valid (by decide)
  have stable : (Document.int 1).Stable := by rw [Document.Stable] <;> simp
  exact ⟨⟨_, encoded, ((wires_carry_iff library_lawful _).1 _ encoded).mpr (carriable 1 (by decide))⟩,
    _, notified, ((wires_carry_iff library_lawful _).2 _ _ notified).mpr ⟨carriable 2 (by decide), stable, by decide⟩⟩

/-- An event without a name is sent on both wires, and read on neither. -/
theorem wires_lose_unnamed :
    (∃ text, JsonFrame.encode library (bare []) = .ok text ∧
      ¬ ∃ other, JsonFrame.decode library text = .ok other ∧ SameEvent library (bare []) other) ∧
    ∃ text, JsonRpc.encodeNotification library (bare []) (.int 1) = .ok text ∧
      ¬ ∃ other, JsonRpc.decodeFrame library text (.int 1) = .event other ∧ SameEvent library (bare []) other := by
  have unnamed (levels : ℕ) : ¬ Carriable library levels (bare []) := by
    rintro ⟨envelope, payload, parsed, _, some_, _⟩
    cases parsed
    exact some_ rfl
  have encoded := encode_bare Utf8.valid_nil (by decide)
  have notified := encodeNotification_bare Utf8.valid_nil (by decide)
  refine ⟨⟨_, encoded, fun carried => ?_⟩, _, notified, fun carried => ?_⟩
  · exact unnamed 1 ((JsonFrame.decode_encode_iff library_lawful encoded).mp carried)
  · exact unnamed 2 ((JsonRpc.decode_encodeNotification_iff library_lawful notified).mp carried).1

end Standard

end EventStream

end OpalCpp

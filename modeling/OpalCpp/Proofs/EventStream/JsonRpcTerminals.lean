import OpalCpp.Model.EventStream.JsonRpcStreamSocket
import OpalCpp.Proofs.EventStream.JsonWires

/-! # The terminal of a violation

What the server answers a violation with, and when the client reads it as such.
-/

namespace OpalCpp

theorem Document.valid_of_mem_keys {members : DocumentMap} {name : Bytes} (stable : membersStable members)
    (isMember : name ∈ members.map Prod.fst) : Utf8.Valid name := by
  induction members with
  | nil => cases isMember
  | cons member members ih =>
    obtain ⟨key, value⟩ := member
    rw [membersStable] at stable
    obtain rfl | isMember := List.mem_cons.mp isMember
    · exact stable.1
    · exact ih stable.2.2 isMember

namespace EventStream.JsonRpc

open Bytes (ascii)

variable {backend : Json.Backend} {id : Document} {text name reason : Bytes} {code : Int64}

/-! ## The reasons -/

/-- A reason is some text. -/
def Spoken (reason : Bytes) : Prop := reason ≠ [] ∧ Utf8.Valid reason

theorem spoken_of_ascii (plain : reason ≠ [] ∧ ∀ byte ∈ reason, byte < 0x80) : Spoken reason :=
  ⟨plain.1, Utf8.valid_of_ascii plain.2⟩

def StreamFrame.Speaks (frame : StreamFrame) : Prop := ∀ code reason, frame = .violation code reason → Spoken reason

theorem speaks_violation (spoken : Spoken reason) : (StreamFrame.violation code reason).Speaks := by
  rintro _ _ ⟨rfl, rfl⟩
  exact spoken

theorem speaks_invalid {what : String} (plain : ascii what ≠ [] ∧ ∀ byte ∈ ascii what, byte < 0x80) :
    (invalidRequest what).Speaks := speaks_violation (spoken_of_ascii plain)

theorem speaks_event (message : Message) : (StreamFrame.event message).Speaks := fun _ _ same => nomatch same

theorem speaks_exception (message : Message) : (StreamFrame.exception message).Speaks := fun _ _ same => nomatch same

theorem speaks_result (document : Document) : (StreamFrame.result document).Speaks := fun _ _ same => nomatch same

theorem mem_of_unknownMember {known : List Bytes} {members : DocumentMap}
    (unknown : unknownMember known members = some name) :
    name ∈ members.map Prod.fst := by
  obtain ⟨member, found, rfl⟩ := Option.map_eq_some_iff.mp unknown
  exact List.mem_map_of_mem (List.mem_of_find?_eq_some found)

/-- The name of a member that is not known is part of the reason. -/
theorem speaks_unknown {what : String} {known : List Bytes} {members : DocumentMap}
    (plain : ascii what ≠ [] ∧ ∀ byte ∈ ascii what, byte < 0x80) (stable : (Document.map members).Stable)
    (unknown : unknownMember known members = some name) : (unknownMemberViolation what name).Speaks := by
  rw [Document.Stable] at stable
  have valid := Document.valid_of_mem_keys stable.2 (mem_of_unknownMember unknown)
  apply speaks_violation
  exact ⟨List.append_ne_nil_of_left_ne_nil plain.1 _, (Utf8.valid_of_ascii plain.2).append valid⟩

theorem decodeNotification_speaks {envelope : Document} (stable : envelope.Stable) (method : Document) :
    (decodeNotification backend envelope method id).Speaks := by
  rw [decodeNotification]
  split
  · exact speaks_invalid (by decide)
  · split
    · exact speaks_invalid (by decide)
    · rename_i params found
      have stableParams := Document.stable_of_find stable (bind_members?_eq_some.mp found)
      split
      · rename_i name unknown
        exact speaks_unknown (by decide) stableParams unknown
      · split
        · exact speaks_invalid (by decide)
        · split_ifs
          · split
            · exact speaks_invalid (by decide)
            · exact speaks_event _
          · exact speaks_invalid (by decide)

theorem decodeError_speaks {error : Document} (stable : error.Stable) : (decodeError backend error).Speaks := by
  rw [decodeError.eq_def]
  split
  · split
    · rename_i name unknown
      exact speaks_unknown (by decide) stable unknown
    · split
      · split
        · exact speaks_exception _
        · exact speaks_exception _
        · exact speaks_exception _
        · exact speaks_exception _
        · exact speaks_invalid (by decide)
        · exact speaks_invalid (by decide)
        · exact speaks_invalid (by decide)
      · exact speaks_invalid (by decide)
  · exact speaks_invalid (by decide)

theorem decodeResponse_speaks {envelope : Document} (stable : envelope.Stable) :
    (decodeResponse backend envelope id).Speaks := by
  rw [decodeResponse]
  split
  · exact speaks_invalid (by decide)
  · split_ifs
    · split
      · exact speaks_invalid (by decide)
      · exact speaks_invalid (by decide)
      · exact speaks_result _
      · rename_i error _ found
        exact decodeError_speaks (Document.stable_of_find stable found)
    · exact speaks_invalid (by decide)

/-- Whatever is received, the reason to refuse it is some text. -/
theorem decodeFrame_speaks (lawful : backend.Lawful) (text : Bytes) (id : Document) :
    (decodeFrame backend text id).Speaks := by
  rw [decodeFrame]
  split
  · exact speaks_invalid (by decide)
  · split
    · exact speaks_violation (spoken_of_ascii (by decide))
    · rename_i members decoded
      have stable := Json.stable_of_decode lawful decoded
      split
      · rename_i name unknown
        exact speaks_unknown (by decide) stable unknown
      · split
        · split
          · rw [decodeEnvelope]
            split
            · split
              · exact speaks_invalid (by decide)
              · split
                · exact speaks_invalid (by decide)
                · exact decodeNotification_speaks stable _
            · exact decodeResponse_speaks stable
          · exact speaks_invalid (by decide)
        · exact speaks_invalid (by decide)
    · exact speaks_invalid (by decide)

/-! ## The terminal on the wire -/

/-- The text is read as the exception of a violation with this reason as its message. -/
def Answers (backend : Json.Backend) (id : Document) (text reason : Bytes) : Prop :=
  ∃ message contentType payload members, decodeFrame backend text id = .exception message ∧
    parseEnvelope message = .ok ⟨.exception, kViolationExceptionType, contentType, payload⟩ ∧
    Json.decode backend payload = .ok (.map members) ∧ members.lookup kMessageMember = some (.string reason)

/-- The length of a terminal without its reason and its id. -/
def overhead (backend : Json.Backend) (code : Int64) : ℕ :=
  (encodeViolationResponse backend code [] .null).length - (Json.encode backend (.string [])).length -
    (Json.encode backend .null).length

/-- The id is JSON, and the terminal is neither too deep nor too long with the reason and the id. -/
def Fits (backend : Json.Backend) (id : Document) (code : Int64) (reason : Bytes) : Prop :=
  id.Stable ∧ (Json.toBackend id).nesting + 1 ≤ 512 ∧
    overhead backend code + (Json.encode backend (.string reason)).length + (Json.encode backend id).length ≤
      kMaxMessageBytes

theorem length_encodeViolationResponse (lawful : backend.Lawful) (code : Int64) (reason : Bytes) (id : Document) :
    (encodeViolationResponse backend code reason id).length =
      overhead backend code + (Json.encode backend (.string reason)).length + (Json.encode backend id).length := by
  have spelled (reason : Bytes) (id : Document) : encodeViolationResponse backend code reason id =
      backend.dump (.object [
        (kErrorMember, .object [
          (kCodeMember, .number (.integer code)),
          (kDataMember, .object [(kTypeMember, .string kViolationExceptionType)]),
          (kMessageMember, .string reason)]),
        (kIdMember, Json.toBackend id),
        (kVersionMember, .string kVersionValue)]) := by
    simp only [encodeViolationResponse, Json.encode, violationEnvelope, Json.toBackend, Json.toBackendMembers]
  have same : (encodeViolationResponse backend code reason id).length + (Json.encode backend (.string [])).length +
      (Json.encode backend .null).length = (encodeViolationResponse backend code [] .null).length +
      (Json.encode backend (.string reason)).length + (Json.encode backend id).length := by
    simp only [spelled, Json.encode, Json.toBackend, lawful.dump_object, List.map_cons, List.map_nil, Delimited.join,
      List.length_append, List.length_cons, List.length_nil]
    omega
  have room : (Json.encode backend (.string [])).length + (Json.encode backend .null).length ≤
      (encodeViolationResponse backend code [] .null).length := by
    simp only [spelled, Json.encode, Json.toBackend, lawful.dump_object, List.map_cons, List.map_nil, Delimited.join,
      List.length_append, List.length_cons, List.length_nil]
    omega
  rw [overhead]
  omega

theorem stable_violationEnvelope (valid : Utf8.Valid reason) (stable : id.Stable) :
    (violationEnvelope code reason id).Stable := by
  have plain : ∀ name ∈ [kErrorMember, kCodeMember, kDataMember, kTypeMember, kViolationExceptionType, kMessageMember,
      kIdMember, kVersionMember, kVersionValue], Utf8.Valid name :=
    fun name member => Utf8.valid_of_ascii (by revert name; decide)
  simp only [List.forall_mem_cons] at plain
  obtain ⟨error, code_, data, type, exception, message, id_, version, value, _⟩ := plain
  have ordered : [kErrorMember, kIdMember, kVersionMember].Pairwise (· < ·) ∧
      [kCodeMember, kDataMember, kMessageMember].Pairwise (· < ·) ∧ [kTypeMember].Pairwise (· < ·) := by decide
  simp only [violationEnvelope, Document.Stable, Document.membersStable]
  exact ⟨ordered.1, error, ⟨ordered.2.1, code_, trivial, data, ⟨ordered.2.2, type, exception, trivial⟩, message, valid,
    trivial⟩,
    id_, stable, version, value, trivial⟩

theorem nesting_violationEnvelope (code : Int64) (reason : Bytes) (id : Document) :
    (Json.toBackend (violationEnvelope code reason id)).nesting = max 2 (Json.toBackend id).nesting + 1 := by
  simp [violationEnvelope, Json.toBackend, Json.toBackendMembers, JsonValue.nesting, JsonValue.nestingMembers]

/-- The payload that the client makes of the error. -/
def violationPayload (reason : Bytes) : DocumentMap :=
  [(kTypeMember, .string kViolationExceptionType), (kMessageMember, .string reason)]

theorem decodeFrame_violationEnvelope (some_ : reason ≠ []) (short : ¬ kMaxMessageBytes < text.length)
    (decoded : Json.decode backend text = .ok (violationEnvelope code reason id)) (stable : id.Stable) :
    decodeFrame backend text id = .exception (makeExceptionMessage kViolationExceptionType kJsonContentType
      (Json.encode backend (.map (violationPayload reason)))) := by
  have nonempty : reason.isEmpty = false := List.isEmpty_eq_false_iff.mpr some_
  have error : decodeError backend (.map [(kCodeMember, .int code),
      (kDataMember, .map [(kTypeMember, .string kViolationExceptionType)]), (kMessageMember, .string reason)]) =
      .exception (exceptionMessage backend (some reason) (some [(kTypeMember, .string kViolationExceptionType)])) := rfl
  have filled : exceptionMessage backend (some reason) (some [(kTypeMember, .string kViolationExceptionType)]) =
      makeExceptionMessage kViolationExceptionType kJsonContentType
        (Json.encode backend (.map (violationPayload reason))) := by
    have absent : ([(kTypeMember, Document.string kViolationExceptionType)].lookup kMessageMember).isSome = false := rfl
    simp only [exceptionMessage, Option.getD_some, nonempty, absent, Bool.or_false, if_neg Bool.false_ne_true]
    rfl
  have response : decodeResponse backend (violationEnvelope code reason id) id =
      .exception (makeExceptionMessage kViolationExceptionType kJsonContentType
        (Json.encode backend (.map (violationPayload reason)))) := by
    have echo : (violationEnvelope code reason id).find kIdMember = some id := rfl
    rw [decodeResponse, echo, ← filled, ← error]
    simp only [Document.equals_self id stable, if_true]
    rfl
  rw [decodeFrame, if_neg short, decoded]
  exact response

/-- An exception answers the call. -/
theorem decodeFrame_eq_exception {message : Message} (decoded : decodeFrame backend text id = .exception message) :
    ¬ kMaxMessageBytes < text.length ∧ ∃ members, Json.decode backend text = .ok (.map members) ∧ HasId id members := by
  have fits : ¬ kMaxMessageBytes < text.length := by
    intro long
    rw [decodeFrame, if_pos long] at decoded
    cases decoded
  refine ⟨fits, ?_⟩
  have isMap : ∃ members, Json.decode backend text = .ok (.map members) := by
    rw [decodeFrame, if_neg fits] at decoded
    split at decoded
    · cases decoded
    · exact ⟨_, by assumption⟩
    · cases decoded
  obtain ⟨members, document_⟩ := isMap
  have kinds := (@decodeFrame_classified members id backend text (not_lt.mp fits) document_).kinds
  exact ⟨members, document_, (kinds.2.2.2.1.mp ⟨message, decoded⟩).2.2.1⟩

/-- The client reads a terminal as what it is exactly if it fits. -/
theorem answers_iff (lawful : backend.Lawful) (spoken : Spoken reason) :
    Answers backend id (encodeViolationResponse backend code reason id) reason ↔ Fits backend id code reason := by
  rw [Fits, ← length_encodeViolationResponse lawful]
  constructor
  · rintro ⟨message, contentType, payload, members, decoded, _⟩
    obtain ⟨short, members, document_, echoed, echo, equal⟩ := decodeFrame_eq_exception decoded
    have shallow := Json.shallow_of_decode_encode lawful document_
    rw [nesting_violationEnvelope] at shallow
    have stable := Json.stable_of_decode lawful document_
    rw [Document.Stable] at stable
    exact ⟨Document.stable_of_equals _ _ equal (Document.stable_of_lookup stable.2 echo), by omega, not_lt.mp short⟩
  · rintro ⟨stable, shallow, short⟩
    have document_ :
      Json.decode backend (encodeViolationResponse backend code reason id) = .ok (violationEnvelope code reason id) :=
      Json.decode_encode_of_stable lawful (stable_violationEnvelope spoken.2 stable)
        (by rw [nesting_violationEnvelope]; omega)
    have exception := decodeFrame_violationEnvelope spoken.1 (not_lt.mpr short) document_ stable
    refine ⟨_, _, _, violationPayload reason, exception, parseEnvelope_makeMessage false _ _, ?_, rfl⟩
    have carried : (Document.map (violationPayload reason)).Stable := by
      have plain : ∀ name ∈ [kTypeMember, kViolationExceptionType, kMessageMember], Utf8.Valid name :=
        fun name member => Utf8.valid_of_ascii (by revert name; decide)
      simp only [List.forall_mem_cons] at plain
      have ordered : [kTypeMember, kMessageMember].Pairwise (· < ·) := by decide
      simp only [violationPayload, Document.Stable, Document.membersStable]
      exact ⟨ordered, plain.1, plain.2.1, plain.2.2.1, spoken.2, trivial⟩
    refine Json.decode_encode_of_stable lawful carried ?_
    simp [violationPayload, Json.toBackend, Json.toBackendMembers, JsonValue.nesting, JsonValue.nestingMembers]

end EventStream.JsonRpc

end OpalCpp

import OpalCpp.Proofs.Codegen.SerdeRoundTrip
import OpalCpp.Proofs.Json.Standard

/-! # Typed values over the wires

What is serialized of a value, written and read by a codec, and deserialized, is the value again.
-/

namespace OpalCpp.Typed

open scoped Bytes
open Bytes (ascii)

variable {Id : Type*}

namespace SerdeCodeGen

variable {serde : SerdeCodeGen Id} {wire : ValueWire}

/-! ## Codecs with bytes -/

section Sent

variable (valid : serde.Valid) {id : Id} (aggregate : hasSerdeFunctions (serde.model.shape id).type = true) {value : Value}
  (typed : value.HasType serde.model ⟨id, false⟩) (complete : value.Every serde.model serde.Complete id)
  (unhinted : value.Every serde.model serde.Unhinted id)

include valid aggregate typed complete unhinted

/-- A value of an aggregate is read from what a codec makes of its document. -/
theorem deserialize_form (carried : serde.Carried wire value id .epochSeconds) :
    ∃ restored, serde.deserialize (wire.form (serde.serialize value id .epochSeconds), id) = .ok restored ∧
      restored.canonical = (value.fill serde.model id).canonical :=
  (deserialize_form_iff valid aggregate typed complete carried).mpr unhinted

/-- What is written of a value in CBOR is read as the value, but for NaNs and unset defaults of inputs, if no union in it
is tagged with the key of the type hint and its documents hold no timestamps in other formats than that of CBOR. -/
theorem cbor_round_trip (documents : serde.Carried .cbor value id .epochSeconds)
    (wellFormed : (serde.serialize value id .epochSeconds).WellFormed)
    (window : (serde.serialize value id .epochSeconds).Representable)
    (shallow : (serde.serialize value id .epochSeconds).nesting ≤ Cbor.kMaxDepth) :
    ∃ doc restored, Cbor.decode (Cbor.encode (serde.serialize value id .epochSeconds)) = .ok doc ∧
      serde.deserialize (doc, id) = .ok restored ∧ restored.canonical = (value.fill serde.model id).canonical := by
  obtain ⟨restored, read, same⟩ := deserialize_form valid aggregate typed complete unhinted documents
  exact ⟨_, restored, Cbor.decode_form wellFormed window shallow, read, same⟩

/-- What is written of a value in JSON is read as the value, but for NaNs and unset defaults of inputs, if no union in
it is tagged with the key of the type hint, its timestamps have texts of their own, its documents are of JSON, and its
texts are UTF-8. -/
theorem json_round_trip {backend : Json.Backend} (lawful : backend.Lawful)
    (carried : serde.Carried .json value id .epochSeconds) (spelled : (serde.serialize value id .epochSeconds).Spelled)
    (shallow : (Json.toBackend (serde.serialize value id .epochSeconds)).nesting ≤ 512) :
    ∃ doc restored, Json.decode backend (Json.encode backend (serde.serialize value id .epochSeconds)) = .ok doc ∧
      serde.deserialize (doc, id) = .ok restored ∧ restored.canonical = (value.fill serde.model id).canonical := by
  obtain ⟨restored, read, same⟩ := deserialize_form valid aggregate typed complete unhinted carried
  exact ⟨_, restored, Json.decode_encode_jsonForm lawful (Document.stable_jsonForm _ spelled) shallow, read, same⟩

end Sent

/-! ### A reading -/

/-- A structure of a date of HTTP, a blob and a level. -/
inductive ReadingId where
  | reading | taken | trace | level
deriving DecidableEq

def readingShape : ReadingId → Shape ReadingId
  | .reading =>
    { type := .struct [{ target := .taken, memberName := ascii "taken", timestampFormat := some .httpDate },
        { target := .trace, memberName := ascii "trace" }, { target := .level, memberName := ascii "level" }]
      typeName := ascii "Reading" }
  | .taken => { type := .timestamp }
  | .trace => { type := .blob }
  | .level => { type := .double }

def readingSerde : SerdeCodeGen ReadingId where
  model :=
    { shape := readingShape
      stringKeys := by
        rintro (_ | _ | _ | _) key value sparse ⟨⟩
      grounded := Model.grounded_of_optional (by rintro (_ | _ | _ | _) members ⟨⟩; decide) }

theorem readingSerde_valid : readingSerde.Valid where
  fields := by
    rintro (_ | _ | _ | _) members ⟨⟩
    decide
  tags := by
    rintro (_ | _ | _ | _) members discriminator ⟨⟩
  values := by
    rintro (_ | _ | _ | _) values ⟨⟩
  alternatives := by
    rintro (_ | _ | _ | _) members discriminator ⟨⟩

/-- A reading that was taken at a whole second, with a blob and an infinite level. -/
def sampleReading : Value :=
  .struct [.engaged (.timestamp ⟨784111777000⟩), .engaged (.blob [0, 255]), .engaged (.double .infinity)]

theorem sampleReading_typed : sampleReading.HasType readingSerde.model ⟨.reading, false⟩ ∧
    sampleReading.Every readingSerde.model readingSerde.Complete .reading ∧
      sampleReading.Every readingSerde.model readingSerde.Unhinted .reading := by
  refine ⟨?_, ?_, ?_⟩
  · simp [sampleReading, Value.HasType, Value.FieldsHaveType, readingSerde, readingShape, Model.memberSlot, plain, populated,
      defaulted]
  · simp [sampleReading, Value.Every, Value.FieldsEvery, readingSerde, readingShape, Complete]
  · simp [sampleReading, Value.Every, Value.FieldsEvery, readingSerde, readingShape, Unhinted]

theorem sampleReading_document : readingSerde.serialize sampleReading .reading .epochSeconds =
    .map [(ascii "level", .double .infinity), (ascii "taken", .timestamp ⟨⟨784111777000⟩, .httpDate⟩),
      (ascii "trace", .blob [0, 255])] := by
  simp only [sampleReading, serialize, readingSerde, readingShape]
  rfl

/-- The reading comes back from CBOR. -/
theorem cbor_round_trip_reading : ∃ doc restored,
    Cbor.decode (Cbor.encode (readingSerde.serialize sampleReading .reading .epochSeconds)) = .ok doc ∧
      readingSerde.deserialize (doc, .reading) = .ok restored ∧
        restored.canonical = (sampleReading.fill readingSerde.model .reading).canonical := by
  obtain ⟨typed, complete, unhinted⟩ := sampleReading_typed
  refine cbor_round_trip readingSerde_valid rfl typed complete unhinted ?_ ?_ ?_ ?_
  · simp [sampleReading, Carried, FieldsCarried, readingSerde, readingShape, ValueWire.cbor]
  · rw [sampleReading_document]
    simp [Document.WellFormed, Document.membersWellFormed]
    decide
  · rw [sampleReading_document]
    simp [Document.Representable, Document.membersRepresentable, Timestamp.Representable]
    decide
  · rw [sampleReading_document]
    decide

/-- The reading comes back from JSON. -/
theorem json_round_trip_reading : ∃ doc restored,
    Json.decode Json.Standard.library
      (Json.encode Json.Standard.library (readingSerde.serialize sampleReading .reading .epochSeconds)) = .ok doc ∧
      readingSerde.deserialize (doc, .reading) = .ok restored ∧
        restored.canonical = (sampleReading.fill readingSerde.model .reading).canonical := by
  obtain ⟨typed, complete, unhinted⟩ := sampleReading_typed
  refine json_round_trip readingSerde_valid rfl typed complete unhinted Json.Standard.library_lawful ?_ ?_ ?_
  · simp [sampleReading, Carried, FieldsCarried, readingSerde, readingShape, ValueWire.json, Timestamp.Dated,
      Timestamp.Representable]
    decide
  · rw [sampleReading_document]
    simp [Document.Spelled, Document.MembersSpelled]
    decide
  · rw [sampleReading_document]
    decide

end SerdeCodeGen

end OpalCpp.Typed

import OpalCpp.Proofs.Codegen.ValueWires

/-! # The round trip of generated serde

A value of a model comes back from the document it is serialized to, exactly where no union is tagged with the
key of the type hint.
-/

namespace OpalCpp.Typed

open scoped Bytes
open Bytes (ascii)

variable {Id : Type*}

namespace SerdeCodeGen

variable {serde : SerdeCodeGen Id}

/-! ## Documents of values -/

/-- The alternatives of a discriminated union are written as maps. -/
theorem serialize_alternative (valid : serde.Valid) {id : Id} {members : List (Member Id)} {discriminator : Bytes}
    (type : (serde.model.shape id).type = .union members (some discriminator)) {member : Member Id}
    (inside : member ∈ members) (known : member.jsonUnknown = false) {value : Value}
    (typed : value.HasType serde.model ⟨member.target, false⟩) (format : TimestampFormat) :
    value = .unit ∧ serde.serialize value member.target format = .map [] ∧ (serde.model.shape member.target).type = .unit ∨
      ∃ values fields, value = .struct values ∧ (serde.model.shape member.target).type = .struct fields ∧
        discriminator ∉ fields.map serde.wireName ∧
          serde.serialize value member.target format =
            .map (OrderedMap.ofEntries (serde.serializeFields values fields)) := by
  rcases valid.alternatives type member inside known with unit | ⟨fields, struct, apart⟩
  · left
    cases value <;> simp_all [Value.HasType, serialize]
  · right
    cases value <;> simp_all [Value.HasType, serialize]

/-- Only an unset optional is null. -/
theorem serialize_isNull (valid : serde.Valid) {value : Value} {id : Id} (typed : value.HasType serde.model ⟨id, false⟩)
    (complete : value.Every serde.model serde.Complete id) (format : TimestampFormat) :
    (serde.serialize value id format).isNull = false := by
  cases value with
  | alternative index value =>
    obtain ⟨_, members, discriminator, member, type, place, typed⟩ := typed
    simp only [serialize, type, place]
    cases unknown : member.jsonUnknown with
    | true =>
      rw [Value.Every] at complete
      obtain ⟨doc, rfl, ⟨entries, rfl⟩, _⟩ := complete.1 members discriminator member type place unknown
      rfl
    | false =>
      cases discriminator with
      | none => rfl
      | some discriminator =>
        rcases serialize_alternative valid type (List.mem_of_getElem? place) unknown typed (serde.timestampFormat member)
          with ⟨_, same, _⟩ | ⟨_, _, _, _, _, same⟩
        · rw [same]
          rfl
        · rw [same]
          rfl
  | document value => exact complete
  | nullopt => cases typed
  | engaged => cases typed.1
  | list items =>
    obtain ⟨_, member, sparse, type, _⟩ := typed
    simp only [serialize, type]
    rfl
  | map members =>
    obtain ⟨_, key, member, sparse, type, _⟩ := typed
    simp only [serialize, type]
    rfl
  | struct values =>
    obtain ⟨_, members, type, _⟩ := typed
    simp only [serialize, type]
    rfl
  | enum value =>
    obtain ⟨_, values, type, _⟩ := typed
    simp only [serialize, type]
    rfl
  | _ => rfl

theorem serialize_element_isNull (valid : serde.Valid) {value : Value} {id : Id} {optional : Bool}
    (typed : value.HasType serde.model ⟨id, optional⟩) (complete : value.Every serde.model serde.Complete id)
    (set : value ≠ .nullopt) (format : TimestampFormat) : (serde.serialize value id format).isNull = false := by
  cases value with
  | nullopt => exact (set rfl).elim
  | engaged value =>
    rw [Value.HasType] at typed
    rw [Value.Every] at complete
    exact serialize_isNull valid typed.2 complete format
  | _ =>
    obtain rfl : optional = false := typed.1
    exact serialize_isNull valid typed complete format

/-- The entry of a member in the document of its structure. -/
def field (serde : SerdeCodeGen Id) (value : Value) (member : Member Id) : Option Document :=
  match value with
  | .nullopt => none
  | value => some (serde.serialize value member.target (serde.timestampFormat member))

theorem field_of_ne {value : Value} (set : value ≠ .nullopt) (member : Member Id) :
    serde.field value member = some (serde.serialize value member.target (serde.timestampFormat member)) := by
  cases value with
  | nullopt => exact (set rfl).elim
  | _ => rfl

theorem serializeFields_cons (value : Value) (values : List Value) (member : Member Id) (members : List (Member Id)) :
    serde.serializeFields (value :: values) (member :: members) =
      ((serde.field value member).map (serde.wireName member, ·)).toList ++ serde.serializeFields values members := by
  cases value <;> rw [serializeFields] <;> first | rfl | exact Value.noConfusion

theorem serializeFields_nil (members : List (Member Id)) : serde.serializeFields [] members = [] := by simp [serializeFields]

theorem keys_serializeFields {values : List Value} {members : List (Member Id)} (sized : values.length = members.length)
    {key : Bytes} (inside : key ∈ (serde.serializeFields values members).map Prod.fst) :
    key ∈ members.map serde.wireName := by
  induction values generalizing members with
  | nil =>
    rw [serializeFields_nil] at inside
    cases inside
  | cons value values ih =>
    cases members with
    | nil => cases sized
    | cons member members =>
      rw [serializeFields_cons, List.map_append, List.mem_append] at inside
      rcases inside with here | later
      · have same : key = serde.wireName member := by
          cases entry : serde.field value member with
          | none =>
            rw [entry] at here
            cases here
          | some document =>
            rw [entry] at here
            exact List.mem_singleton.mp here
        exact same ▸ List.mem_cons_self
      · exact List.mem_cons_of_mem _ (ih (Nat.succ.inj sized) later)

theorem find_optional (key other : Bytes) (value : Option Document) (entries : DocumentMap) :
    OrderedMap.find? other ((value.map (key, ·)).toList ++ entries) =
      if key = other then value.or (OrderedMap.find? other entries) else OrderedMap.find? other entries := by
  cases value with
  | none =>
    rw [Option.none_or, ite_self]
    rfl
  | some document => simp [OrderedMap.find?]

/-- Every member is found with its own value, in entries where the wire names find what they find in the structure's. -/
theorem find_fields {entries : DocumentMap} {values : List Value} {members : List (Member Id)}
    (distinct : (members.map serde.wireName).Nodup) (sized : values.length = members.length)
    (same : ∀ key ∈ members.map serde.wireName,
      OrderedMap.find? key entries = OrderedMap.find? key (serde.serializeFields values members)) :
    List.Forall₂ (fun value member => (Document.map entries).find (serde.wireName member) = serde.field value member)
      values members := by
  induction values generalizing members with
  | nil =>
    cases members with
    | nil => exact .nil
    | cons => cases sized
  | cons value values ih =>
    cases members with
    | nil => cases sized
    | cons member members =>
      have sizedRest := Nat.succ.inj sized
      obtain ⟨apart, distinctRest⟩ := List.nodup_cons.mp distinct
      rw [serializeFields_cons] at same
      constructor
      · have absent : OrderedMap.find? (serde.wireName member) (serde.serializeFields values members) = none := by
          rw [← Option.not_isSome_iff_eq_none, OrderedMap.find?_isSome]
          exact fun inside => apart (keys_serializeFields sizedRest inside)
        rw [Document.find_map, same _ List.mem_cons_self, find_optional, if_pos rfl, absent, Option.or_none]
      · apply ih distinctRest sizedRest
        intro key inside
        have other : serde.wireName member ≠ key := fun equal => apart (equal ▸ inside)
        rw [same key (List.mem_cons_of_mem _ inside), find_optional, if_neg other]

/-! ## Reading one after the other -/

/-- A first result and the others are a list of results. -/
theorem cons_eq_ok {α : Type*} {first : Outcome α} {others : Outcome (List α)} {results : List α} :
    (do let result ← first; let rest ← others; return result :: rest) = .ok results ↔
      ∃ result rest, first = .ok result ∧ others = .ok rest ∧ result :: rest = results := by
  cases first with
  | error error => simp [bind, Except.bind]
  | ok result =>
    cases others with
    | error error => simp [bind, Except.bind]
    | ok rest => simp [bind, Except.bind, pure, Except.pure]

/-- The keys that are read are among those that are there, in their order. -/
theorem readEntries_keys {read : Document × Id → Outcome Value} {typeName : Bytes} {member : Member Id} {sparse : Bool}
    {entries : DocumentMap} {results : List (Bytes × Value)}
    (ok : serde.readEntries read typeName member sparse entries = .ok results) :
    (results.map Prod.fst).Sublist (entries.map Prod.fst) := by
  induction entries generalizing results with
  | nil =>
    rw [readEntries] at ok
    cases ok
    exact .slnil
  | cons entry entries ih =>
    obtain ⟨key, doc⟩ := entry
    rw [readEntries] at ok
    split_ifs at ok with null dense
    · obtain ⟨rest, restOk, same⟩ := Outcome.bind_eq_ok.mp ok
      cases same
      exact (ih restOk).cons_cons key
    · obtain ⟨rest, restOk, same⟩ := Outcome.bind_eq_ok.mp ok
      cases same
      exact (ih restOk).cons key
    · obtain ⟨parsed, _, next⟩ := Outcome.bind_eq_ok.mp ok
      obtain ⟨rest, restOk, same⟩ := Outcome.bind_eq_ok.mp next
      cases same
      exact (ih restOk).cons_cons key

/-! ## Unions -/

/-- Among elements with keys of their own, the one with a key is found. -/
theorem find?_of_nodup {α β : Type*} [DecidableEq β] {key : α → β} {elements : List α}
    (distinct : (elements.map key).Nodup) {element : α} (inside : element ∈ elements) :
    elements.find? (fun other => decide (key element = key other)) = some element := by
  induction elements with
  | nil => cases inside
  | cons other elements ih =>
    obtain ⟨apart, rest⟩ := List.nodup_cons.mp distinct
    obtain rfl | later := List.mem_cons.mp inside
    · rw [List.find?_cons_of_pos]
      exact decide_eq_true rfl
    · have differs : key element ≠ key other := fun same => apart (same ▸ List.mem_map_of_mem later)
      rw [List.find?_cons_of_neg, ih rest later]
      rw [decide_eq_true_eq]
      exact differs

theorem findSome?_ite {α β : Type*} (accepts : α → Bool) (result : α → β) (elements : List α) :
    elements.findSome? (fun element => if accepts element then some (result element) else none) =
      (elements.find? accepts).map result := by
  induction elements with
  | nil => rfl
  | cons element elements ih =>
    rw [List.findSome?_cons, List.find?_cons]
    cases accepts element with
    | true => rfl
    | false => exact ih

theorem find_known {members : List (Member Id)} (distinct : (members.map serde.wireName).Nodup) {member : Member Id}
    {index : ℕ} (place : members[index]? = some member) (isKnown : member.jsonUnknown = false) :
    (known members).find? (fun (other, _) => decide (serde.wireName member = serde.wireName other)) =
      some (member, index) := by
  have whole : (known members).Sublist members.zipIdx := List.filter_sublist
  have names : ((known members).map fun entry => serde.wireName entry.1).Nodup := by
    apply List.Nodup.sublist (whole.map _)
    have same : members.zipIdx.map (serde.wireName ∘ Prod.fst) = members.map serde.wireName := by
      rw [← List.map_map, List.zipIdx_map_fst]
    exact same ▸ distinct
  have inside : (member, index) ∈ known members := by
    rw [known, List.mem_filter, List.mem_zipIdx_iff_getElem?]
    exact ⟨place, Bool.not_eq_true' _ |>.mpr isKnown⟩
  exact find?_of_nodup names inside

/-- A member under a key that is not the hint's is the one that is read. -/
theorem chosen_single {members : List (Member Id)} (distinct : (members.map serde.wireName).Nodup) {member : Member Id}
    {index : ℕ} (place : members[index]? = some member) (isKnown : member.jsonUnknown = false)
    (unhinted : serde.wireName member ≠ ascii "__type") {doc : Document} (set : doc.isNull = false) :
    serde.chosen members none (.map [(serde.wireName member, doc)]) = some (member, index, doc) := by
  have found (key : Bytes) : (Document.map [(serde.wireName member, doc)]).find key =
      if serde.wireName member = key then some doc else none := by
    rw [Document.find_map, OrderedMap.find?, OrderedMap.find?]
    split_ifs <;> rfl
  have one : single (.map [(serde.wireName member, doc)]) = true := by
    rw [single, found, if_neg unhinted]
    rfl
  have tag (key : Bytes) : present (.map [(serde.wireName member, doc)]) key =
      if serde.wireName member = key then some doc else none := by
    rw [present, found]
    split_ifs
    · rw [Option.filter_some, set]
      rfl
    · rfl
  have tags : (fun (other : Member Id × ℕ) =>
      (present (.map [(serde.wireName member, doc)]) (serde.wireName other.1)).map fun found => (other.1, other.2, found)) =
        fun other => if decide (serde.wireName member = serde.wireName other.1) then some (other.1, other.2, doc)
          else none := by
    funext other
    rw [tag]
    simp only [decide_eq_true_eq]
    split_ifs <;> rfl
  have first := find_known distinct place isKnown
  rw [chosen, if_pos one, tagged, tags, findSome?_ite, first]
  rfl

/-- Under the hint's key no member is read. -/
theorem chosen_hinted (members : List (Member Id)) (doc : Document) :
    serde.chosen members none (.map [(ascii "__type", doc)]) = none := by
  have several : single (.map [(ascii "__type", doc)]) = false := by
    rw [single, Document.find_map, OrderedMap.find?, if_pos rfl]
    rfl
  rw [chosen, if_neg (Bool.eq_false_iff.mp several)]

/-- The discriminator names the member. -/
theorem chosen_discriminated {members : List (Member Id)} (distinct : (members.map serde.wireName).Nodup)
    {member : Member Id} {index : ℕ} (place : members[index]? = some member) (isKnown : member.jsonUnknown = false)
    {discriminator : Bytes} {doc : Document} (found : doc.find discriminator = some (.string (serde.wireName member))) :
    serde.chosen members (some discriminator) doc = some (member, index, doc) := by
  rw [chosen, discriminated, found]
  simp only [find_known distinct place isKnown, Option.map_some]

/-! ## Wires -/

section Wires

variable (serde : SerdeCodeGen Id) (wire : ValueWire)

mutual

/-- The timestamps of a value are some that their formats can be written with, and its documents come back from the
codec as they are. -/
def Carried : Value → Id → TimestampFormat → Prop
  | .engaged value, id, format => Carried value id format
  | .timestamp value, _, format => wire.Dated value format
  | .document value, _, _ => wire.form value = value
  | .list items, id, _ =>
    match (serde.model.shape id).type with
    | .list member _ => AllCarried items member.target (serde.timestampFormat member)
    | _ => True
  | .map members, id, _ =>
    match (serde.model.shape id).type with
    | .map _ value _ => EntriesCarried members value.target (serde.timestampFormat value)
    | _ => True
  | .struct values, id, _ =>
    match (serde.model.shape id).type with
    | .struct members => FieldsCarried values members
    | _ => True
  | .alternative index value, id, _ =>
    match (serde.model.shape id).type with
    | .union members _ =>
      match members[index]? with
      | some member => Carried value member.target (serde.timestampFormat member)
      | none => True
    | _ => True
  | _, _, _ => True

def AllCarried : List Value → Id → TimestampFormat → Prop
  | [], _, _ => True
  | item :: items, id, format => Carried item id format ∧ AllCarried items id format

def EntriesCarried : List (Bytes × Value) → Id → TimestampFormat → Prop
  | [], _, _ => True
  | (_, value) :: members, id, format => Carried value id format ∧ EntriesCarried members id format

def FieldsCarried : List Value → List (Member Id) → Prop
  | value :: values, member :: members =>
    Carried value member.target (serde.timestampFormat member) ∧ FieldsCarried values members
  | _, _ => True

end

/-- The value of a member is read back from what the codec makes of its document. -/
def Arrives (member : Member Id) (optional : Bool) (path : Bytes) (value : Value) : Prop :=
  ∃ restored, serde.deserializeInto serde.deserialize member
      (wire.form (serde.serialize value member.target (serde.timestampFormat member))) path = .ok restored ∧
    (moved optional restored).canonical = (value.fill serde.model member.target).canonical

end Wires

end SerdeCodeGen

namespace Value

/-- Whether the value is one of a type without functions of its own in serde.cc. -/
def isScalar : Value → Bool
  | .nullopt | .engaged _ | .list _ | .map _ | .struct _ | .empty | .alternative _ _ => false
  | _ => true

end Value

namespace SerdeCodeGen

variable {serde : SerdeCodeGen Id} {wire : ValueWire}

mutual

/-- What is passed on as it is carries every value. -/
theorem carried_plain : (value : Value) → ∀ (id : Id) (format : TimestampFormat), serde.Carried .plain value id format
  | .engaged value, id, format => by
    rw [Carried]
    exact carried_plain value id format
  | .list items, id, _ => by
    rw [Carried]
    split
    · exact allCarried_plain items _ _
    · trivial
  | .map members, id, _ => by
    rw [Carried]
    split
    · exact entriesCarried_plain members _ _
    · trivial
  | .struct values, id, _ => by
    rw [Carried]
    split
    · exact fieldsCarried_plain values _
    · trivial
  | .alternative index value, id, _ => by
    rw [Carried]
    split
    · split
      · exact carried_plain value _ _
      · trivial
    · trivial
  | .document _, _, _ => rfl
  | .timestamp _, _, _ => trivial
  | .nullopt, _, _ | .boolean _, _, _ | .byte _, _, _ | .short _, _, _ | .integer _, _, _ | .long _, _, _ => trivial
  | .float _, _, _ | .double _, _, _ | .string _, _, _ | .enum _, _, _ | .intEnum _, _, _ | .blob _, _, _ => trivial
  | .unit, _, _ | .empty, _, _ => trivial

theorem allCarried_plain : (items : List Value) → ∀ (id : Id) (format : TimestampFormat),
    serde.AllCarried .plain items id format
  | [], _, _ => trivial
  | item :: items, id, format => ⟨carried_plain item id format, allCarried_plain items id format⟩

theorem entriesCarried_plain : (members : List (Bytes × Value)) → ∀ (id : Id) (format : TimestampFormat),
    serde.EntriesCarried .plain members id format
  | [], _, _ => trivial
  | (_, value) :: members, id, format => ⟨carried_plain value id format, entriesCarried_plain members id format⟩

theorem fieldsCarried_plain : (values : List Value) → ∀ members : List (Member Id), serde.FieldsCarried .plain values members
  | [], _ => by simp only [FieldsCarried]
  | _ :: _, [] => by simp only [FieldsCarried]
  | value :: values, member :: members => ⟨carried_plain value _ _, fieldsCarried_plain values members⟩

end

theorem floatFromDouble_isNaN {value : Binary64} (nan : value.isNaN = true) :
    floatFromDouble value = .ok (.ofBinary64 value) := by
  have noNumber : value.value? = none := by
    rw [Binary64.isNaN, decide_eq_true_eq] at nan
    rw [Binary64.value?, if_pos (Nat.le_of_lt nan)]
  rw [floatFromDouble, noNumber]

/-- Among the scalars only numbers and texts that stand for them are looked at, and none is a NaN of the other. -/
theorem scalar_arrives (valid : serde.Valid) {value : Value} (scalar : value.isScalar = true) {member : Member Id}
    {optional : Bool} (path : Bytes) (typed : value.HasType serde.model ⟨member.target, optional⟩)
    (carried : serde.Carried wire value member.target (serde.timestampFormat member)) :
    serde.Arrives wire member optional path value := by
  have bounded8 (n : Int8) := And.intro n.le_toInt n.toInt_lt
  have bounded16 (n : Int16) := And.intro n.le_toInt n.toInt_lt
  have bounded32 (n : Int32) := And.intro n.le_toInt n.toInt_lt
  rw [Arrives]
  cases value with
  | boolean value =>
    obtain ⟨rfl, type⟩ := typed
    simp only [deserializeInto, type, serialize, wire.bool]
    exact ⟨_, rfl, rfl⟩
  | byte value =>
    obtain ⟨rfl, type⟩ := typed
    obtain ⟨above, below⟩ := bounded8 value
    simp only [deserializeInto, type, serialize, wire.int]
    rw [readNarrow_ofInt _ _ (by omega) (by omega) (by omega) (by omega), Int8.ofInt_toInt]
    exact ⟨_, rfl, rfl⟩
  | short value =>
    obtain ⟨rfl, type⟩ := typed
    obtain ⟨above, below⟩ := bounded16 value
    simp only [deserializeInto, type, serialize, wire.int]
    rw [readNarrow_ofInt _ _ (by omega) (by omega) (by omega) (by omega), Int16.ofInt_toInt]
    exact ⟨_, rfl, rfl⟩
  | integer value | intEnum value =>
    obtain ⟨rfl, type⟩ := typed
    obtain ⟨above, below⟩ := bounded32 value
    simp only [deserializeInto, type, serialize, wire.int]
    rw [readNarrow_ofInt _ _ (by omega) (by omega) (by omega) (by omega), Int32.ofInt_toInt]
    exact ⟨_, rfl, rfl⟩
  | long value =>
    obtain ⟨rfl, type⟩ := typed
    simp only [deserializeInto, type, serialize, wire.int]
    exact ⟨_, rfl, rfl⟩
  | float value =>
    obtain ⟨rfl, type⟩ := typed
    obtain ⟨read, readOk, same⟩ := wire.double value.toBinary64
    simp only [deserializeInto, type, serialize, readFloat, readOk]
    rcases same with rfl | ⟨readNaN, wideNaN⟩
    · rw [floatFromDouble_toBinary64]
      exact ⟨_, rfl, canonical_ofBinary64 value⟩
    · rw [floatFromDouble_isNaN readNaN]
      refine ⟨_, rfl, ?_⟩
      simp only [moved, Bool.false_eq_true, if_false, Value.fill, Value.canonical, Binary32.ofBinary64_isNaN readNaN,
        Binary32.isNaN_of_toBinary64 wideNaN, if_true]
  | double value =>
    obtain ⟨rfl, type⟩ := typed
    obtain ⟨read, readOk, same⟩ := wire.double value
    simp only [deserializeInto, type, serialize, readDouble, readOk]
    refine ⟨_, rfl, ?_⟩
    rcases same with rfl | ⟨readNaN, valueNaN⟩
    · rfl
    · simp only [moved, Bool.false_eq_true, if_false, Value.fill, Value.canonical, readNaN, valueNaN, if_true]
  | string text =>
    obtain ⟨rfl, type⟩ := typed
    simp only [deserializeInto, type, serialize, wire.string]
    exact ⟨_, rfl, rfl⟩
  | enum value =>
    obtain ⟨rfl, values, type, inside⟩ := typed
    simp only [deserializeInto, type, serialize, wire.string, EnumValue.fromText_toText (valid.values type) inside]
    exact ⟨_, rfl, rfl⟩
  | blob bytes =>
    obtain ⟨rfl, type⟩ := typed
    simp only [deserializeInto, type, serialize, wire.blob]
    exact ⟨_, rfl, rfl⟩
  | timestamp value =>
    obtain ⟨rfl, type⟩ := typed
    simp only [deserializeInto, type, serialize, wire.timestamp carried]
    exact ⟨_, rfl, rfl⟩
  | document value =>
    obtain ⟨rfl, type⟩ := typed
    have kept : wire.form value = value := carried
    simp only [deserializeInto, type, serialize, kept]
    exact ⟨_, rfl, rfl⟩
  | unit =>
    obtain ⟨rfl, type⟩ := typed
    simp only [deserializeInto, type]
    exact ⟨_, rfl, rfl⟩
  | _ => cases scalar

/-- In a map that was sent, the forms of the values are found. -/
theorem find_sent (wire : ValueWire) (key : Bytes) (entries : DocumentMap) :
    (Document.map (OrderedMap.mapValues wire.form entries)).find key = ((Document.map entries).find key).map wire.form := by
  rw [Document.find_map, Document.find_map, OrderedMap.find?_mapValues]

theorem find_form (wire : ValueWire) {entries : DocumentMap} {values : List Value} {members : List (Member Id)}
    (found : List.Forall₂ (fun value member =>
      (Document.map entries).find (serde.wireName member) = serde.field value member)
      values members) :
    List.Forall₂ (fun value member => (Document.map (OrderedMap.mapValues wire.form entries)).find (serde.wireName member) =
      (serde.field value member).map wire.form) values members := by
  refine found.imp fun value member here => ?_
  rw [find_sent, here]

/-- A tag is a text, which codecs keep. -/
theorem find_tag (wire : ValueWire) {key tag : Bytes} {entries : DocumentMap}
    (found : (Document.map entries).find key = some (.string tag)) :
    (Document.map (OrderedMap.mapValues wire.form entries)).find key = some (.string tag) := by
  rw [find_sent, found, Option.map_some, wire.string]

/-! ## The round trip -/

section RoundTrip

variable (valid : serde.Valid)

/-- A value that stands in a list or a map arrives if its element does. -/
theorem element_restores {member : Member Id} {sparse : Bool} {path : Bytes} {value : Value} :
    (∃ restored, (serde.deserializeInto serde.deserialize member
        (wire.form (serde.serialize value member.target (serde.timestampFormat member))) path).map (moved sparse) =
          .ok restored ∧
      restored.canonical = (value.fill serde.model member.target).canonical) ↔
        serde.Arrives wire member sparse path value := by
  constructor
  · rintro ⟨_, ok, same⟩
    obtain ⟨restored, restoredOk, rfl⟩ := Outcome.map_eq_ok.mp ok
    exact ⟨restored, restoredOk, same⟩
  · rintro ⟨restored, ok, same⟩
    exact ⟨moved sparse restored, Outcome.map_eq_ok.mpr ⟨restored, ok, rfl⟩, same⟩

/-- An optional arrives if what it holds does. -/
theorem engaged_arrives {member : Member Id} {path : Bytes} {value : Value} :
    serde.Arrives wire member true path (.engaged value) ↔ serde.Arrives wire member false path value := by
  simp only [Arrives, serialize, Value.fill, moved, Value.canonical, Value.engaged.injEq, if_true, if_false,
    Bool.false_eq_true]

/-- What a member of a structure is read back as. -/
def fillField (serde : SerdeCodeGen Id) (container : Shape Id) (value : Value) (member : Member Id) : Value :=
  match value with
  | .nullopt =>
    if fillOnParse container (serde.model.shape member.target).type member then .engaged (literal member) else .nullopt
  | value => value.fill serde.model member.target

theorem fillFields_cons (container : Shape Id) (value : Value) (values : List Value) (member : Member Id)
    (members : List (Member Id)) :
    Value.fillFields serde.model container (value :: values) (member :: members) =
      serde.fillField container value member :: Value.fillFields serde.model container values members := by
  cases value <;> rw [Value.fillFields] <;> first | rfl | exact Value.noConfusion

/-- A member of a structure arrives if its value does, which is nothing for one that is unset. -/
theorem readMember_restores {container : Shape Id} {doc : Document} {member : Member Id} {value : Value}
    (found : doc.find (serde.wireName member) = (serde.field value member).map wire.form)
    (typed : value.HasType serde.model (serde.model.memberSlot container member))
    (notNull : value ≠ .nullopt → (serde.serialize value member.target (serde.timestampFormat member)).isNull = false) :
    (∃ restored, serde.readMember serde.deserialize container doc member = .ok restored ∧
        restored.canonical = (serde.fillField container value member).canonical) ↔
      (value ≠ .nullopt → serde.Arrives wire member (!plain container (serde.model.shape member.target).type member)
        (container.typeName ++ ascii "." ++ member.name) value) := by
  rcases eq_or_ne value .nullopt with rfl | set
  · have optional : plain container (serde.model.shape member.target).type member = false := by
      rw [Value.HasType] at typed
      exact Bool.not_eq_true' _ |>.mp typed
    have notRequired : member.isRequired = false := by
      rw [plain, Bool.or_eq_false_iff] at optional
      exact optional.1
    have absent : present doc (serde.wireName member) = none := by
      rw [present, found]
      rfl
    rw [readMember, absent]
    simp only [lenientRequired, notRequired, Bool.false_and, Bool.false_eq_true, if_false, optional, fillField, ne_eq,
      not_true_eq_false, false_implies, iff_true]
    split_ifs
    · exact ⟨_, rfl, rfl⟩
    · exact ⟨_, rfl, rfl⟩
  · have there : present doc (serde.wireName member) =
        some (wire.form (serde.serialize value member.target (serde.timestampFormat member))) := by
      rw [present, found, field_of_ne set, Option.map_some, Option.filter_some, wire.null, notNull set]
      rfl
    have filled : serde.fillField container value member = value.fill serde.model member.target := by
      cases value with
      | nullopt => exact (set rfl).elim
      | _ => rfl
    rw [readMember, there, filled]
    simp only [set, ne_eq, not_false_eq_true, true_implies]
    exact element_restores

/-- A list comes back if its first item and the others do. -/
theorem cons_restores {first : Outcome Value} {others : Outcome (List Value)} {expected : Value} {expecteds : List Value} :
    (∃ restored, (do let result ← first; let rest ← others; return result :: rest) = .ok restored ∧
        Value.allCanonical restored = Value.allCanonical (expected :: expecteds)) ↔
      (∃ result, first = .ok result ∧ result.canonical = expected.canonical) ∧
        ∃ rest, others = .ok rest ∧ Value.allCanonical rest = Value.allCanonical expecteds := by
  constructor
  · rintro ⟨_, ok, same⟩
    obtain ⟨result, rest, firstOk, othersOk, rfl⟩ := cons_eq_ok.mp ok
    rw [Value.allCanonical, Value.allCanonical, List.cons.injEq] at same
    exact ⟨⟨result, firstOk, same.1⟩, rest, othersOk, same.2⟩
  · rintro ⟨⟨result, firstOk, head⟩, rest, othersOk, tail⟩
    refine ⟨result :: rest, cons_eq_ok.mpr ⟨result, rest, firstOk, othersOk, rfl⟩, ?_⟩
    rw [Value.allCanonical, Value.allCanonical, head, tail]

/-- A map comes back if its first entry and the others do. -/
theorem entry_restores {key : Bytes} {first : Outcome Value} {others : Outcome (List (Bytes × Value))} {sparse : Bool}
    {expected : Value} {expecteds : List (Bytes × Value)} :
    (∃ restored, (do let result ← first; let rest ← others; return (key, moved sparse result) :: rest) = .ok restored ∧
        Value.membersCanonical restored = Value.membersCanonical ((key, expected) :: expecteds)) ↔
      (∃ result, first = .ok result ∧ (moved sparse result).canonical = expected.canonical) ∧
        ∃ rest, others = .ok rest ∧ Value.membersCanonical rest = Value.membersCanonical expecteds := by
  constructor
  · rintro ⟨_, ok, same⟩
    obtain ⟨result, firstOk, next⟩ := Outcome.bind_eq_ok.mp ok
    obtain ⟨rest, othersOk, whole⟩ := Outcome.bind_eq_ok.mp next
    cases whole
    rw [Value.membersCanonical, Value.membersCanonical, List.cons.injEq, Prod.mk.injEq] at same
    exact ⟨⟨result, firstOk, same.1.2⟩, rest, othersOk, same.2⟩
  · rintro ⟨⟨result, rfl, head⟩, rest, rfl, tail⟩
    refine ⟨(key, moved sparse result) :: rest, rfl, ?_⟩
    rw [Value.membersCanonical, Value.membersCanonical, head, tail]

theorem null_entry_restores {key : Bytes} {others : Outcome (List (Bytes × Value))} {expecteds : List (Bytes × Value)} :
    (∃ restored, (do let rest ← others; return (key, Value.nullopt) :: rest) = .ok restored ∧
        Value.membersCanonical restored = Value.membersCanonical ((key, .nullopt) :: expecteds)) ↔
      ∃ rest, others = .ok rest ∧ Value.membersCanonical rest = Value.membersCanonical expecteds := by
  constructor
  · rintro ⟨_, ok, same⟩
    obtain ⟨rest, othersOk, whole⟩ := Outcome.bind_eq_ok.mp ok
    cases whole
    rw [Value.membersCanonical, Value.membersCanonical, List.cons.injEq] at same
    exact ⟨rest, othersOk, same.2⟩
  · rintro ⟨rest, rfl, tail⟩
    refine ⟨(key, .nullopt) :: rest, rfl, ?_⟩
    rw [Value.membersCanonical, Value.membersCanonical, tail]

theorem keys_serializeEntries (entries : List (Bytes × Value)) (id : Id) (format : TimestampFormat) :
    (serde.serializeEntries entries id format).map Prod.fst = entries.map Prod.fst := by
  induction entries with
  | nil => rfl
  | cons entry entries ih =>
    obtain ⟨key, value⟩ := entry
    rw [serializeEntries, List.map_cons, List.map_cons, ih]

/-- A container comes back if what is read for it does. -/
theorem container_restores {α : Type*} {read : Outcome α} {make : α → Value} {expected : Value} {restores : α → Prop}
    (same : ∀ results, read = .ok results → ((make results).canonical = expected.canonical ↔ restores results)) :
    (∃ restored, read.map make = .ok restored ∧ (moved false restored).canonical = expected.canonical) ↔
      ∃ results, read = .ok results ∧ restores results := by
  constructor
  · rintro ⟨_, ok, equal⟩
    obtain ⟨results, resultsOk, rfl⟩ := Outcome.map_eq_ok.mp ok
    exact ⟨results, resultsOk, (same results resultsOk).mp equal⟩
  · rintro ⟨results, ok, back⟩
    exact ⟨make results, Outcome.map_eq_ok.mpr ⟨results, ok, rfl⟩, (same results ok).mpr back⟩

theorem length_fields {values : List Value} {container : Shape Id} {members : List (Member Id)}
    (typed : Value.FieldsHaveType serde.model values (members.map (serde.model.memberSlot container))) :
    values.length = members.length := by
  induction values generalizing members with
  | nil =>
    cases members with
    | nil => rfl
    | cons => cases typed
  | cons value values ih =>
    cases members with
    | nil => cases typed
    | cons member members =>
      rw [List.map_cons, Value.FieldsHaveType] at typed
      rw [List.length_cons, List.length_cons, ih typed.2]

/-- A union comes back if the value of its member does. -/
theorem alternative_restores {index : ℕ} {read : Outcome Value} {expected : Value} :
    (∃ restored, (do let parsed ← read; return Value.alternative index parsed) = .ok restored ∧
        (moved false restored).canonical = (Value.alternative index expected).canonical) ↔
      ∃ restored, read = .ok restored ∧ (moved false restored).canonical = expected.canonical := by
  constructor
  · rintro ⟨_, ok, same⟩
    obtain ⟨restored, restoredOk, whole⟩ := Outcome.bind_eq_ok.mp ok
    cases whole
    exact ⟨restored, restoredOk, (Value.alternative.inj same).2⟩
  · rintro ⟨restored, rfl, same⟩
    exact ⟨.alternative index restored, rfl, congrArg (Value.alternative index) same⟩

theorem find_insertOrAssign_self (key : Bytes) (value : Document) (entries : DocumentMap) :
    OrderedMap.find? key (DocumentMap.insertOrAssign key value entries) = some value := by
  induction entries with
  | nil => exact if_pos rfl
  | cons entry entries ih =>
    obtain ⟨other, old⟩ := entry
    rw [DocumentMap.insertOrAssign]
    split_ifs with before after
    · exact if_pos rfl
    · rw [OrderedMap.find?, if_neg (ne_of_lt after), ih]
    · exact if_pos rfl

theorem find_insertOrAssign_of_ne {key other : Bytes} (differs : other ≠ key) (value : Document) (entries : DocumentMap) :
    OrderedMap.find? other (DocumentMap.insertOrAssign key value entries) = OrderedMap.find? other entries := by
  induction entries with
  | nil => exact if_neg differs.symm
  | cons entry entries ih =>
    obtain ⟨third, old⟩ := entry
    rw [DocumentMap.insertOrAssign]
    split_ifs with before after
    · rw [OrderedMap.find?, if_neg differs.symm]
    · rw [OrderedMap.find?, ih, OrderedMap.find?]
    · have same : third = key := le_antisymm (not_lt.mp before) (not_lt.mp after)
      rw [OrderedMap.find?, if_neg differs.symm, OrderedMap.find?, if_neg (same ▸ differs.symm)]

theorem set_of_plain {value : Value} {id : Id} (typed : value.HasType serde.model ⟨id, false⟩) : value ≠ .nullopt := by
  rintro rfl
  cases typed

/-! ### One case for each constructor -/

include valid

/-- A structure comes back from a map if its members do. -/
theorem struct_restores {member : Member Id} {fields : List (Member Id)}
    (type : (serde.model.shape member.target).type = .struct fields) (entries : DocumentMap) (path : Bytes)
    (values : List Value) :
    (∃ restored, serde.deserializeInto serde.deserialize member (.map entries) path = .ok restored ∧
        (moved false restored).canonical = ((Value.struct values).fill serde.model member.target).canonical) ↔
      ∃ restored, serde.readStruct serde.deserialize (serde.model.shape member.target) (.map entries) fields = .ok restored ∧
        Value.allCanonical restored =
          Value.allCanonical (Value.fillFields serde.model (serde.model.shape member.target) values fields) := by
  simp only [deserializeInto, type, deserialize_eq valid, deserializeStep, Value.fill]
  apply container_restores
  intro results _
  rw [Value.canonical, Value.canonical, Value.struct.injEq]

theorem deserializeInto_union {member : Member Id} {members : List (Member Id)} {discriminator : Option Bytes}
    (type : (serde.model.shape member.target).type = .union members discriminator) (entries : DocumentMap) (path : Bytes) :
    serde.deserializeInto serde.deserialize member (.map entries) path =
      serde.readUnion serde.deserialize (serde.model.shape member.target).typeName members discriminator (.map entries) := by
  simp only [deserializeInto, type]
  rw [deserialize_eq valid]
  simp only [deserializeStep, type]

mutual

theorem arrives_iff : (value : Value) → ∀ (member : Member Id) (optional : Bool) (path : Bytes),
    value.HasType serde.model ⟨member.target, optional⟩ → value.Every serde.model serde.Complete member.target →
      serde.Carried wire value member.target (serde.timestampFormat member) → value ≠ .nullopt →
        (serde.Arrives wire member optional path value ↔ value.Every serde.model serde.Unhinted member.target)
  | .nullopt, _, _, _, _, _, _, set => (set rfl).elim
  | .engaged value, member, optional, path, typed, complete, carried, _ => by
    rw [Value.HasType] at typed
    obtain ⟨rfl, typed⟩ := typed
    rw [Value.Every] at complete ⊢
    rw [Carried] at carried
    rw [engaged_arrives]
    exact arrives_iff value member false path typed complete carried (set_of_plain typed)
  | .list items, member, optional, path, typed, complete, carried, _ => by
    rw [Value.HasType] at typed
    obtain ⟨rfl, element, sparse, type, typed⟩ := typed
    simp only [Value.Every, type] at complete ⊢
    simp only [Carried, type] at carried
    rw [← items_iff items element sparse (serde.model.shape member.target).typeName typed complete carried]
    simp only [Arrives, deserializeInto, type, serialize, wire.list, deserialize_eq valid, deserializeStep, Value.fill]
    apply container_restores
    intro results _
    rw [Value.canonical, Value.canonical, Value.list.injEq]
  | .map members, member, optional, path, typed, complete, carried, _ => by
    rw [Value.HasType] at typed
    obtain ⟨rfl, key, element, sparse, type, ordered, typed⟩ := typed
    simp only [Value.Every, type] at complete ⊢
    simp only [Carried, type] at carried
    rw [← entries_iff members element sparse (serde.model.shape member.target).typeName typed complete carried]
    have keys := serde.keys_serializeEntries members element.target (serde.timestampFormat element)
    have inOrder : OrderedMap.Ordered (serde.serializeEntries members element.target (serde.timestampFormat element)) := by
      rw [OrderedMap.Ordered, keys]
      exact ordered
    simp only [Arrives, deserializeInto, type, serialize, wire.map, deserialize_eq valid, deserializeStep, Value.fill,
      inOrder.ofEntries_eq]
    apply container_restores
    intro results ok
    have resultsInOrder : OrderedMap.Ordered results := by
      have sub := readEntries_keys ok
      rw [OrderedMap.keys_mapValues] at sub
      exact List.Pairwise.sublist sub inOrder
    rw [resultsInOrder.ofEntries_eq, Value.canonical, Value.canonical, Value.map.injEq]
  | .struct values, member, optional, path, typed, complete, carried, _ => by
    rw [Value.HasType] at typed
    obtain ⟨rfl, members, type, typed⟩ := typed
    simp only [Value.Every, type] at complete ⊢
    simp only [Carried, type] at carried
    have found := find_fields (valid.fields type) (length_fields typed) fun key _ =>
      OrderedMap.find?_ofEntries key (serde.serializeFields values members)
    rw [← fields_iff values members _ _ typed complete carried (find_form wire found), ← struct_restores valid type _ path]
    simp only [Arrives, serialize, type, wire.map]
  | .empty, _, _, _, _, complete, _, _ => complete.elim
  | .alternative index value, member, optional, path, typed, complete, carried, _ => by
    rw [Value.HasType] at typed
    obtain ⟨rfl, members, discriminator, alternative, type, place, typed⟩ := typed
    have inside := List.mem_of_getElem? place
    simp only [Value.Every, type, place] at complete ⊢
    simp only [Carried, type, place] at carried
    obtain ⟨routed, complete⟩ := complete
    have filled : (Value.alternative index value).fill serde.model member.target =
        .alternative index (value.fill serde.model alternative.target) := by
      simp only [Value.fill, type, place]
    cases unknown : alternative.jsonUnknown with
    | true =>
      -- The document of the unknown member is sent as it is.
      obtain ⟨doc, rfl, ⟨entries, rfl⟩, notChosen, first⟩ := routed members discriminator alternative type place unknown
      have written : serde.serialize (.alternative index (.document (.map entries))) member.target
          (serde.timestampFormat member) = .map entries := by
        simp only [serialize, type, place, unknown, if_true]
      have same : wire.form (.map entries) = .map entries := carried
      apply iff_of_true
      · rw [Arrives, written, same, deserializeInto_union valid type, readUnion, notChosen, first, filled]
        exact ⟨_, rfl, rfl⟩
      · refine ⟨?_, trivial⟩
        intro others other otherType otherPlace otherKnown
        cases type.symm.trans otherType
        cases place.symm.trans otherPlace
        cases unknown.symm.trans otherKnown
    | false =>
      cases discriminator with
      | none =>
        have notNull := serialize_isNull valid typed complete (serde.timestampFormat alternative)
        have written : serde.serialize (.alternative index value) member.target (serde.timestampFormat member) =
            .map [(serde.wireName alternative,
              serde.serialize value alternative.target (serde.timestampFormat alternative))] := by
          simp only [serialize, type, place, unknown, Bool.false_eq_true, if_false]
        rcases eq_or_ne (serde.wireName alternative) (ascii "__type") with hinted | unhinted
        · -- What is there is taken for a type hint.
          apply iff_of_false
          · rw [Arrives, written, filled, hinted, wire.map, OrderedMap.mapValues, List.map_singleton,
              deserializeInto_union valid type, readUnion, chosen_hinted]
            rintro ⟨restored, ok, same⟩
            cases first : members.findIdx? (·.jsonUnknown) with
            | none =>
              simp only [first] at ok
              split_ifs at ok
            | some other =>
              simp only [first] at ok
              cases ok
              cases (Value.alternative.inj same).1
              obtain ⟨bounded, isUnknown, _⟩ := List.findIdx?_eq_some_iff_getElem.mp first
              rw [List.getElem?_eq_getElem bounded, Option.some_inj] at place
              rw [place, unknown] at isUnknown
              cases isUnknown
          · rintro ⟨apart, _⟩
            exact apart members alternative type place unknown hinted
        · have choice := chosen_single (valid.tags type) place unknown unhinted ((wire.null _).trans notNull)
          have apart : serde.Unhinted (.alternative index value) member.target := by
            intro others other otherType otherPlace _
            cases type.symm.trans otherType
            cases place.symm.trans otherPlace
            exact unhinted
          rw [and_iff_right apart, ← arrives_iff value alternative false
            ((serde.model.shape member.target).typeName ++ ascii "." ++ serde.wireName alternative) typed complete carried
            (set_of_plain typed), Arrives, written, filled, wire.map, OrderedMap.mapValues, List.map_singleton,
            deserializeInto_union valid type, readUnion, choice]
          exact alternative_restores
      | some discriminator =>
        have apart : serde.Unhinted (.alternative index value) member.target := by
          intro others other otherType
          cases type.symm.trans otherType
        rw [and_iff_right apart, Arrives, filled]
        rcases serialize_alternative valid type inside unknown typed (serde.timestampFormat alternative) with
          ⟨rfl, same, unit⟩ | ⟨values, fields, rfl, struct, differs, same⟩
        · have found := find_insertOrAssign_self discriminator (.string (serde.wireName alternative)) []
          rw [← Document.find_map] at found
          have choice := chosen_discriminated (valid.tags type) place unknown (find_tag wire found)
          simp only [serialize, type, place, unknown, Bool.false_eq_true, if_false, wire.map]
          rw [deserializeInto_union valid type, readUnion, choice]
          simp only [deserializeInto, unit]
          exact iff_of_true ⟨_, rfl, rfl⟩ trivial
        · -- The members are found beside the discriminator, which is none of theirs.
          rw [Value.HasType] at typed
          obtain ⟨_, fields', struct', typed⟩ := typed
          cases struct.symm.trans struct'
          simp only [Value.Every, struct] at complete ⊢
          simp only [Carried, struct] at carried
          have written : serde.serialize (.alternative index (.struct values)) member.target (serde.timestampFormat member) =
              .map (DocumentMap.insertOrAssign discriminator (.string (serde.wireName alternative))
                (OrderedMap.ofEntries (serde.serializeFields values fields))) := by
            simp only [serialize, type, place, unknown, Bool.false_eq_true, if_false, struct]
          have tag := find_insertOrAssign_self discriminator (.string (serde.wireName alternative))
            (OrderedMap.ofEntries (serde.serializeFields values fields))
          rw [← Document.find_map] at tag
          have choice := chosen_discriminated (valid.tags type) place unknown (find_tag wire tag)
          have found := find_fields (valid.fields struct) (length_fields typed) fun key isField =>
            (find_insertOrAssign_of_ne (fun equal : key = discriminator => differs (equal ▸ isField))
              (.string (serde.wireName alternative)) _).trans
                (OrderedMap.find?_ofEntries key (serde.serializeFields values fields))
          rw [written, wire.map, deserializeInto_union valid type, readUnion, choice,
            ← fields_iff values fields _ _ typed complete carried (find_form wire found),
            ← struct_restores valid struct _
              ((serde.model.shape member.target).typeName ++ ascii "." ++ serde.wireName alternative)]
          exact alternative_restores
  | .boolean _, _, _, path, typed, _, carried, _ => iff_of_true (scalar_arrives valid rfl path typed carried) trivial
  | .byte _, _, _, path, typed, _, carried, _ => iff_of_true (scalar_arrives valid rfl path typed carried) trivial
  | .short _, _, _, path, typed, _, carried, _ => iff_of_true (scalar_arrives valid rfl path typed carried) trivial
  | .integer _, _, _, path, typed, _, carried, _ => iff_of_true (scalar_arrives valid rfl path typed carried) trivial
  | .long _, _, _, path, typed, _, carried, _ => iff_of_true (scalar_arrives valid rfl path typed carried) trivial
  | .float _, _, _, path, typed, _, carried, _ => iff_of_true (scalar_arrives valid rfl path typed carried) trivial
  | .double _, _, _, path, typed, _, carried, _ => iff_of_true (scalar_arrives valid rfl path typed carried) trivial
  | .string _, _, _, path, typed, _, carried, _ => iff_of_true (scalar_arrives valid rfl path typed carried) trivial
  | .enum _, _, _, path, typed, _, carried, _ => iff_of_true (scalar_arrives valid rfl path typed carried) trivial
  | .intEnum _, _, _, path, typed, _, carried, _ => iff_of_true (scalar_arrives valid rfl path typed carried) trivial
  | .blob _, _, _, path, typed, _, carried, _ => iff_of_true (scalar_arrives valid rfl path typed carried) trivial
  | .timestamp _, _, _, path, typed, _, carried, _ => iff_of_true (scalar_arrives valid rfl path typed carried) trivial
  | .document _, _, _, path, typed, _, carried, _ => iff_of_true (scalar_arrives valid rfl path typed carried) trivial
  | .unit, _, _, path, typed, _, carried, _ => iff_of_true (scalar_arrives valid rfl path typed carried) trivial

theorem items_iff : (items : List Value) → ∀ (member : Member Id) (sparse : Bool) (typeName : Bytes),
    Value.AllHaveType serde.model items ⟨member.target, sparse⟩ →
      Value.AllEvery serde.model serde.Complete items member.target →
        serde.AllCarried wire items member.target (serde.timestampFormat member) →
          ((∃ restored, serde.readItems serde.deserialize typeName member sparse
              ((serde.serializeItems items member.target (serde.timestampFormat member)).map wire.form) = .ok restored ∧
                Value.allCanonical restored = Value.allCanonical (Value.fillItems serde.model items member.target)) ↔
            Value.AllEvery serde.model serde.Unhinted items member.target)
  | [], _, _, _, _, _, _ => iff_of_true ⟨[], rfl, rfl⟩ trivial
  | item :: items, member, sparse, typeName, typed, complete, carried => by
    rw [Value.AllHaveType] at typed
    rw [Value.AllEvery] at complete
    rw [AllCarried] at carried
    rw [serializeItems, List.map_cons, readItems, Value.fillItems, Value.AllEvery, cons_restores,
      items_iff items member sparse typeName typed.2 complete.2 carried.2]
    apply and_congr_left
    intro _
    rw [readItem, wire.null]
    rcases eq_or_ne item .nullopt with rfl | set
    · have isSparse : sparse = true := typed.1
      rw [serialize, isSparse]
      exact iff_of_true ⟨_, rfl, rfl⟩ trivial
    · rw [if_neg (Bool.eq_false_iff.mp (serialize_element_isNull valid typed.1 complete.1 set _)), element_restores]
      exact arrives_iff item member sparse _ typed.1 complete.1 carried.1 set

theorem entries_iff : (entries : List (Bytes × Value)) → ∀ (member : Member Id) (sparse : Bool) (typeName : Bytes),
    Value.MembersHaveType serde.model entries ⟨member.target, sparse⟩ →
      Value.MembersEvery serde.model serde.Complete entries member.target →
        serde.EntriesCarried wire entries member.target (serde.timestampFormat member) →
          ((∃ restored, serde.readEntries serde.deserialize typeName member sparse
              (OrderedMap.mapValues wire.form
                (serde.serializeEntries entries member.target (serde.timestampFormat member))) = .ok restored ∧
                Value.membersCanonical restored =
                  Value.membersCanonical (Value.fillEntries serde.model entries member.target)) ↔
            Value.MembersEvery serde.model serde.Unhinted entries member.target)
  | [], _, _, _, _, _, _ => iff_of_true ⟨[], rfl, rfl⟩ trivial
  | (key, item) :: entries, member, sparse, typeName, typed, complete, carried => by
    rw [Value.MembersHaveType] at typed
    rw [Value.MembersEvery] at complete
    rw [EntriesCarried] at carried
    have rest := entries_iff entries member sparse typeName typed.2 complete.2 carried.2
    rw [serializeEntries, OrderedMap.mapValues, List.map_cons, ← OrderedMap.mapValues, readEntries, Value.fillEntries,
      Value.MembersEvery, wire.null]
    rcases eq_or_ne item .nullopt with rfl | set
    · have isSparse : sparse = true := typed.1
      have null : (serde.serialize .nullopt member.target (serde.timestampFormat member)).isNull = true := rfl
      rw [if_pos null]
      simp only [isSparse, if_true] at rest ⊢
      rw [Value.fill, null_entry_restores, rest]
      · exact iff_of_eq (true_and _).symm
      all_goals exact nofun
    · rw [if_neg (Bool.eq_false_iff.mp (serialize_element_isNull valid typed.1 complete.1 set _)), entry_restores, rest]
      exact and_congr_left fun _ => arrives_iff item member sparse _ typed.1 complete.1 carried.1 set

theorem fields_iff : (values : List Value) → ∀ (members : List (Member Id)) (container : Shape Id) (doc : Document),
    Value.FieldsHaveType serde.model values (members.map (serde.model.memberSlot container)) →
      Value.FieldsEvery serde.model serde.Complete values members → serde.FieldsCarried wire values members →
        List.Forall₂ (fun value member => doc.find (serde.wireName member) = (serde.field value member).map wire.form)
            values members →
          ((∃ restored, serde.readStruct serde.deserialize container doc members = .ok restored ∧
              Value.allCanonical restored = Value.allCanonical (Value.fillFields serde.model container values members)) ↔
            Value.FieldsEvery serde.model serde.Unhinted values members)
  | [], members, container, doc, typed, _, _, found => by
    cases found
    exact iff_of_true ⟨[], rfl, rfl⟩ trivial
  | value :: values, _, container, doc, typed, complete, carried, found => by
    cases found with
    | @cons _ member _ members here found =>
      rw [List.map_cons, Value.FieldsHaveType] at typed
      rw [Value.FieldsEvery] at complete
      rw [FieldsCarried] at carried
      have notNull (set : value ≠ .nullopt) :=
        serialize_element_isNull valid typed.1 complete.1 set (serde.timestampFormat member)
      rw [readStruct, fillFields_cons, Value.FieldsEvery, cons_restores, readMember_restores here typed.1 notNull,
        fields_iff values members container doc typed.2 complete.2 carried.2 found]
      apply and_congr_left
      intro _
      rcases eq_or_ne value .nullopt with rfl | set
      · exact iff_of_true (fun set => (set rfl).elim) trivial
      · rw [← arrives_iff value member _ _ typed.1 complete.1 carried.1 set]
        exact ⟨fun back => back set, fun back _ => back⟩

end

/-- A value of an aggregate is read from what a codec makes of its document exactly if no union in it is tagged with the
key of the type hint. -/
theorem deserialize_form_iff {id : Id} (aggregate : hasSerdeFunctions (serde.model.shape id).type = true)
    {value : Value} (typed : value.HasType serde.model ⟨id, false⟩) (complete : value.Every serde.model serde.Complete id)
    (carried : serde.Carried wire value id .epochSeconds) :
    (∃ restored, serde.deserialize (wire.form (serde.serialize value id .epochSeconds), id) = .ok restored ∧
        restored.canonical = (value.fill serde.model id).canonical) ↔ value.Every serde.model serde.Unhinted id := by
  obtain ⟨member, rfl, epoch⟩ : ∃ member : Member Id, member.target = id ∧ serde.timestampFormat member = .epochSeconds :=
    ⟨⟨id, [], [], none, false, false, none, some .epochSeconds, false⟩, rfl, rfl⟩
  have read (doc : Document) (path : Bytes) :
      serde.deserializeInto serde.deserialize member doc path = serde.deserialize (doc, member.target) := by
    cases type : (serde.model.shape member.target).type with
    | struct | union | list | map => simp only [deserializeInto, type]
    | _ =>
      rw [type] at aggregate
      cases aggregate
  rw [← arrives_iff valid value member false [] typed complete (epoch.symm ▸ carried) (set_of_plain typed), Arrives, read,
    epoch]
  exact Iff.rfl

/-- What is serialized of a value of an aggregate is read back as the value, with its NaNs and the unset defaults of
inputs aside, exactly if no union in it is tagged with the key of the type hint. -/
theorem deserialize_serialize_iff {id : Id} (aggregate : hasSerdeFunctions (serde.model.shape id).type = true)
    {value : Value} (typed : value.HasType serde.model ⟨id, false⟩) (complete : value.Every serde.model serde.Complete id) :
    (∃ restored, serde.deserialize (serde.serialize value id .epochSeconds, id) = .ok restored ∧
        restored.canonical = (value.fill serde.model id).canonical) ↔ value.Every serde.model serde.Unhinted id :=
  deserialize_form_iff valid aggregate typed complete (carried_plain value id .epochSeconds)

end RoundTrip

/-! ### A ticket -/

/-- A structure of inputs with a union and a note, one tag of which is the type hint's key by its JSON name. -/
inductive TicketId where
  | ticket | subject | text
deriving DecidableEq

def ticketShape : TicketId → Shape TicketId
  | .ticket =>
    { type := .struct [{ target := .subject, memberName := ascii "subject" },
        { target := .text, memberName := ascii "note", default := some (.literal (.string (ascii "none"))) }]
      typeName := ascii "Ticket"
      input := true }
  | .subject =>
    { type := .union [{ target := .text, memberName := ascii "text" },
        { target := .text, memberName := ascii "kind", jsonName := some (ascii "__type") }] none
      typeName := ascii "Subject" }
  | .text => { type := .string }

def ticketSerde : SerdeCodeGen TicketId where
  model :=
    { shape := ticketShape
      stringKeys := by
        rintro (_ | _ | _) key value sparse ⟨⟩
      grounded := Model.grounded_of_optional (by rintro (_ | _ | _) members ⟨⟩; decide) }

theorem ticketSerde_valid : ticketSerde.Valid where
  fields := by
    rintro (_ | _ | _) members ⟨⟩
    decide
  tags := by
    rintro (_ | _ | _) members discriminator ⟨⟩
    decide
  values := by
    rintro (_ | _ | _) values ⟨⟩
  alternatives := by
    rintro (_ | _ | _) members discriminator ⟨⟩

/-- A ticket whose subject is a text comes back, with its note. -/
theorem deserialize_serialize_iff_ticket :
    ∃ restored, ticketSerde.deserialize
        (ticketSerde.serialize (.struct [.engaged (.alternative 0 (.string (ascii "hello"))), .nullopt]) .ticket
          .epochSeconds, .ticket) = .ok restored ∧
      restored.canonical = .struct [.engaged (.alternative 0 (.string (ascii "hello"))),
        .engaged (.string (ascii "none"))] := by
  refine (@deserialize_serialize_iff _ _ ticketSerde_valid .ticket rfl _ ?_ ?_).mpr ?_
  · simp [Value.HasType, Value.FieldsHaveType, ticketSerde, ticketShape, Model.memberSlot, plain, populated, defaulted]
  · simp only [Value.Every, Value.FieldsEvery, ticketSerde, ticketShape, Complete]
    refine ⟨⟨?_, trivial⟩, trivial, trivial⟩
    rintro members discriminator member ⟨⟩ ⟨⟩ ⟨⟩
  · simp only [Value.Every, Value.FieldsEvery, ticketSerde, ticketShape, Unhinted]
    refine ⟨⟨?_, trivial⟩, trivial, trivial⟩
    rintro members member ⟨⟩ ⟨⟩ _
    decide

/-- A subject that is a kind is refused by its own deserializer. -/
theorem ticket_hinted :
    ticketSerde.Valid ∧ (Value.alternative 1 (.string (ascii "bug"))).HasType ticketSerde.model ⟨.subject, false⟩ ∧
      (Value.alternative 1 (.string (ascii "bug"))).Every ticketSerde.model ticketSerde.Complete .subject ∧
      ticketSerde.serialize (.alternative 1 (.string (ascii "bug"))) .subject .epochSeconds =
        .map [(ascii "__type", .string (ascii "bug"))] ∧
      ticketSerde.deserialize (.map [(ascii "__type", .string (ascii "bug"))], .subject) =
        .error (.Serialization "Subject: expected exactly one union member") := by
  refine ⟨ticketSerde_valid, ?_, ?_, rfl, rfl⟩
  · simp [Value.HasType, ticketSerde, ticketShape]
  · simp only [Value.Every, ticketSerde, ticketShape, Complete]
    refine ⟨?_, trivial⟩
    rintro members discriminator member ⟨⟩ ⟨⟩ ⟨⟩

end SerdeCodeGen

end OpalCpp.Typed

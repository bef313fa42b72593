import OpalCpp.Model.Codegen.Serde

/-! # What the generated deserializers descend to

A deserializer looks at documents inside of its own, and at its own only for the alternative of a
discriminated union, which is no union.
-/

namespace OpalCpp

open scoped Bytes

namespace Document

theorem depth_le_allDepth {item : Document} {items : List Document} (member : item ∈ items) :
    item.depth ≤ allDepth items := by
  induction items with
  | nil => cases member
  | cons first items ih =>
    rw [allDepth]
    obtain rfl | later := List.mem_cons.mp member
    · exact le_max_left _ _
    · exact le_trans (ih later) (le_max_right _ _)

theorem depth_le_membersDepth {key : Bytes} {value : Document} {members : DocumentMap} (member : (key, value) ∈ members) :
    value.depth ≤ membersDepth members := by
  induction members with
  | nil => cases member
  | cons first members ih =>
    obtain ⟨other, document⟩ := first
    rw [membersDepth]
    obtain ⟨rfl, rfl⟩ | later := List.mem_cons.mp member
    · exact le_max_left _ _
    · exact le_trans (ih later) (le_max_right _ _)

theorem find_map (key : Bytes) (members : DocumentMap) : (Document.map members).find key = OrderedMap.find? key members :=
  OrderedMap.lookup_eq_find? key members

/-- What is found in a document is less deep. -/
theorem depth_find {doc found : Document} {key : Bytes} (inside : doc.find key = some found) : found.depth < doc.depth := by
  cases doc with
  | map members =>
    rw [find_map] at inside
    rw [Document.depth]
    exact Nat.lt_succ_of_le (depth_le_membersDepth (OrderedMap.mem_of_find? inside))
  | _ => cases inside

end Document

namespace Typed.SerdeCodeGen

variable {Id : Type*} (serde : SerdeCodeGen Id)

/-- What is checked of a model before code is generated for it, with the wire names of a shape apart, and from
the discriminator. -/
structure Valid : Prop where
  fields : ∀ {id members}, (serde.model.shape id).type = .struct members → (members.map serde.wireName).Nodup
  tags : ∀ {id members discriminator}, (serde.model.shape id).type = .union members discriminator →
    (members.map serde.wireName).Nodup
  values : ∀ {id values}, (serde.model.shape id).type = .enum values → values.Nodup
  alternatives : ∀ {id members discriminator}, (serde.model.shape id).type = .union members (some discriminator) →
    ∀ member ∈ members, member.jsonUnknown = false →
      (serde.model.shape member.target).type = .unit ∨
        ∃ fields, (serde.model.shape member.target).type = .struct fields ∧ discriminator ∉ fields.map serde.wireName

variable {serde}

theorem present_eq_some {doc found : Document} {key : Bytes} (inside : present doc key = some found) :
    doc.find key = some found ∧ found.isNull = false := by
  rw [present, Option.filter_eq_some_iff] at inside
  exact ⟨inside.1, Bool.not_eq_true' _ |>.mp inside.2⟩

section Congruence

variable {first second : Document × Id → Outcome Value}

theorem deserializeInto_congr {member : Member Id} {doc : Document}
    (same : first (doc, member.target) = second (doc, member.target)) (path : Bytes) :
    serde.deserializeInto first member doc path = serde.deserializeInto second member doc path := by
  simp only [deserializeInto, same]

theorem readStruct_congr {container : Shape Id} {doc : Document}
    (same : ∀ inside : Document, inside.depth < doc.depth → ∀ id, first (inside, id) = second (inside, id))
    (members : List (Member Id)) :
    serde.readStruct first container doc members = serde.readStruct second container doc members := by
  induction members with
  | nil => rfl
  | cons member members ih =>
    have field : serde.readMember first container doc member = serde.readMember second container doc member := by
      rw [readMember, readMember]
      cases found : present doc (serde.wireName member) with
      | none => rfl
      | some inside =>
        have less := Document.depth_find (present_eq_some found).1
        simp only [deserializeInto_congr (same inside less member.target)]
    rw [readStruct, readStruct, field, ih]

theorem readItems_congr {member : Member Id} {items : List Document}
    (same : ∀ item ∈ items, ∀ id, first (item, id) = second (item, id)) (typeName : Bytes) (sparse : Bool) :
    serde.readItems first typeName member sparse items = serde.readItems second typeName member sparse items := by
  induction items with
  | nil => rfl
  | cons item items ih =>
    obtain ⟨head, rest⟩ := List.forall_mem_cons.mp same
    rw [readItems, readItems, ih rest]
    simp only [readItem, deserializeInto_congr (head member.target)]

theorem readEntries_congr {member : Member Id} {entries : DocumentMap}
    (same : ∀ entry ∈ entries, ∀ id, first (entry.2, id) = second (entry.2, id)) (typeName : Bytes) (sparse : Bool) :
    serde.readEntries first typeName member sparse entries = serde.readEntries second typeName member sparse entries := by
  induction entries with
  | nil => rfl
  | cons entry entries ih =>
    obtain ⟨head, rest⟩ := List.forall_mem_cons.mp same
    rw [readEntries, readEntries, ih rest]
    simp only [deserializeInto_congr (head member.target)]

theorem mem_known {members : List (Member Id)} {member : Member Id} {index : ℕ} (isKnown : (member, index) ∈ known members) :
    members[index]? = some member ∧ member.jsonUnknown = false := by
  rw [known, List.mem_filter, List.mem_zipIdx_iff_getElem?] at isKnown
  exact ⟨isKnown.1, Bool.not_eq_true' _ |>.mp isKnown.2⟩

/-- A union's deserializer reads a member of the union, from a document inside or, by the discriminator, from its
own. -/
theorem chosen_eq_some {members : List (Member Id)} {discriminator : Option Bytes} {doc found : Document}
    {member : Member Id} {index : ℕ} (chosen : serde.chosen members discriminator doc = some (member, index, found)) :
    members[index]? = some member ∧ member.jsonUnknown = false ∧
      (found.depth < doc.depth ∨ found = doc ∧ discriminator.isSome = true) := by
  cases discriminator with
  | none =>
    rw [SerdeCodeGen.chosen] at chosen
    split_ifs at chosen
    rw [tagged, List.findSome?_eq_some_iff] at chosen
    obtain ⟨_, entry, _, same, inside, _⟩ := chosen
    obtain ⟨document, there, rfl, rfl, rfl⟩ : ∃ document, present doc (serde.wireName entry.1) = some document ∧
        entry.1 = member ∧ entry.2 = index ∧ document = found := by
      simpa using inside
    obtain ⟨place, isKnown⟩ := @mem_known _ members _ _ (same ▸ List.mem_append_right _ List.mem_cons_self)
    exact ⟨place, isKnown, .inl (Document.depth_find (present_eq_some there).1)⟩
  | some discriminator =>
    rw [SerdeCodeGen.chosen] at chosen
    obtain ⟨entry, named, same⟩ := Option.map_eq_some_iff.mp chosen
    cases same
    rw [SerdeCodeGen.discriminated] at named
    split at named
    · obtain ⟨place, isKnown⟩ := mem_known (List.mem_of_find?_eq_some named)
      exact ⟨place, isKnown, .inr ⟨rfl, rfl⟩⟩
    · cases named

end Congruence

theorem deserializeStep_local (valid : serde.Valid) : Descent.Local serde.deserializeStep serde.readingDepth := by
  rintro first second ⟨doc, id⟩ same
  have inside : ∀ found : Document, found.depth < doc.depth → ∀ other, first (found, other) = second (found, other) := by
    intro found less other
    apply same
    simp only [readingDepth]
    split_ifs <;> omega
  simp only [deserializeStep]
  split
  · rw [readStruct_congr inside]
  · rename_i members discriminator entries type
    rw [readUnion, readUnion]
    cases chosen : serde.chosen members discriminator (.map entries) with
    | none => rfl
    | some choice =>
      obtain ⟨member, index, found⟩ := choice
      obtain ⟨place, isKnown, less | ⟨rfl, isSome⟩⟩ := chosen_eq_some chosen
      · simp only [deserializeInto_congr (inside found less member.target)]
      · -- The alternative of a discriminated union is read from the union's own document.
        obtain ⟨discriminator, rfl⟩ := Option.isSome_iff_exists.mp isSome
        have plain : isUnion (serde.model.shape member.target).type = false := by
          rcases valid.alternatives type member (List.mem_of_getElem? place) isKnown with unit | ⟨_, struct, _⟩
          · rw [unit]
            rfl
          · rw [struct]
            rfl
        have less : serde.readingDepth (.map entries, member.target) < serde.readingDepth (.map entries, id) := by
          rw [readingDepth, readingDepth, type, plain]
          exact Nat.lt_succ_self _
        simp only [deserializeInto_congr (same _ less)]
  · rename_i items _ _
    rw [readItems_congr fun item member other => inside item (Nat.lt_succ_of_le (Document.depth_le_allDepth member)) other]
  · rw [readEntries_congr fun entry member other =>
      inside entry.2 (Nat.lt_succ_of_le (Document.depth_le_membersDepth member)) other]
  · rfl
  · rfl

/-- The deserializers by what each does, with the others at hand. -/
theorem deserialize_eq (valid : serde.Valid) (doc : Document) (id : Id) :
    serde.deserialize (doc, id) = serde.deserializeStep serde.deserialize (doc, id) :=
  (deserializeStep_local valid).run_eq (doc, id)

end Typed.SerdeCodeGen

end OpalCpp

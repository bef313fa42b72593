import OpalCpp.Model.Codegen.UnionClasses

/-! # The names in the class of a union

The check on the factories keeps the stems of the accessors apart, and with them all of their names but
`as_<x>_or_null`, which is the `as_<y>` of a stem that ends the same way.
-/

namespace OpalCpp.Codegen

open Bytes (ascii)

/-! ## The check -/

theorem lookup_none_iff (owner : List (Bytes × Bytes)) (folded : Bytes) :
    owner.lookup folded = none ↔ folded ∉ owner.map Prod.fst := by
  rw [List.lookup_eq_none_iff, List.mem_map]
  push Not
  simp only [bne_iff_ne, ne_comm]

/-- The check passes if the names are apart from each other, from those owned and from the reserved ones. -/
theorem requireDistinctNames_ok_iff {kind shapeId : Bytes} {reserved : List Bytes} (folded owner : List (Bytes × Bytes)) :
    requireDistinctNames kind shapeId reserved folded owner = .ok () ↔
      (folded.map Prod.snd).Nodup ∧ ∀ name ∈ folded.map Prod.snd, name ∉ reserved ∧ name ∉ owner.map Prod.fst := by
  induction folded generalizing owner with
  | nil => simp [requireDistinctNames]
  | cons entry rest ih =>
    obtain ⟨member, name⟩ := entry
    rw [requireDistinctNames]
    by_cases taken : name ∈ reserved
    · simp [taken]
    · rw [if_neg taken]
      cases found : owner.lookup name with
      | some prior =>
        have owned : name ∈ owner.map Prod.fst := by
          by_contra free
          rw [(lookup_none_iff owner name).mpr free] at found
          cases found
        simp only [reduceCtorEq, List.map_cons, List.mem_cons, forall_eq_or_imp, owned, not_true_eq_false, and_false,
          false_and]
      | none =>
        have free := (lookup_none_iff owner name).mp found
        simp only [ih, List.map_cons, List.nodup_cons, List.mem_cons, forall_eq_or_imp, taken, free, not_false_eq_true,
          true_and, not_or]
        constructor
        · rintro ⟨apart, others⟩
          exact ⟨⟨fun member => (others name member).2.1 rfl, apart⟩,
            fun other member => ⟨(others other member).1, (others other member).2.2⟩⟩
        · rintro ⟨⟨fresh, apart⟩, others⟩
          exact ⟨apart, fun other member =>
            ⟨(others other member).1, fun same => fresh (same ▸ member), (others other member).2⟩⟩

/-! ## The names -/

section Names

variable {toPascalCase : Bytes → Bytes}

/-- The names that belong to one member. -/
def accessors (toPascalCase : Bytes → Bytes) (memberName : Bytes) : List Bytes :=
  [ascii "From" ++ toPascalCase memberName, ascii "is_" ++ memberName, ascii "as_" ++ memberName,
    ascii "as_" ++ memberName ++ ascii "_or_null"]

def fixedNames : List Bytes :=
  [ascii "empty", ascii "case_name", ascii "visit", ascii "AppendDebugTo", ascii "DebugString", ascii "require_is",
    ascii "value_"]

theorem emitTaggedVariant_eq (members : List Bytes) :
    emitTaggedVariant toPascalCase members true = members.flatMap (accessors toPascalCase) ++ fixedNames := rfl

/-- The first letters tell the kinds of names apart, but for the two that start with `as_`. -/
theorem accessors_nodup (memberName : Bytes) : (accessors toPascalCase memberName).Nodup := by
  simp +decide [accessors, ascii]

theorem fixedNames_nodup : fixedNames.Nodup := by decide

theorem accessors_fixed (memberName : Bytes) : List.Disjoint (accessors toPascalCase memberName) fixedNames := by
  have letters : ∀ name ∈ accessors toPascalCase memberName,
      name.head? ∈ ['F', 'i', 'a'].map (some ∘ Char.toUInt8) := by
    simp +decide [accessors, ascii]
  have others : ∀ name ∈ fixedNames, name.head? ∉ ['F', 'i', 'a'].map (some ∘ Char.toUInt8) := by decide
  exact fun name own fixed => others name fixed (letters name own)

/-- One name is the other followed by `_or_null`. -/
def OrNull (first second : Bytes) : Prop := first = second ++ ascii "_or_null"

theorem accessors_disjoint_iff {first second : Bytes} (factories : toPascalCase first ≠ toPascalCase second) :
    List.Disjoint (accessors toPascalCase first) (accessors toPascalCase second) ↔
      ¬ OrNull first second ∧ ¬ OrNull second first := by
  have apart : first ≠ second := fun same => factories (congrArg toPascalCase same)
  rw [and_comm]
  simp +decide [accessors, OrNull, ascii, factories, apart, eq_comm]

theorem not_orNull_self (name : Bytes) : ¬ OrNull name name := by
  intro same
  have lengths := congrArg List.length same
  simp [ascii] at lengths

/-- Of stems that the check has kept apart the names are the same only by `_or_null`. -/
theorem emitTaggedVariant_nodup_iff {stems : List Bytes} (factories : (stems.map toPascalCase).Nodup) :
    (emitTaggedVariant toPascalCase stems true).Nodup ↔ ∀ first ∈ stems, ∀ second ∈ stems, ¬ OrNull first second := by
  have apart : stems.Pairwise fun first second => toPascalCase first ≠ toPascalCase second :=
    List.pairwise_map.mp factories
  have fixed : List.Disjoint (stems.flatMap (accessors toPascalCase)) fixedNames := by
    intro name own
    obtain ⟨stem, -, own⟩ := List.mem_flatMap.mp own
    exact accessors_fixed stem own
  rw [emitTaggedVariant_eq, List.nodup_append', and_iff_right fixedNames_nodup, and_iff_left fixed, List.nodup_flatMap,
    and_iff_right fun stem _ => accessors_nodup stem]
  constructor
  · intro disjoint
    have names := List.Pairwise.imp₂ (fun _ _ names factories => (accessors_disjoint_iff factories).mp names) disjoint apart
    exact List.Pairwise.forall_of_forall_of_flip (fun stem _ => not_orNull_self stem) (names.imp And.left)
      (names.imp And.right)
  · intro names
    exact apart.imp_of_mem fun member member' factories =>
      (accessors_disjoint_iff factories).mpr ⟨names _ member _ member', names _ member' _ member⟩

end Names

/-! ## Classes -/

section Classes

variable {toPascalCase : Bytes → Bytes} {shape : UnionShape} {names : List Bytes}

theorem generateUnion_ok_iff : generateUnion toPascalCase shape = .ok names ↔
    ((shape.members.map toMemberName).map toPascalCase).Nodup ∧
      names = emitTaggedVariant toPascalCase (shape.members.map toMemberName) true := by
  rw [generateUnion]
  generalize folded : (shape.members.map fun member => (member, ascii "From" ++ toPascalCase (toMemberName member))) =
    entries
  have factories : (entries.map Prod.snd).Nodup ↔ ((shape.members.map toMemberName).map toPascalCase).Nodup := by
    have prefixed : entries.map Prod.snd = ((shape.members.map toMemberName).map toPascalCase).map (ascii "From" ++ ·) := by
      rw [← folded]
      simp only [List.map_map, Function.comp_def]
    rw [prefixed, List.nodup_map_iff (List.append_right_injective _)]
  have check := @requireDistinctNames_ok_iff (ascii "union") shape.id [] entries []
  simp only [List.not_mem_nil, not_false_eq_true, List.map_nil, and_self, implies_true, and_true, factories] at check
  rw [← check]
  cases checked : requireDistinctNames (ascii "union") shape.id [] entries [] with
  | error message => simp [bind, Except.bind]
  | ok passed => simp [bind, Except.bind, pure, Except.pure, eq_comm]

/-- The class that is generated has no two members of one name exactly if no stem is another one followed by
`_or_null`. -/
theorem generateUnion_nodup_iff (toPascalCase : Bytes → Bytes) (shape : UnionShape) (names : List Bytes)
    (generated : generateUnion toPascalCase shape = .ok names) :
    names.Nodup ↔ ∀ first ∈ shape.members, ∀ second ∈ shape.members,
      toMemberName first ≠ toMemberName second ++ ascii "_or_null" := by
  obtain ⟨factories, rfl⟩ := generateUnion_ok_iff.mp generated
  rw [emitTaggedVariant_nodup_iff factories]
  simp only [List.forall_mem_map, OrNull, ne_eq]

/-- A union of three members, the name of one of which is a keyword. -/
theorem generateUnion_nodup_keyword :
    let toPascalCase : Bytes → Bytes := fun name =>
      if name = ascii "class_" then ascii "Class" else if name = ascii "file" then ascii "File" else ascii "OrNull"
    let shape : UnionShape := ⟨ascii "ns#U", [ascii "class", ascii "file", ascii "or_null"], by decide⟩
    ∃ names, generateUnion toPascalCase shape = .ok names ∧ [ascii "FromClass", ascii "as_class_"] ⊆ names ∧
      names.Nodup := by
  intro toPascalCase shape
  have generated : generateUnion toPascalCase shape =
      .ok (emitTaggedVariant toPascalCase (shape.members.map toMemberName) true) := rfl
  exact ⟨_, generated, by decide, (generateUnion_nodup_iff toPascalCase shape _ generated).mpr (by decide)⟩

/-- `as_foo_or_null` is the accessor of one member, and of the other what may be null. -/
theorem generateUnion_or_null :
    let toPascalCase : Bytes → Bytes := fun name => if name = ascii "foo" then ascii "Foo" else ascii "FooOrNull"
    let shape : UnionShape := ⟨ascii "ns#U", [ascii "foo", ascii "foo_or_null"], by decide⟩
    ∃ names, generateUnion toPascalCase shape = .ok names ∧ names.count (ascii "as_foo_or_null") = 2 ∧ ¬ names.Nodup := by
  refine ⟨_, rfl, by decide, by decide⟩

end Classes

end OpalCpp.Codegen

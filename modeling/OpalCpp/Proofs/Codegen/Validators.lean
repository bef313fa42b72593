import OpalCpp.Model.Codegen.Validators
import OpalCpp.Proofs.Codegen.ByValue
import OpalCpp.Proofs.Codegen.ConstraintInputs
import OpalCpp.Proofs.Codegen.ConstraintRoots

/-! # Emitted validators fit together

A validator is called after it was declared or defined, and it is emitted. Its argument has the type of its shape but for
a boxed member, which the serializers unwrap and the validators do not.
-/

namespace OpalCpp.Codegen

open OpalCpp.Digraph

namespace CppContext

variable {Id : Type} [DecidableEq Id] {context : CppContext Id} {recursion : Components Id} {constrained : Finset Id}
  {inputs : List Id}

/-- What the walk over the service reaches: the inputs of its operations, which are structures, and the targets of all
members. `smithy.api#Unit` has no members. -/
structure Walked (context : CppContext Id) (inputs : List Id) : Prop where
  known : context.closure ⊆ context.model.ids
  inputs : ∀ input ∈ inputs, input ∈ context.closure ∧ (context.model.shape input).isStructureShape = true
  closed : ∀ id ∈ context.closure, ∀ member ∈ (context.model.shape id).members, member.target ∈ context.closure
  unit : (context.model.shape context.unit).members = []

/-- The two lists of the topological index: a shape on no cycle comes after those on no cycle that it references, and the
shapes on cycles come apart. -/
structure Topological (context : CppContext Id) : Prop where
  ordered : ∀ id ∈ context.model.ids, id ∈ context.getOrderedShapes ↔ ¬OnCycle (Next context.model) id
  recursive : ∀ id ∈ context.model.ids, id ∈ context.getRecursiveShapes ↔ OnCycle (Next context.model) id
  after : ∀ before shape rest, context.getOrderedShapes = before ++ shape :: rest →
    ∀ other, Next context.model shape other → ¬OnCycle (Next context.model) other → other ∈ before

/-- Every validator that is called in another is emitted, is declared or defined before, and gets a value of the type of
its shape; so does every serializer that is called in another. -/
def Fits [LE Id] [DecidableLE Id] (context : CppContext Id) (recursion : Components Id) (constrained : Finset Id) : Prop :=
  (∀ before shape calls rest, context.writeValidators recursion constrained = before ++ .definition shape calls :: rest →
    ∀ call ∈ calls, (.declaration call.callee ∈ before ∨ ∃ body, .definition call.callee body ∈ before) ∧
      (∃ body, .definition call.callee body ∈ context.writeValidators recursion constrained) ∧
      context.typeOf recursion shape call.argument = some (.ofShape call.callee)) ∧
    ∀ shape ∈ context.serdeShapes, ∀ call ∈ context.writeSerializer recursion shape,
      context.typeOf recursion shape call.argument = some (.ofShape call.callee)

/-! ## Arguments -/

section Arguments

variable {shape : Id} {member : MemberShape Id} {place : ℕ} {call : ShapeCall Id}

theorem isBoxed_of_not_structure (other : (context.model.shape shape).isStructureShape = false) :
    recursion.isBoxed context.model shape member = false := by
  rw [Components.isBoxed, other, Bool.and_false, Bool.false_and]

/-- The field of a member without its optional wrapper is the target's value, or a box with it. -/
theorem typeOf_field (isStructure : (context.model.shape shape).isStructureShape = true)
    (at_ : (context.iteration.members shape)[place]? = some member) :
    context.typeOf recursion shape (if !context.plain shape place then .deref (.field place) else .field place) =
      some (if recursion.isBoxed context.model shape member then .boxed (.ofShape member.target)
        else .ofShape member.target) := by
  cases plain : context.plain shape place <;> cases boxed : recursion.isBoxed context.model shape member <;>
    simp [typeOf, isStructure, at_, toMemberSymbol, plain, boxed]

theorem typeOf_alternative (isUnion : (context.model.shape shape).isUnionShape = true)
    (at_ : (context.iteration.members shape)[place]? = some member) :
    context.typeOf recursion shape (.alternative place) = some (.ofShape member.target) := by
  simp [typeOf, isUnion, at_]

/-- The elements of a list and the values of a map, without the optional wrapper that sparse ones have. -/
theorem typeOf_item (isItem : (context.model.shape shape).kind = .listShape member ∨
    ∃ key, (context.model.shape shape).kind = .mapShape key member) :
    context.typeOf recursion shape (if context.sparse shape then .deref .element else .element) =
      some (.ofShape member.target) := by
  rcases isItem with kind | ⟨key, kind⟩ <;> cases sparse : context.sparse shape <;> simp [typeOf, kind, elementSymbol,
    sparse]

theorem mem_writeRecursion {argument : CppExpr} : call ∈ writeRecursion constrained member argument ↔
    member.target ∈ constrained ∧ call = ⟨member.target, argument⟩ := by
  rw [writeRecursion]
  split_ifs with constrained
  · rw [List.mem_singleton]
    exact ⟨fun same => ⟨constrained, same⟩, And.right⟩
  · exact ⟨fun member => absurd member List.not_mem_nil, fun both => absurd both.1 constrained⟩

/-- A member with a validator has its value checked, which calls it. -/
theorem mem_writeStructureMemberChecks : call ∈ context.writeStructureMemberChecks constrained shape place member ↔
    member.target ∈ constrained ∧ call = ⟨member.target,
      if (context.model.shape shape).isUnionShape then .alternative place
      else if !context.plain shape place then .deref (.field place)
      else .field place⟩ := by
  rw [writeStructureMemberChecks]
  dsimp only
  by_cases validated : member.target ∈ constrained
  · rw [decide_eq_true validated, Bool.or_true, Bool.not_true, if_neg Bool.false_ne_true]
    exact mem_writeRecursion
  · refine iff_of_false (fun called => ?_) fun both => validated both.1
    by_cases skipped : (!(memberHasConstraints context.model member || decide (member.target ∈ constrained))) = true
    · rw [if_pos skipped] at called
      exact absurd called List.not_mem_nil
    · rw [if_neg skipped] at called
      exact validated (mem_writeRecursion.mp called).1

omit [DecidableEq Id] in
theorem mem_of_getElem? (at_ : (context.iteration.members shape)[place]? = some member) :
    member ∈ (context.model.shape shape).members :=
  (context.iteration.each shape).mem_iff.mp (List.mem_of_getElem? at_)

/-- What a validator calls: for each of its members with a validator that one, with the value, or with a box. -/
theorem of_mem_writeValidator (called : call ∈ context.writeValidator constrained shape) :
    ∃ member ∈ (context.model.shape shape).members, member.target = call.callee ∧ call.callee ∈ constrained ∧
      context.typeOf recursion shape call.argument =
        some (if recursion.isBoxed context.model shape member then .boxed (.ofShape call.callee)
          else .ofShape call.callee) := by
  rw [writeValidator] at called
  cases kind : (context.model.shape shape).kind with
  | structureShape members =>
    have isStructure : (context.model.shape shape).isStructureShape = true := by rw [Shape.isStructureShape, kind]
    have notUnion : (context.model.shape shape).isUnionShape = false := by rw [Shape.isUnionShape, kind]
    rw [kind] at called
    obtain ⟨⟨member, place⟩, listed, called⟩ := List.mem_flatMap.mp called
    rw [List.mem_zipIdx_iff_getElem?] at listed
    obtain ⟨validated, rfl⟩ := mem_writeStructureMemberChecks.mp called
    rw [notUnion]
    exact ⟨member, mem_of_getElem? listed, rfl, validated, typeOf_field isStructure listed⟩
  | unionShape members =>
    have isUnion : (context.model.shape shape).isUnionShape = true := by rw [Shape.isUnionShape, kind]
    rw [kind] at called
    obtain ⟨⟨member, place⟩, listed, called⟩ := List.mem_flatMap.mp called
    rw [List.mem_zipIdx_iff_getElem?] at listed
    obtain ⟨validated, rfl⟩ := mem_writeStructureMemberChecks.mp called
    refine ⟨member, mem_of_getElem? listed, rfl, validated, ?_⟩
    rw [isUnion, if_pos rfl, typeOf_alternative isUnion listed,
      isBoxed_of_not_structure (by rw [Shape.isStructureShape, kind])]
    rfl
  | listShape member =>
    rw [kind] at called
    obtain ⟨validated, rfl⟩ := mem_writeRecursion.mp called
    refine ⟨member, by rw [Shape.members, kind]; exact List.mem_singleton_self member, rfl, validated, ?_⟩
    rw [typeOf_item (.inl kind), isBoxed_of_not_structure (by rw [Shape.isStructureShape, kind])]
    rfl
  | mapShape key member =>
    rw [kind] at called
    obtain ⟨validated, rfl⟩ := mem_writeRecursion.mp called
    have inside : member ∈ (context.model.shape shape).members := by
      rw [Shape.members, kind]
      exact List.mem_cons_of_mem _ (List.mem_singleton_self member)
    refine ⟨member, inside, rfl, validated, ?_⟩
    rw [typeOf_item (.inr ⟨key, kind⟩), isBoxed_of_not_structure (by rw [Shape.isStructureShape, kind])]
    rfl
  | _ =>
    rw [kind] at called
    exact absurd called List.not_mem_nil

/-- It calls the validator of every member of a structure that has one. -/
theorem exists_mem_writeValidator (isStructure : (context.model.shape shape).isStructureShape = true)
    (isMember : member ∈ (context.model.shape shape).members) (validated : member.target ∈ constrained) :
    ∃ call ∈ context.writeValidator constrained shape, call.callee = member.target ∧
      context.typeOf recursion shape call.argument =
        some (if recursion.isBoxed context.model shape member then .boxed (.ofShape member.target)
          else .ofShape member.target) := by
  obtain ⟨place, listed⟩ := List.mem_iff_getElem?.mp ((context.iteration.each shape).mem_iff.mpr isMember)
  refine ⟨⟨member.target, if !context.plain shape place then .deref (.field place) else .field place⟩, ?_, rfl,
    typeOf_field isStructure listed⟩
  rw [Shape.isStructureShape] at isStructure
  rw [writeValidator]
  cases kind : (context.model.shape shape).kind with
  | structureShape members =>
    have notUnion : (context.model.shape shape).isUnionShape = false := by rw [Shape.isUnionShape, kind]
    refine List.mem_flatMap.mpr ⟨(member, place), List.mem_zipIdx_iff_getElem?.mpr listed, ?_⟩
    refine mem_writeStructureMemberChecks.mpr ⟨validated, ?_⟩
    rw [notUnion]
    rfl
  | _ => simp [kind] at isStructure

/-- The call in `serializeExpression` unwraps the box of a member. -/
theorem of_mem_serializeExpression {argument : CppExpr}
    (called : call ∈ context.serializeExpression recursion shape member argument)
    (type : context.typeOf recursion shape argument =
      some (if recursion.isBoxed context.model shape member then .boxed (.ofShape member.target)
        else .ofShape member.target)) :
    context.typeOf recursion shape call.argument = some (.ofShape call.callee) := by
  rw [serializeExpression] at called
  split_ifs at called with isUnit aggregate boxed
  · exact absurd called List.not_mem_nil
  · rw [if_pos boxed] at type
    rw [List.mem_singleton.mp called, typeOf, type]
  · rw [if_neg boxed] at type
    rw [List.mem_singleton.mp called]
    exact type
  · exact absurd called List.not_mem_nil

/-- A serializer is called with the value. -/
theorem typeOf_serializer (called : call ∈ context.writeSerializer recursion shape) :
    context.typeOf recursion shape call.argument = some (.ofShape call.callee) := by
  rw [writeSerializer] at called
  cases kind : (context.model.shape shape).kind with
  | structureShape members =>
    have isStructure : (context.model.shape shape).isStructureShape = true := by rw [Shape.isStructureShape, kind]
    rw [kind] at called
    obtain ⟨⟨member, place⟩, listed, called⟩ := List.mem_flatMap.mp called
    rw [List.mem_zipIdx_iff_getElem?] at listed
    have type := @typeOf_field _ _ context recursion _ _ _ isStructure listed
    cases plain : context.plain shape place
    · simp only [writeMemberSerialize, plain, Bool.false_eq_true, if_false] at called
      simp only [plain, Bool.not_false, if_true] at type
      exact of_mem_serializeExpression called type
    · simp only [writeMemberSerialize, plain, if_true] at called
      simp only [plain, Bool.not_true, Bool.false_eq_true, if_false] at type
      exact of_mem_serializeExpression called type
  | unionShape members =>
    have isUnion : (context.model.shape shape).isUnionShape = true := by rw [Shape.isUnionShape, kind]
    rw [kind] at called
    obtain ⟨⟨member, place⟩, listed, called⟩ := List.mem_flatMap.mp called
    rw [List.mem_zipIdx_iff_getElem?] at listed
    dsimp only at called
    split_ifs at called
    · exact absurd called List.not_mem_nil
    · refine of_mem_serializeExpression called ?_
      rw [typeOf_alternative isUnion listed, isBoxed_of_not_structure (by rw [Shape.isStructureShape, kind])]
      rfl
  | listShape member =>
    rw [kind] at called
    refine of_mem_serializeExpression called ?_
    rw [typeOf_item (.inl kind), isBoxed_of_not_structure (by rw [Shape.isStructureShape, kind])]
    rfl
  | mapShape key member =>
    rw [kind] at called
    refine of_mem_serializeExpression called ?_
    rw [typeOf_item (.inr ⟨key, kind⟩), isBoxed_of_not_structure (by rw [Shape.isStructureShape, kind])]
    rfl
  | _ =>
    rw [kind] at called
    exact absurd called List.not_mem_nil

end Arguments

/-! ## Order -/

section Order

omit [DecidableEq Id] in
/-- What is in the second of two lists comes after all of the first. -/
theorem split_right {α : Type*} {a : α} {first second before rest : List α} (notMem : a ∉ first)
    (split : first ++ second = before ++ a :: rest) :
    ∃ between, before = first ++ between ∧ second = between ++ a :: rest := by
  rcases List.append_eq_append_iff.mp split with ⟨between, same, tail⟩ | ⟨between, same, tail⟩
  · exact ⟨between, same, tail⟩
  · cases between with
    | nil =>
      rw [List.append_nil] at same
      exact ⟨[], by rw [same, List.append_nil], tail.symm⟩
    | cons head between =>
      cases tail
      exact absurd (same ▸ List.mem_append_right _ List.mem_cons_self) notMem

omit [DecidableEq Id] in
theorem split_left {α : Type*} {a : α} {first second before rest : List α} (notMem : a ∉ second)
    (split : first ++ second = before ++ a :: rest) : ∃ between, first = before ++ a :: between := by
  rcases List.append_eq_append_iff.mp split with ⟨between, same, tail⟩ | ⟨between, same, tail⟩
  · exact absurd (tail ▸ List.mem_append_right _ List.mem_cons_self) notMem
  · cases between with
    | nil =>
      rw [List.nil_append] at tail
      exact absurd (tail ▸ List.mem_cons_self) notMem
    | cons head between =>
      cases tail
      exact ⟨between, same⟩

omit [DecidableEq Id] in
theorem split_filter {α : Type*} {a : α} {p : α → Bool} {list before rest : List α}
    (split : list.filter p = before ++ a :: rest) :
    ∃ before' rest', list = before' ++ a :: rest' ∧ before'.filter p = before := by
  obtain ⟨front, back, rfl, rfl, found⟩ := List.filter_eq_append_iff.mp split
  obtain ⟨skipped, back, rfl, none_, -, -⟩ := List.filter_eq_cons_iff.mp found
  refine ⟨front ++ skipped, back, (List.append_assoc _ _ _).symm, ?_⟩
  rw [List.filter_append, List.filter_eq_nil_iff.mpr none_, List.append_nil]

variable {shape callee : Id}

/-- A shape with a validator is one with serde functions. -/
theorem serdeShape_of_constrained (walked : Walked context inputs)
    (collected : collectInputs context.model context.iteration.members inputs = some constrained)
    (needed : ∀ shape ∈ constrained, Needs context.model shape) (validated : shape ∈ constrained) :
    shape ∈ context.model.ids ∧ (context.model.shape shape).isAggregate = true ∧ context.serdeShape shape = true := by
  obtain ⟨input, isInput, reaches⟩ := reached_of_collectInputs context.iteration.each collected shape validated
  obtain ⟨inside, isStructure⟩ := walked.inputs input isInput
  have start : (context.model.shape input).isAggregate = true := by
    rw [Shape.isStructureShape] at isStructure
    rw [Shape.isAggregate]
    cases kind : (context.model.shape input).kind <;> simp_all
  have all : ∀ other, Reaches context.model input other →
      other ∈ context.closure ∧ (context.model.shape other).isAggregate = true := by
    intro other reaches
    induction reaches with
    | refl => exact ⟨inside, start⟩
    | tail before next ih =>
      obtain ⟨member, isMember, rfl, aggregate⟩ := next
      exact ⟨walked.closed _ ih.1 member isMember, aggregate⟩
  obtain ⟨inside, aggregate⟩ := all shape reaches
  have notUnit : shape ≠ context.unit := by
    rintro rfl
    obtain ⟨other, reaches, carries⟩ := needed _ validated
    rcases reaches.cases_head with rfl | ⟨next, ⟨member, isMember, -⟩, -⟩
    · obtain ⟨member, isMember, -⟩ := carries
      rw [walked.unit] at isMember
      exact absurd isMember List.not_mem_nil
    · rw [walked.unit] at isMember
      exact absurd isMember List.not_mem_nil
  refine ⟨walked.known inside, aggregate, ?_⟩
  rw [serdeShape, hasSerdeFunctions, if_neg notUnit, aggregate, decide_eq_true inside]
  rfl

/-- The lists of the topological index hold every shape. -/
theorem mem_serdeShapes [LE Id] [DecidableLE Id] (topological : Topological context) (inside : shape ∈ context.model.ids)
    (isSerde : context.serdeShape shape = true) : shape ∈ context.serdeShapes := by
  rw [serdeShapes, List.mem_append, (List.perm_insertionSort _ _).mem_iff, List.mem_filter, List.mem_filter,
    topological.ordered shape inside, topological.recursive shape inside]
  by_cases cyclic : OnCycle (Next context.model) shape
  · exact .inr ⟨cyclic, isSerde⟩
  · exact .inl ⟨cyclic, isSerde⟩

/-- The validator of a constrained shape is emitted. -/
theorem mem_writeValidators [LE Id] [DecidableLE Id] (listed : shape ∈ context.serdeShapes)
    (validated : shape ∈ constrained) :
    .definition shape (context.writeValidator constrained shape) ∈ context.writeValidators recursion constrained := by
  rw [writeValidators, if_neg (Finset.ne_empty_of_mem validated)]
  refine List.mem_append_right _ (List.mem_map.mpr ⟨shape, List.mem_filter.mpr ⟨listed, decide_eq_true validated⟩, rfl⟩)

/-- Every validator that another one calls is declared or defined before. -/
theorem declared_before [LE Id] [DecidableLE Id] (topological : Topological context)
    (cycles : ∀ id ∈ context.model.ids, recursion.inCycle id = true ↔ OnCycle (Next context.model) id)
    (serde : ∀ id ∈ constrained, id ∈ context.model.ids ∧ (context.model.shape id).isAggregate = true ∧
      context.serdeShape id = true)
    {before rest : List (EmittedValidator Id)} {calls : List (ShapeCall Id)}
    (split : context.writeValidators recursion constrained = before ++ .definition shape calls :: rest) :
    shape ∈ constrained ∧ calls = context.writeValidator constrained shape ∧ ∀ call ∈ calls,
      .declaration call.callee ∈ before ∨ ∃ body, .definition call.callee body ∈ before := by
  rw [writeValidators] at split
  split_ifs at split with none_
  · exact absurd (congrArg List.length split) (by simp)
  obtain ⟨between, rfl, defined⟩ := split_right (by
    intro declared
    obtain ⟨other, -, same⟩ := List.mem_map.mp declared
    cases same) split
  obtain ⟨earlier, later, listed, rfl, same⟩ := List.map_eq_append_iff.mp defined
  obtain ⟨other, later, rfl, same, -⟩ := List.map_eq_cons_iff.mp same
  cases same
  have validated : shape ∈ constrained := by
    have isListed : shape ∈ context.serdeShapes.filter (· ∈ constrained) :=
      listed ▸ List.mem_append_right _ List.mem_cons_self
    exact of_decide_eq_true (List.mem_filter.mp isListed).2
  refine ⟨validated, rfl, fun call called => ?_⟩
  obtain ⟨member, isMember, target, validated', -⟩ := @of_mem_writeValidator _ _ context recursion _ _ _ called
  obtain ⟨inside, -, -⟩ := serde shape validated
  obtain ⟨inside', aggregate, isSerde⟩ := serde call.callee validated'
  have next : Next context.model shape call.callee := ⟨member, isMember, target, aggregate⟩
  by_cases cyclic : OnCycle (Next context.model) call.callee
  · left
    refine List.mem_append_left _ (List.mem_map_of_mem
      (List.mem_filter.mpr ⟨mem_serdeShapes topological inside' isSerde, ?_⟩))
    rw [decide_eq_true validated', (cycles _ inside').mpr cyclic]
    rfl
  · right
    suffices first : call.callee ∈ earlier from
      ⟨_, List.mem_append_right _ (List.mem_map_of_mem first)⟩
    rw [serdeShapes, List.filter_append] at listed
    by_cases cyclic' : OnCycle (Next context.model) shape
    · obtain ⟨between, rfl, -⟩ := split_right (by
        intro ordered
        have ordered := (List.mem_filter.mp (List.mem_filter.mp ordered).1).1
        exact (topological.ordered _ inside).mp ordered cyclic') listed
      refine List.mem_append_left _ (List.mem_filter.mpr ⟨List.mem_filter.mpr ⟨?_, isSerde⟩, decide_eq_true validated'⟩)
      exact (topological.ordered _ inside').mpr cyclic
    · obtain ⟨between, ordered⟩ := split_left (by
        intro recursive
        have recursive := (List.perm_insertionSort _ _).mem_iff.mp (List.mem_filter.mp recursive).1
        exact cyclic' ((topological.recursive _ inside).mp (List.mem_filter.mp recursive).1)) listed
      rw [List.filter_filter] at ordered
      obtain ⟨front, back, whole, rfl⟩ := split_filter ordered
      refine List.mem_filter.mpr ⟨topological.after front shape back whole _ next cyclic, ?_⟩
      rw [decide_eq_true validated', isSerde]
      rfl

end Order

/-- The pieces of the generators fit together exactly if no validator is for a structure with a boxed member that has a
validator. -/
theorem fits_iff [LE Id] [DecidableLE Id] (context : CppContext Id) (inputs : List Id) (walked : Walked context inputs)
    (topological : Topological context) :
    ∃ recursion constrained, computeComponents context.iteration = some recursion ∧
      collectInputs context.model context.iteration.members inputs = some constrained ∧
      (Fits context recursion constrained ↔ ∀ shape ∈ constrained, ∀ member ∈ (context.model.shape shape).members,
        recursion.isBoxed context.model shape member = true → member.target ∉ constrained) := by
  obtain ⟨recursion, computed, cycles, -⟩ := computeComponents_spec context.iteration
  obtain ⟨constrained, collected, needed, -⟩ :=
    exists_collectInputs context.iteration.each fun input isInput => walked.known (walked.inputs input isInput).1
  refine ⟨recursion, constrained, computed, collected, ?_⟩
  have serde (id : Id) (validated : id ∈ constrained) := serdeShape_of_constrained walked collected needed validated
  have emitted (id : Id) (validated : id ∈ constrained) :
      .definition id (context.writeValidator constrained id) ∈ context.writeValidators recursion constrained := by
    obtain ⟨inside, -, isSerde⟩ := serde id validated
    exact mem_writeValidators (mem_serdeShapes topological inside isSerde) validated
  constructor
  · intro fits shape validated member isMember boxed validated'
    have isStructure : (context.model.shape shape).isStructureShape = true := by
      rw [Components.isBoxed, Bool.and_eq_true, Bool.and_eq_true] at boxed
      exact boxed.1.2
    obtain ⟨before, rest, split⟩ := List.append_of_mem (emitted shape validated)
    obtain ⟨call, called, callee, type⟩ :=
      @exists_mem_writeValidator _ _ context recursion _ _ _ isStructure isMember validated'
    have right := (fits.1 before shape _ rest split call called).2.2
    rw [type, if_pos boxed, callee] at right
    cases right
  · intro unboxed
    refine ⟨fun before shape calls rest split call called => ?_, fun shape _ call called => typeOf_serializer called⟩
    obtain ⟨validated, rfl, declared⟩ := declared_before topological cycles serde split
    obtain ⟨member, isMember, target, validated', type⟩ := @of_mem_writeValidator _ _ context recursion _ _ _ called
    refine ⟨declared call called, ⟨_, emitted _ validated'⟩, ?_⟩
    rw [type, if_neg fun boxed => unboxed shape validated member isMember boxed (target ▸ validated')]

/-- An input with a node, a node with a next one and a name of some length, a string, and the unit. -/
def linkedModel : ServiceModel (Fin 4) where
  ids := {0, 1, 2, 3}
  shape
    | 0 => { kind := .structureShape [{ target := 1 }] }
    | 1 => { kind := .structureShape [{ target := 1 }, { target := 2, traits := { length := true } }] }
    | 2 => { kind := .simpleShape }
    | 3 => { kind := .structureShape [] }
  closed := by decide
  stringKeys := stringKeys_of_no_map (by decide)

def linkedContext : CppContext (Fin 4) where
  model := linkedModel
  iteration := ⟨[0, 1, 2, 3], fun id => (linkedModel.shape id).members, by decide, fun _ => .refl _⟩
  plain _ _ := false
  jsonUnknown _ _ := false
  sparse _ := false
  unit := 3
  closure := {0, 1, 2}
  getOrderedShapes := [2, 0, 3]
  getRecursiveShapes := [1]

theorem linked_next {a b : Fin 4} (next : Next linkedModel a b) : b = 1 := by
  revert a b
  unfold Next
  decide

theorem linked_cycle {id : Fin 4} : OnCycle (Next linkedModel) id ↔ id = 1 := by
  constructor
  · intro cycle
    obtain ⟨_, -, next⟩ := Relation.TransGen.tail'_iff.mp cycle
    exact linked_next next
  · rintro rfl
    exact .single ⟨_, List.mem_cons_self, rfl, rfl⟩

/-- The validator of the node calls itself for the next one with the box that the node has it in. -/
theorem linked_not_fits : Walked linkedContext [0] ∧ Topological linkedContext ∧
    ∃ recursion, computeComponents linkedContext.iteration = some recursion ∧
      collectInputs linkedModel linkedContext.iteration.members [0] = some {0, 1} ∧ Supported linkedModel recursion ∧
      ¬Fits linkedContext recursion {0, 1} := by
  refine ⟨⟨by decide, by decide, by decide, rfl⟩, ⟨?_, ?_, ?_⟩, _, (Option.some_get (by decide)).symm, by decide, ?_, ?_⟩
  · intro id _
    rw [show linkedContext.model = linkedModel from rfl, linked_cycle]
    revert id
    decide
  · intro id _
    rw [show linkedContext.model = linkedModel from rfl, linked_cycle]
    revert id
    decide
  · intro before shape rest _ other next acyclic
    exact absurd (linked_cycle.mpr (linked_next next)) acyclic
  · intro container _ name member _
    have structures : ∀ id, (linkedModel.shape id).isUnionShape = false ∧ (linkedModel.shape id).isMapShape = false := by
      decide
    rw [Components.unsupportedCycleMember, (structures container).1, (structures container).2]
    split_ifs <;> first | rfl | contradiction
  · rintro ⟨validators, -⟩
    have written : linkedContext.writeValidators ((computeComponents linkedContext.iteration).get (by decide)) {0, 1} =
        [.declaration 1, .definition 0 [⟨1, .deref (.field 0)⟩]] ++ .definition 1 [⟨1, .deref (.field 0)⟩] :: [] := by
      decide
    have right := (validators _ _ _ _ written ⟨1, .deref (.field 0)⟩ List.mem_cons_self).2.2
    revert right
    decide

/-- An input with nodes, a list of nodes, a node with children and a name of some length, a string, and the unit. -/
def treeModel : ServiceModel (Fin 5) where
  ids := {0, 1, 2, 3, 4}
  shape
    | 0 => { kind := .structureShape [{ target := 1 }] }
    | 1 => { kind := .listShape { target := 2 } }
    | 2 => { kind := .structureShape [{ target := 1 }, { target := 3, traits := { length := true } }] }
    | 3 => { kind := .simpleShape }
    | 4 => { kind := .structureShape [] }
  closed := by decide
  stringKeys := stringKeys_of_no_map (by decide)

def treeContext : CppContext (Fin 5) where
  model := treeModel
  iteration := ⟨[0, 1, 2, 3, 4], fun id => (treeModel.shape id).members, by decide, fun _ => .refl _⟩
  plain _ _ := false
  jsonUnknown _ _ := false
  sparse _ := false
  unit := 4
  closure := {0, 1, 2, 3}
  getOrderedShapes := [3, 0, 4]
  getRecursiveShapes := [2, 1]

theorem tree_next {a b : Fin 5} (next : Next treeModel a b) : b = 1 ∨ b = 2 := by
  revert a b
  unfold Next
  decide

theorem tree_cycle {id : Fin 5} : OnCycle (Next treeModel) id ↔ id = 1 ∨ id = 2 := by
  have there : Next treeModel 1 2 := ⟨_, List.mem_cons_self, rfl, rfl⟩
  have back : Next treeModel 2 1 := ⟨_, List.mem_cons_self, rfl, rfl⟩
  constructor
  · intro cycle
    obtain ⟨_, -, next⟩ := Relation.TransGen.tail'_iff.mp cycle
    exact tree_next next
  · rintro (rfl | rfl)
    · exact .tail (.single there) back
    · exact .tail (.single back) there

/-- Nodes that are recursive through a list fit: no member is boxed. -/
theorem fits_iff_tree : ∃ recursion constrained, computeComponents treeContext.iteration = some recursion ∧
    collectInputs treeModel treeContext.iteration.members [0] = some constrained ∧
      Fits treeContext recursion constrained := by
  have topological : Topological treeContext := by
    refine ⟨?_, ?_, ?_⟩
    · intro id _
      rw [show treeContext.model = treeModel from rfl, tree_cycle]
      revert id
      decide
    · intro id _
      rw [show treeContext.model = treeModel from rfl, tree_cycle]
      revert id
      decide
    · intro before shape rest _ other next acyclic
      exact absurd (tree_cycle.mpr (tree_next next)) acyclic
  obtain ⟨recursion, constrained, computed, collected, iff⟩ :=
    fits_iff treeContext [0] ⟨by decide, by decide, by decide, rfl⟩ topological
  refine ⟨recursion, constrained, computed, collected, iff.mpr fun shape _ member isMember boxed => ?_⟩
  have unboxed : ∀ shape, ∀ member ∈ (treeModel.shape shape).members,
      ((treeModel.shape shape).isStructureShape && (treeModel.shape member.target).isStructureShape) = false := by decide
  rw [Components.isBoxed, Bool.and_assoc, Bool.and_eq_true] at boxed
  exact absurd boxed.2 (Bool.eq_false_iff.mp (unboxed shape member isMember))

end CppContext

end OpalCpp.Codegen

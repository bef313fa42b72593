import OpalCpp.Proofs.Codegen.RecursionComponents

/-! # Types of finite size

The members that are stored by value make no cycle, in a model without unsupported recursion.
-/

namespace OpalCpp.Codegen

open Relation OpalCpp.Digraph Components

variable {Id : Type} [DecidableEq Id] {model : ServiceModel Id} {components : Components Id} {a b : Id}

/-- The member of the container with the name. -/
def IsMember (model : ServiceModel Id) (container : Id) (name : String) (member : MemberShape Id) : Prop :=
  match (model.shape container).kind with
  | .structureShape members => member ∈ members
  | .unionShape members => member ∈ members
  | .listShape element => name = "member" ∧ member = element
  | .mapShape key value => name = "key" ∧ member = key ∨ name = "value" ∧ member = value
  | _ => False

/-- The container has the other shape as a part of itself: it has a member of it that is neither boxed nor the
element of a list. -/
def ByValue (model : ServiceModel Id) (components : Components Id) (container target : Id) : Prop :=
  container ∈ model.ids ∧ ∃ name member, IsMember model container name member ∧ member.target = target ∧
    components.isBoxed model container member = false ∧ (model.shape container).isListShape = false

/-- No member is on a cycle that cannot be generated. -/
def Supported [ToString Id] (model : ServiceModel Id) (components : Components Id) : Prop :=
  ∀ container ∈ model.ids, ∀ name member, IsMember model container name member →
    components.unsupportedCycleMember model container name member = none

omit [DecidableEq Id] in
theorem IsMember.mem {container : Id} {name : String} {member : MemberShape Id}
    (isMember : IsMember model container name member) :
    member ∈ (model.shape container).members ∧ (model.shape container).isAggregate = true := by
  rw [IsMember] at isMember
  rw [Shape.members, Shape.isAggregate]
  cases kind : (model.shape container).kind with
  | structureShape | unionShape =>
    rw [kind] at isMember
    exact ⟨isMember, rfl⟩
  | listShape =>
    rw [kind] at isMember
    exact ⟨List.mem_singleton.mpr isMember.2, rfl⟩
  | mapShape =>
    rw [kind] at isMember
    obtain ⟨_, rfl⟩ | ⟨_, rfl⟩ := isMember
    · exact ⟨List.mem_cons_self, rfl⟩
    · exact ⟨List.mem_cons_of_mem _ (List.mem_singleton_self _), rfl⟩
  | _ =>
    rw [kind] at isMember
    exact isMember.elim

theorem ByValue.aggregate (byValue : ByValue model components a b) : (model.shape a).isAggregate = true := by
  obtain ⟨_, _, _, isMember, _⟩ := byValue
  exact isMember.mem.2

/-- A by-value edge to a shape with members is one of the model. -/
theorem ByValue.next (byValue : ByValue model components a b) (aggregate : (model.shape b).isAggregate = true) :
    Next model a b := by
  obtain ⟨_, _, member, isMember, rfl, _⟩ := byValue
  exact ⟨member, isMember.mem.1, rfl, aggregate⟩

theorem ByValue.inside (byValue : ByValue model components a b) : b ∈ model.ids := by
  obtain ⟨inside, _, member, isMember, rfl, _⟩ := byValue
  exact model.closed a inside member isMember.mem.1

/-- Some by-value edge leaves every shape of a cycle. -/
theorem ByValue.onward (byValue : ByValue model components a b) (back : ReflTransGen (ByValue model components) b a) :
    ∃ c, ByValue model components b c ∧ ReflTransGen (ByValue model components) c b := by
  obtain rfl | ⟨c, edge, rest⟩ := back.cases_head
  · exact ⟨_, byValue, .refl⟩
  · exact ⟨c, edge, rest.tail byValue⟩

theorem reaches_of_byValue (reaches : ReflTransGen (ByValue model components) b a)
    (aggregate : (model.shape a).isAggregate = true) : Reaches model b a := by
  induction reaches using ReflTransGen.head_induction_on with
  | refl => exact .refl
  | head step rest ih =>
    refine .head (step.next ?_) ih
    obtain rfl | ⟨_, edge, _⟩ := rest.cases_head
    · exact aggregate
    · exact edge.aggregate

/-- What the index says of the edges of a cycle. -/
theorem ByValue.sameCycle {iteration : Iteration model} (finished : Finished iteration components)
    (byValue : ByValue model components a b) (back : ReflTransGen (ByValue model components) b a) :
    components.sameCycle a b = true := by
  obtain ⟨_, edge, _⟩ := byValue.onward back
  have next := byValue.next edge.aggregate
  have reaches := reaches_of_byValue back byValue.aggregate
  exact (finished.sameCycle_iff byValue.1 byValue.inside).mpr
    ⟨.head' next reaches, .tail' reaches next, .single next, reaches⟩

/-- Only structures have by-value edges on a cycle of them. -/
theorem ByValue.isStructureShape [ToString Id] {iteration : Iteration model} (finished : Finished iteration components)
    (supported : Supported model components) (byValue : ByValue model components a b)
    (back : ReflTransGen (ByValue model components) b a) : (model.shape a).isStructureShape = true := by
  have cyclic := byValue.sameCycle finished back
  obtain ⟨_, onward, _⟩ := byValue.onward back
  have aggregate := onward.aggregate
  obtain ⟨inside, name, member, isMember, rfl, unboxed, notList⟩ := byValue
  have fine := supported a inside name member isMember
  rw [unsupportedCycleMember, cyclicEdge, cyclic, Bool.not_true, if_neg Bool.false_ne_true] at fine
  rw [IsMember] at isMember
  rw [Shape.isStructureShape]
  rw [Shape.isListShape] at notList
  rw [Shape.isUnionShape, Shape.isMapShape] at fine
  cases kind : (model.shape a).kind with
  | structureShape => rfl
  | unionShape =>
    rw [kind] at fine
    cases fine
  | listShape =>
    rw [kind] at notList
    cases notList
  | mapShape key value =>
    rw [kind] at isMember fine
    obtain ⟨_, rfl⟩ | ⟨rfl, rfl⟩ := isMember
    · rw [model.stringKeys a member value kind] at aggregate
      cases aggregate
    · cases fine
  | _ =>
    rw [kind] at isMember
    exact isMember.elim

/-- Boxed members are on a cycle with their container, and without unsupported recursion the by-value members
make none, so that there is an order of the shapes with everything that a shape has by value before it. -/
theorem byValue_acyclic [ToString Id] (iteration : Iteration model) :
    ∃ components, computeComponents iteration = some components ∧
      (∀ container ∈ model.ids, ∀ name member, IsMember model container name member →
        components.isBoxed model container member = true →
          Next model container member.target ∧ Reaches model member.target container) ∧
      (Supported model components →
        (∀ a, ¬ TransGen (ByValue model components) a a) ∧
        ∃ order : List Id, order.Nodup ∧ (∀ a, a ∈ order ↔ a ∈ model.ids) ∧
          order.Pairwise fun a b => ¬ ByValue model components a b) := by
  obtain ⟨components, computed, sound, covered⟩ := exists_components iteration
  have finished : Finished iteration components := ⟨sound, covered⟩
  refine ⟨components, computed, ?_, fun supported => ?_⟩
  · intro container inside name member isMember boxed
    rw [isBoxed, Bool.and_eq_true, Bool.and_eq_true, cyclicEdge] at boxed
    obtain ⟨⟨cyclic, _⟩, isStructure⟩ := boxed
    have closed := model.closed container inside member isMember.mem.1
    have aggregate : (model.shape member.target).isAggregate = true := by
      rw [Shape.isStructureShape] at isStructure
      rw [Shape.isAggregate]
      cases kind : (model.shape member.target).kind <;> simp_all
    exact ⟨⟨member, isMember.mem.1, rfl, aggregate⟩, ((finished.sameCycle_iff inside closed).mp cyclic).2.2.2⟩
  · have acyclic : ∀ a, ¬ TransGen (ByValue model components) a a := by
      intro a cycle
      obtain ⟨b, byValue, back⟩ := TransGen.head'_iff.mp cycle
      obtain ⟨c, onward, back'⟩ := byValue.onward back
      have cyclic := byValue.sameCycle finished back
      have first := byValue.isStructureShape finished supported back
      have second := onward.isStructureShape finished supported back'
      obtain ⟨_, _, member, _, rfl, unboxed, _⟩ := byValue
      rw [isBoxed, cyclicEdge, cyclic, first, second] at unboxed
      cases unboxed
    obtain ⟨order, nodup, all, ordered, _⟩ := exists_order model.ids acyclic
    exact ⟨acyclic, order, nodup, all, ordered⟩

end OpalCpp.Codegen

import Mathlib.Logic.Relation
import OpalCpp.Model.Codegen.Validators

/-! # What leads to a constraint

Shapes and the paths of members between them.
-/

namespace OpalCpp.Codegen

variable {Id : Type*} (model : ServiceModel Id)

/-- A member of the one shape targets the other, which has members itself. -/
def Next (shape other : Id) : Prop :=
  ∃ member ∈ (model.shape shape).members, member.target = other ∧ (model.shape other).isAggregate = true

def Reaches : Id → Id → Prop := Relation.ReflTransGen (Next model)

/-- One of its own members carries a constraint. -/
def Carries (shape : Id) : Prop := ∃ member ∈ (model.shape shape).members, memberHasConstraints model member = true

/-- Some path of members leads to one that carries a constraint. -/
def Needs (shape : Id) : Prop := ∃ other, Reaches model shape other ∧ Carries model other

/-- A list or a map with a constraint on its element, its key or its value. -/
def CarryingCollection (shape : Id) : Prop := (model.shape shape).isCollection = true ∧ Carries model shape

/-- The shape shows a constraint to the loop over its members: on one of them, or on the element, key or
value of one that is a list or a map. -/
def Shows (shape : Id) : Prop :=
  Carries model shape ∨ ∃ member ∈ (model.shape shape).members, CarryingCollection model member.target

/-- Some path of members leads to a shape that shows a constraint and goes through none of these shapes. -/
def LeadsAvoiding (path : List Id) (shape : Id) : Prop :=
  ∃ other, Relation.ReflTransGen (fun first second => Next model first second ∧ second ∉ path) shape other ∧
    Shows model other

/-- A simple path of members from the input to the shape, by the shapes before it, the last one first. -/
inductive Trail (input : Id) : List Id → Id → Prop
  | start : Trail input [] input
  | step {path : List Id} {shape other : Id} (before : Trail input path shape) (next : Next model shape other)
      (fresh : other ∉ shape :: path) : Trail input (shape :: path) other

variable {model} {shape other : Id} {path : List Id}

theorem isAggregate_of_isCollection (collection : (model.shape shape).isCollection = true) :
    (model.shape shape).isAggregate = true := by
  revert collection
  rw [Shape.isCollection, Shape.isAggregate]
  cases (model.shape shape).kind <;> simp

theorem Carries.needs (carries : Carries model shape) : Needs model shape := ⟨shape, .refl, carries⟩

theorem Needs.of_next (next : Next model shape other) (needs : Needs model other) : Needs model shape := by
  obtain ⟨last, reaches, carries⟩ := needs
  exact ⟨last, .head next reaches, carries⟩

theorem CarryingCollection.next {member : MemberShape Id} (carrying : CarryingCollection model member.target)
    (isMember : member ∈ (model.shape shape).members) : Next model shape member.target :=
  ⟨member, isMember, rfl, isAggregate_of_isCollection carrying.1⟩

theorem Shows.needs (shows_ : Shows model shape) : Needs model shape := by
  obtain carries | ⟨member, isMember, carrying⟩ := shows_
  · exact carries.needs
  · exact carrying.2.needs.of_next (carrying.next isMember)

theorem carryingCollection_iff {id : Id} : CarryingCollection model id ↔
    ((model.shape id).isCollection && (model.shape id).members.any (memberHasConstraints model)) = true := by
  rw [Bool.and_eq_true, List.any_eq_true]
  rfl

theorem Trail.reaches {input : Id} (trail : Trail model input path shape) : Reaches model input shape := by
  induction trail with
  | start => exact .refl
  | step before next fresh ih => exact ih.tail next

theorem Trail.notMem {input : Id} (trail : Trail model input path shape) : shape ∉ path := by
  cases trail with
  | start => exact List.not_mem_nil
  | step before next fresh => exact fresh

end OpalCpp.Codegen

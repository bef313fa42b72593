import Mathlib.Data.List.Infix
import OpalCpp.Machine.FloatFormat
import OpalCpp.Model.Core.Document

/-! # Typed shapes and their values

The shapes of a service model with what the generators of types and of serde read of them, and the
values of the C++ types that are generated for them. A box around a recursive member is its value.
-/

namespace OpalCpp.Typed

/-- An enumeration: `value_` by its place in the list of values, none for `kUnknown`, and `unknown_`. -/
structure EnumValue where
  value : Option ℕ
  unknown : Bytes := []
deriving DecidableEq, Repr

/-- A value of a generated type. Lists and maps of sparse shapes, and members that are not plain, hold
optionals. -/
inductive Value where
  | nullopt
  | engaged (value : Value)
  | boolean (value : Bool)
  | byte (value : Int8)
  | short (value : Int16)
  | integer (value : Int32)
  | long (value : Int64)
  | float (value : Binary32)
  | double (value : Binary64)
  | string (text : Bytes)
  | enum (value : EnumValue)
  | intEnum (value : Int32)
  | blob (bytes : Bytes)
  | timestamp (value : Timestamp)
  | document (value : Document)
  | unit
  | list (items : List Value)
  | map (members : List (Bytes × Value))
  | struct (members : List Value)
  | empty
  | alternative (index : ℕ) (value : Value)

/-- The node of a `@default`: null, a text for a timestamp, which there is no literal for, or any other,
as the value of its literal. -/
inductive DefaultNode where
  | null
  | timestampText
  | literal (value : Value)

/-- A member, with the name of the C++ member for it and its own, which may differ. -/
structure Member (Id : Type*) where
  target : Id
  memberName : Bytes
  name : Bytes := memberName
  jsonName : Option Bytes := none
  isRequired : Bool := false
  clientOptional : Bool := false
  default : Option DefaultNode := none
  timestampFormat : Option TimestampFormat := none
  jsonUnknown : Bool := false

inductive ShapeType (Id : Type*) where
  | boolean | byte | short | integer | long | float | double | string
  | enum (values : List Bytes)
  | intEnum | blob | timestamp | document | unit
  | list (member : Member Id) (sparse : Bool)
  | map (key value : Member Id) (sparse : Bool)
  | struct (members : List (Member Id))
  | union (members : List (Member Id)) (discriminated : Option Bytes)

structure Shape (Id : Type*) where
  type : ShapeType Id
  typeName : Bytes := []
  sensitive : Bool := false
  input : Bool := false
  timestampFormat : Option TimestampFormat := none

namespace ShapeType

variable {Id : Type*}

def isStruct (type : ShapeType Id) : Bool := type matches .struct _

/-- Whether the C++ type is a class of the generated code, with printing of its own. -/
def printsItself (type : ShapeType Id) : Bool :=
  type matches .struct _ | .union _ _ | .enum _ | .unit

end ShapeType

/-! ## Defaults -/

section MemberDefaults

variable {Id : Type*}

/-- The kinds of defaults that the generator can express as an initializer. -/
def supported (target : ShapeType Id) (node : DefaultNode) : Bool :=
  match target with
  | .string | .enum _ | .boolean | .byte | .short | .integer | .long | .intEnum | .float | .double | .blob => true
  | .timestamp => !(node matches .timestampText)
  | .list _ _ | .map _ _ _ => true
  | _ => false

def defaulted (target : ShapeType Id) (member : Member Id) : Bool :=
  if member.clientOptional then false
  else
    match member.default with
    | none | some .null => false
    | some node => supported target node

/-- A member that always has a value, with a default initializer. -/
def populated (container : Shape Id) (target : ShapeType Id) (member : Member Id) : Bool :=
  defaulted target member && (member.isRequired || !container.input)

/-- An optional member that gets its default when it is absent from a parsed input. -/
def fillOnParse (container : Shape Id) (target : ShapeType Id) (member : Member Id) : Bool :=
  defaulted target member && !member.isRequired && container.input

def lenientRequired (target : ShapeType Id) (member : Member Id) : Bool :=
  member.isRequired && defaulted target member

/-- Whether the member is not a `std::optional`. -/
def plain (container : Shape Id) (target : ShapeType Id) (member : Member Id) : Bool :=
  member.isRequired || populated container target member

end MemberDefaults

/-- The shapes of a model. The keys of a map are strings, and required members do not lead from a structure
back to itself. -/
structure Model (Id : Type*) where
  shape : Id → Shape Id
  stringKeys : ∀ id key value sparse, (shape id).type = .map key value sparse →
    (shape key.target).type = .string ∨ ∃ values, (shape key.target).type = .enum values
  grounded : WellFounded fun target id => ∃ members, (shape id).type = .struct members ∧
    ∃ member ∈ members, member.isRequired = true ∧ member.target = target

/-- Without required members no structure is needed for another one. -/
theorem Model.grounded_of_optional {Id : Type*} {shape : Id → Shape Id}
    (optional : ∀ id members, (shape id).type = .struct members → ∀ member ∈ members, member.isRequired = false) :
    WellFounded fun target id => ∃ members, (shape id).type = .struct members ∧
      ∃ member ∈ members, member.isRequired = true ∧ member.target = target := by
  refine ⟨fun id => ⟨id, ?_⟩⟩
  rintro target ⟨members, type, member, present, required, -⟩
  rw [optional id members type member present] at required
  cases required

/-- Where a value stands: the shape, and whether in an optional. -/
structure Slot (Id : Type*) where
  target : Id
  optional : Bool := false

namespace Model

variable {Id : Type*} (model : Model Id)

/-- The type of a structure's member. -/
def memberSlot (container : Shape Id) (member : Member Id) : Slot Id :=
  ⟨member.target, !plain container (model.shape member.target).type member⟩

end Model

/-! ## Values of a type -/

namespace Value

variable {Id : Type*} (model : Model Id)

mutual

/-- The value is one of the C++ type of the slot. -/
def HasType : Value → Slot Id → Prop
  | .nullopt, slot => slot.optional = true
  | .engaged value, slot => slot.optional = true ∧ HasType value ⟨slot.target, false⟩
  | .boolean _, slot => slot.optional = false ∧ (model.shape slot.target).type = .boolean
  | .byte _, slot => slot.optional = false ∧ (model.shape slot.target).type = .byte
  | .short _, slot => slot.optional = false ∧ (model.shape slot.target).type = .short
  | .integer _, slot => slot.optional = false ∧ (model.shape slot.target).type = .integer
  | .long _, slot => slot.optional = false ∧ (model.shape slot.target).type = .long
  | .float _, slot => slot.optional = false ∧ (model.shape slot.target).type = .float
  | .double _, slot => slot.optional = false ∧ (model.shape slot.target).type = .double
  | .string _, slot => slot.optional = false ∧ (model.shape slot.target).type = .string
  | .enum value, slot => slot.optional = false ∧ ∃ values, (model.shape slot.target).type = .enum values ∧
      (match value.value with
        | some index => index < values.length ∧ value.unknown = []
        | none => value.unknown ∉ values)
  | .intEnum _, slot => slot.optional = false ∧ (model.shape slot.target).type = .intEnum
  | .blob _, slot => slot.optional = false ∧ (model.shape slot.target).type = .blob
  | .timestamp _, slot => slot.optional = false ∧ (model.shape slot.target).type = .timestamp
  | .document _, slot => slot.optional = false ∧ (model.shape slot.target).type = .document
  | .unit, slot => slot.optional = false ∧ (model.shape slot.target).type = .unit
  | .list items, slot => slot.optional = false ∧ ∃ member sparse,
      (model.shape slot.target).type = .list member sparse ∧ AllHaveType items ⟨member.target, sparse⟩
  | .map members, slot => slot.optional = false ∧ ∃ key value sparse,
      (model.shape slot.target).type = .map key value sparse ∧ (members.map Prod.fst).Pairwise (· < ·) ∧
        MembersHaveType members ⟨value.target, sparse⟩
  | .struct values, slot => slot.optional = false ∧ ∃ members,
      (model.shape slot.target).type = .struct members ∧
        FieldsHaveType values (members.map (model.memberSlot (model.shape slot.target)))
  | .empty, slot => slot.optional = false ∧ ∃ members discriminated,
      (model.shape slot.target).type = .union members discriminated
  | .alternative index value, slot => slot.optional = false ∧ ∃ members discriminated member,
      (model.shape slot.target).type = .union members discriminated ∧ members[index]? = some member ∧
        HasType value ⟨member.target, false⟩

def AllHaveType : List Value → Slot Id → Prop
  | [], _ => True
  | item :: items, slot => HasType item slot ∧ AllHaveType items slot

def MembersHaveType : List (Bytes × Value) → Slot Id → Prop
  | [], _ => True
  | (_, value) :: members, slot => HasType value slot ∧ MembersHaveType members slot

def FieldsHaveType : List Value → List (Slot Id) → Prop
  | [], [] => True
  | value :: values, slot :: slots => HasType value slot ∧ FieldsHaveType values slots
  | _, _ => False

end

end Value

end OpalCpp.Typed

import OpalCpp.Model.Codegen.Typed
import OpalCpp.Model.Core.Print

/-! # The debug output of generated types

`AppendDebugTo` of the structures, unions, enumerations and listings of errors that the generator of types
writes, and the template behind it, which sees C++ types and not the shapes they come from.
-/

namespace OpalCpp.Typed

open Bytes (ascii)

variable {Id : Type*} (model : Model Id)

def redacted : Bytes := ascii "[REDACTED]"

/-- `ToString()` -/
def EnumValue.toText (values : List Bytes) (value : EnumValue) : Bytes :=
  match value.value with
  | some index => values.getD index []
  | none => value.unknown

def enumText (shape : Shape Id) (value : EnumValue) : Bytes :=
  let values := match shape.type with
    | .enum values => values
    | _ => []
  shape.typeName ++ ascii "(" ++ (if shape.sensitive then redacted else value.toText values) ++ ascii ")"

/-- An alternative of a tagged variant. -/
structure TaggedMember where
  memberName : Bytes
  sensitive : Bool

/-- `AppendDebugTo` of a tagged variant, by the member that is engaged and the text of its value. -/
def taggedText (name : Bytes) (redactBody : Bool) (engaged : Option (TaggedMember × Bytes)) : Bytes :=
  if redactBody then name ++ ascii "([REDACTED])"
  else
    name ++ ascii "(" ++
      (match engaged with
        | none => []
        | some (member, text) => member.memberName ++ ascii " = " ++ if member.sensitive then redacted else text) ++
      ascii ")"

/-- A member of a structure, after what separates it from those before. -/
def fieldText (sep : Bytes) (memberName : Bytes) (sensitive : Bool) (text : Bytes) : Bytes :=
  sep ++ ascii "." ++ memberName ++ ascii " = " ++ if sensitive then redacted else text

mutual

/-- What `DebugAppend` appends for a value that stands for a shape. -/
def debugText : Value → Id → Bytes
  | .nullopt, _ => ascii "nullopt"
  | .engaged value, id => debugText value id
  | .boolean value, _ => Print.boolText value
  | .byte value, _ => Print.integerText value.toInt
  | .short value, _ => Print.integerText value.toInt
  | .integer value, _ => Print.integerText value.toInt
  | .long value, _ => Print.integerText value.toInt
  | .float value, _ => Print.floatText value
  | .double value, _ => Print.doubleText value
  | .string text, _ => Print.appendQuoted text
  | .enum value, id => enumText (model.shape id) value
  | .intEnum value, _ => Print.integerText value.toInt
  | .blob bytes, _ => Print.blobText bytes
  | .timestamp value, _ => Print.timestampText value
  | .document value, _ => Print.documentText value
  | .unit, _ => ascii "Unit\x7b\x7d"
  | .list items, id =>
    match (model.shape id).type with
    | .list member _ => ascii "[" ++ Print.separated (debugTexts items member.target) ++ ascii "]"
    | _ => []
  | .map members, id =>
    match (model.shape id).type with
    | .map _ value _ => ascii "\x7b" ++ Print.separated (entryTexts members value.target) ++ ascii "\x7d"
    | _ => []
  | .struct values, id =>
    match (model.shape id).type with
    | .struct members =>
      if (model.shape id).sensitive then (model.shape id).typeName ++ ascii "\x7b[REDACTED]\x7d"
      else (model.shape id).typeName ++ ascii "\x7b" ++ fieldTexts [] values members ++ ascii "\x7d"
    | _ => []
  | .empty, id => taggedText (model.shape id).typeName (model.shape id).sensitive none
  | .alternative index value, id =>
    match (model.shape id).type with
    | .union members _ =>
      match members[index]? with
      | some member =>
        taggedText (model.shape id).typeName (model.shape id).sensitive
          (some (⟨member.memberName, (model.shape member.target).sensitive⟩, debugText value member.target))
      | none => []
    | _ => []

def debugTexts : List Value → Id → List Bytes
  | [], _ => []
  | item :: items, id => debugText item id :: debugTexts items id

def entryTexts : List (Bytes × Value) → Id → List Bytes
  | [], _ => []
  | (key, value) :: members, id => (Print.appendQuoted key ++ ascii ": " ++ debugText value id) :: entryTexts members id

/-- The members of a structure one after the other; a disengaged one is left out. -/
def fieldTexts : Bytes → List Value → List (Member Id) → Bytes
  | sep, .nullopt :: values, _ :: members => fieldTexts sep values members
  | sep, value :: values, member :: members =>
    fieldText sep member.memberName (model.shape member.target).sensitive (debugText value member.target) ++
      fieldTexts (ascii ", ") values members
  | _, _, _ => []

end

/-! ## The generated members -/

/-- A type of the generated code with printing of its own. -/
inductive Printed (Id : Type*) where
  /-- A structure or a union. -/
  | shape (id : Id)
  /-- What an operation may fail with: the names of the members and their structures. -/
  | errors (listingName : Bytes) (errors : List (Bytes × Id))

/-- `AppendDebugTo`, after the text that is there. -/
def appendDebugTo (out : Bytes) (type : Printed Id) (value : Value) : Bytes :=
  match type with
  | .shape id => out ++ debugText model value id
  | .errors listingName errors =>
    out ++ taggedText listingName false
      (match value with
        | .alternative index value => errors[index]?.map fun error =>
          (⟨error.1, (model.shape error.2).sensitive⟩, debugText model value error.2)
        | _ => none)

def debugString (type : Printed Id) (value : Value) : Bytes := appendDebugTo model [] type value

/-- `operator<<` -/
def shiftLeft (os : Bytes) (type : Printed Id) (value : Value) : Bytes := os ++ debugString model type value

end OpalCpp.Typed

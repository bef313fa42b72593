import OpalCpp.Machine.Loop
import OpalCpp.Machine.OrderedMap
import OpalCpp.Model.Codegen.Printing
import OpalCpp.Model.Core.DocumentSerde

/-! # Generated serde

`Serialize<Shape>` and `Deserialize<Shape>` of serde.cc: the emitted functions as one pair over the shapes of
a model. A shape's type name is that of its C++ type.
-/

namespace OpalCpp

namespace Document

mutual

/-- How deep containers nest. -/
def depth : Document → ℕ
  | .list items => allDepth items + 1
  | .map members => membersDepth members + 1
  | _ => 0

def allDepth : List Document → ℕ
  | [] => 0
  | item :: items => max item.depth (allDepth items)

def membersDepth : List (Bytes × Document) → ℕ
  | [] => 0
  | (_, value) :: members => max value.depth (membersDepth members)

end

end Document

namespace Typed

open scoped Bytes
open Bytes (ascii)

/-- `FromString` -/
def EnumValue.fromText (values : List Bytes) (text : Bytes) : EnumValue :=
  match values.findIdx? (· = text) with
  | some index => { value := some index }
  | none => { value := none, unknown := text }

/-- A value where it is moved: into a plain lvalue or an optional one. -/
def moved (optional : Bool) (value : Value) : Value := if optional then .engaged value else value

/-- What the emission of serde is made with: the model, and whether the protocol honors `@jsonName`. -/
structure SerdeCodeGen (Id : Type*) where
  model : Model Id
  useJsonName : Bool := true

/-- The value of a default's literal. -/
def literal {Id : Type*} (member : Member Id) : Value :=
  match member.default with
  | some (.literal value) => value
  | _ => .nullopt

def isUnion {Id : Type*} (type : ShapeType Id) : Bool := type matches .union _ _

/-- Whether serde.cc has functions for shapes of the type. -/
def hasSerdeFunctions {Id : Type*} (type : ShapeType Id) : Bool :=
  type matches .struct _ | .union _ _ | .list _ _ | .map _ _ _

namespace SerdeCodeGen

variable {Id : Type*} (serde : SerdeCodeGen Id)

/-- The key of a member in its document. -/
def wireName (member : Member Id) : Bytes :=
  if serde.useJsonName then member.jsonName.getD member.name else member.name

def timestampFormat (member : Member Id) : TimestampFormat :=
  (member.timestampFormat.or (serde.model.shape member.target).timestampFormat).getD .epochSeconds

/-! ## Serializing -/

mutual

/-- `Serialize<Shape>` of an aggregate, and the expression for the value of a member with a timestamp format. -/
def serialize : Value → Id → TimestampFormat → Document
  | .nullopt, _, _ => .null
  | .engaged value, id, format => serialize value id format
  | .boolean value, _, _ => .bool value
  | .byte value, _, _ => .int (Int64.ofInt value.toInt)
  | .short value, _, _ => .int (Int64.ofInt value.toInt)
  | .integer value, _, _ => .int (Int64.ofInt value.toInt)
  | .long value, _, _ => .int value
  | .float value, _, _ => .double value.toBinary64
  | .double value, _, _ => .double value
  | .string text, _, _ => .string text
  | .enum value, id, _ =>
    match (serde.model.shape id).type with
    | .enum values => .string (value.toText values)
    | _ => .null
  | .intEnum value, _, _ => .int (Int64.ofInt value.toInt)
  | .blob bytes, _, _ => .blob bytes
  | .timestamp value, _, format => .timestamp ⟨value, format⟩
  | .document value, _, _ => value
  | .unit, _, _ => .map []
  | .list items, id, _ =>
    match (serde.model.shape id).type with
    | .list member _ => .list (serializeItems items member.target (serde.timestampFormat member))
    | _ => .null
  | .map members, id, _ =>
    match (serde.model.shape id).type with
    | .map _ value _ =>
      .map (OrderedMap.ofEntries (serializeEntries members value.target (serde.timestampFormat value)))
    | _ => .null
  | .struct values, id, _ =>
    match (serde.model.shape id).type with
    | .struct members => .map (OrderedMap.ofEntries (serializeFields values members))
    | _ => .null
  | .empty, _, _ => .map []
  | .alternative index value, id, _ =>
    match (serde.model.shape id).type with
    | .union members discriminated =>
      match members[index]? with
      | some member =>
        let memberDoc := serialize value member.target (serde.timestampFormat member)
        if member.jsonUnknown then memberDoc
        else
          match discriminated, memberDoc with
          | none, _ => .map [(serde.wireName member, memberDoc)]
          | some discriminator, .map fields =>
            .map (DocumentMap.insertOrAssign discriminator (.string (serde.wireName member)) fields)
          | some _, _ => .null
      | none => .null
    | _ => .null

def serializeItems : List Value → Id → TimestampFormat → List Document
  | [], _, _ => []
  | item :: items, id, format => serialize item id format :: serializeItems items id format

def serializeEntries : List (Bytes × Value) → Id → TimestampFormat → List (Bytes × Document)
  | [], _, _ => []
  | (key, value) :: members, id, format => (key, serialize value id format) :: serializeEntries members id format

/-- `writeMemberSerialize`, of each member: an optional that is unset is skipped. -/
def serializeFields : List Value → List (Member Id) → List (Bytes × Document)
  | .nullopt :: values, _ :: members => serializeFields values members
  | value :: values, member :: members =>
    (serde.wireName member, serialize value member.target (serde.timestampFormat member)) ::
      serializeFields values members
  | _, _ => []

end

/-! ## Deserializing -/

section Reading

variable (read : Document × Id → Outcome Value)

def unexpected (path : Bytes) : Outcome Value := .error (.Serialization (path ++ ascii ": unexpected type on the wire").text)

/-- The integers of the narrower types, within their bounds. -/
def readNarrow (doc : Document) (path : Bytes) (low high : ℤ) (make : ℤ → Value) : Outcome Value :=
  match doc with
  | .int value =>
    if value.toInt < low ∨ high < value.toInt then .error (.Serialization (path ++ ascii ": value out of range").text)
    else .ok (make value.toInt)
  | _ => unexpected path

def readFloat (doc : Document) (path : Bytes) : Outcome Value :=
  match doubleFromDocument doc with
  | .error _ => .error (.Serialization (path ++ ascii ": expected a number").text)
  | .ok parsed =>
    match floatFromDouble parsed with
    | .error _ => .error (.Serialization (path ++ ascii ": value out of range").text)
    | .ok narrowed => .ok (.float narrowed)

def readDouble (doc : Document) (path : Bytes) : Outcome Value :=
  match doubleFromDocument doc with
  | .error _ => .error (.Serialization (path ++ ascii ": expected a number").text)
  | .ok parsed => .ok (.double parsed)

/-- `writeDeserializeInto`: the value of a member's type in a document. -/
def deserializeInto (member : Member Id) (doc : Document) (path : Bytes) : Outcome Value :=
  match (serde.model.shape member.target).type with
  | .unit => .ok .unit
  | .boolean =>
    match doc with
    | .bool value => .ok (.boolean value)
    | _ => unexpected path
  | .byte => readNarrow doc path (-128) 127 fun value => .byte (Int8.ofInt value)
  | .short => readNarrow doc path (-32768) 32767 fun value => .short (Int16.ofInt value)
  | .integer => readNarrow doc path (-2147483648) 2147483647 fun value => .integer (Int32.ofInt value)
  | .intEnum => readNarrow doc path (-2147483648) 2147483647 fun value => .intEnum (Int32.ofInt value)
  | .long =>
    match doc with
    | .int value => .ok (.long value)
    | _ => unexpected path
  | .float => readFloat doc path
  | .double => readDouble doc path
  | .string =>
    match doc with
    | .string text => .ok (.string text)
    | _ => unexpected path
  | .enum values =>
    match doc with
    | .string text => .ok (.enum (.fromText values text))
    | _ => unexpected path
  | .blob => (blobFromDocument doc).map .blob
  | .timestamp => (timestampFromDocument doc (serde.timestampFormat member)).map .timestamp
  | .document => .ok (.document doc)
  | .struct _ | .union _ _ | .list _ _ | .map _ _ _ => read (doc, member.target)

/-- What is found and not null. -/
def present (doc : Document) (key : Bytes) : Option Document := (doc.find key).filter (!·.isNull)

/-- `writeMemberRead`: what becomes of a member of the structure, which is required, optional, or has a default. -/
def readMember (container : Shape Id) (doc : Document) (member : Member Id) : Outcome Value :=
  let target := (serde.model.shape member.target).type
  let path := container.typeName ++ ascii "." ++ member.name
  match present doc (serde.wireName member) with
  | some found => do
    let parsed ← serde.deserializeInto read member found path
    return moved (!plain container target member) parsed
  | none =>
    if lenientRequired target member then .ok (literal member)
    else if member.isRequired then
      .error (.Serialization (container.typeName ++ ascii ": missing required member: " ++ serde.wireName member).text)
    else if fillOnParse container target member then .ok (.engaged (literal member))
    else if plain container target member then .ok (literal member)
    else .ok .nullopt

def readStruct (container : Shape Id) (doc : Document) : List (Member Id) → Outcome (List Value)
  | [] => .ok []
  | member :: members => do
    let value ← serde.readMember read container doc member
    let values ← readStruct container doc members
    return value :: values

def readItem (typeName : Bytes) (member : Member Id) (sparse : Bool) (doc : Document) : Outcome Value :=
  if doc.isNull then
    if sparse then .ok .nullopt else .error (.Serialization (typeName ++ ascii ": null element in a dense list").text)
  else (serde.deserializeInto read member doc (typeName ++ ascii "[]")).map (moved sparse)

def readItems (typeName : Bytes) (member : Member Id) (sparse : Bool) : List Document → Outcome (List Value)
  | [] => .ok []
  | doc :: docs => do
    let item ← serde.readItem read typeName member sparse doc
    let items ← readItems typeName member sparse docs
    return item :: items

/-- A null of a dense map is skipped. -/
def readEntries (typeName : Bytes) (member : Member Id) (sparse : Bool) : DocumentMap → Outcome (List (Bytes × Value))
  | [] => .ok []
  | (key, doc) :: entries => do
    if doc.isNull then
      let rest ← readEntries typeName member sparse entries
      return if sparse then (key, .nullopt) :: rest else rest
    else
      let parsed ← serde.deserializeInto read member doc (typeName ++ ascii "\x7b\x7d")
      let rest ← readEntries typeName member sparse entries
      return (key, moved sparse parsed) :: rest

/-- The members of a union but the unknown one, with their places. -/
def known (members : List (Member Id)) : List (Member Id × ℕ) :=
  members.zipIdx.filter fun (member, _) => !member.jsonUnknown

/-- The size is that of one member beside a type hint. -/
def single (doc : Document) : Bool :=
  match doc with
  | .map entries => entries.length - (if (doc.find (ascii "__type")).isSome then 1 else 0) = 1
  | _ => false

/-- The member whose tag is there, and what it is there with. -/
def tagged (members : List (Member Id)) (doc : Document) : Option (Member Id × ℕ × Document) :=
  (known members).findSome? fun (member, index) =>
    (present doc (serde.wireName member)).map fun found => (member, index, found)

/-- The member that the discriminator names. -/
def discriminated (members : List (Member Id)) (discriminator : Bytes) (doc : Document) : Option (Member Id × ℕ) :=
  match doc.find discriminator with
  | some (.string tag) => (known members).find? fun (member, _) => tag = serde.wireName member
  | _ => none

/-- The member a union's deserializer reads, its place, and from which document. -/
def chosen (members : List (Member Id)) (discriminator : Option Bytes) (doc : Document) :
    Option (Member Id × ℕ × Document) :=
  match discriminator with
  | some discriminator => (serde.discriminated members discriminator doc).map fun (member, index) => (member, index, doc)
  | none => if single doc then serde.tagged members doc else none

/-- What is read of a union that is a map. -/
def readUnion (typeName : Bytes) (members : List (Member Id)) (discriminator : Option Bytes) (doc : Document) :
    Outcome Value :=
  match serde.chosen members discriminator doc with
  | some (member, index, found) => do
    let parsed ← serde.deserializeInto read member found (typeName ++ ascii "." ++ serde.wireName member)
    return .alternative index parsed
  | none =>
    match members.findIdx? (·.jsonUnknown) with
    | some unknown => .ok (.alternative unknown (.document doc))
    | none =>
      if discriminator.isNone && !single doc then
        .error (.Serialization (typeName ++ ascii ": expected exactly one union member").text)
      else .error (.Serialization (typeName ++ ascii ": unknown or missing union member").text)

/-- `Deserialize<Shape>`, with itself for the aggregates inside. -/
def deserializeStep : Document × Id → Outcome Value
  | (doc, id) =>
    let shape := serde.model.shape id
    match shape.type, doc with
    | .struct members, .map _ => (serde.readStruct read shape doc members).map .struct
    | .union members discriminator, .map _ => serde.readUnion read shape.typeName members discriminator doc
    | .list member sparse, .list items => (serde.readItems read shape.typeName member sparse items).map .list
    | .map _ value sparse, .map entries =>
      (serde.readEntries read shape.typeName value sparse entries).map fun read => .map (OrderedMap.ofEntries read)
    | .list _ _, _ => .error (.Serialization (shape.typeName ++ ascii ": expected a list on the wire").text)
    | _, _ => .error (.Serialization (shape.typeName ++ ascii ": expected a map on the wire").text)

end Reading

/-- A discriminated union's document is that of the member it reads. -/
def readingDepth : Document × Id → ℕ
  | (doc, id) => 2 * doc.depth + if isUnion (serde.model.shape id).type then 1 else 0

def deserialize : Document × Id → Outcome Value :=
  Descent.run serde.deserializeStep (.error {}) serde.readingDepth

end SerdeCodeGen

end Typed

end OpalCpp

import OpalCpp.Model.Core.Bytes

/-! # The classes of unions

The names that the generator emits into the class of a union, and the check on them. Casing is that of the
generator's library, a parameter.
-/

namespace OpalCpp.Codegen

open Bytes (ascii)

/-! ## Names -/

def KEYWORDS : List String :=
  ["alignas", "alignof", "and", "and_eq", "asm", "auto", "bitand", "bitor", "bool", "break", "case", "catch", "char",
    "char8_t", "char16_t", "char32_t", "class", "compl", "concept", "const", "consteval", "constexpr", "constinit",
    "const_cast", "continue", "co_await", "co_return", "co_yield", "decltype", "default", "delete", "do", "double",
    "dynamic_cast", "else", "enum", "explicit", "export", "extern", "false", "float", "for", "friend", "goto", "if",
    "inline", "int", "long", "mutable", "namespace", "new", "noexcept", "not", "not_eq", "nullptr", "operator", "or",
    "or_eq", "private", "protected", "public", "register", "reinterpret_cast", "requires", "return", "short", "signed",
    "sizeof", "static", "static_assert", "static_cast", "struct", "switch", "template", "this", "thread_local", "throw",
    "true", "try", "typedef", "typeid", "typename", "union", "unsigned", "using", "virtual", "void", "volatile",
    "wchar_t", "while"]

/-- `CppReservedWords.escape` of the name of a member. -/
def toMemberName (memberName : Bytes) : Bytes :=
  if memberName ∈ KEYWORDS.map ascii then memberName ++ ascii "_" else memberName

/-- The loop over the members and the names they fold to, with the members that own a name so far. -/
def requireDistinctNames (kind shapeId : Bytes) (reserved : List Bytes) :
    List (Bytes × Bytes) → List (Bytes × Bytes) → Except Bytes Unit
  | [], _ => .ok ()
  | (member, folded) :: rest, owner =>
    if folded ∈ reserved then
      .error (ascii "cpp-codegen: " ++ kind ++ ascii " " ++ shapeId ++ ascii " member '" ++ member ++
        ascii "' maps to the reserved generated name '" ++ folded ++ ascii "'; rename the member")
    else
      match owner.lookup folded with
      | some prior =>
        .error (ascii "cpp-codegen: " ++ kind ++ ascii " " ++ shapeId ++ ascii " members '" ++ prior ++ ascii "' and '" ++
          member ++ ascii "' both map to the generated name '" ++ folded ++
          ascii "'; rename one so their generated names differ")
      | none => requireDistinctNames kind shapeId reserved rest ((folded, member) :: owner)

/-! ## Classes -/

/-- The names of the members of the class of a tagged variant, as they are emitted. -/
def emitTaggedVariant (toPascalCase : Bytes → Bytes) (members : List Bytes) (withFactories : Bool) : List Bytes :=
  members.flatMap (fun memberName =>
    (if withFactories then [ascii "From" ++ toPascalCase memberName] else []) ++
      [ascii "is_" ++ memberName, ascii "as_" ++ memberName, ascii "as_" ++ memberName ++ ascii "_or_null"]) ++
    [ascii "empty", ascii "case_name", ascii "visit", ascii "AppendDebugTo", ascii "DebugString", ascii "require_is",
      ascii "value_"]

/-- A union, by the names of its members, no two of which are the same. -/
structure UnionShape where
  id : Bytes
  members : List Bytes
  distinct : members.Nodup

/-- The names of the members of the class that is generated, if there is one. -/
def generateUnion (toPascalCase : Bytes → Bytes) (shape : UnionShape) : Except Bytes (List Bytes) := do
  let folded := shape.members.map fun member => (member, ascii "From" ++ toPascalCase (toMemberName member))
  requireDistinctNames (ascii "union") shape.id [] folded []
  return emitTaggedVariant toPascalCase (shape.members.map toMemberName) true

end OpalCpp.Codegen

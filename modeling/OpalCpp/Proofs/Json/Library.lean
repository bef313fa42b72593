import OpalCpp.Machine.JsonText
import OpalCpp.Model.Json.Json

/-! # The JSON library

What the codec relies on: the compact format of `dump`, and that a value comes back from its text.
-/

namespace OpalCpp.Json

open Bytes (ascii)

mutual

/-- Strings are UTF-8, numbers are finite, and the keys of objects are in order. -/
def Valid : Value → Prop
  | .number (.float value) => value.value? ≠ none
  | .string value => Utf8.Valid value
  | .array items => allValid items
  | .object members => (members.map Prod.fst).Pairwise (· < ·) ∧ membersValid members
  | _ => True

def allValid : List Value → Prop
  | [] => True
  | item :: items => Valid item ∧ allValid items

def membersValid : List (Bytes × Value) → Prop
  | [] => True
  | (key, value) :: members => Utf8.Valid key ∧ Valid value ∧ membersValid members

end

/-- The parser's type of a number: an integer that is not negative is unsigned. -/
def Number.reparsed : Number → Number
  | .integer value => if value < 0 then .integer value else .unsigned value.toUInt64
  | number => number

mutual

/-- The value with the types of numbers that its text has. -/
def reparsed : Value → Value
  | .number value => .number value.reparsed
  | .array items => .array (allReparsed items)
  | .object members => .object (membersReparsed members)
  | value => value

def allReparsed : List Value → List Value
  | [] => []
  | item :: items => reparsed item :: allReparsed items

def membersReparsed : List (Bytes × Value) → List (Bytes × Value)
  | [] => []
  | (key, value) :: members => (key, reparsed value) :: membersReparsed members

end

/-- Every quote is escaped, and the last byte escapes nothing. -/
def Escaped : Bytes → Prop
  | [] => True
  | c :: rest =>
    if c = JsonText.backslash then
      match rest with
      | [] => False
      | _ :: rest => Escaped rest
    else c ≠ JsonText.quote ∧ Escaped rest

theorem escaped_nil : Escaped [] := by
  rw [Escaped]
  trivial

theorem escaped_slash (c : UInt8) (rest : Bytes) : Escaped (JsonText.backslash :: c :: rest) ↔ Escaped rest := by
  rw [Escaped.eq_def]
  rfl

theorem escaped_cons {c : UInt8} (notSlash : c ≠ JsonText.backslash) (rest : Bytes) :
    Escaped (c :: rest) ↔ c ≠ JsonText.quote ∧ Escaped rest := by
  rw [Escaped.eq_def]
  simp only [if_neg notSlash]

/-- No bracket, brace or quote. -/
def Plain (text : Bytes) : Prop :=
  ∀ c ∈ text, c ∉ [JsonText.quote, JsonText.openBracket, JsonText.closeBracket, JsonText.openBrace, JsonText.closeBrace]

open JsonText (quote comma colon openBracket closeBracket openBrace closeBrace) in
/-- The documented behaviour of the library. -/
structure Backend.Lawful (backend : Backend) : Prop where
  dump_null : Plain (backend.dump .null)
  dump_bool : ∀ value, Plain (backend.dump (.bool value))
  dump_number : ∀ value, Plain (backend.dump (.number value))
  dump_string : ∀ text, ∃ body, backend.dump (.string text) = quote :: (body ++ [quote]) ∧ Escaped body
  dump_array : ∀ items,
    backend.dump (.array items) = openBracket :: (Delimited.join comma (items.map backend.dump) ++ [closeBracket])
  dump_object : ∀ members, backend.dump (.object members) = openBrace :: (Delimited.join comma
    (members.map fun member => backend.dump (.string member.1) ++ colon :: backend.dump member.2) ++ [closeBrace])
  parse_dump : ∀ value, Valid value → backend.parse (backend.dump value) = some (reparsed value)
  valid_of_parse : ∀ text value, backend.parse text = some value → Valid value

end OpalCpp.Json

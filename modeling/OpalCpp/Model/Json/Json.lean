import OpalCpp.Machine.JsonText
import OpalCpp.Model.Core.Base64
import OpalCpp.Model.Core.Document
import OpalCpp.Model.Core.TimestampText

/-! # The JSON codec

Documents to and from the values of the JSON library, whose parser and printer are parameters. Both
sides keep the members of an object in the order of their keys.
-/

namespace OpalCpp.Json

open Bytes (ascii)

/-- The numbers of the library: `number_integer`, `number_unsigned` and `number_float`. -/
inductive Number where
  | integer (value : Int64)
  | unsigned (value : UInt64)
  | float (value : Binary64)
deriving DecidableEq

abbrev Value := JsonValue Number

/-- The library: `parse` without exceptions, nothing being a discarded value, and the compact `dump` that
replaces invalid UTF-8. -/
structure Backend where
  parse : Bytes → Option Value
  dump : Value → Bytes

mutual

def toBackend : Document → Value
  | .null => .null
  | .bool value => .bool value
  | .int value => .number (.integer value)
  | .double value =>
    -- Smithy's protocols write the doubles that are no numbers as strings.
    if value.isNaN then .string (ascii "NaN")
    else if value.isInfinite then .string (if value.isNegative then ascii "-Infinity" else ascii "Infinity")
    else .number (.float value)
  | .string value => .string value
  | .blob value => .string (base64Encode value)
  | .timestamp ts =>
    if ts.format = .epochSeconds then
      let seconds := ts.value.epochSeconds
      let whole := Int64.ofInt (Binary64.truncate (seconds.value?.getD 0))
      if (Timestamp.toDouble whole).equals seconds then .number (.integer whole) else .number (.float seconds)
    else .string (ts.value.format ts.format)
  | .list items => .array (toBackendAll items)
  | .map members => .object (toBackendMembers members)

def toBackendAll : List Document → List Value
  | [] => []
  | item :: items => toBackend item :: toBackendAll items

def toBackendMembers : DocumentMap → List (Bytes × Value)
  | [] => []
  | (key, value) :: members => (key, toBackend value) :: toBackendMembers members

end

def kMaxNestingDepth : ℤ := 512

/-- The scan from a depth, inside or outside of a string, after a backslash or not. -/
def exceedsMaxDepth (depth : ℤ) (inString escaped : Bool) : Bytes → Bool
  | [] => false
  | c :: rest =>
    if inString then
      if escaped then exceedsMaxDepth depth true false rest
      else if c = 0x5c then exceedsMaxDepth depth true true rest
      else if c = '"'.toUInt8 then exceedsMaxDepth depth false false rest
      else exceedsMaxDepth depth true false rest
    else if c = '"'.toUInt8 then exceedsMaxDepth depth true escaped rest
    else if c = '['.toUInt8 ∨ c = 0x7b then
      if kMaxNestingDepth < depth + 1 then true else exceedsMaxDepth (depth + 1) false escaped rest
    else if c = ']'.toUInt8 ∨ c = 0x7d then exceedsMaxDepth (depth - 1) false escaped rest
    else exceedsMaxDepth depth false escaped rest

mutual

def fromBackend : Value → Outcome Document
  | .null => .ok .null
  | .bool value => .ok (.bool value)
  | .number (.integer value) => .ok (.int value)
  | .number (.unsigned raw) =>
    if 0x7FFFFFFFFFFFFFFF < raw then .error (.Serialization "json: integer exceeds int64 range")
    else .ok (.int raw.toInt64)
  | .number (.float value) => .ok (.double value)
  | .string value => .ok (.string value)
  | .array items => (fromBackendAll items).map .list
  | .object members => (fromBackendMembers members []).map .map

def fromBackendAll : List Value → Outcome (List Document)
  | [] => .ok []
  | item :: items => do
    let converted ← fromBackend item
    let list ← fromBackendAll items
    return converted :: list

/-- The rest of the members, added to the map. -/
def fromBackendMembers : List (Bytes × Value) → DocumentMap → Outcome DocumentMap
  | [], map => .ok map
  | (key, item) :: members, map => do
    let converted ← fromBackend item
    fromBackendMembers members (map.insertOrAssign key converted)

end

def encode (backend : Backend) (doc : Document) : Bytes := backend.dump (toBackend doc)

def decode (backend : Backend) (text : Bytes) : Outcome Document :=
  if exceedsMaxDepth 0 false false text then .error (.Serialization "json: nesting too deep")
  else
    match backend.parse text with
    | none => .error (.Serialization "json: malformed document")
    | some parsed => fromBackend parsed

end OpalCpp.Json

import OpalCpp.Machine.FloatFormat
import OpalCpp.Machine.Shortest
import OpalCpp.Model.Core.Document
import OpalCpp.Model.Core.TimestampText

/-! # Debug texts

What `DebugAppend` appends for the runtime's own types.
-/

namespace OpalCpp.Print

open Bytes (ascii)

def kHex : Bytes := ascii "0123456789abcdef"

/-- `kHex[byte >> 4]` and `kHex[byte & 0xF]`. -/
def hexByte (byte : UInt8) : Bytes := [kHex.getD (byte >>> 4).toNat 0, kHex.getD (byte &&& 0xF).toNat 0]

def quotedByte (c : UInt8) : Bytes :=
  if c = '"'.toUInt8 then ascii "\\\""
  else if c = '\\'.toUInt8 then ascii "\\\\"
  else if c = '\n'.toUInt8 then ascii "\\n"
  else if c = '\t'.toUInt8 then ascii "\\t"
  else if c = '\r'.toUInt8 then ascii "\\r"
  else if c < 0x20 then ascii "\\x" ++ hexByte c
  else [c]

def appendQuoted (text : Bytes) : Bytes := ascii "\"" ++ text.flatMap quotedByte ++ ascii "\""

/-- `std::to_chars` of an integer. -/
def integerText (value : ℤ) : Bytes := (if value < 0 then ascii "-" else []) ++ Decimal.decimal value.natAbs

def floatText (value : Binary32) : Bytes := FloatFormat.binary32.toChars value.isNegative value.code

def doubleText (value : Binary64) : Bytes := FloatFormat.binary64.toChars value.isNegative value.code

def boolText (value : Bool) : Bytes := if value then ascii "true" else ascii "false"

def kMaxHexBytes : ℕ := 16

def blobText (bytes : Bytes) : Bytes :=
  ascii "Blob(" ++ Decimal.decimal bytes.length ++ ascii " bytes" ++
    (if bytes.isEmpty then []
      else
        let shown := min bytes.length kMaxHexBytes
        ascii ": " ++ (bytes.take shown).flatMap hexByte ++
          if kMaxHexBytes < bytes.length then [0xE2, 0x80, 0xA6] else []) ++
    ascii ")"

def timestampText (value : Timestamp) : Bytes := ascii "Timestamp(" ++ value.format .dateTime ++ ascii ")"

/-- The elements of a container, with what stands between them. -/
def separated (texts : List Bytes) : Bytes := (texts.intersperse (ascii ", ")).flatten

mutual

def documentText : Document → Bytes
  | .null => ascii "null"
  | .bool value => boolText value
  | .int value => integerText value.toInt
  | .double value => doubleText value
  | .string text => appendQuoted text
  | .blob bytes => blobText bytes
  | .timestamp value => timestampText value.value
  | .list items => ascii "[" ++ separated (documentTexts items) ++ ascii "]"
  | .map members => ascii "\x7b" ++ separated (memberTexts members) ++ ascii "\x7d"

def documentTexts : List Document → List Bytes
  | [] => []
  | item :: items => documentText item :: documentTexts items

def memberTexts : List (Bytes × Document) → List Bytes
  | [] => []
  | (key, value) :: members => (appendQuoted key ++ ascii ": " ++ documentText value) :: memberTexts members

end

end OpalCpp.Print

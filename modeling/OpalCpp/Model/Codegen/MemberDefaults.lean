import OpalCpp.Machine.CppLiteral
import OpalCpp.Model.Codegen.Serde
import OpalCpp.Model.Core.Base64
import OpalCpp.Model.Core.Bytes

/-! # Initializers of defaulted members

The C++ expressions that are emitted for `@default`, with the literals of texts and 64-bit integers in them,
and what they come to. A text is one of characters: an unpaired surrogate has no UTF-8. `Double.toString` is
a parameter.
-/

namespace OpalCpp.Codegen

open Bytes (ascii)
open Typed (ShapeType Value EnumValue)

/-! ## Literals -/

/-- `getBytes(UTF_8)` -/
def utf8 (text : List Char) : Bytes := text.flatMap String.utf8EncodeChar

/-- The switch of `escapeStringBody` on one byte. -/
def escapeByte (b : UInt8) : Bytes :=
  if b = '"'.toUInt8 then ascii "\\\""
  else if b = '\\'.toUInt8 then ascii "\\\\"
  else if b = '\n'.toUInt8 then ascii "\\n"
  else if b = '\r'.toUInt8 then ascii "\\r"
  else if b = '\t'.toUInt8 then ascii "\\t"
  else if 0x20 ≤ b ∧ b < 0x7F then [b]
  else '\\'.toUInt8 :: [b.toNat / 64, b.toNat / 8 % 8, b.toNat % 8].map Decimal.digit

def escapeStringBody (text : List Char) : Bytes := (utf8 text).flatMap escapeByte

def stringLiteral (text : List Char) : Bytes := ascii "\"" ++ escapeStringBody text ++ ascii "\""

def int64Literal (value : Int64) : Bytes :=
  if value = Int64.minValue then ascii "(-9223372036854775807LL - 1)" else CppLiteral.decimalText value.toInt

/-! ## Nodes -/

/-- The number of a node: an integer of any size, or a number with a point or an exponent. -/
inductive NumberNode where
  | integer (value : ℤ)
  | floating (value : Binary64)

namespace NumberNode

/-- A number in the range of a `long`, or the end of the range that it is beyond. -/
def saturate (value : ℤ) : Int64 := Int64.ofInt (max (-2 ^ 63) (min value (2 ^ 63 - 1)))

/-- `longValue()`: the low bits of an integer, and a double towards zero. -/
def longValue : NumberNode → Int64
  | integer value => Int64.ofInt value
  | floating x =>
    match x.value? with
    | some value => saturate (Binary64.truncate value)
    | none => if x.isNaN then 0 else if x.isNegative then Int64.minValue else Int64.maxValue

def doubleValue : NumberNode → Binary64
  | integer value => Binary64.nearest value
  | floating value => value

/-- The number itself; a number too large for a double has none. -/
def exactValue? : NumberNode → Option ℚ
  | integer value => some value
  | floating value => value.value?

end NumberNode

/-- The node of a default; lists and maps are empty. -/
inductive Node where
  | string (value : List Char)
  | boolean (value : Bool)
  | number (value : NumberNode)
  | array
  | object

/-! ## Java's library -/

/-- `Math.round(x * 1000.0)` -/
def roundThousandfold (x : Binary64) : Int64 :=
  let product := x.value?.elim x fun value => Binary64.nearest (value * 1000)
  match product.value? with
  | some value => NumberNode.saturate ⌊value + 1 / 2⌋
  | none => if product.isNaN then 0 else if product.isNegative then Int64.minValue else Int64.maxValue

/-- The place of a character in the alphabet. -/
def sextetOf (c : Char) : Option ℕ := if c.val < 0x80 then (kDecode c.toUInt8).map UInt32.toNat else none

/-- The bytes of the characters of one unit. -/
def unitBytes : List ℕ → Bytes
  | [a, b] => [UInt8.ofNat (a * 4 + b / 16)]
  | [a, b, c] => [UInt8.ofNat (a * 4 + b / 16), UInt8.ofNat (b * 16 + c / 4)]
  | [a, b, c, d] => [UInt8.ofNat (a * 4 + b / 16), UInt8.ofNat (b * 16 + c / 4), UInt8.ofNat (c * 64 + d)]
  | _ => []

/-- `Base64.getDecoder().decode`: the padding at the end may be left out, and the bits before it are not looked at. -/
def base64Decoder : List Char → Option Bytes
  | [] => some []
  | [_] => none
  | a :: b :: c :: d :: rest =>
    if rest = [] ∧ d = '=' then ((if c = '=' then [a, b] else [a, b, c]).mapM sextetOf).map unitBytes
    else do
      let sextets ← [a, b, c, d].mapM sextetOf
      let more ← base64Decoder rest
      some (unitBytes sextets ++ more)
  | short => (short.mapM sextetOf).map unitBytes

/-- `new String(bytes, ISO_8859_1)` -/
def latin1 (bytes : Bytes) : List Char := bytes.map fun byte => Char.ofNat byte.toNat

/-! ## Expressions -/

section Literal

variable {Id : Type*}

/-- The defaults there is an initializer for. -/
def supported (target : ShapeType Id) (value : Node) : Bool :=
  match target with
  | .string | .enum _ | .boolean | .byte | .short | .integer | .long | .intEnum | .float | .double | .blob => true
  | .timestamp => (value matches .number _)
  | .list _ _ | .map _ _ _ => true
  | _ => false

variable (doubleToString : Binary64 → Bytes)

/-- `MemberDefaults.literal`, of a target with the name of its type; there is none where a node is not of the kind
that is expected. -/
def literal (type : Bytes) (target : ShapeType Id) (value : Node) : Option Bytes :=
  match target, value with
  | .string, .string text => some (stringLiteral text)
  | .enum _, .string text => some (type ++ ascii "::FromString(" ++ stringLiteral text ++ ascii ")")
  | .boolean, .boolean value => some (if value then ascii "true" else ascii "false")
  | .byte, .number value | .short, .number value | .integer, .number value =>
    some (CppLiteral.decimalText value.longValue.toInt)
  | .long, .number value => some (int64Literal value.longValue)
  | .intEnum, .number value =>
    some (ascii "static_cast<" ++ type ++ ascii ">(" ++ CppLiteral.decimalText value.longValue.toInt ++ ascii ")")
  | .float, .number value => some (ascii "static_cast<float>(" ++ doubleToString value.doubleValue ++ ascii ")")
  | .double, .number value => some (doubleToString value.doubleValue)
  | .timestamp, .number value =>
    some (ascii "opal::Timestamp::FromEpochMilliseconds(" ++
      CppLiteral.decimalText (roundThousandfold value.doubleValue).toInt ++ ascii "LL)")
  | .blob, .string text => (base64Decoder text).map fun bytes =>
      ascii "opal::Blob::FromString(" ++ stringLiteral (latin1 bytes) ++ ascii ")"
  | .list _ _, _ | .map _ _ _, _ => some (type ++ ascii "\x7b\x7d")
  | _, _ => none

end Literal

/-! ## Initializers -/

section Evaluate

open CppLiteral (after readString readInteger readFloating cString)

variable {Id : Type*}

/-- A call of one argument, by what is in front of the argument and how the argument is read. -/
def readCall {α : Type} (front : Bytes) (read : Bytes → Option (α × Bytes)) (text : Bytes) : Option α := do
  let argument ← after front text
  let (value, rest) ← read argument
  if rest = ascii ")" then some value else none

/-- An expression that is nothing but what is read. -/
def readWhole {α : Type} (read : Bytes → Option (α × Bytes)) (text : Bytes) : Option α := do
  let (value, rest) ← read text
  if rest = [] then some value else none

/-- A floating literal in front of the parenthesis that closes a call. -/
def readFloatingOperand (text : Bytes) : Option (Binary64 × Bytes) :=
  if text.getLast? = some ')'.toUInt8 then (readFloating text.dropLast).map fun value => (value, ascii ")") else none

/-- What a member of the type of a target holds that is initialized with an expression, of the forms that are emitted.
An integer is converted to the type it initializes, and a string literal is a pointer to its first character. -/
def evaluate (type : Bytes) (target : ShapeType Id) (text : Bytes) : Option Value :=
  match target with
  | .string => (readWhole readString text).map fun bytes => .string (cString bytes)
  | .enum values => (readCall (type ++ ascii "::FromString(") readString text).map fun bytes =>
      .enum (EnumValue.fromText values (cString bytes))
  | .boolean =>
    if text = ascii "true" then some (.boolean true) else if text = ascii "false" then some (.boolean false) else none
  | .byte => (readWhole readInteger text).map fun value => .byte (Int8.ofInt value)
  | .short => (readWhole readInteger text).map fun value => .short (Int16.ofInt value)
  | .integer => (readWhole readInteger text).map fun value => .integer (Int32.ofInt value)
  | .long => (readWhole readInteger text).map fun value => .long (Int64.ofInt value)
  | .intEnum => (readCall (ascii "static_cast<" ++ type ++ ascii ">(") readInteger text).map fun value =>
      .intEnum (Int32.ofInt value)
  | .float =>
    (readCall (ascii "static_cast<float>(") readFloatingOperand text).map fun value => .float (Binary32.ofBinary64 value)
  | .double => (readFloating text).map .double
  | .timestamp => (readCall (ascii "opal::Timestamp::FromEpochMilliseconds(") readInteger text).map fun value =>
      .timestamp ⟨Int64.ofInt value⟩
  | .blob => (readCall (ascii "opal::Blob::FromString(") readString text).map fun bytes => .blob (cString bytes)
  | .list _ _ => if text = type ++ ascii "\x7b\x7d" then some (.list []) else none
  | .map _ _ _ => if text = type ++ ascii "\x7b\x7d" then some (.map []) else none
  | _ => none

end Evaluate

/-! ## Values -/

section Modeled

variable {Id : Type*}

/-- The texts that a default has instead of a number. -/
def nonFinite (text : List Char) : Option Binary64 :=
  if text = "NaN".toList then some Binary64.quietNaN
  else if text = "Infinity".toList then some Binary64.infinity
  else if text = "-Infinity".toList then some Binary64.infinity.neg
  else none

/-- The value of a member that a default stands for. A timestamp is given in seconds, and has the milliseconds that
are nearest to them. -/
inductive Modeled : ShapeType Id → Node → Value → Prop
  | string (text : List Char) : Modeled .string (.string text) (.string (utf8 text))
  | enum {values : List Bytes} {index : ℕ} {text : List Char} (distinct : values.Nodup)
      (there : values[index]? = some (utf8 text)) : Modeled (.enum values) (.string text) (.enum ⟨some index, []⟩)
  | boolean (value : Bool) : Modeled .boolean (.boolean value) (.boolean value)
  | byte (value : Int8) : Modeled .byte (.number (.integer value.toInt)) (.byte value)
  | short (value : Int16) : Modeled .short (.number (.integer value.toInt)) (.short value)
  | integer (value : Int32) : Modeled .integer (.number (.integer value.toInt)) (.integer value)
  | long (value : Int64) : Modeled .long (.number (.integer value.toInt)) (.long value)
  | intEnum (value : Int32) : Modeled .intEnum (.number (.integer value.toInt)) (.intEnum value)
  | float (number : NumberNode) : Modeled .float (.number number) (.float (Binary32.ofBinary64 number.doubleValue))
  | double (number : NumberNode) : Modeled .double (.number number) (.double number.doubleValue)
  | floatText {text : List Char} {x : Binary64} (named : nonFinite text = some x) :
      Modeled .float (.string text) (.float (Binary32.ofBinary64 x))
  | doubleText {text : List Char} {x : Binary64} (named : nonFinite text = some x) :
      Modeled .double (.string text) (.double x)
  | timestamp {number : NumberNode} {seconds : ℚ} {value : Timestamp} (exact_ : number.exactValue? = some seconds)
      (nearest : |seconds * 1000 - value.ms.toInt| < 1 / 2) : Modeled .timestamp (.number number) (.timestamp value)
  | blob {text : List Char} {bytes : Bytes} (decoded : base64Decoder text = some bytes) :
      Modeled .blob (.string text) (.blob bytes)
  | list (member : Typed.Member Id) (sparse : Bool) : Modeled (.list member sparse) .array (.list [])
  | map (key value : Typed.Member Id) (sparse : Bool) : Modeled (.map key value sparse) .object (.map [])

/-- The defaults of a target that there is an initializer for: those with a value, and for timestamps all numbers. -/
def Admitted (target : ShapeType Id) (node : Node) : Prop :=
  supported target node = true ∧ (target = .timestamp ∨ ∃ value, Modeled target node value)

end Modeled

end OpalCpp.Codegen

import OpalCpp.Model.Core.Print

/-! # Numbers in texts

The texts of numbers in headers, labels and queries: what the runtime formats, and what the helpers of
generated code read, strictly.
-/

namespace OpalCpp

open Bytes (ascii)

/-! ## Formatting -/

/-- The text stays that of a floating-point number. -/
def withPoint (text : Bytes) : Bytes :=
  if '.'.toUInt8 ∈ text ∨ 'e'.toUInt8 ∈ text then text else text ++ ascii ".0"

def formatDouble (value : Binary64) : Bytes :=
  if value.isNaN then ascii "NaN"
  else if value.isInfinite then if value.isNegative then ascii "-Infinity" else ascii "Infinity"
  else withPoint (Print.doubleText value)

/-! ## Reading -/

/-- `std::from_chars` of all of a text: digits, and a minus before them. -/
def fromChars (text : Bytes) : Option ℤ :=
  let negative := text.head? = some '-'.toUInt8
  let digits := if negative then text.tail else text
  if digits = [] then none
  else (Decimal.read digits).map fun magnitude => if negative then -(magnitude : ℤ) else magnitude

def parseInt64Text (text : Bytes) (minValue maxValue : ℤ) : Outcome ℤ :=
  let invalid : Outcome ℤ := .error (.Serialization ("invalid integer: " ++ text.text))
  match fromChars text with
  | none => invalid
  | some value =>
    if value < -2 ^ 63 ∨ 2 ^ 63 ≤ value ∨ value < minValue ∨ maxValue < value then invalid else .ok value

/-- The exponent of a number, which takes all of what is left. -/
def readPower (text : Bytes) : Option ℤ :=
  match text with
  | [] => some 0
  | letter :: text =>
    if letter = 'e'.toUInt8 ∨ letter = 'E'.toUInt8 then
      fromChars (if text.head? = some '+'.toUInt8 ∧ text.tail.head? ≠ some '-'.toUInt8 then text.tail else text)
    else none

/-- What `std::strtod` reads of a text that it consumes: digits with a point among them or not, and an exponent. -/
def readNumber (text : Bytes) : Option ℚ := do
  let whole := text.takeWhile Decimal.isDigit
  let rest := text.dropWhile Decimal.isDigit
  let pointed := rest.head? = some '.'.toUInt8
  let fraction := if pointed then rest.tail.takeWhile Decimal.isDigit else []
  let power ← readPower (if pointed then rest.tail.dropWhile Decimal.isDigit else rest)
  guard (whole ++ fraction ≠ [])
  let digits ← Decimal.read (whole ++ fraction)
  return digits * 10 ^ (power - fraction.length)

/-- The characters of a number that a document of JSON could have. -/
def validChar (c : UInt8) : Bool :=
  Decimal.isDigit c || c = '.'.toUInt8 || c = 'e'.toUInt8 || c = 'E'.toUInt8 || c = '+'.toUInt8 || c = '-'.toUInt8

def parseDoubleText (text : Bytes) : Outcome Binary64 :=
  let invalid : Outcome Binary64 := .error (.Serialization ("invalid number: " ++ text.text))
  if text = ascii "NaN" then .ok .quietNaN
  else if text = ascii "Infinity" then .ok .infinity
  else if text = ascii "-Infinity" then .ok Binary64.infinity.neg
  else if text = [] ∨ text.head? = some '+'.toUInt8 ∨ !text.all validChar then invalid
  else
    let negative := text.head? = some '-'.toUInt8
    match readNumber (if negative then text.tail else text) with
    | none => invalid
    | some number =>
      let value := Binary64.nearest number
      if value.value? = none then invalid else .ok (if negative then value.neg else value)

end OpalCpp

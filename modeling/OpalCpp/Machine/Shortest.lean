import OpalCpp.Machine.Decimal
import OpalCpp.Machine.FloatFormat

/-! # Shortest texts of binary numbers

The text of a binary number with as few digits as read back to it, in fixed or in scientific notation,
whichever is shorter. An integer in fixed notation has its own digits.
-/

namespace OpalCpp

namespace FloatFormat

variable (format : FloatFormat)

/-- The multiple of a power of ten closest to the magnitude that is rounded to it, of the two around it. -/
def closest (code : ℕ) (exponent : ℤ) : Option ℕ :=
  let scaled := format.magnitude code / 10 ^ exponent
  let near := Binary64.roundHalfEven scaled
  let far := if near = ⌊scaled⌋₊ then near + 1 else ⌊scaled⌋₊
  if format.nearestCode (near * 10 ^ exponent) = code then some near
  else if format.nearestCode (far * 10 ^ exponent) = code then some far
  else none

/-- A digit more at a time, until there are enough of them. -/
def searchDigits (code : ℕ) : ℕ → ℤ → ℕ × ℤ
  | 0, exponent => (0, exponent)
  | fuel + 1, exponent =>
    match format.closest code exponent with
    | some digits => (digits, exponent)
    | none => searchDigits code fuel (exponent - 1)

/-- The exponent of the smallest magnitude. -/
def least : ℤ := 1 - format.bias - format.fraction

/-- The digits of a magnitude that is not zero and the power of ten they count. -/
def shortestDigits (code : ℕ) : ℕ × ℤ :=
  let exponent := Int.log 10 (format.magnitude code)
  format.searchDigits code ((exponent - format.least).toNat + 1) exponent

end FloatFormat

namespace Decimal

def point : UInt8 := 0x2E

/-- `digits` times a power of ten, without an exponent. -/
def pointed (digits : ℕ) (exponent : ℤ) : List UInt8 :=
  if 0 ≤ exponent then decimal (digits * 10 ^ exponent.toNat)
  else
    let width := (-exponent).toNat
    let text := zeroPadded (width + 1) digits
    text.take (text.length - width) ++ point :: text.drop (text.length - width)

/-- The exponent of scientific notation, of two digits at least. -/
def exponentText (exponent : ℤ) : List UInt8 :=
  0x65 :: (if exponent < 0 then 0x2D else 0x2B) :: zeroPadded 2 exponent.natAbs

/-- `digits` times a power of ten, with one digit in front of the point. -/
def scientific (digits : ℕ) (exponent : ℤ) : List UInt8 :=
  let text := decimal digits
  text.take 1 ++ (if text.length = 1 then [] else point :: text.drop 1) ++ exponentText (exponent + (text.length - 1 : ℕ))

end Decimal

namespace FloatFormat

variable (format : FloatFormat)

/-- The text of a finite magnitude. A ten is the carry of a nine, the only digits with a zero at the end. -/
def magnitudeText (code : ℕ) : List UInt8 :=
  if code = 0 then [Decimal.digit 0]
  else
    let x := format.magnitude code
    let (digits, exponent) := format.shortestDigits code
    let fixed := if (⌊x⌋₊ : ℚ) = x then Decimal.decimal ⌊x⌋₊ else Decimal.pointed digits exponent
    let scientific :=
      if digits = 10 then Decimal.scientific 1 (exponent + 1) else Decimal.scientific digits exponent
    if fixed.length ≤ scientific.length then fixed else scientific

/-- `std::to_chars` without a format, by the bits without the sign. -/
def toChars (negative : Bool) (code : ℕ) : List UInt8 :=
  (if negative then [0x2D] else []) ++
    if code < format.infinite then format.magnitudeText code
    else if code = format.infinite then [0x69, 0x6E, 0x66] else [0x6E, 0x61, 0x6E]

end FloatFormat

end OpalCpp

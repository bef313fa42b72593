import Mathlib.Data.List.Lex
import Mathlib.Data.UInt

/-! # Byte strings

`std::string`, `std::string_view` and `Blob` are all lists of bytes here. The two loops over the
bytes of a 64-bit number are those of the codecs, which spell them out each for itself.
-/

namespace OpalCpp

abbrev Bytes := List UInt8

instance Bytes.instLawfulBEq : LawfulBEq (List UInt8) := inferInstance

namespace Bytes

/-- The bytes as text, for messages. -/
def text (bytes : Bytes) : String := String.ofList (bytes.map fun byte => Char.ofNat byte.toNat)

/-- A literal of the source. -/
def ascii (text : String) : Bytes := text.toList.map Char.toUInt8

/-- Strings compare by their bytes, which are unsigned. -/
scoped instance : LinearOrder UInt8 where
  le_refl a := UInt8.le_refl a
  le_trans _ _ _ := UInt8.le_trans
  le_antisymm _ _ := UInt8.le_antisymm
  le_total a b := UInt8.le_total a b
  lt_iff_le_not_ge a b := by
    rw [UInt8.not_le]
    exact ⟨fun less => ⟨UInt8.le_of_lt less, less⟩, And.right⟩
  toDecidableLE := inferInstance

/-- `substr` within the bounds of the string. -/
def substr (bytes : Bytes) (pos count : ℕ) : Bytes := (bytes.drop pos).take count

end Bytes

/-- Every byte that is not a UTF-8 continuation byte (10xxxxxx): `@length` counts code points. -/
def utf8CodePointCount (text : Bytes) : ℕ :=
  text.foldl (fun count c => if c &&& 0xC0 ≠ 0x80 then count + 1 else count) 0

/-- `(value >> shift) & 0xFF` for every shift from the highest byte down. -/
def writeBigEndian (value : UInt64) : ℕ → Bytes
  | 0 => []
  | width + 1 => ((value >>> UInt64.ofNat (8 * width)) &&& 0xFF).toUInt8 :: writeBigEndian value width

/-- `value = (value << 8) | byte` over the bytes. -/
def readBigEndian (bytes : Bytes) : UInt64 :=
  bytes.foldl (fun value byte => (value <<< 8) ||| byte.toUInt64) 0

end OpalCpp

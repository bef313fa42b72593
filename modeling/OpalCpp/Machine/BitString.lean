import Mathlib.Data.List.GetD
import Mathlib.Tactic.Common

/-! # Bytes as strings of bits

The bits of a byte string in network order, the highest of each byte first. Two strings that agree on their
first bits agree on whole bytes, and then under a mask on what is left.
-/

namespace BitString

/-- A bit of a string; behind its end there are zeros. -/
def bit (bytes : List UInt8) (index : ℕ) : Bool := (bytes.getD (index / 8) 0).toBitVec.getMsbD (index % 8)

/-- The first bits are the same. -/
def Agree (count : ℕ) (left right : List UInt8) : Prop := ∀ index < count, bit left index = bit right index

/-- The highest bits of a byte. -/
def highMask (count : ℕ) : UInt8 := 0xff <<< UInt8.ofNat (8 - count)

theorem bit_at (bytes : List UInt8) (position : ℕ) {offset : ℕ} (inside : offset < 8) :
    bit bytes (8 * position + offset) = (bytes.getD position 0).toBitVec.getMsbD offset := by
  have quotient : (8 * position + offset) / 8 = position := by omega
  have remainder : (8 * position + offset) % 8 = offset := by omega
  rw [bit, quotient, remainder]

theorem byte_ext_iff {left right : UInt8} :
    left = right ↔ ∀ offset < 8, left.toBitVec.getMsbD offset = right.toBitVec.getMsbD offset := by
  constructor
  · rintro rfl _ _
    rfl
  · intro same
    apply UInt8.eq_iff_toBitVec_eq.mpr
    exact BitVec.eq_of_getMsbD_eq same

theorem highMask_bit {count offset : ℕ} (positive : 0 < count) (small : count < 8) (inside : offset < 8) :
    (highMask count).toBitVec.getMsbD offset = decide (offset < count) := by
  have all : ∀ count < 8, 0 < count → ∀ offset < 8, (highMask count).toBitVec.getMsbD offset = decide (offset < count) := by
    decide
  exact all count small positive offset inside

/-- Under the mask only the highest bits are compared. -/
theorem masked_iff {left right : UInt8} {count : ℕ} (positive : 0 < count) (small : count < 8) :
    left &&& highMask count = right &&& highMask count ↔
      ∀ offset < count, left.toBitVec.getMsbD offset = right.toBitVec.getMsbD offset := by
  rw [byte_ext_iff]
  constructor
  · intro same offset inside
    have masked := same offset (by omega)
    simpa [BitVec.getMsbD_and, highMask_bit positive small (by omega : offset < 8), inside] using masked
  · intro same offset inside
    rw [UInt8.toBitVec_and, UInt8.toBitVec_and, BitVec.getMsbD_and, BitVec.getMsbD_and,
      highMask_bit positive small inside]
    rcases Nat.lt_or_ge offset count with here | behind
    · rw [same offset here]
    · simp [Nat.not_lt.mpr behind]

theorem take_eq_iff {left right : List UInt8} {count : ℕ} (inLeft : count ≤ left.length) (inRight : count ≤ right.length) :
    left.take count = right.take count ↔ ∀ position < count, left.getD position 0 = right.getD position 0 := by
  constructor
  · intro same position inside
    have here : (left.take count)[position]? = (right.take count)[position]? := by rw [same]
    rw [List.getElem?_take_of_lt inside, List.getElem?_take_of_lt inside] at here
    rw [List.getD_eq_getElem?_getD, List.getD_eq_getElem?_getD, here]
  · intro same
    apply List.ext_getElem
    · rw [List.length_take, List.length_take, Nat.min_eq_left inLeft, Nat.min_eq_left inRight]
    · intro position inside inside'
      rw [List.length_take] at inside
      have here := same position (by omega)
      rw [List.getD_eq_getElem _ _ (by omega), List.getD_eq_getElem _ _ (by omega)] at here
      rw [List.getElem_take, List.getElem_take, here]

/-- Agreement on whole bytes, and on the highest bits of the next one. -/
theorem agree_bits_iff (left right : List UInt8) (count : ℕ) :
    Agree count left right ↔ (∀ position < count / 8, left.getD position 0 = right.getD position 0) ∧
      ∀ offset < count % 8,
        (left.getD (count / 8) 0).toBitVec.getMsbD offset = (right.getD (count / 8) 0).toBitVec.getMsbD offset := by
  constructor
  · intro agree
    constructor
    · intro position inside
      rw [byte_ext_iff]
      intro offset small
      rw [← bit_at left position small, ← bit_at right position small]
      exact agree _ (by omega)
    · intro offset inside
      rw [← bit_at left _ (by omega), ← bit_at right _ (by omega)]
      exact agree _ (by omega)
  · rintro ⟨whole, rest⟩ index inside
    rw [bit, bit]
    rcases Nat.lt_or_ge (index / 8) (count / 8) with before | last
    · rw [whole _ before]
    · have same : index / 8 = count / 8 := by omega
      rw [same]
      exact rest _ (by omega)

/-- The comparison by bytes and a mask is agreement on the bits. -/
theorem compare_iff {left right : List UInt8} {count : ℕ} (inLeft : count / 8 ≤ left.length)
    (inRight : count / 8 ≤ right.length) :
    left.take (count / 8) = right.take (count / 8) ∧
        (count % 8 = 0 ∨ left.getD (count / 8) 0 &&& highMask (count % 8) =
          right.getD (count / 8) 0 &&& highMask (count % 8)) ↔
      Agree count left right := by
  rw [agree_bits_iff, take_eq_iff inLeft inRight]
  apply and_congr_right
  intro _
  rcases Nat.eq_zero_or_pos (count % 8) with aligned | positive
  · simp [aligned]
  · rw [masked_iff positive (Nat.mod_lt _ (by decide))]
    simp [Nat.ne_of_gt positive]

end BitString

import Mathlib.Algebra.Order.Ring.Nat
import Mathlib.Data.Nat.Bitwise

/-! # Big-endian numbers

A number as a fixed count of bytes, the highest first, and the number some bytes stand for. The two
are inverse to each other up to the bytes there is room for.
-/

namespace OpalCpp

/-- The lowest bytes of a number, the highest of them first. -/
def bigEndian : ℕ → ℕ → List UInt8
  | 0, _ => []
  | width + 1, value => UInt8.ofNat (value >>> (8 * width)) :: bigEndian width value

/-- The number the bytes stand for. -/
def ofBigEndian : List UInt8 → ℕ
  | [] => 0
  | byte :: bytes => byte.toNat * 256 ^ bytes.length + ofBigEndian bytes

@[simp] theorem length_bigEndian (width value : ℕ) : (bigEndian width value).length = width := by
  induction width with
  | zero => rfl
  | succ width ih => rw [bigEndian, List.length_cons, ih]

theorem ofBigEndian_lt (bytes : List UInt8) : ofBigEndian bytes < 256 ^ bytes.length := by
  induction bytes with
  | nil => exact Nat.one_pos
  | cons byte bytes ih =>
    rw [ofBigEndian, List.length_cons, Nat.pow_succ]
    have high : byte.toNat * 256 ^ bytes.length ≤ 255 * 256 ^ bytes.length :=
      Nat.mul_le_mul_right _ (Nat.le_of_lt_succ byte.toNat_lt)
    omega

private theorem shiftRight_bytes (value width : ℕ) : value >>> (8 * width) = value / 256 ^ width := by
  rw [Nat.shiftRight_eq_div_pow, Nat.pow_mul]

/-- What is read back is what there was room for. -/
theorem ofBigEndian_bigEndian (width value : ℕ) :
    ofBigEndian (bigEndian width value) = value % 256 ^ width := by
  induction width with
  | zero => rw [Nat.pow_zero, Nat.mod_one]; rfl
  | succ width ih =>
    have high : (UInt8.ofNat (value / 256 ^ width)).toNat = value / 256 ^ width % 256 := UInt8.toNat_ofNat'
    rw [bigEndian, ofBigEndian, ih, length_bigEndian, shiftRight_bytes, high, Nat.pow_succ, Nat.mod_mul,
      Nat.mul_comm, Nat.add_comm]

theorem ofBigEndian_bigEndian_of_lt {width value : ℕ} (fits : value < 256 ^ width) :
    ofBigEndian (bigEndian width value) = value := by
  rw [ofBigEndian_bigEndian, Nat.mod_eq_of_lt fits]

/-- Only the lowest bytes count. -/
theorem bigEndian_mod (width value : ℕ) {room : ℕ} (narrow : width ≤ room) :
    bigEndian width (value % 256 ^ room) = bigEndian width value := by
  induction width with
  | zero => rfl
  | succ width ih =>
    rw [bigEndian, bigEndian, ih (by omega), shiftRight_bytes, shiftRight_bytes]
    congr 1
    apply UInt8.toNat.inj
    obtain ⟨more, rfl⟩ := Nat.exists_eq_add_of_le narrow
    have split : (256 : ℕ) ^ (width + 1 + more) = 256 ^ width * (256 * 256 ^ more) := by
      rw [Nat.pow_add, Nat.pow_succ, Nat.mul_assoc]
    rw [UInt8.toNat_ofNat', UInt8.toNat_ofNat', split, Nat.mod_mul_right_div_self, Nat.mod_mul_right_mod]

/-- The bytes of the number they stand for. -/
theorem bigEndian_ofBigEndian (bytes : List UInt8) : bigEndian bytes.length (ofBigEndian bytes) = bytes := by
  induction bytes with
  | nil => rfl
  | cons byte bytes ih =>
    have low := ofBigEndian_lt bytes
    have rest : bigEndian bytes.length (byte.toNat * 256 ^ bytes.length + ofBigEndian bytes) = bytes := by
      rw [← bigEndian_mod _ _ (Nat.le_refl _), Nat.mul_add_mod_self_right, bigEndian_mod _ _ (Nat.le_refl _), ih]
    have first : (byte.toNat * 256 ^ bytes.length + ofBigEndian bytes) / 256 ^ bytes.length = byte.toNat := by
      rw [Nat.mul_comm, Nat.mul_add_div (Nat.pow_pos (by decide)), Nat.div_eq_of_lt low, Nat.add_zero]
    rw [List.length_cons, bigEndian, ofBigEndian, rest, shiftRight_bytes, first, UInt8.ofNat_toNat]

end OpalCpp

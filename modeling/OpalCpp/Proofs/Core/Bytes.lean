import OpalCpp.Machine.BigEndian
import OpalCpp.Model.Core.Bytes

/-! # The loops over the bytes of a number

The loops of the codecs compute big-endian numbers, as long as these fit in 64 bits.
-/

namespace OpalCpp

theorem writeBigEndian_eq (value : UInt64) {width : ℕ} (fits : width ≤ 8) :
    writeBigEndian value width = bigEndian width value.toNat := by
  induction width with
  | zero => rfl
  | succ width ih =>
    rw [writeBigEndian, bigEndian, ih (by omega)]
    congr 1
    apply UInt8.toNat.inj
    have shift : (UInt64.ofNat (8 * width)).toNat % 64 = 8 * width := by
      rw [UInt64.toNat_ofNat']
      omega
    have mask : (0xFF : UInt64).toNat = 2 ^ 8 - 1 := rfl
    rw [UInt64.toNat_toUInt8, UInt64.toNat_and, UInt64.toNat_shiftRight, shift, mask,
      Nat.and_two_pow_sub_one_eq_mod, UInt8.toNat_ofNat', Nat.mod_mod]

/-- One round of the loop that reads a number. -/
theorem toNat_shiftLeft_or (value : UInt64) (byte : UInt8) (fits : value.toNat < 2 ^ 56) :
    ((value <<< 8) ||| byte.toUInt64).toNat = value.toNat * 256 + byte.toNat := by
  have shift : (8 : UInt64).toNat % 64 = 8 := rfl
  have room : value.toNat <<< 8 % 2 ^ 64 = value.toNat <<< 8 := by
    rw [Nat.shiftLeft_eq]
    exact Nat.mod_eq_of_lt (by omega)
  rw [UInt64.toNat_or, UInt64.toNat_shiftLeft, shift, room, UInt8.toNat_toUInt64,
    ← Nat.shiftLeft_add_eq_or_of_lt byte.toNat_lt, Nat.shiftLeft_eq]

/-- The loop from a value on, with room for the bytes still to come. -/
theorem toNat_foldl_shiftLeft_or (bytes : Bytes) (value : UInt64)
    (fits : (value.toNat + 1) * 256 ^ bytes.length ≤ 2 ^ 64) :
    (bytes.foldl (fun (value : UInt64) byte => (value <<< 8) ||| byte.toUInt64) value).toNat =
      value.toNat * 256 ^ bytes.length + ofBigEndian bytes := by
  induction bytes generalizing value with
  | nil => rw [List.foldl_nil, ofBigEndian, List.length_nil, Nat.pow_zero, Nat.mul_one, Nat.add_zero]
  | cons byte bytes ih =>
    rw [List.length_cons, Nat.pow_succ, Nat.mul_comm _ 256, ← Nat.mul_assoc] at fits
    have low : (value.toNat + 1) * 256 ≤ (value.toNat + 1) * 256 * 256 ^ bytes.length :=
      Nat.le_mul_of_pos_right _ (Nat.pow_pos (by decide))
    have next := toNat_shiftLeft_or value byte (by omega)
    have small : value.toNat * 256 + byte.toNat + 1 ≤ (value.toNat + 1) * 256 := by
      have := byte.toNat_lt
      omega
    rw [List.foldl_cons, ih _ (by rw [next]; exact Nat.le_trans (Nat.mul_le_mul_right _ small) fits), next,
      ofBigEndian, List.length_cons, Nat.pow_succ, Nat.add_mul, Nat.mul_assoc, Nat.mul_comm 256, Nat.add_assoc]

/-- Up to eight bytes are read as the number they stand for. -/
theorem toNat_readBigEndian {bytes : Bytes} (fits : bytes.length ≤ 8) :
    (readBigEndian bytes).toNat = ofBigEndian bytes := by
  have room : ((0 : UInt64).toNat + 1) * 256 ^ bytes.length ≤ 2 ^ 64 := by
    have := Nat.pow_le_pow_right (by decide : 0 < 256) fits
    simpa using this
  rw [readBigEndian, toNat_foldl_shiftLeft_or bytes 0 room]
  simp

@[simp] theorem length_writeBigEndian (value : UInt64) (width : ℕ) : (writeBigEndian value width).length = width := by
  induction width with
  | zero => rfl
  | succ width ih => rw [writeBigEndian, List.length_cons, ih]

/-- One byte of a number. -/
theorem writeBigEndian_one (value : UInt64) : writeBigEndian value 1 = [value.toUInt8] := by
  rw [writeBigEndian_eq _ (by decide), bigEndian, bigEndian]
  simp

/-- A number that fits in its bytes is read back. -/
theorem readBigEndian_writeBigEndian {value : UInt64} {width : ℕ} (fits : width ≤ 8)
    (small : value.toNat < 256 ^ width) : readBigEndian (writeBigEndian value width) = value := by
  apply UInt64.toNat.inj
  rw [toNat_readBigEndian (by rwa [length_writeBigEndian]), writeBigEndian_eq value fits,
    ofBigEndian_bigEndian_of_lt small]

/-- The bytes a number was read from are written back. -/
theorem writeBigEndian_readBigEndian {bytes : Bytes} {width : ℕ} (size : bytes.length = width) (fits : width ≤ 8) :
    writeBigEndian (readBigEndian bytes) width = bytes := by
  rw [writeBigEndian_eq _ fits, toNat_readBigEndian (by omega), ← size, bigEndian_ofBigEndian]

theorem readBigEndian_lt {bytes : Bytes} {width : ℕ} (size : bytes.length = width) (fits : width ≤ 8) :
    (readBigEndian bytes).toNat < 256 ^ width := by
  rw [toNat_readBigEndian (by omega), ← size]
  exact ofBigEndian_lt bytes

/-! ## What is left to read -/

/-- The next byte. -/
theorem of_drop_eq_cons {bytes rest : Bytes} {pos : ℕ} {byte : UInt8} (remains : bytes.drop pos = byte :: rest) :
    pos < bytes.length ∧ bytes[pos]? = some byte ∧ bytes.drop (pos + 1) = rest := by
  refine ⟨?_, ?_, ?_⟩
  · apply Nat.lt_of_not_le
    intro past
    rw [List.drop_eq_nil_of_le past] at remains
    cases remains
  · rw [← Nat.add_zero pos, ← List.getElem?_drop, remains]
    rfl
  · rw [← List.tail_drop, remains]
    rfl

/-- The next bytes. -/
theorem of_drop_eq_append {bytes middle rest : Bytes} {pos : ℕ} (remains : bytes.drop pos = middle ++ rest) :
    middle.length + rest.length = bytes.length - pos ∧ bytes.substr pos middle.length = middle ∧
      bytes.drop (pos + middle.length) = rest := by
  refine ⟨?_, ?_, ?_⟩
  · rw [← List.length_append, ← remains, List.length_drop]
  · rw [Bytes.substr, remains, List.take_left]
  · rw [← List.drop_drop, remains, List.drop_left]

end OpalCpp

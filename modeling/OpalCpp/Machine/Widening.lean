import OpalCpp.Machine.Rounding

/-! # Singles as doubles

Every single is a double, and comes back from it; only the bits of a NaN may be others.
-/

namespace OpalCpp

namespace Binary32

theorem bits_toNat (x : Binary32) : x.bits.toNat = x.code + if x.isNegative then 2 ^ 31 else 0 := by
  have bounded := x.bits.toNat_lt
  rw [isNegative, code]
  split_ifs with negative
  · rw [decide_eq_true_eq] at negative
    omega
  · rw [decide_eq_true_eq] at negative
    omega

theorem code_lt (x : Binary32) : x.code < 2 ^ 31 := Nat.mod_lt _ (by decide)

theorem exponent_toNat (x : Binary32) : ((x.bits >>> 23) &&& 0xFF).toNat = x.code / 2 ^ 23 := by
  have bounded := x.bits.toNat_lt
  have low : x.bits.toNat / 2 ^ 23 &&& 255 = x.bits.toNat / 2 ^ 23 % 2 ^ 8 := Nat.and_two_pow_sub_one_eq_mod _ 8
  rw [UInt32.toNat_and, UInt32.toNat_shiftRight, code]
  simp only [UInt32.reduceToNat, Nat.reduceMod, Nat.shiftRight_eq_div_pow, low]
  omega

theorem fraction_toNat (x : Binary32) : (x.bits &&& 0x7FFFFF).toNat = x.code % 2 ^ 23 := by
  have low : x.bits.toNat &&& 8388607 = x.bits.toNat % 2 ^ 23 := Nat.and_two_pow_sub_one_eq_mod _ 23
  rw [UInt32.toNat_and, code]
  simp only [UInt32.reduceToNat, low]
  omega

theorem sign_eq_zero (x : Binary32) : x.bits >>> 31 = 0 ↔ x.isNegative = false := by
  have bounded := x.bits.toNat_lt
  rw [← UInt32.toNat_inj, UInt32.toNat_shiftRight, isNegative, decide_eq_false_iff_not]
  simp only [UInt32.reduceToNat, Nat.reduceMod, Nat.shiftRight_eq_div_pow, UInt32.toNat_zero]
  omega

theorem magnitude_subnormal {code : ℕ} (subnormal : code < 2 ^ 23) :
    FloatFormat.binary32.magnitude code = code * 2 ^ (-149 : ℤ) := if_pos subnormal

theorem magnitude_normal {code : ℕ} (normal : 2 ^ 23 ≤ code) :
    FloatFormat.binary32.magnitude code = (2 ^ 23 + (code % 2 ^ 23 : ℕ)) * 2 ^ ((code / 2 ^ 23 : ℕ) - 150 : ℤ) := by
  have units : ((code / 2 ^ 23 : ℕ) : ℤ) - (127 : ℕ) - (23 : ℕ) = (code / 2 ^ 23 : ℕ) - 150 := by omega
  have digits : ((2 ^ 23 + code % 2 ^ 23 : ℕ) : ℚ) = 2 ^ 23 + (code % 2 ^ 23 : ℕ) := by
    rw [Nat.cast_add, Nat.cast_pow, Nat.cast_ofNat]
  rw [← units, ← digits]
  exact if_neg (not_lt.mpr normal)

/-- The digits of a finite single and what they are in units of. -/
theorem magnitude_digits {code : ℕ} (finite : code < 255 * 2 ^ 23) :
    ∃ (digits : ℕ) (exponent : ℤ), FloatFormat.binary32.magnitude code = digits * 2 ^ exponent ∧ digits < 2 ^ 24 ∧
      (0 < code → 0 < digits) ∧ -149 ≤ exponent ∧ exponent ≤ 104 := by
  obtain subnormal | normal := Nat.lt_or_ge code (2 ^ 23)
  · refine ⟨code, -149, ?_, by omega, id, le_rfl, by decide⟩
    exact magnitude_subnormal subnormal
  · refine ⟨2 ^ 23 + code % 2 ^ 23, (code / 2 ^ 23 : ℕ) - 150, ?_, by omega, fun _ => by omega, by omega, by omega⟩
    rw [magnitude_normal normal, Nat.cast_add, Nat.cast_pow, Nat.cast_ofNat]

/-- The digits of a finite single fit in the significand of a double. -/
theorem nearestCode_magnitude {code : ℕ} (finite : code < 255 * 2 ^ 23) :
    Binary64.nearestCode (FloatFormat.binary32.magnitude code) < 2047 * 2 ^ 52 ∧
      Binary64.magnitude (Binary64.nearestCode (FloatFormat.binary32.magnitude code)) =
        FloatFormat.binary32.magnitude code := by
  obtain rfl | nonzero := Nat.eq_zero_or_pos code
  · rw [FloatFormat.magnitude_zero, Binary64.nearestCode, if_pos rfl, Binary64.magnitude, if_pos (by decide), Nat.cast_zero,
      zero_mul]
    exact ⟨by decide, rfl⟩
  obtain ⟨digits, exponent, scaled, fits, some_, small, large⟩ := magnitude_digits finite
  have least : (1 : ℚ) ≤ digits := by exact_mod_cast some_ nonzero
  have most : (digits : ℚ) < 2 ^ 24 := by exact_mod_cast fits
  have unit : (0 : ℚ) < 2 ^ exponent := zpow_pos two_pos _
  have low : (2 : ℚ) ^ (-1022 : ℤ) ≤ FloatFormat.binary32.magnitude code := by
    rw [scaled]
    calc (2 : ℚ) ^ (-1022 : ℤ) ≤ 2 ^ exponent := zpow_le_zpow_right₀ one_le_two (by omega)
      _ ≤ digits * 2 ^ exponent := le_mul_of_one_le_left unit.le least
  have high : FloatFormat.binary32.magnitude code < (2 : ℚ) ^ (1023 : ℤ) := by
    rw [scaled]
    calc (digits : ℚ) * 2 ^ exponent < 2 ^ (24 : ℕ) * 2 ^ exponent := mul_lt_mul_of_pos_right most unit
      _ = 2 ^ (24 + exponent : ℤ) := by rw [← zpow_natCast, ← zpow_add₀ two_ne_zero, Nat.cast_ofNat]
      _ ≤ 2 ^ (1023 : ℤ) := zpow_le_zpow_right₀ one_le_two (by omega)
  exact ⟨(Binary64.magnitude_nearestCode low high).1, Binary64.nearestCode_scaled low high scaled (by omega)⟩

/-- Every finite single is below what is rounded to an infinite one. -/
theorem magnitude_lt {code : ℕ} (finite : code < 255 * 2 ^ 23) :
    FloatFormat.binary32.magnitude code < 2 ^ 128 - 2 ^ 103 := by
  obtain ⟨digits, exponent, scaled, fits, _, _, large⟩ := magnitude_digits finite
  have below : ((digits + 1 : ℕ) : ℚ) ≤ (2 ^ 24 : ℕ) := by exact_mod_cast fits
  have most : (digits : ℚ) ≤ 2 ^ 24 - 1 := by
    push_cast at below
    linarith
  have top : (2 : ℚ) ^ exponent ≤ 2 ^ (104 : ℤ) := zpow_le_zpow_right₀ one_le_two large
  calc FloatFormat.binary32.magnitude code = digits * 2 ^ exponent := scaled
    _ ≤ (2 ^ 24 - 1) * 2 ^ (104 : ℤ) := mul_le_mul most top (zpow_pos two_pos _).le (by norm_num)
    _ < 2 ^ 128 - 2 ^ 103 := by norm_num

/-! ## The double of a single -/

theorem neg_toNat {x : Binary64} (positive : x.bits.toNat < 2 ^ 63) : x.neg.bits.toNat = 2 ^ 63 + x.bits.toNat := by
  have disjoint : x.bits.toNat ^^^ 2 ^ 63 = 2 ^ 63 ||| x.bits.toNat := by
    apply Nat.eq_of_testBit_eq
    intro place
    rw [Nat.testBit_xor, Nat.testBit_or, Nat.testBit_two_pow]
    rcases eq_or_ne 63 place with rfl | other
    · rw [Nat.testBit_lt_two_pow positive]
      rfl
    · rw [decide_eq_false other, Bool.xor_false, Bool.false_or]
  have sum := Nat.two_pow_add_eq_or_of_lt positive 1
  rw [mul_one] at sum
  rw [Binary64.neg, UInt64.toNat_xor, sum]
  exact disjoint

/-- A double that is no negative one, with the sign set. -/
theorem value?_neg {x : Binary64} (positive : x.bits.toNat < 2 ^ 63) {value : ℚ} (finite : x.value? = some value) :
    x.neg.value? = some (-value) := by
  have bits := neg_toNat positive
  have code : x.neg.code = x.code := by
    rw [Binary64.code, Binary64.code, bits]
    omega
  have unsigned : x.isNegative = false := by
    rw [Binary64.isNegative, decide_eq_false_iff_not]
    omega
  have sign : x.neg.isNegative = true := by
    rw [Binary64.isNegative, decide_eq_true_eq, bits]
    omega
  simp only [Binary64.value?, unsigned, code, sign, Bool.false_eq_true, if_false, if_true] at finite ⊢
  split_ifs at finite ⊢
  exact congrArg some (congrArg Neg.neg (Option.some.inj finite))

/-- A double by its bits without the sign. -/
theorem ofBinary32_sign {x : Binary32} {unsigned : Binary64} (positive : unsigned.bits.toNat < 2 ^ 63) :
    (if x.bits >>> 31 = 0 then unsigned else unsigned.neg).code = unsigned.code ∧
      (if x.bits >>> 31 = 0 then unsigned else unsigned.neg).isNegative = x.isNegative := by
  simp only [sign_eq_zero]
  cases negative : x.isNegative with
  | false =>
    refine ⟨rfl, ?_⟩
    rw [if_pos rfl, Binary64.isNegative, decide_eq_false_iff_not]
    omega
  | true =>
    rw [if_neg (by decide), Binary64.code, Binary64.code, Binary64.isNegative, decide_eq_true_eq, neg_toNat positive]
    omega

theorem nearest_toNat {value : ℚ} (nonneg : 0 ≤ value) :
    (Binary64.nearest value).bits.toNat = Binary64.nearestCode value := by
  have bounded := Binary64.nearestCode_le value
  rw [Binary64.nearest, abs_of_nonneg nonneg, if_neg (not_lt.mpr nonneg), add_zero, UInt64.toNat_ofNat']
  exact Nat.mod_eq_of_lt (by omega)

/-- A finite single becomes the double nearest to its number. -/
theorem toBinary64_eq {x : Binary32} (finite : x.code < 255 * 2 ^ 23) :
    x.toBinary64 = if x.bits >>> 31 = 0 then Binary64.nearest (FloatFormat.binary32.magnitude x.code)
      else (Binary64.nearest (FloatFormat.binary32.magnitude x.code)).neg := by
  have exponent := exponent_toNat x
  have fraction := fraction_toNat x
  have notTop : (x.bits >>> 23) &&& 0xFF ≠ 255 := by
    intro top
    have all : (255 : UInt32).toNat = 255 := rfl
    rw [top, all] at exponent
    omega
  have bottom : (x.bits >>> 23) &&& 0xFF = 0 ↔ x.code < 2 ^ 23 := by
    rw [← UInt32.toNat_inj, exponent, UInt32.toNat_zero]
    omega
  simp only [toBinary64, Binary64.ofBinary32, if_neg notTop, bottom, exponent, fraction]
  obtain subnormal | normal := Nat.lt_or_ge x.code (2 ^ 23)
  · simp only [if_pos subnormal, Nat.mod_eq_of_lt subnormal, magnitude_subnormal subnormal]
  · simp only [if_neg (not_lt.mpr normal), magnitude_normal normal]

/-- A finite single, as a double, is the number it stands for. -/
theorem toBinary64_finite {x : Binary32} (finite : x.code < 255 * 2 ^ 23) :
    x.toBinary64.code < 2047 * 2 ^ 52 ∧ Binary64.magnitude x.toBinary64.code = FloatFormat.binary32.magnitude x.code ∧
      x.toBinary64.isNegative = x.isNegative := by
  have positive := nearest_toNat (@FloatFormat.magnitude_nonneg .binary32 x.code)
  obtain ⟨bounded, exact_⟩ := nearestCode_magnitude finite
  have code : (Binary64.nearest (FloatFormat.binary32.magnitude x.code)).code =
      Binary64.nearestCode (FloatFormat.binary32.magnitude x.code) := by
    rw [Binary64.code, positive]
    exact Nat.mod_eq_of_lt (by omega)
  obtain ⟨same, sign⟩ := @ofBinary32_sign x (Binary64.nearest (FloatFormat.binary32.magnitude x.code)) (by omega)
  rw [toBinary64_eq finite, same, sign, code]
  exact ⟨bounded, exact_, rfl⟩

theorem code_nearest (x : ℚ) :
    (nearest x).code = FloatFormat.binary32.nearestCode |x| ∧ (nearest x).isNegative = decide (x < 0) := by
  have bounded := @FloatFormat.nearestCode_le .binary32 |x|
  have most : FloatFormat.binary32.infinite = 255 * 2 ^ 23 := rfl
  have bits : (nearest x).bits.toNat = FloatFormat.binary32.nearestCode |x| + if x < 0 then 2 ^ 31 else 0 := by
    rw [nearest, UInt32.toNat_ofNat']
    split_ifs <;> omega
  rw [code, isNegative, bits, decide_eq_decide]
  split_ifs with negative
  · simp only [negative, iff_true]
    omega
  · simp only [negative, iff_false]
    omega

theorem value?_nearest {x : ℚ} (finite : FloatFormat.binary32.nearestCode |x| < FloatFormat.binary32.infinite) :
    (nearest x).toBinary64.value? = some (FloatFormat.binary32.rounded x) := by
  obtain ⟨same, sign⟩ := code_nearest x
  obtain ⟨bounded, value, sign'⟩ := @toBinary64_finite (nearest x) (same ▸ finite)
  rw [Binary64.value?, if_neg (not_le.mpr bounded), value, sign', same, sign, FloatFormat.rounded]
  simp only [decide_eq_true_eq]

theorem toBinary64_infinite {x : Binary32} (infinite : x.code = 255 * 2 ^ 23) :
    x.toBinary64.isInfinite = true ∧ x.toBinary64.isNegative = x.isNegative := by
  have exponent := exponent_toNat x
  have fraction := fraction_toNat x
  have top : (x.bits >>> 23) &&& 0xFF = 255 := by
    rw [← UInt32.toNat_inj, exponent, infinite]
    rfl
  have none_ : x.bits &&& 0x7FFFFF = 0 := by
    rw [← UInt32.toNat_inj, fraction, infinite]
    rfl
  have whole : x.toBinary64 = if x.bits >>> 31 = 0 then Binary64.infinity else Binary64.infinity.neg := by
    simp only [toBinary64, Binary64.ofBinary32, top, none_, if_true]
  obtain ⟨same, sign⟩ := @ofBinary32_sign x Binary64.infinity (by decide)
  rw [whole, Binary64.isInfinite, same, sign]
  exact ⟨rfl, rfl⟩

theorem toBinary64_isNaN {x : Binary32} (nan : x.isNaN = true) : x.toBinary64.isNaN = true := by
  have exponent := exponent_toNat x
  have fraction := fraction_toNat x
  have bounded := code_lt x
  rw [isNaN, decide_eq_true_eq] at nan
  have top : (x.bits >>> 23) &&& 0xFF = 255 := by
    have all : (255 : UInt32).toNat = 255 := rfl
    rw [← UInt32.toNat_inj, exponent, all]
    omega
  have some_ : x.bits &&& 0x7FFFFF ≠ 0 := by
    intro zero_
    rw [zero_, UInt32.toNat_zero] at fraction
    omega
  obtain ⟨payload, isPayload⟩ : ∃ payload : UInt64, payload = (x.bits &&& 0x7FFFFF).toUInt64 <<< 29 := ⟨_, rfl⟩
  have whole : x.toBinary64 = if x.bits >>> 31 = 0 then ⟨Binary64.quietNaN.bits ||| payload⟩
      else (⟨Binary64.quietNaN.bits ||| payload⟩ : Binary64).neg := by
    simp only [toBinary64, Binary64.ofBinary32, if_pos top, if_neg some_, isPayload]
  have small : payload.toNat < 2 ^ 63 := by
    have placed : payload.toNat = (x.code % 2 ^ 23) <<< 29 % 2 ^ 64 := by
      rw [isPayload, UInt64.toNat_shiftLeft, UInt32.toNat_toUInt64, fraction]
      rfl
    rw [placed, Nat.shiftLeft_eq]
    omega
  have quiet : Binary64.quietNaN.bits.toNat ≤ (Binary64.quietNaN.bits ||| payload).toNat := by
    rw [UInt64.toNat_or]
    exact Nat.left_le_or
  have below : (Binary64.quietNaN.bits ||| payload).toNat < 2 ^ 63 := by
    rw [UInt64.toNat_or]
    exact Nat.or_lt_two_pow (by decide) small
  have least : Binary64.quietNaN.bits.toNat = 4095 * 2 ^ 51 := rfl
  rw [whole, Binary64.isNaN, (ofBinary32_sign below).1, decide_eq_true_eq, Binary64.code]
  simp only
  omega

/-- A single comes back from its double. -/
theorem ofBinary64_toBinary64 {x : Binary32} (number : x.isNaN = false) : ofBinary64 x.toBinary64 = x := by
  rw [isNaN, decide_eq_false_iff_not] at number
  have code : (if x.toBinary64.isNaN then 0x7FC00000 ||| (x.toBinary64.code / 2 ^ 29 % 2 ^ 22)
      else if x.toBinary64.isInfinite then 255 * 2 ^ 23
      else FloatFormat.binary32.nearestCode (Binary64.magnitude x.toBinary64.code)) = x.code ∧
        x.toBinary64.isNegative = x.isNegative := by
    obtain finite | infinite := Nat.lt_or_eq_of_le (not_lt.mp number)
    · obtain ⟨below, value, sign⟩ := toBinary64_finite finite
      have isNumber : x.toBinary64.isNaN = false := decide_eq_false (by omega)
      have isFinite : x.toBinary64.isInfinite = false := decide_eq_false (by omega)
      rw [if_neg (Bool.eq_false_iff.mp isNumber), if_neg (Bool.eq_false_iff.mp isFinite), value]
      exact ⟨FloatFormat.nearestCode_magnitude finite, sign⟩
    · obtain ⟨isInfinite, sign⟩ := toBinary64_infinite infinite
      have isNumber : x.toBinary64.isNaN = false := by
        rw [Binary64.isInfinite, decide_eq_true_eq] at isInfinite
        exact decide_eq_false (by omega)
      rw [if_neg (Bool.eq_false_iff.mp isNumber), if_pos isInfinite]
      exact ⟨infinite.symm, sign⟩
  rw [ofBinary64, code.1, code.2, ← bits_toNat, UInt32.ofNat_toNat]

theorem ofBinary64_isNaN {x : Binary64} (nan : x.isNaN = true) : (ofBinary64 x).isNaN = true := by
  have quiet : 0x7FC00000 ≤ 0x7FC00000 ||| (x.code / 2 ^ 29 % 2 ^ 22) := Nat.left_le_or
  have below : 0x7FC00000 ||| (x.code / 2 ^ 29 % 2 ^ 22) < 2 ^ 31 := Nat.or_lt_two_pow (by decide) (by omega)
  rw [isNaN, decide_eq_true_eq, code, ofBinary64, if_pos nan, UInt32.toNat_ofNat']
  split_ifs <;> omega

end Binary32

end OpalCpp

import OpalCpp.Machine.Rounding

/-! # Whole numbers among doubles

The double nearest to a number is no further from it than any other double. From 2^52 on the doubles are
whole numbers, multiples of 2^k from 2^(52+k) on: a number that is closer than a half to an integer keeps
it as its nearest one if the integer is a double, but for a number that is rounded to the half above it.
-/

namespace OpalCpp

/-! ## Units -/

/-- What is no less than a power of two is a multiple of its last place. -/
theorem FloatFormat.exists_units {format : FloatFormat} {code : ℕ} {exponent : ℤ}
    (large : 2 ^ exponent ≤ format.magnitude code) :
    ∃ units : ℕ, format.magnitude code = units * 2 ^ (exponent - format.fraction) := by
  have positive : 0 < format.magnitude code := lt_of_lt_of_le (zpow_pos two_pos _) large
  have log : exponent ≤ Int.log 2 (format.magnitude code) := by
    apply (Int.zpow_le_iff_le_log (by decide) positive).mp
    rwa [Nat.cast_two]
  -- The magnitude in the units of its own last place, which are whole multiples of those of the power.
  obtain ⟨significand, place, value, shift⟩ : ∃ (significand : ℕ) (place : ℤ),
      format.magnitude code = significand * 2 ^ (place - format.fraction) ∧ exponent ≤ place := by
    by_cases normal : 2 ^ format.fraction ≤ code
    · rw [log_magnitude normal] at log
      exact ⟨_, _, magnitude_normal normal, log⟩
    · have nonzero : 0 < code := by
        by_contra zero
        rw [Nat.eq_zero_of_not_pos zero, magnitude_zero] at positive
        exact lt_irrefl _ positive
      have small := log_subnormal nonzero (not_le.mp normal)
      exact ⟨code, 1 - format.bias, by rw [magnitude, if_pos (not_le.mp normal)], by omega⟩
  obtain ⟨more, rfl⟩ : ∃ more : ℕ, place = exponent + more := ⟨(place - exponent).toNat, by omega⟩
  refine ⟨significand * 2 ^ more, ?_⟩
  have split : (2 : ℚ) ^ (exponent + more - format.fraction) = 2 ^ more * 2 ^ (exponent - format.fraction) := by
    rw [← zpow_natCast, ← zpow_add₀ two_ne_zero]
    congr 1
    ring
  rw [value, split]
  push_cast
  ring

namespace Binary64

theorem abs_value {x : Binary64} {value : ℚ} (finite : x.value? = some value) :
    x.code < 2047 * 2 ^ 52 ∧ |value| = magnitude x.code := by
  rw [value?] at finite
  split_ifs at finite with infinite sign
  · obtain rfl := Option.some.inj finite
    rw [abs_neg, abs_of_nonneg (magnitude_nonneg _)]
    exact ⟨not_le.mp infinite, rfl⟩
  · obtain rfl := Option.some.inj finite
    rw [abs_of_nonneg (magnitude_nonneg _)]
    exact ⟨not_le.mp infinite, rfl⟩

/-- A double of 2^(52+k) or more is a multiple of 2^k. -/
theorem exists_multiple (k : ℕ) {x : Binary64} {value : ℚ} (finite : x.value? = some value)
    (large : 2 ^ (52 + k) ≤ |value|) : ∃ n : ℤ, value = n * 2 ^ k := by
  obtain ⟨-, size⟩ := abs_value finite
  rw [size, ← FloatFormat.binary64_magnitude, ← zpow_natCast] at large
  obtain ⟨units, value_⟩ := FloatFormat.exists_units large
  have unit : (2 : ℚ) ^ (((52 + k : ℕ) : ℤ) - FloatFormat.binary64.fraction) = 2 ^ k := by
    rw [← zpow_natCast]
    congr 1
    simp [FloatFormat.binary64]
  rw [unit, FloatFormat.binary64_magnitude, ← size] at value_
  rcases abs_choice value with same | flipped
  · exact ⟨units, by rw [← same, value_]; push_cast; rfl⟩
  · exact ⟨-units, by rw [flipped] at value_; push_cast; linarith⟩

/-! ## The closest double -/

/-- No integer is closer to a number than the one it is rounded to. -/
theorem roundHalfEven_closest {x : ℚ} (nonneg : 0 ≤ x) (n : ℕ) : |(roundHalfEven x : ℚ) - x| ≤ |(n : ℚ) - x| := by
  obtain same | other := eq_or_ne n (roundHalfEven x)
  · rw [same]
  have error := roundHalfEven_error nonneg
  have apart : (1 : ℚ) ≤ |(n : ℚ) - roundHalfEven x| := by
    have whole : (1 : ℤ) ≤ |(n : ℤ) - roundHalfEven x| := Int.one_le_abs (by omega)
    exact_mod_cast whole
  have through := abs_sub_le (n : ℚ) x (roundHalfEven x)
  rw [abs_sub_comm x] at through
  linarith

/-- What a magnitude is rounded to, in units of its last place or of the least one. -/
theorem magnitude_nearestCode_units {x : ℚ} (positive : 0 < x) (finite : nearestCode x < 2047 * 2 ^ 52) :
    magnitude (nearestCode x) =
      roundHalfEven (x / 2 ^ (max (Int.log 2 x) (-1022) - 52)) * 2 ^ (max (Int.log 2 x) (-1022) - 52) := by
  have code : nearestCode x =
      (max (Int.log 2 x) (-1022) + 1022).toNat * 2 ^ 52 + roundHalfEven (x / 2 ^ (max (Int.log 2 x) (-1022) - 52)) := by
    have least := finite
    simp only [nearestCode, if_neg positive.ne'] at least ⊢
    exact min_eq_left (le_of_not_gt fun more => absurd least (by rw [min_eq_right more.le]; exact lt_irrefl _))
  rw [code]
  rcases le_or_gt (-1022) (Int.log 2 x) with normal | tiny
  · rw [max_eq_left normal]
    obtain ⟨above, below⟩ := significand_mem positive
    obtain ⟨least, most⟩ := roundHalfEven_mem above below
    exact magnitude_code normal least most
  · rw [max_eq_right tiny.le]
    have unit : (0 : ℚ) < 2 ^ ((-1022 : ℤ) - 52) := zpow_pos two_pos _
    have most : x < ((2 : ℕ) : ℚ) ^ (-1022 : ℤ) := (Int.lt_zpow_iff_log_lt (by decide) positive).mpr tiny
    have below : x / 2 ^ ((-1022 : ℤ) - 52) < (2 ^ 52 : ℕ) := by
      rw [div_lt_iff₀ unit]
      rw [Nat.cast_two] at most
      have scaled : (2 : ℚ) ^ (-1022 : ℤ) = 2 ^ 52 * 2 ^ ((-1022 : ℤ) - 52) := by
        rw [← zpow_natCast, ← zpow_add₀ two_ne_zero]
        rfl
      rw [scaled] at most
      exact_mod_cast most
    obtain ⟨-, few⟩ := roundHalfEven_mem (by rw [Nat.cast_zero]; exact (div_pos positive unit).le) below
    generalize roundHalfEven (x / 2 ^ ((-1022 : ℤ) - 52)) = units at few
    have shift : ((-1022 : ℤ) + 1022).toNat * 2 ^ 52 + units = units := by simp
    rw [shift, magnitude]
    split_ifs with subnormal
    · norm_num
    · obtain rfl : units = 2 ^ 52 := by omega
      norm_num

/-- No magnitude is closer to a number than the one it is rounded to. -/
theorem nearestCode_closest {x : ℚ} (nonneg : 0 ≤ x) (finite : nearestCode x < 2047 * 2 ^ 52) (other : ℕ) :
    |magnitude (nearestCode x) - x| ≤ |magnitude other - x| := by
  obtain rfl | positive := nonneg.eq_or_lt
  · have zero : magnitude (nearestCode 0) = 0 := by norm_num [nearestCode, magnitude]
    rw [zero, sub_self, abs_zero]
    exact abs_nonneg _
  obtain ⟨exponent, isExponent⟩ : ∃ exponent, exponent = max (Int.log 2 x) (-1022) := ⟨_, rfl⟩
  have rounded := magnitude_nearestCode_units positive finite
  rw [← isExponent] at rounded
  have unit : (0 : ℚ) < 2 ^ (exponent - 52) := zpow_pos two_pos _
  have whole : x = x / 2 ^ (exponent - 52) * 2 ^ (exponent - 52) := (div_mul_cancel₀ x unit.ne').symm
  -- The multiples of the unit are no closer. What is less than the power of two is no closer than the power.
  have multiple (n : ℕ) : |magnitude (nearestCode x) - x| ≤ |(n : ℚ) * 2 ^ (exponent - 52) - x| := by
    have closest := mul_le_mul_of_nonneg_right (roundHalfEven_closest (div_pos positive unit).le n) unit.le
    rw [← abs_of_pos unit, ← abs_mul, ← abs_mul, abs_of_pos unit, sub_mul, sub_mul, ← whole, ← rounded] at closest
    exact closest
  have power : (2 : ℚ) ^ exponent = (2 ^ 52 : ℕ) * 2 ^ (exponent - 52) := by
    rw [Nat.cast_pow, Nat.cast_two, ← zpow_natCast, ← zpow_add₀ two_ne_zero]
    congr 1
    push_cast
    ring
  rcases le_total (-1022) (Int.log 2 x) with normal | tiny
  · rw [max_eq_left normal] at isExponent
    rcases le_or_gt (2 ^ exponent) (magnitude other) with large | small
    · rw [← FloatFormat.binary64_magnitude] at large
      obtain ⟨units, value⟩ := FloatFormat.exists_units large
      rw [FloatFormat.binary64_magnitude] at value
      rw [value]
      exact multiple units
    · have least : (2 : ℚ) ^ exponent ≤ x := by
        rw [isExponent]
        exact_mod_cast Int.zpow_log_le_self (by decide : 1 < 2) positive
      have closer := multiple (2 ^ 52)
      rw [← power, abs_sub_comm (2 ^ exponent) x, abs_of_nonneg (sub_nonneg.mpr least)] at closer
      rw [abs_sub_comm (magnitude other) x, abs_of_nonneg (by linarith : 0 ≤ x - magnitude other)]
      linarith
  · -- Below the normal numbers the unit is the least one, of which every magnitude is a multiple.
    obtain ⟨units, value⟩ := FloatFormat.binary64.magnitude_units other
    rw [FloatFormat.binary64_magnitude] at value
    rw [max_eq_right tiny] at isExponent
    have least : (1 - FloatFormat.binary64.bias - FloatFormat.binary64.fraction : ℤ) = exponent - 52 := by
      rw [isExponent]
      rfl
    rw [value, least]
    exact multiple units

/-- No double is closer to a number than the one it is rounded to. -/
theorem nearest_closest {x y other : ℚ} {b : Binary64} (rounded : (nearest x).value? = some y)
    (double : b.value? = some other) : |y - x| ≤ |other - x| := by
  have code : (nearest x).code = nearestCode |x| := by
    have bounded := nearestCode_le |x|
    rw [Binary64.code, nearest, UInt64.toNat_ofNat']
    split_ifs <;> omega
  obtain ⟨finite, -⟩ := abs_value rounded
  rw [code] at finite
  obtain ⟨-, size⟩ := abs_value double
  have closest := nearestCode_closest (abs_nonneg x) finite b.code
  rw [value?_nearest finite] at rounded
  have error : |y - x| = abs (magnitude (nearestCode |x|) - |x|) := by
    obtain rfl := Option.some.inj rounded
    split_ifs with negative
    · rw [abs_of_neg negative, ← abs_neg]
      congr 1
      ring
    · rw [abs_of_nonneg (not_lt.mp negative)]
  rw [error]
  refine le_trans closest ?_
  rw [← size]
  exact abs_abs_sub_abs_le other x

/-- A double is its own nearest one. -/
theorem nearest_value {b : Binary64} {value : ℚ} (double : b.value? = some value) : (nearest value).value? = some value := by
  obtain ⟨finite, size⟩ := abs_value double
  have code : nearestCode |value| < 2047 * 2 ^ 52 := by
    rw [size, nearestCode_magnitude finite]
    exact finite
  obtain ⟨y, rounded⟩ : ∃ y, (nearest value).value? = some y := ⟨_, value?_nearest code⟩
  have closest := nearest_closest rounded double
  rw [sub_self, abs_zero, abs_nonpos_iff, sub_eq_zero] at closest
  rw [rounded, closest]

/-- What is no less than a double is rounded to no less. -/
theorem le_of_nearest {x y bound : ℚ} {b : Binary64} (rounded : (nearest x).value? = some y) (double : b.value? = some bound)
    (le : bound ≤ x) : bound ≤ y := by
  have closest := nearest_closest rounded double
  rw [abs_sub_comm bound, abs_of_nonneg (sub_nonneg.mpr le)] at closest
  linarith [(abs_le.mp closest).1]

theorem nearest_le {x y bound : ℚ} {b : Binary64} (rounded : (nearest x).value? = some y) (double : b.value? = some bound)
    (le : x ≤ bound) : y ≤ bound := by
  have closest := nearest_closest rounded double
  rw [abs_of_nonneg (sub_nonneg.mpr le)] at closest
  linarith [(abs_le.mp closest).2]

/-! ## Whole numbers -/

/-- The multiples of a power of two that fit in the significand are doubles. -/
theorem exists_scaled {n exponent : ℤ} (fits : |n| < 2 ^ 53) (small : -1022 ≤ exponent) (large : exponent ≤ 970) :
    ∃ b : Binary64, b.value? = some ((n : ℚ) * 2 ^ exponent) := by
  have unit : (0 : ℚ) < 2 ^ exponent := zpow_pos two_pos _
  obtain rfl | nonzero := eq_or_ne n 0
  · exact ⟨_, by simpa using @nearest_intCast 0 (by decide)⟩
  have size : |(n : ℚ) * 2 ^ exponent| = (n.natAbs : ℚ) * 2 ^ exponent := by
    rw [abs_mul, abs_of_pos unit, ← Int.cast_abs, Int.abs_eq_natAbs, Int.cast_natCast]
  have one : (1 : ℚ) ≤ n.natAbs := by exact_mod_cast Nat.one_le_iff_ne_zero.mpr (Int.natAbs_ne_zero.mpr nonzero)
  have few : n.natAbs < 2 ^ 53 := by
    rw [Int.abs_eq_natAbs] at fits
    exact_mod_cast fits
  have below : (n.natAbs : ℚ) < 2 ^ (53 : ℤ) := by exact_mod_cast few
  have low : (2 : ℚ) ^ (-1022 : ℤ) ≤ |(n : ℚ) * 2 ^ exponent| := by
    rw [size]
    exact le_trans (zpow_le_zpow_right₀ one_le_two small) (le_mul_of_one_le_left unit.le one)
  have high : |(n : ℚ) * 2 ^ exponent| < 2 ^ (1023 : ℤ) := by
    have most : (2 : ℚ) ^ (53 + exponent) ≤ 2 ^ (1023 : ℤ) := zpow_le_zpow_right₀ one_le_two (by omega)
    rw [zpow_add₀ two_ne_zero] at most
    rw [size]
    exact lt_of_lt_of_le (mul_lt_mul_of_pos_right below unit) most
  refine ⟨nearest ((n : ℚ) * 2 ^ exponent), ?_⟩
  rw [value?_nearest (magnitude_nearestCode low high).1, nearestCode_scaled low high size few]
  split_ifs with negative
  · rw [abs_of_neg negative, neg_neg]
  · rw [abs_of_nonneg (not_lt.mp negative)]

theorem exists_half {n : ℤ} (fits : |n| < 2 ^ 53) : ∃ b : Binary64, b.value? = some ((n : ℚ) / 2) := by
  obtain ⟨b, double⟩ := exists_scaled fits (by decide : (-1022 : ℤ) ≤ -1) (by decide)
  exact ⟨b, by rw [double, zpow_neg_one, div_eq_mul_inv]⟩

/-- A large double is a whole number. -/
theorem exists_whole {x : Binary64} {value : ℚ} (finite : x.value? = some value) (large : 2 ^ 52 ≤ |value|) :
    ∃ n : ℤ, value = n := by
  obtain ⟨n, whole⟩ := exists_multiple 0 finite large
  exact ⟨n, by rw [whole, pow_zero, mul_one]⟩

/-- The integer nearest to a double is a double. -/
theorem nearest_of_floor {x : Binary64} {y : ℚ} {m : ℤ} (finite : x.value? = some y) (floor : ⌊y + 1 / 2⌋ = m) :
    (nearest m).value? = some (m : ℚ) := by
  obtain ⟨least, most⟩ := Int.floor_eq_iff.mp floor
  rcases lt_or_ge |m| (2 ^ 53) with fits | large
  · exact nearest_intCast fits
  · have size : (2 : ℚ) ^ 53 ≤ |(m : ℚ)| := by
      rw [← Int.cast_abs]
      exact_mod_cast large
    have through := abs_sub_abs_le_abs_sub (m : ℚ) y
    have close : |(m : ℚ) - y| ≤ 1 / 2 := abs_le.mpr ⟨by linarith, by linarith⟩
    obtain ⟨n, rfl⟩ := exists_whole finite (by norm_num at size ⊢; linarith)
    obtain rfl : n = m := by
      have first : m < n + 1 := by exact_mod_cast (by linarith : (m : ℚ) < n + 1)
      have last : n < m + 1 := by exact_mod_cast (by linarith : (n : ℚ) < m + 1)
      omega
    exact nearest_value finite

/-- A number that is closer than a half to an integer is rounded to a double whose nearest integer it still is, the
upper one of two, exactly if the integer is a double and the number is not rounded to the half above it. -/
theorem floor_nearest_iff {x y : ℚ} {m : ℤ} (rounded : (nearest x).value? = some y) (near : |x - m| < 1 / 2) :
    ⌊y + 1 / 2⌋ = m ↔ (nearest m).value? = some (m : ℚ) ∧ y ≠ m + 1 / 2 := by
  obtain ⟨below, above⟩ := abs_lt.mp near
  constructor
  · intro floor
    obtain ⟨least, most⟩ := Int.floor_eq_iff.mp floor
    exact ⟨nearest_of_floor rounded floor, by rintro rfl; linarith⟩
  · rintro ⟨double, notHalf⟩
    have closest := nearest_closest rounded double
    rw [abs_sub_comm (m : ℚ)] at closest
    obtain ⟨least, most⟩ := abs_le.mp (le_trans closest near.le)
    rw [Int.floor_eq_iff]
    rcases le_or_gt (2 ^ 52) |y| with large | small
    · obtain ⟨n, rfl⟩ := exists_whole rounded large
      obtain rfl : n = m := by
        have first : m < n + 1 := by exact_mod_cast (by linarith : (m : ℚ) < n + 1)
        have last : n < m + 1 := by exact_mod_cast (by linarith : (n : ℚ) < m + 1)
        omega
      constructor <;> linarith
    · -- The halves around the integer are doubles, but for one at the most, on the side that is out of reach.
      obtain ⟨low, high⟩ := abs_lt.mp small
      have few : -2 ^ 52 ≤ m ∧ m ≤ 2 ^ 52 := by
        have first : (-2 ^ 52 - 1 : ℤ) < m := by exact_mod_cast (by linarith : (-2 ^ 52 - 1 : ℚ) < m)
        have last : m < 2 ^ 52 + 1 := by exact_mod_cast (by linarith : (m : ℚ) < 2 ^ 52 + 1)
        omega
      constructor
      · obtain same | more : m = -2 ^ 52 ∨ -2 ^ 52 < m := by omega
        · have value : (m : ℚ) = -2 ^ 52 := by rw [same]; norm_num
          linarith
        · obtain ⟨b, half⟩ := @exists_half (2 * m - 1) (abs_lt.mpr (by omega))
          have least := le_of_nearest rounded half (by push_cast; linarith)
          push_cast at least
          linarith
      · obtain same | less : m = 2 ^ 52 ∨ m < 2 ^ 52 := by omega
        · have value : (m : ℚ) = 2 ^ 52 := by rw [same]; norm_num
          linarith
        · obtain ⟨b, half⟩ := @exists_half (2 * m + 1) (abs_lt.mpr (by omega))
          have most := nearest_le rounded half (by push_cast; linarith)
          push_cast at most
          have strict : y < m + 1 / 2 := lt_of_le_of_ne (by linarith) notHalf
          linarith

end Binary64

end OpalCpp

import OpalCpp.Machine.FloatFormat

/-! # The order of rounded numbers

Rounding keeps the order, and so a product with less than one, of a number that was rounded itself, does
not pass the number.
-/

namespace OpalCpp

namespace Binary64

/-! ## Integers -/

theorem truncate_of_nonneg {x : ℚ} (nonneg : 0 ≤ x) : truncate x = ⌊x⌋ := by
  rw [truncate, Rat.floor_def', Int.tdiv_eq_ediv_of_nonneg (Rat.num_nonneg.mpr nonneg)]

/-- Numbers that would be rounded the other way round are half-way between the same integers. -/
theorem roundHalfEven_mono {x y : ℚ} (nonneg : 0 ≤ x) (le : x ≤ y) : roundHalfEven x ≤ roundHalfEven y := by
  by_contra less
  have next : (roundHalfEven y : ℚ) + 1 ≤ roundHalfEven x := by exact_mod_cast Nat.lt_of_not_le less
  obtain ⟨-, upper⟩ := abs_le.mp (roundHalfEven_error nonneg)
  obtain ⟨lower, -⟩ := abs_le.mp (roundHalfEven_error (le_trans nonneg le))
  obtain rfl : x = y := by linarith
  exact less le_rfl

end Binary64

/-! ## Formats -/

namespace FloatFormat

open Binary64 (roundHalfEven roundHalfEven_mono roundHalfEven_mem)

variable {format : FloatFormat}

/-- The significand in the units of an exponent that is no smaller than the number's is at most the largest. -/
theorem roundHalfEven_le {x : ℚ} {exponent : ℤ} (positive : 0 < x) (large : Int.log 2 x ≤ exponent) :
    roundHalfEven (x / 2 ^ (exponent - format.fraction)) ≤ 2 ^ (format.fraction + 1) := by
  have unit : (0 : ℚ) < 2 ^ (exponent - format.fraction) := zpow_pos two_pos _
  have most : x < ((2 : ℕ) : ℚ) ^ (Int.log 2 x + 1) := Int.lt_zpow_succ_log_self (by decide) x
  have power : (2 : ℚ) ^ (Int.log 2 x + 1) ≤ 2 ^ (((format.fraction + 1 : ℕ) : ℤ) + (exponent - format.fraction)) :=
    zpow_le_zpow_right₀ one_le_two (by omega)
  have below : x / 2 ^ (exponent - format.fraction) < (2 ^ (format.fraction + 1) : ℕ) := by
    rw [div_lt_iff₀ unit]
    rw [Nat.cast_two] at most
    rw [zpow_add₀ two_ne_zero ((format.fraction + 1 : ℕ) : ℤ), zpow_natCast] at power
    rw [Nat.cast_pow, Nat.cast_two]
    exact lt_of_lt_of_le most power
  exact (roundHalfEven_mem (by rw [Nat.cast_zero]; exact (div_pos positive unit).le) below).2

/-- The significand in the units of the number's own exponent has all its bits. -/
theorem le_roundHalfEven {x : ℚ} (positive : 0 < x) :
    2 ^ format.fraction ≤ roundHalfEven (x / 2 ^ (Int.log 2 x - format.fraction)) := by
  have unit : (0 : ℚ) < 2 ^ (Int.log 2 x - format.fraction) := zpow_pos two_pos _
  have least : ((2 : ℕ) : ℚ) ^ Int.log 2 x ≤ x := Int.zpow_log_le_self (by decide) positive
  have above : ((2 ^ format.fraction : ℕ) : ℚ) ≤ x / 2 ^ (Int.log 2 x - format.fraction) := by
    rw [le_div_iff₀ unit, Nat.cast_pow, Nat.cast_two, ← zpow_natCast, ← zpow_add₀ two_ne_zero, add_sub_cancel]
    rwa [Nat.cast_two] at least
  exact (roundHalfEven_mem above (Nat.lt_succ_floor _)).1

theorem nearestCode_mono {x y : ℚ} (nonneg : 0 ≤ x) (le : x ≤ y) : format.nearestCode x ≤ format.nearestCode y := by
  obtain rfl | positive := nonneg.eq_or_lt
  · rw [nearestCode, if_pos rfl]
    exact Nat.zero_le _
  have positive' := lt_of_lt_of_le positive le
  have log : Int.log 2 x ≤ Int.log 2 y := Int.log_mono_right positive le
  simp only [nearestCode, if_neg positive.ne', if_neg positive'.ne']
  apply min_le_min_right
  rcases (max_le_max_right (1 - (format.bias : ℤ)) log).eq_or_lt with same | less
  · rw [same]
    exact Nat.add_le_add_left (roundHalfEven_mono (div_nonneg nonneg (zpow_pos two_pos _).le)
      (div_le_div_of_nonneg_right le (zpow_pos two_pos _).le)) _
  · -- The larger exponent is that of a normal number, whose significand has all its bits.
    have normal : max (Int.log 2 y) (1 - (format.bias : ℤ)) = Int.log 2 y := by omega
    have carried := @roundHalfEven_le format x _ positive (le_max_left (Int.log 2 x) (1 - (format.bias : ℤ)))
    have least := @le_roundHalfEven format y positive'
    rw [normal] at less ⊢
    have next : (max (Int.log 2 x) (1 - (format.bias : ℤ)) + format.bias - 1).toNat + 1 ≤
        (Int.log 2 y + format.bias - 1).toNat := by omega
    have scaled := Nat.mul_le_mul_right (2 ^ format.fraction) next
    rw [pow_succ] at carried
    rw [Nat.add_mul] at scaled
    omega

/-- The magnitudes of finite bits are in the order of the bits. -/
theorem magnitude_mono {code other : ℕ} (finite : code < format.infinite) (le : other ≤ code) :
    format.magnitude other ≤ format.magnitude code := by
  by_contra less
  have back := @nearestCode_mono format _ _ (magnitude_nonneg code) (not_le.mp less).le
  rw [nearestCode_magnitude finite, nearestCode_magnitude (lt_of_le_of_lt le finite)] at back
  exact less (by rw [le_antisymm le back])

/-- The number nearest to another, where it is finite. -/
def rounded (format : FloatFormat) (x : ℚ) : ℚ :=
  if x < 0 then -format.magnitude (format.nearestCode |x|) else format.magnitude (format.nearestCode |x|)

/-- Rounding keeps the order of numbers up to one that is rounded to a finite one. -/
theorem rounded_mono {bound : ℚ} (finite : format.nearestCode bound < format.infinite) {x y : ℚ} (small : |x| ≤ bound)
    (small' : |y| ≤ bound) (le : x ≤ y) : format.rounded x ≤ format.rounded y := by
  have bits : ∀ {z}, |z| ≤ bound → format.nearestCode |z| < format.infinite := fun below =>
    lt_of_le_of_lt (nearestCode_mono (abs_nonneg _) below) finite
  rw [rounded, rounded]
  split_ifs with negative negative' negative'
  · apply neg_le_neg
    apply magnitude_mono (bits small)
    apply nearestCode_mono (abs_nonneg y)
    rw [abs_of_neg negative, abs_of_neg negative']
    exact neg_le_neg le
  · exact le_trans (neg_nonpos.mpr (magnitude_nonneg _)) (magnitude_nonneg _)
  · exact absurd (lt_of_le_of_lt le negative') negative
  · apply magnitude_mono (bits small')
    apply nearestCode_mono (abs_nonneg x)
    rw [abs_of_nonneg (not_lt.mp negative), abs_of_nonneg (not_lt.mp negative')]
    exact le

end FloatFormat

namespace Binary64

/-! ## Doubles -/

theorem value?_nearest_eq_rounded {x : ℚ} (finite : nearestCode |x| < 2047 * 2 ^ 52) :
    (nearest x).value? = some (FloatFormat.binary64.rounded x) := by
  rw [value?_nearest finite, FloatFormat.rounded, FloatFormat.binary64_nearestCode, FloatFormat.binary64_magnitude]

theorem nearestCode_mono {x y : ℚ} (nonneg : 0 ≤ x) (le : x ≤ y) : nearestCode x ≤ nearestCode y := by
  rw [← FloatFormat.binary64_nearestCode, ← FloatFormat.binary64_nearestCode]
  exact FloatFormat.nearestCode_mono nonneg le

/-- A number below the largest powers of two is rounded to a finite double. -/
theorem nearest_finite {x : ℚ} (bounded : |x| < 2 ^ (1022 : ℤ)) : (nearest x).value? ≠ none := by
  have top : nearestCode (2 ^ (1022 : ℤ)) < 2047 * 2 ^ 52 :=
    (magnitude_nearestCode (zpow_le_zpow_right₀ one_le_two (by decide)) (zpow_lt_zpow_right₀ one_lt_two (by decide))).1
  rw [value?_nearest (lt_of_le_of_lt (nearestCode_mono (abs_nonneg x) bounded.le) top)]
  exact Option.some_ne_none _

/-- One and the number before it. -/
theorem magnitude_one : magnitude (1023 * 2 ^ 52) = 1 ∧ magnitude (1023 * 2 ^ 52 - 1) = 1 - 2 ^ (-53 : ℤ) := by
  constructor
  · norm_num [magnitude]
  · norm_num [magnitude]

/-- There is no magnitude between one and the number before it. -/
theorem le_of_lt_one {code : ℕ} (finite : code < 2047 * 2 ^ 52) (less : magnitude code < 1) :
    magnitude code ≤ 1 - 2 ^ (-53 : ℤ) := by
  obtain ⟨one, before⟩ := magnitude_one
  by_contra above
  have first : 1023 * 2 ^ 52 - 1 ≤ code := by
    have order := nearestCode_mono (magnitude_nonneg _) (before ▸ (not_le.mp above).le)
    rwa [nearestCode_magnitude (by norm_num), nearestCode_magnitude finite] at order
  have last : code ≤ 1023 * 2 ^ 52 := by
    have order := nearestCode_mono (magnitude_nonneg _) (one ▸ less.le)
    rwa [nearestCode_magnitude finite, nearestCode_magnitude (by norm_num)] at order
  obtain rfl | rfl : code = 1023 * 2 ^ 52 - 1 ∨ code = 1023 * 2 ^ 52 := by omega
  · exact above before.le
  · exact less.ne one

theorem normal_of_one_le {x : ℚ} (some_ : 1 ≤ x) : (2 : ℚ) ^ (-1022 : ℤ) ≤ x :=
  le_trans (zpow_le_one_of_nonpos₀ one_le_two (by decide)) some_

/-- A double less than one is one of the numbers before it. -/
theorem le_of_value_lt_one {x : Binary64} {value : ℚ} (finite : x.value? = some value) (less : value < 1) :
    value ≤ 1 - 2 ^ (-53 : ℤ) := by
  rw [value?] at finite
  split_ifs at finite with infinite sign
  · obtain rfl := Option.some.inj finite
    have unit : (2 : ℚ) ^ (-53 : ℤ) ≤ 1 := zpow_le_one_of_nonpos₀ one_le_two (by decide)
    have nonneg := magnitude_nonneg x.code
    linarith
  · obtain rfl := Option.some.inj finite
    exact le_of_lt_one (not_le.mp infinite) less

/-- An integer is rounded to an integer. -/
theorem exists_magnitude_eq {n : ℕ} (some_ : 1 ≤ n) (bounded : (n : ℚ) < 2 ^ (1023 : ℤ)) :
    ∃ rounded : ℕ, magnitude (nearestCode n) = rounded := by
  have normal := normal_of_one_le (by exact_mod_cast some_ : (1 : ℚ) ≤ n)
  rcases Nat.lt_or_ge n (2 ^ 53) with fits | large
  · exact ⟨n, nearestCode_exact normal bounded rfl fits⟩
  · have log : 53 ≤ Int.log 2 (n : ℚ) := by
      apply (Int.zpow_le_iff_le_log (by decide) (by exact_mod_cast some_)).mp
      rw [Nat.cast_two]
      exact_mod_cast large
    obtain ⟨shift, placed⟩ : ∃ shift : ℕ, Int.log 2 (n : ℚ) - 52 = shift := ⟨(Int.log 2 (n : ℚ) - 52).toNat, by omega⟩
    refine ⟨roundHalfEven (significand n) * 2 ^ shift, ?_⟩
    rw [(magnitude_nearestCode normal bounded).2, placed, zpow_natCast]
    push_cast
    rfl

section Product

variable {x : ℚ} (some_ : 1 ≤ x) (bounded : x < 2 ^ (1023 : ℤ))

include some_ bounded

/-- A product with at most one is rounded to the rounded number at most. -/
theorem nearestCode_mul_le {factor : ℚ} (low : 0 ≤ factor) (high : factor ≤ 1) :
    nearestCode (magnitude (nearestCode x) * factor) ≤ nearestCode x := by
  have finite := (magnitude_nearestCode (normal_of_one_le some_) bounded).1
  have order :=
    nearestCode_mono (mul_nonneg (magnitude_nonneg (nearestCode x)) low) (mul_le_of_le_one_right (magnitude_nonneg _) high)
  rwa [nearestCode_magnitude finite] at order

/-- A product with less than one is rounded to the number itself at most. -/
theorem magnitude_mul_le {factor : ℚ} (low : 0 ≤ factor) (high : factor ≤ 1 - 2 ^ (-53 : ℤ)) :
    magnitude (nearestCode (magnitude (nearestCode x) * factor)) ≤ x := by
  by_contra passes
  rw [not_le] at passes
  have ulp : (2 : ℚ) ^ (-53 : ℤ) = 1 / 2 ^ 53 := by norm_num
  have normal := normal_of_one_le some_
  have finite := (magnitude_nearestCode normal bounded).1
  have most := nearestCode_mul_le some_ bounded low (le_trans high (by rw [ulp]; norm_num))
  -- What passes the number is rounded to no less than the number is, and so the factor was lost in the rounding.
  have least := nearestCode_mono (le_trans zero_le_one some_) passes.le
  rw [nearestCode_magnitude (lt_of_le_of_lt most finite)] at least
  have same := le_antisymm most least
  rw [same] at passes
  have error := nearestCode_error normal bounded
  generalize value : magnitude (nearestCode x) = rounded at *
  have one := le_trans some_ passes.le
  have smaller : rounded * factor ≤ rounded * (1 - 2 ^ (-53 : ℤ)) := mul_le_mul_of_nonneg_left high (by linarith)
  rcases lt_or_ge (rounded * factor) (2 ^ (-1022 : ℤ)) with tiny | large
  · have before : rounded * factor ≤ magnitude (1023 * 2 ^ 52 - 1) := by
      have half : (2 : ℚ) ^ (-1022 : ℤ) ≤ 2 ^ (-1 : ℤ) := zpow_le_zpow_right₀ one_le_two (by decide)
      rw [magnitude_one.2, ulp]
      exact le_trans tiny.le (le_trans half (by norm_num))
    have small := nearestCode_mono (mul_nonneg (by linarith) low) before
    have large := nearestCode_mono (magnitude_nonneg _) (magnitude_one.1.le.trans some_)
    rw [nearestCode_magnitude (by norm_num)] at small large
    omega
  · have fits : rounded * factor < 2 ^ (1023 : ℤ) := by
      rw [ulp] at error smaller
      have above := (abs_le.mp error).2
      exact lt_of_le_of_lt (by linarith only [above, smaller, some_]) bounded
    have error' := nearestCode_error large fits
    rw [same, value, ulp] at error'
    rw [ulp] at smaller
    have above := (abs_le.mp error').2
    linarith only [above, smaller, one]

end Product

end Binary64

end OpalCpp

import OpalCpp.Machine.Binary64

/-! # Binary formats

An IEEE 754 format by the bits of its fraction and the bias of its exponent: the magnitudes of its bits
without the sign, and the bits nearest to a number. A finite magnitude is its own nearest one.
-/

namespace OpalCpp

structure FloatFormat where
  fraction : ℕ
  bias : ℕ
deriving DecidableEq

namespace FloatFormat

def binary32 : FloatFormat := ⟨23, 127⟩

def binary64 : FloatFormat := ⟨52, 1023⟩

variable (format : FloatFormat)

/-- The bits of infinity; those of a NaN are above them. -/
def infinite : ℕ := (2 * format.bias + 1) * 2 ^ format.fraction

/-- The magnitude of finite bits. -/
def magnitude (code : ℕ) : ℚ :=
  if code < 2 ^ format.fraction then (code : ℚ) * 2 ^ (1 - format.bias - format.fraction : ℤ)
  else
    ((2 ^ format.fraction + code % 2 ^ format.fraction : ℕ) : ℚ) *
      2 ^ ((code / 2 ^ format.fraction : ℕ) - format.bias - format.fraction : ℤ)

/-- The bits nearest to a magnitude, which are those of infinity where there are no others. -/
def nearestCode (x : ℚ) : ℕ :=
  if x = 0 then 0
  else
    let exponent := max (Int.log 2 x) (1 - format.bias)
    min ((exponent + format.bias - 1).toNat * 2 ^ format.fraction +
      Binary64.roundHalfEven (x / 2 ^ (exponent - format.fraction))) format.infinite

theorem binary64_magnitude (code : ℕ) : binary64.magnitude code = Binary64.magnitude code := by
  rw [magnitude, Binary64.magnitude]
  congr 2
  simp only [binary64]
  congr 1
  omega

theorem binary64_nearestCode (x : ℚ) : binary64.nearestCode x = Binary64.nearestCode x := by
  simp only [nearestCode, Binary64.nearestCode, binary64, infinite]
  congr 4
  omega

variable {format}

theorem nearestCode_le (x : ℚ) : format.nearestCode x ≤ format.infinite := by
  rw [nearestCode]
  split_ifs
  · exact Nat.zero_le _
  · exact min_le_right _ _

theorem magnitude_zero : format.magnitude 0 = 0 := by
  rw [magnitude, if_pos (by positivity), Nat.cast_zero, zero_mul]

theorem magnitude_pos {code : ℕ} (nonzero : 0 < code) : 0 < format.magnitude code := by
  have some_ : 0 < 2 ^ format.fraction := by positivity
  rw [magnitude]
  split_ifs
  · exact mul_pos (Nat.cast_pos.mpr nonzero) (zpow_pos two_pos _)
  · exact mul_pos (Nat.cast_pos.mpr (by omega)) (zpow_pos two_pos _)

theorem magnitude_nonneg (code : ℕ) : 0 ≤ format.magnitude code := by
  obtain rfl | nonzero := Nat.eq_zero_or_pos code
  · rw [magnitude_zero]
  · exact (magnitude_pos nonzero).le

/-- The exponent and the significand of bits that are not subnormal. -/
theorem magnitude_normal {code : ℕ} (normal : 2 ^ format.fraction ≤ code) :
    format.magnitude code = ((2 ^ format.fraction + code % 2 ^ format.fraction : ℕ) : ℚ) *
      2 ^ (((code / 2 ^ format.fraction : ℕ) - format.bias : ℤ) - format.fraction) := by
  rw [magnitude, if_neg (not_lt.mpr normal)]

/-- A magnitude is between the powers of two of its exponent and of the next. -/
theorem log_magnitude {code : ℕ} (normal : 2 ^ format.fraction ≤ code) :
    Int.log 2 (format.magnitude code) = (code / 2 ^ format.fraction : ℕ) - format.bias := by
  obtain ⟨exponent, isExponent⟩ : ∃ exponent : ℤ, exponent = (code / 2 ^ format.fraction : ℕ) - format.bias := ⟨_, rfl⟩
  have value := magnitude_normal normal
  rw [← isExponent] at value ⊢
  have unit : (0 : ℚ) < 2 ^ (exponent - format.fraction) := zpow_pos two_pos _
  have below : code % 2 ^ format.fraction < 2 ^ format.fraction := Nat.mod_lt _ (by positivity)
  have positive : 0 < format.magnitude code := magnitude_pos (lt_of_lt_of_le (by positivity) normal)
  have scaled (more : ℕ) :
      (2 : ℚ) ^ (exponent + more) = 2 ^ (format.fraction + more) * 2 ^ (exponent - format.fraction) := by
    rw [← zpow_natCast, ← zpow_add₀ two_ne_zero]
    congr 1
    push_cast
    ring
  apply le_antisymm
  · apply Int.lt_add_one_iff.mp
    apply (Int.lt_zpow_iff_log_lt (by decide) positive).mp
    have most : ((2 ^ format.fraction + code % 2 ^ format.fraction : ℕ) : ℚ) < 2 ^ (format.fraction + 1) := by
      have doubled : 2 ^ format.fraction + code % 2 ^ format.fraction < 2 ^ (format.fraction + 1) := by
        rw [pow_succ]
        omega
      exact_mod_cast doubled
    have next := scaled 1
    rw [Nat.cast_one] at next
    rw [Nat.cast_two, next, value]
    exact mul_lt_mul_of_pos_right most unit
  · apply (Int.zpow_le_iff_le_log (by decide) positive).mp
    have least : (2 ^ format.fraction : ℚ) ≤ ((2 ^ format.fraction + code % 2 ^ format.fraction : ℕ) : ℚ) := by
      exact_mod_cast Nat.le_add_right _ _
    have here := scaled 0
    rw [Nat.cast_zero, add_zero, add_zero] at here
    rw [Nat.cast_two, here, value]
    exact mul_le_mul_of_nonneg_right least unit.le

theorem log_subnormal {code : ℕ} (nonzero : 0 < code) (subnormal : code < 2 ^ format.fraction) :
    Int.log 2 (format.magnitude code) < 1 - format.bias := by
  apply (Int.lt_zpow_iff_log_lt (by decide) (magnitude_pos nonzero)).mp
  have below : (code : ℚ) < 2 ^ format.fraction := by exact_mod_cast subnormal
  have scaled : (2 : ℚ) ^ (1 - format.bias : ℤ) = 2 ^ format.fraction * 2 ^ (1 - format.bias - format.fraction : ℤ) := by
    rw [← zpow_natCast, ← zpow_add₀ two_ne_zero]
    congr 1
    ring
  rw [magnitude, if_pos subnormal, Nat.cast_two, scaled]
  exact mul_lt_mul_of_pos_right below (zpow_pos two_pos _)

/-- A finite magnitude is its own nearest one. -/
theorem nearestCode_magnitude {code : ℕ} (finite : code < format.infinite) :
    format.nearestCode (format.magnitude code) = code := by
  obtain rfl | nonzero := Nat.eq_zero_or_pos code
  · rw [nearestCode, if_pos magnitude_zero]
  have positive : 0 < format.magnitude code := magnitude_pos nonzero
  obtain subnormal | normal := Nat.lt_or_ge code (2 ^ format.fraction)
  · have small := log_subnormal nonzero subnormal
    have whole : format.magnitude code / 2 ^ ((1 - format.bias : ℤ) - format.fraction) = (code : ℚ) := by
      rw [magnitude, if_pos subnormal]
      exact mul_div_cancel_right₀ _ (zpow_pos two_pos _).ne'
    have bottom : ((1 - format.bias : ℤ) + format.bias - 1).toNat = 0 := by omega
    simp only [nearestCode, if_neg positive.ne', max_eq_right small.le, whole, Binary64.roundHalfEven_natCast, bottom,
      zero_mul, zero_add]
    exact min_eq_left finite.le
  · have log := log_magnitude normal
    have some_ : 0 < code / 2 ^ format.fraction := Nat.div_pos normal (by positivity)
    have least : (1 - format.bias : ℤ) ≤ (code / 2 ^ format.fraction : ℕ) - format.bias := by omega
    have whole : format.magnitude code / 2 ^ (((code / 2 ^ format.fraction : ℕ) - format.bias : ℤ) - format.fraction) =
        ((2 ^ format.fraction + code % 2 ^ format.fraction : ℕ) : ℚ) := by
      rw [magnitude_normal normal]
      exact mul_div_cancel_right₀ _ (zpow_pos two_pos _).ne'
    have shift : (((code / 2 ^ format.fraction : ℕ) - format.bias : ℤ) + format.bias - 1).toNat =
        code / 2 ^ format.fraction - 1 := by omega
    have parts := Nat.div_add_mod code (2 ^ format.fraction)
    have sum : (code / 2 ^ format.fraction - 1) * 2 ^ format.fraction + (2 ^ format.fraction + code % 2 ^ format.fraction) =
        code := by
      obtain ⟨before, same⟩ := Nat.exists_eq_succ_of_ne_zero some_.ne'
      rw [same] at parts ⊢
      rw [Nat.succ_sub_one, ← add_assoc, ← Nat.succ_mul, mul_comm]
      exact parts
    simp only [nearestCode, if_neg positive.ne', log, max_eq_left least, whole, Binary64.roundHalfEven_natCast, shift, sum]
    exact min_eq_left finite.le

/-- A magnitude is a whole number of units of the smallest one. -/
theorem magnitude_units (code : ℕ) :
    ∃ units : ℕ, format.magnitude code = units * 2 ^ (1 - format.bias - format.fraction : ℤ) := by
  rw [magnitude]
  split_ifs with subnormal
  · exact ⟨code, rfl⟩
  · have some_ : 0 < code / 2 ^ format.fraction := Nat.div_pos (not_lt.mp subnormal) (by positivity)
    refine ⟨(2 ^ format.fraction + code % 2 ^ format.fraction) * 2 ^ (code / 2 ^ format.fraction - 1), ?_⟩
    rw [Nat.cast_mul, mul_assoc, Nat.cast_pow 2, Nat.cast_two, ← zpow_natCast, ← zpow_add₀ two_ne_zero]
    congr 2
    omega

end FloatFormat

/-! ## Singles -/

/-- A single is its 32 bits. -/
structure Binary32 where
  bits : UInt32
deriving DecidableEq, Repr

namespace Binary32

/-- The bits without the sign. -/
def code (x : Binary32) : ℕ := x.bits.toNat % 2 ^ 31

def isNegative (x : Binary32) : Bool := 2 ^ 31 ≤ x.bits.toNat

def quietNaN : Binary32 := ⟨0x7FC00000⟩

def isNaN (x : Binary32) : Bool := 255 * 2 ^ 23 < x.code

/-- The double of the same number. -/
def toBinary64 (x : Binary32) : Binary64 := .ofBinary32 x.bits

/-- The single nearest to a double. A NaN keeps the top of its payload, made quiet. -/
def ofBinary64 (x : Binary64) : Binary32 :=
  let code :=
    if x.isNaN then 0x7FC00000 ||| (x.code / 2 ^ 29 % 2 ^ 22)
    else if x.isInfinite then 255 * 2 ^ 23
    else FloatFormat.binary32.nearestCode (Binary64.magnitude x.code)
  ⟨UInt32.ofNat (code + if x.isNegative then 2 ^ 31 else 0)⟩

/-- The single nearest to a number. -/
def nearest (x : ℚ) : Binary32 := ⟨UInt32.ofNat (FloatFormat.binary32.nearestCode |x| + if x < 0 then 2 ^ 31 else 0)⟩

end Binary32

end OpalCpp

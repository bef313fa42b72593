import Mathlib.Data.Int.Log
import Mathlib.Data.Rat.Floor
import Mathlib.Tactic.Linarith
import Mathlib.Tactic.Positivity

/-! # IEEE 754 binary64

A double is its 64 bits. The finite ones stand for rational numbers, and an operation that is
correctly rounded gives the double nearest to the exact result, the even one of two. What is proved
of the rounding is what error bounds rest on: it is relative to the number in the normal range, and
there is none on the integers that fit in the significand.
-/

namespace OpalCpp

structure Binary64 where
  bits : UInt64
deriving DecidableEq, Repr

namespace Binary64

/-- The magnitude of a finite double by its bits without the sign. -/
def magnitude (code : ℕ) : ℚ :=
  if code < 2 ^ 52 then (code : ℚ) * 2 ^ (-1074 : ℤ)
  else ((2 ^ 52 + code % 2 ^ 52 : ℕ) : ℚ) * 2 ^ ((code / 2 ^ 52 : ℕ) - 1075 : ℤ)

/-- The bits without the sign. -/
def code (x : Binary64) : ℕ := x.bits.toNat % 2 ^ 63

def isNegative (x : Binary64) : Bool := 2 ^ 63 ≤ x.bits.toNat

/-- The number the double stands for; an infinity and a NaN stand for none. -/
def value? (x : Binary64) : Option ℚ :=
  if 2047 * 2 ^ 52 ≤ x.code then none
  else some (if x.isNegative then -magnitude x.code else magnitude x.code)

/-- The sign flipped, of every double. -/
def neg (x : Binary64) : Binary64 := ⟨x.bits ^^^ 0x8000000000000000⟩

def infinity : Binary64 := ⟨0x7FF0000000000000⟩

def quietNaN : Binary64 := ⟨0x7FF8000000000000⟩

def isInfinite (x : Binary64) : Bool := x.code = 2047 * 2 ^ 52

def isNaN (x : Binary64) : Bool := 2047 * 2 ^ 52 < x.code

/-- The comparison of numbers: the two zeros are equal, and a NaN is equal to nothing. -/
def equals (x y : Binary64) : Bool :=
  match x.value?, y.value? with
  | some first, some second => first = second
  | none, none => x.isInfinite && x.bits = y.bits
  | _, _ => false

/-- The order of numbers: an infinity is beyond every number, and a NaN compares with nothing. -/
def less (x y : Binary64) : Bool :=
  match x.value?, y.value? with
  | some first, some second => first < second
  | some _, none => y.isInfinite && !y.isNegative
  | none, some _ => x.isInfinite && x.isNegative
  | none, none => x.isInfinite && x.isNegative && y.isInfinite && !y.isNegative

/-- The integer towards zero. -/
def truncate (x : ℚ) : ℤ := x.num.tdiv x.den

/-- The nearest natural number, the even one of two. -/
def roundHalfEven (x : ℚ) : ℕ :=
  if x - ⌊x⌋₊ < 1 / 2 then ⌊x⌋₊
  else if 1 / 2 < x - ⌊x⌋₊ then ⌊x⌋₊ + 1
  else if ⌊x⌋₊ % 2 = 0 then ⌊x⌋₊ else ⌊x⌋₊ + 1

/-- The bits of the double nearest to a magnitude, which are those of infinity where there is none. -/
def nearestCode (x : ℚ) : ℕ :=
  if x = 0 then 0
  else
    let exponent := max (Int.log 2 x) (-1022)
    min ((exponent + 1022).toNat * 2 ^ 52 + roundHalfEven (x / 2 ^ (exponent - 52))) (2047 * 2 ^ 52)

/-- The double nearest to a number. -/
def nearest (x : ℚ) : Binary64 := ⟨UInt64.ofNat (nearestCode |x| + if x < 0 then 2 ^ 63 else 0)⟩

/-- The sum, rounded. A sum that is zero is a negative zero of two of them only. -/
def add (x y : Binary64) : Binary64 :=
  match x.value?, y.value? with
  | some first, some second =>
    if first + second = 0 ∧ x.isNegative ∧ y.isNegative then x else nearest (first + second)
  | some _, none => if y.isNaN then quietNaN else y
  | none, some _ => if x.isNaN then quietNaN else x
  | none, none => if x.isInfinite ∧ x.bits = y.bits then x else quietNaN

/-- A single by its bits, as a double: a number keeps its value and a NaN its payload, made quiet. -/
def ofBinary32 (bits : UInt32) : Binary64 :=
  let exponent := (bits >>> 23) &&& 0xFF
  let fraction := bits &&& 0x7FFFFF
  let unsigned : Binary64 :=
    if exponent = 255 then
      if fraction = 0 then infinity else ⟨quietNaN.bits ||| (fraction.toUInt64 <<< 29)⟩
    else if exponent = 0 then nearest (fraction.toNat * 2 ^ (-149 : ℤ))
    else nearest ((2 ^ 23 + fraction.toNat) * 2 ^ ((exponent.toNat : ℤ) - 150))
  if bits >>> 31 = 0 then unsigned else unsigned.neg

/-- The nearest integer, away from zero of two. -/
def roundHalfAway (x : ℚ) : ℤ := if 0 ≤ x then ⌊x + 1 / 2⌋ else -⌊-x + 1 / 2⌋

/-! ## Rounding to integers -/

theorem roundHalfEven_error {x : ℚ} (nonneg : 0 ≤ x) : |(roundHalfEven x : ℚ) - x| ≤ 1 / 2 := by
  have below := Nat.floor_le nonneg
  have above := Nat.lt_floor_add_one x
  rw [abs_le, roundHalfEven]
  split_ifs with less more
  · constructor <;> linarith
  · push_cast
    constructor <;> linarith
  · constructor <;> linarith
  · push_cast
    constructor <;> linarith

/-- An integer is its own nearest one. -/
theorem roundHalfEven_natCast (n : ℕ) : roundHalfEven (n : ℚ) = n := by
  rw [roundHalfEven, Nat.floor_natCast, sub_self, if_pos (by norm_num)]

/-- Rounding does not leave an interval between integers. -/
theorem roundHalfEven_mem {x : ℚ} {low high : ℕ} (above : (low : ℚ) ≤ x) (below : x < high) :
    low ≤ roundHalfEven x ∧ roundHalfEven x ≤ high := by
  have nonneg : 0 ≤ x := le_trans (Nat.cast_nonneg low) above
  have first : low ≤ ⌊x⌋₊ := Nat.le_floor above
  have last : ⌊x⌋₊ < high := (Nat.floor_lt nonneg).mpr below
  rw [roundHalfEven]
  split_ifs <;> omega

/-- What is closer than a half to an integer is rounded to it. -/
theorem roundHalfAway_eq {x : ℚ} {n : ℤ} (close : |x - n| < 1 / 2) : roundHalfAway x = n := by
  obtain ⟨below, above⟩ := abs_lt.mp close
  rw [roundHalfAway]
  split_ifs with nonneg
  · rw [Int.floor_eq_iff]
    constructor <;> linarith
  · have flipped : ⌊-x + 1 / 2⌋ = -n := by
      rw [Int.floor_eq_iff]
      push_cast
      constructor <;> linarith
    rw [flipped, neg_neg]

/-! ## Rounding to doubles -/

theorem nearestCode_le (x : ℚ) : nearestCode x ≤ 2047 * 2 ^ 52 := by
  rw [nearestCode]
  split_ifs
  · exact Nat.zero_le _
  · exact min_le_right _ _

/-- A significand with its exponent, as the bits of a magnitude. -/
theorem magnitude_code {exponent : ℤ} {significand : ℕ} (normal : -1022 ≤ exponent)
    (low : 2 ^ 52 ≤ significand) (high : significand ≤ 2 ^ 53) :
    magnitude ((exponent + 1022).toNat * 2 ^ 52 + significand) = significand * 2 ^ (exponent - 52) := by
  obtain ⟨shift, rfl⟩ : ∃ shift : ℕ, exponent = shift - 1022 := ⟨(exponent + 1022).toNat, by omega⟩
  rw [magnitude, if_neg (by omega)]
  have shifted : ((shift : ℤ) - 1022 + 1022).toNat = shift := by omega
  rw [shifted]
  obtain top | less := Nat.eq_or_lt_of_le high
  · -- The carry into the exponent.
    subst top
    have fraction : (shift * 2 ^ 52 + 2 ^ 53) % 2 ^ 52 = 0 := by omega
    have biased : (shift * 2 ^ 52 + 2 ^ 53) / 2 ^ 52 = shift + 2 := by omega
    have carried : (2 : ℚ) ^ (((shift + 2 : ℕ) : ℤ) - 1075) = 2 ^ ((shift : ℤ) - 1022 - 52) * 2 := by
      have next : ((shift + 2 : ℕ) : ℤ) - 1075 = (shift : ℤ) - 1022 - 52 + 1 := by omega
      rw [next, zpow_add_one₀ two_ne_zero]
    rw [fraction, biased, carried]
    push_cast
    ring
  · have fraction : (shift * 2 ^ 52 + significand) % 2 ^ 52 = significand - 2 ^ 52 := by omega
    have biased : (shift * 2 ^ 52 + significand) / 2 ^ 52 = shift + 1 := by omega
    have placed : ((shift + 1 : ℕ) : ℤ) - 1075 = (shift : ℤ) - 1022 - 52 := by omega
    rw [fraction, biased, placed, Nat.add_sub_cancel' low]

section Nearest

variable {x : ℚ} (low : 2 ^ (-1022 : ℤ) ≤ x) (high : x < 2 ^ (1023 : ℤ))

/-- The significand of a number: the number in units of its last place. -/
def significand (x : ℚ) : ℚ := x / 2 ^ (Int.log 2 x - 52)

theorem significand_mem (positive : 0 < x) : (2 ^ 52 : ℕ) ≤ significand x ∧ significand x < (2 ^ 53 : ℕ) := by
  have unit : (0 : ℚ) < 2 ^ (Int.log 2 x - 52) := zpow_pos two_pos _
  have least : ((2 : ℕ) : ℚ) ^ Int.log 2 x ≤ x := Int.zpow_log_le_self (by decide) positive
  have most : x < ((2 : ℕ) : ℚ) ^ (Int.log 2 x + 1) := Int.lt_zpow_succ_log_self (by decide) x
  have first : ((2 : ℕ) : ℚ) ^ Int.log 2 x = 2 ^ 52 * 2 ^ (Int.log 2 x - 52) := by
    rw [Nat.cast_two, ← zpow_natCast, ← zpow_add₀ two_ne_zero, Nat.cast_ofNat, add_sub_cancel]
  rw [zpow_add_one₀ (by decide), first] at most
  rw [first] at least
  rw [significand, le_div_iff₀ unit, div_lt_iff₀ unit]
  push_cast at least most ⊢
  constructor <;> linarith

include low high

theorem log_mem : -1022 ≤ Int.log 2 x ∧ Int.log 2 x < 1023 := by
  have positive : 0 < x := lt_of_lt_of_le (zpow_pos two_pos _) low
  refine ⟨(Int.zpow_le_iff_le_log (by decide) positive).mp ?_, (Int.lt_zpow_iff_log_lt (by decide) positive).mp ?_⟩
  · rwa [Nat.cast_two]
  · rwa [Nat.cast_two]

/-- The bits nearest to a magnitude in the normal range, and the number they stand for. -/
theorem magnitude_nearestCode :
    nearestCode x < 2047 * 2 ^ 52 ∧
      magnitude (nearestCode x) = roundHalfEven (significand x) * 2 ^ (Int.log 2 x - 52) := by
  have positive : 0 < x := lt_of_lt_of_le (zpow_pos two_pos _) low
  obtain ⟨normal, small⟩ := log_mem low high
  obtain ⟨above, below⟩ := significand_mem positive
  obtain ⟨least, most⟩ := roundHalfEven_mem above below
  have code : nearestCode x = (Int.log 2 x + 1022).toNat * 2 ^ 52 + roundHalfEven (significand x) := by
    simp only [nearestCode, if_neg positive.ne', max_eq_left normal]
    apply min_eq_left
    rw [significand] at most
    omega
  rw [code]
  exact ⟨by omega, magnitude_code normal least most⟩

theorem nearestCode_error : |magnitude (nearestCode x) - x| ≤ x * 2 ^ (-53 : ℤ) := by
  have positive : 0 < x := lt_of_lt_of_le (zpow_pos two_pos _) low
  have unit : (0 : ℚ) < 2 ^ (Int.log 2 x - 52) := zpow_pos two_pos _
  obtain ⟨above, _⟩ := significand_mem positive
  have error := roundHalfEven_error (le_trans (Nat.cast_nonneg _) above)
  have whole : x = significand x * 2 ^ (Int.log 2 x - 52) := (div_mul_cancel₀ x unit.ne').symm
  have scaled : (2 ^ 52 : ℕ) * (2 : ℚ) ^ (Int.log 2 x - 52) ≤ x := by
    have bound := mul_le_mul_of_nonneg_right above unit.le
    rwa [← whole] at bound
  have difference : (roundHalfEven (significand x) : ℚ) * 2 ^ (Int.log 2 x - 52) - x =
      (roundHalfEven (significand x) - significand x) * 2 ^ (Int.log 2 x - 52) := by
    rw [sub_mul, ← whole]
  have ulp : (2 : ℚ) ^ (-53 : ℤ) = 1 / 2 ^ 53 := by norm_num
  rw [(magnitude_nearestCode low high).2, difference, abs_mul, abs_of_pos unit, ulp]
  have half := mul_le_mul_of_nonneg_right error unit.le
  push_cast at scaled
  linarith

/-- The numbers whose digits fit in the significand are exact. -/
theorem nearestCode_scaled {n : ℕ} {exponent : ℤ} (scaled : x = n * 2 ^ exponent) (fits : n < 2 ^ 53) :
    magnitude (nearestCode x) = x := by
  have positive : 0 < x := lt_of_lt_of_le (zpow_pos two_pos _) low
  have unit : (0 : ℚ) < 2 ^ exponent := zpow_pos two_pos _
  have short : Int.log 2 x < 53 + exponent := by
    apply (Int.lt_zpow_iff_log_lt (by decide) positive).mp
    rw [scaled, Nat.cast_two, zpow_add₀ two_ne_zero]
    apply mul_lt_mul_of_pos_right _ unit
    exact_mod_cast fits
  obtain ⟨shift, placed⟩ : ∃ shift : ℕ, exponent = Int.log 2 x - 52 + shift :=
    ⟨(exponent - (Int.log 2 x - 52)).toNat, by omega⟩
  have whole : significand x = ((n * 2 ^ shift : ℕ) : ℚ) := by
    rw [significand, div_eq_iff (zpow_pos two_pos _).ne']
    conv_lhs => rw [scaled, placed, zpow_add₀ two_ne_zero, zpow_natCast]
    push_cast
    ring
  rw [(magnitude_nearestCode low high).2, whole, roundHalfEven_natCast]
  conv_rhs => rw [scaled, placed, zpow_add₀ two_ne_zero, zpow_natCast]
  push_cast
  ring

/-- The integers that fit in the significand are exact. -/
theorem nearestCode_exact {n : ℕ} (integer : x = n) (fits : n < 2 ^ 53) : magnitude (nearestCode x) = x := by
  have scaled : x = n * 2 ^ (0 : ℤ) := by rw [integer, zpow_zero, mul_one]
  exact nearestCode_scaled low high scaled fits

end Nearest

theorem value?_nearest {x : ℚ} (finite : nearestCode |x| < 2047 * 2 ^ 52) :
    (nearest x).value? = some (if x < 0 then -magnitude (nearestCode |x|) else magnitude (nearestCode |x|)) := by
  have bits : (nearest x).bits.toNat = nearestCode |x| + if x < 0 then 2 ^ 63 else 0 := by
    rw [nearest, UInt64.toNat_ofNat']
    split_ifs <;> omega
  have code : (nearest x).code = nearestCode |x| := by
    rw [Binary64.code, bits]
    split_ifs <;> omega
  have sign : (nearest x).isNegative = decide (x < 0) := by
    rw [isNegative, bits, decide_eq_decide]
    split_ifs with negative
    · simp [negative]
    · simp only [negative, iff_false]
      omega
  rw [value?, code, if_neg (by omega), sign]
  simp only [decide_eq_true_eq]

/-- A number in the normal range is rounded to a finite double with a relative error of 2^-53 at most. -/
theorem nearest_error {x : ℚ} (low : 2 ^ (-1022 : ℤ) ≤ |x|) (high : |x| < 2 ^ (1023 : ℤ)) :
    ∃ y, (nearest x).value? = some y ∧ |y - x| ≤ |x| * 2 ^ (-53 : ℤ) := by
  have error := nearestCode_error low high
  refine ⟨_, value?_nearest (magnitude_nearestCode low high).1, ?_⟩
  split_ifs with negative
  · rw [abs_of_neg negative] at error ⊢
    rwa [← abs_neg, neg_sub, sub_neg_eq_add, add_comm, ← sub_neg_eq_add]
  · rwa [abs_of_nonneg (not_lt.mp negative)] at error ⊢

/-- The integers that fit in the significand are exact. -/
theorem nearest_intCast {n : ℤ} (fits : |n| < 2 ^ 53) : (nearest n).value? = some (n : ℚ) := by
  obtain rfl | nonzero := eq_or_ne n 0
  · have zero : nearestCode |((0 : ℤ) : ℚ)| = 0 := by simp [nearestCode]
    rw [value?_nearest (by rw [zero]; norm_num), zero]
    simp [magnitude]
  have size : |(n : ℚ)| = (n.natAbs : ℚ) := by
    rw [← Int.cast_abs, Int.abs_eq_natAbs, Int.cast_natCast]
  have one : (1 : ℚ) ≤ |(n : ℚ)| := by
    rw [size]
    exact_mod_cast Nat.one_le_iff_ne_zero.mpr (Int.natAbs_ne_zero.mpr nonzero)
  have few : n.natAbs < 2 ^ 53 := by
    rw [Int.abs_eq_natAbs] at fits
    exact_mod_cast fits
  have low : (2 : ℚ) ^ (-1022 : ℤ) ≤ |(n : ℚ)| := le_trans (zpow_le_one_of_nonpos₀ one_le_two (by decide)) one
  have high : |(n : ℚ)| < 2 ^ (1023 : ℤ) := by
    have below : (n.natAbs : ℚ) < 2 ^ (53 : ℤ) := by exact_mod_cast few
    rw [size]
    exact lt_trans below (zpow_lt_zpow_right₀ one_lt_two (by decide))
  rw [value?_nearest (magnitude_nearestCode low high).1, nearestCode_exact low high size few]
  split_ifs with negative
  · rw [abs_of_neg negative, neg_neg]
  · rw [abs_of_nonneg (not_lt.mp negative)]

/-- Small integers compare with the doubles of others as they do with the others. -/
theorem less_nearest {n d : ℤ} (nonneg : 0 ≤ n) (small : n < 2 ^ 52) (range : |(d : ℚ)| < 2 ^ (1023 : ℤ)) :
    (nearest n).less (nearest d) ↔ n < d := by
  have exact : (nearest n).value? = some (n : ℚ) := nearest_intCast (by rw [abs_of_nonneg nonneg]; omega)
  obtain fits | large := lt_or_ge |d| (2 ^ 53)
  · rw [less, exact, nearest_intCast fits]
    simp
  have size : (2 : ℚ) ^ 53 ≤ |(d : ℚ)| := by
    rw [← Int.cast_abs]
    exact_mod_cast large
  have low : (2 : ℚ) ^ (-1022 : ℤ) ≤ |(d : ℚ)| :=
    le_trans (zpow_le_one_of_nonpos₀ one_le_two (by decide)) (le_trans (by norm_num) size)
  obtain ⟨y, rounded, error⟩ := nearest_error low range
  have unit : (2 : ℚ) ^ (-53 : ℤ) ≤ 1 / 4 := by norm_num
  obtain ⟨above, below⟩ := abs_le.mp (le_trans error (mul_le_mul_of_nonneg_left unit (abs_nonneg _)))
  have bound : (n : ℚ) < 2 ^ 52 := by exact_mod_cast small
  have start : (0 : ℚ) ≤ n := by exact_mod_cast nonneg
  rw [less, exact, rounded]
  simp only [decide_eq_true_eq]
  obtain negative | positive := lt_or_ge d 0
  · have sign : (d : ℚ) < 0 := by exact_mod_cast negative
    rw [abs_of_neg sign] at above below
    constructor
    · intro less
      linarith
    · intro less
      omega
  · have sign : (0 : ℚ) ≤ d := by exact_mod_cast positive
    rw [abs_of_nonneg sign] at above below size
    constructor
    · intro _
      rw [abs_of_nonneg positive] at large
      omega
    · intro _
      linarith

/-! ## Every finite double is the nearest to its number -/

theorem magnitude_nonneg (code : ℕ) : 0 ≤ magnitude code := by
  rw [magnitude]
  split_ifs
  · exact mul_nonneg (Nat.cast_nonneg _) (zpow_pos two_pos _).le
  · exact mul_nonneg (Nat.cast_nonneg _) (zpow_pos two_pos _).le

/-- A finite magnitude is its own nearest one. -/
theorem nearestCode_magnitude {code : ℕ} (finite : code < 2047 * 2 ^ 52) : nearestCode (magnitude code) = code := by
  obtain rfl | nonzero := Nat.eq_zero_or_pos code
  · rw [nearestCode, if_pos (by simp [magnitude])]
  by_cases subnormal : code < 2 ^ 52
  · have value : magnitude code = (code : ℚ) * 2 ^ (-1074 : ℤ) := by rw [magnitude, if_pos subnormal]
    have positive : 0 < magnitude code := by
      rw [value]
      exact mul_pos (Nat.cast_pos.mpr nonzero) (zpow_pos two_pos _)
    have small : Int.log 2 (magnitude code) < -1022 := by
      apply (Int.lt_zpow_iff_log_lt (by decide) positive).mp
      have below : (code : ℚ) < 2 ^ 52 := by exact_mod_cast subnormal
      have scaled : (2 : ℚ) ^ (-1022 : ℤ) = 2 ^ 52 * 2 ^ (-1074 : ℤ) := by
        rw [← zpow_natCast, ← zpow_add₀ two_ne_zero]
        rfl
      rw [value, Nat.cast_two, scaled]
      exact mul_lt_mul_of_pos_right below (zpow_pos two_pos _)
    have whole : magnitude code / 2 ^ ((-1022 : ℤ) - 52) = (code : ℚ) := by
      rw [value, show ((-1022 : ℤ) - 52) = -1074 by norm_num]
      exact mul_div_cancel_right₀ _ (zpow_pos two_pos _).ne'
    simp only [nearestCode, if_neg positive.ne', max_eq_right small.le, whole, roundHalfEven_natCast]
    omega
  · -- The exponent and the significand of the code are those of its magnitude.
    obtain ⟨exponent, isExponent⟩ : ∃ exponent : ℤ, exponent = (code / 2 ^ 52 : ℕ) - 1023 := ⟨_, rfl⟩
    have positiveCode : 2 ^ 52 + code % 2 ^ 52 < 2 ^ 53 := by omega
    have value : magnitude code = ((2 ^ 52 + code % 2 ^ 52 : ℕ) : ℚ) * 2 ^ (exponent - 52) := by
      rw [magnitude, if_neg subnormal, isExponent]
      congr 2
      omega
    have unit : (0 : ℚ) < 2 ^ (exponent - 52) := zpow_pos two_pos _
    have positive : 0 < magnitude code := by
      rw [value]
      exact mul_pos (Nat.cast_pos.mpr (by omega)) unit
    have log : Int.log 2 (magnitude code) = exponent := by
      have lower : ((2 : ℕ) : ℚ) ^ exponent ≤ magnitude code := by
        have split : (2 : ℚ) ^ exponent = 2 ^ 52 * 2 ^ (exponent - 52) := by
          rw [← zpow_natCast, ← zpow_add₀ two_ne_zero]
          congr 1
          push_cast
          ring
        have least : (2 ^ 52 : ℚ) ≤ ((2 ^ 52 + code % 2 ^ 52 : ℕ) : ℚ) := by exact_mod_cast Nat.le_add_right _ _
        rw [Nat.cast_two, split, value]
        exact mul_le_mul_of_nonneg_right least unit.le
      have upper : magnitude code < ((2 : ℕ) : ℚ) ^ (exponent + 1) := by
        have split : (2 : ℚ) ^ (exponent + 1) = 2 ^ 53 * 2 ^ (exponent - 52) := by
          rw [← zpow_natCast, ← zpow_add₀ two_ne_zero]
          congr 1
          push_cast
          ring
        have most : ((2 ^ 52 + code % 2 ^ 52 : ℕ) : ℚ) < 2 ^ 53 := by exact_mod_cast positiveCode
        rw [Nat.cast_two, split, value]
        exact mul_lt_mul_of_pos_right most unit
      apply le_antisymm
      · exact Int.lt_add_one_iff.mp ((Int.lt_zpow_iff_log_lt (by decide) positive).mp upper)
      · exact (Int.zpow_le_iff_le_log (by decide) positive).mp lower
    have normal : -1022 ≤ exponent := by omega
    have whole : magnitude code / 2 ^ (exponent - 52) = ((2 ^ 52 + code % 2 ^ 52 : ℕ) : ℚ) := by
      rw [value]
      exact mul_div_cancel_right₀ _ unit.ne'
    simp only [nearestCode, if_neg positive.ne', log, max_eq_left normal, whole, roundHalfEven_natCast]
    omega

/-- A finite double by its magnitude and its sign. -/
theorem bits_eq {x : Binary64} (finite : x.code < 2047 * 2 ^ 52) :
    x.bits = UInt64.ofNat (nearestCode (magnitude x.code) + if x.isNegative then 2 ^ 63 else 0) := by
  have sign : x.bits.toNat = x.code + if x.isNegative then 2 ^ 63 else 0 := by
    have bounded := x.bits.toNat_lt
    rw [isNegative, code]
    split_ifs with negative
    · rw [decide_eq_true_eq] at negative
      omega
    · rw [decide_eq_true_eq] at negative
      omega
  rw [nearestCode_magnitude finite, ← sign, UInt64.ofNat_toNat]

end Binary64

end OpalCpp

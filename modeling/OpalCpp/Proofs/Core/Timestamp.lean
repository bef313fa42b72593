import OpalCpp.Model.Core.Timestamp

/-! # Seconds and milliseconds

A timestamp of the representable window comes back from its epoch seconds: whole seconds are exact
doubles, and for the others the two roundings together stay well below half a millisecond.
-/

namespace OpalCpp.Timestamp

open Binary64

/-- The instant has a year between 0000 and 9999. -/
def Representable (ts : Timestamp) : Prop :=
  kMinRepresentableMs ≤ ts.ms.toInt ∧ ts.ms.toInt ≤ kMaxRepresentableMs

theorem checkedFromMs_of_representable {ts : Timestamp} (window : ts.Representable) :
    checkedFromMs ts.ms = .ok ts := by
  rw [checkedFromMs, if_neg]
  exact fun outside => outside.elim (fun low => absurd window.1 (not_le.mpr low))
    fun high => absurd window.2 (not_le.mpr high)

/-- What passes the check is in the window. -/
theorem representable_of_checkedFromMs {ms : Int64} {ts : Timestamp} (checked : checkedFromMs ms = .ok ts) :
    ts.Representable := by
  rw [checkedFromMs] at checked
  split_ifs at checked with outside
  cases checked
  exact ⟨not_lt.mp fun low => outside (.inl low), not_lt.mp fun high => outside (.inr high)⟩

theorem representable_of_fromEpochSecondsChecked {seconds : Binary64} {ts : Timestamp}
    (converted : fromEpochSecondsChecked seconds = .ok ts) : ts.Representable := by
  rw [fromEpochSecondsChecked] at converted
  cases finite : seconds.value? with
  | none =>
    rw [finite] at converted
    cases converted
  | some value =>
    rw [finite] at converted
    dsimp only at converted
    split_ifs at converted
    exact representable_of_checkedFromMs converted

/-- The check and the scaling of finite seconds. -/
theorem fromEpochSecondsChecked_of_llround {ts : Timestamp} {seconds : Binary64} {value scaled : ℚ}
    (window : ts.Representable) (finite : seconds.value? = some value) (low : kMinSeconds ≤ value)
    (high : value ≤ kMaxSeconds) (product : (nearest (value * 1000)).value? = some scaled)
    (close : |scaled - ts.ms.toInt| < 1 / 2) : fromEpochSecondsChecked seconds = .ok ts := by
  have rounded : llround (nearest (value * 1000)) = ts.ms := by
    rw [llround, product, Option.getD_some, roundHalfAway_eq close, Int64.ofInt_toInt]
  simp only [fromEpochSecondsChecked, finite, rounded]
  rw [if_neg (not_or.mpr ⟨not_lt.mpr low, not_lt.mpr high⟩), checkedFromMs_of_representable window]

/-- Whole seconds are converted exactly. -/
theorem fromEpochSecondsChecked_whole {ts : Timestamp} {seconds : Binary64} {n : ℤ} (window : ts.Representable)
    (whole : ts.ms.toInt = n * 1000) (finite : seconds.value? = some (n : ℚ)) :
    fromEpochSecondsChecked seconds = .ok ts := by
  obtain ⟨low, high⟩ := window
  simp only [kMinRepresentableMs, kMaxRepresentableMs] at low high
  have exact_ : (nearest ((n : ℚ) * 1000)).value? = some ((n * 1000 : ℤ) : ℚ) := by
    rw [← nearest_intCast (abs_lt.mpr (by omega))]
    push_cast
    rfl
  apply fromEpochSecondsChecked_of_llround ⟨low, high⟩ finite _ _ exact_
  · rw [whole, sub_self, abs_zero]
    norm_num
  · rw [kMinSeconds]
    exact_mod_cast (by omega : -62167219200 ≤ n)
  · rw [kMaxSeconds]
    exact_mod_cast (by omega : n ≤ 253402300800)

/-- A quotient or a product of the window's size is in the normal range. -/
theorem normal_of_bounds (x : ℚ) (low : 1 / 2000 ≤ |x|) (high : |x| ≤ 2 ^ 48) :
    2 ^ (-1022 : ℤ) ≤ |x| ∧ |x| < 2 ^ (1023 : ℤ) := by
  have least : (2 : ℚ) ^ (-1022 : ℤ) ≤ 2 ^ (-11 : ℤ) := zpow_le_zpow_right₀ one_le_two (by decide)
  have most : (2 : ℚ) ^ (48 : ℤ) < 2 ^ (1023 : ℤ) := zpow_lt_zpow_right₀ one_lt_two (by decide)
  have small : (2 : ℚ) ^ (-11 : ℤ) ≤ 1 / 2000 := by norm_num
  have large : (2 : ℚ) ^ (48 : ℤ) = 2 ^ 48 := by norm_num
  rw [large] at most
  exact ⟨le_trans least (le_trans small low), lt_of_le_of_lt high most⟩

/-- The quotient of the milliseconds of the window is in the normal range. -/
theorem normal_seconds {ms : ℤ} (low : kMinRepresentableMs ≤ ms) (high : ms ≤ kMaxRepresentableMs) (nonzero : ms ≠ 0) :
    2 ^ (-1022 : ℤ) ≤ |(ms : ℚ) / 1000| ∧ |(ms : ℚ) / 1000| < 2 ^ (1023 : ℤ) := by
  simp only [kMinRepresentableMs, kMaxRepresentableMs] at low high
  have one : (1 : ℚ) ≤ |(ms : ℚ)| := by
    rw [← Int.cast_abs]
    exact_mod_cast Int.one_le_abs nonzero
  have size : |(ms : ℚ)| ≤ 253402300799999 := by
    rw [← Int.cast_abs]
    exact_mod_cast abs_le.mpr ⟨by omega, by omega⟩
  have quotient : |(ms : ℚ) / 1000| = |(ms : ℚ)| / 1000 := by
    rw [abs_div, abs_of_pos (by norm_num : (0 : ℚ) < 1000)]
  exact normal_of_bounds _ (by linarith) (by linarith)

/-- The product of rounded seconds, rounded, is closer than half a millisecond to the milliseconds. -/
theorem scaled_of_near {ms : ℤ} {value : ℚ} (low : kMinRepresentableMs ≤ ms) (high : ms ≤ kMaxRepresentableMs)
    (fractional : ¬ (1000 : ℤ) ∣ ms) (near : |value - ms / 1000| ≤ |(ms : ℚ) / 1000| * 2 ^ (-53 : ℤ)) :
    kMinSeconds ≤ value ∧ value ≤ kMaxSeconds ∧ ∃ scaled, (nearest (value * 1000)).value? = some scaled ∧
      |scaled - value * 1000| ≤ |value * 1000| * 2 ^ (-53 : ℤ) ∧ |scaled - ms| < 1 / 2 := by
  simp only [kMinRepresentableMs, kMaxRepresentableMs] at low high
  have ulp : (2 : ℚ) ^ (-53 : ℤ) = 1 / 2 ^ 53 := by norm_num
  -- The instant is off the ends of the window by a millisecond at least.
  have first : (-62167219199999 : ℚ) ≤ ms := by exact_mod_cast (by omega : -62167219199999 ≤ ms)
  have last : (ms : ℚ) ≤ 253402300799999 := by exact_mod_cast high
  have one : (1 : ℚ) ≤ |(ms : ℚ)| := by
    rw [← Int.cast_abs]
    exact_mod_cast Int.one_le_abs (by omega : ms ≠ 0)
  have size : |(ms : ℚ)| ≤ 253402300799999 := abs_le.mpr ⟨by linarith, last⟩
  have quotient : |(ms : ℚ) / 1000| = |(ms : ℚ)| / 1000 := by
    rw [abs_div, abs_of_pos (by norm_num : (0 : ℚ) < 1000)]
  -- The first rounding, of the quotient.
  rw [quotient, ulp] at near
  obtain ⟨below, above⟩ := abs_le.mp (le_trans near (by linarith : _ ≤ (253402300799999 : ℚ) / 1000 / 2 ^ 53))
  have scaled : |(ms : ℚ) - value * 1000| ≤ 1 / 32 := abs_le.mpr ⟨by linarith, by linarith⟩
  -- The second rounding, of the product.
  have apart := abs_sub_abs_le_abs_sub (ms : ℚ) (value * 1000)
  have bounded : |value * 1000| ≤ 2 ^ 48 := abs_le.mpr ⟨by linarith, by linarith⟩
  obtain ⟨least, most⟩ := normal_of_bounds (value * 1000) (by linarith) bounded
  obtain ⟨rounded, product, error⟩ := nearest_error least most
  have small := error
  rw [ulp] at small
  obtain ⟨low', high'⟩ := abs_le.mp (le_trans small (by linarith : _ ≤ (1 : ℚ) / 32))
  obtain ⟨low'', high''⟩ := abs_le.mp scaled
  refine ⟨?_, ?_, rounded, product, error, abs_lt.mpr ⟨by linarith, by linarith⟩⟩
  · rw [kMinSeconds]
    linarith
  · rw [kMaxSeconds]
    linarith

/-- The milliseconds of the window come back from the rounded seconds. -/
theorem fromEpochSecondsChecked_epochSeconds {ts : Timestamp} (window : ts.Representable)
    (fractional : ¬ (1000 : ℤ) ∣ ts.ms.toInt) : fromEpochSecondsChecked ts.epochSeconds = .ok ts := by
  have ⟨low, high⟩ := window
  obtain ⟨least, most⟩ := normal_seconds low high fun zero => fractional (zero ▸ dvd_zero _)
  obtain ⟨seconds, finite, error⟩ := nearest_error least most
  obtain ⟨first, last, scaled, product, _, close⟩ := scaled_of_near low high fractional error
  simp only [kMinRepresentableMs, kMaxRepresentableMs] at low high
  have exact_ : (toDouble ts.ms).value? = some (ts.ms.toInt : ℚ) := nearest_intCast (abs_lt.mpr (by omega))
  apply fromEpochSecondsChecked_of_llround window _ first last product close
  rw [epochSeconds, exact_]
  exact finite

end OpalCpp.Timestamp

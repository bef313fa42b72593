import OpalCpp.Machine.Rounding
import OpalCpp.Model.Client.Retry
import OpalCpp.Proofs.Http.ObsoleteDates

/-! # The delays of the retries

What a response asks for is the delay of the digits or of the date, as the integers have it, up to the
largest duration. The backoff is within its bounds as long as the product of the initial one fits, and
the ceiling is not rounded up and taken whole.
-/

namespace OpalCpp.Client

open Binary64 (nearest nearestCode magnitude truncate)
open Bytes (ascii)
open Http (Headers parseHttpDate)

/-! ## Machine arithmetic -/

/-- A signed number by its bits. -/
theorem toInt_eq (x : Int64) :
    x.toInt = if x.toUInt64.toNat < 2 ^ 63 then (x.toUInt64.toNat : ℤ) else x.toUInt64.toNat - 2 ^ 64 := by
  have bits := BitVec.toInt_eq_toNat_cond x.toBitVec
  rw [Int64.toNat_toBitVec] at bits
  rw [Int64.toInt, bits]
  split_ifs <;> omega

/-- Seconds up to the bound are scaled without a wrap. -/
theorem toInt_scaled {seconds : ℕ} (few : (seconds : ℤ) ≤ maxMilliseconds / 1000) :
    (Int64.ofNat seconds * 1000).toInt = seconds * 1000 := by
  rw [maxMilliseconds] at few
  have thousand : (1000 : Int64).toInt = 1000 := rfl
  rw [Int64.toInt_mul, Int64.toInt_ofNat_of_lt (by omega), thousand]
  exact Int.bmod_eq_of_le (by omega) (by omega)

/-- The unsigned difference of two instants in order is the difference. -/
theorem toNat_ahead {first second : Int64} (ordered : second < first) :
    ((first.toUInt64 - second.toUInt64).toNat : ℤ) = first.toInt - second.toInt := by
  have bounded := first.toUInt64.toNat_lt
  have bounded' := second.toUInt64.toNat_lt
  rw [Int64.lt_iff_toInt_lt, toInt_eq, toInt_eq] at ordered
  rw [UInt64.toNat_sub, toInt_eq, toInt_eq]
  split_ifs at ordered ⊢ <;> omega

/-- The least of a difference and the largest duration is a duration. -/
theorem toInt_clamped (ahead : UInt64) :
    (if kRepresentable < ahead then kRepresentable else ahead).toInt64.toInt = min (ahead.toNat : ℤ) maxMilliseconds := by
  have most : kRepresentable.toNat = 2 ^ 63 - 1 := rfl
  rw [toInt_eq, UInt64.toUInt64_toInt64, maxMilliseconds]
  split_ifs with above small small
  · rw [UInt64.lt_iff_toNat_lt] at above
    omega
  · omega
  · omega
  · rw [UInt64.lt_iff_toNat_lt] at above
    omega

/-! ## Digits and dates -/

/-- A date has a blank, so that digits are none. -/
theorem parseHttpDate_digits {value : Bytes} {now : Timestamp} {calendar : Calendar}
    (digits : value.all Decimal.isDigit = true) : parseHttpDate value now calendar = none := by
  have all := List.all_eq_true.mp digits
  have noBlank (index : ℕ) : ¬ value[index]? = some ' '.toUInt8 := by
    intro cell
    exact absurd (all _ (List.mem_of_getElem? cell)) (by decide)
  have noComma : ¬ ','.toUInt8 ∈ value := fun member => absurd (all _ member) (by decide)
  have fixdate : Timestamp.parseHttpDateFields value = none := by
    simp only [Timestamp.parseHttpDateFields, noBlank, false_and, and_false, guard_false, Option.failure_eq_none,
      Option.bind_eq_bind, Option.bind_none, Option.bind_fun_none]
  have rfc850 : Http.rfc850AsFixdate value now calendar = none := by
    rw [Http.rfc850AsFixdate, guard, if_neg noComma]
    rfl
  have asctime : Http.asctimeAsFixdate value = none := by
    simp only [Http.asctimeAsFixdate, noBlank, and_false, guard_false, Option.failure_eq_none, Option.bind_eq_bind,
      Option.bind_none]
  have refused :
      Timestamp.parse value .httpDate = .error (.Serialization ("timestamp: invalid http-date: " ++ value.text)) := by
    rw [Timestamp.parse, Timestamp.parseHttpDate, fixdate]
    rfl
  rw [parseHttpDate, refused]
  dsimp only
  rw [rfc850, asctime]
  rfl

/-! ## The delay -/

variable {headers : Headers} {now : Timestamp} {calendar : Calendar} {value : Bytes}

theorem retryAfterDelay_digits {n : ℕ} (field : headers.get? (ascii "retry-after") = some value) (some_ : value ≠ [])
    (digits : value.all Decimal.isDigit = true) (denotes : Decimal.read value = some n) :
    retryAfterDelay headers now calendar =
      some (if (1000 : ℤ) * n ≤ maxMilliseconds then (1000 : ℤ) * n else maxMilliseconds) := by
  have clamped : Http.strtoull value = min n (2 ^ 64 - 1) := by rw [Http.strtoull, denotes, Option.getD_some]
  have most : maxMilliseconds = 2 ^ 63 - 1 := rfl
  simp only [retryAfterDelay, field, some_, digits, Option.bind_eq_bind, Option.bind_some, Option.pure_def, guard_true,
    not_false_eq_true, ne_eq, if_true, clamped]
  split_ifs with above fits fits
  · omega
  · rfl
  · rw [toInt_scaled (not_lt.mp above)]
    congr 1
    omega
  · omega

theorem retryAfterDelay_date {when_ : Timestamp} (field : headers.get? (ascii "retry-after") = some value)
    (date : parseHttpDate value now calendar = some when_) :
    retryAfterDelay headers now calendar = some (min (max 0 (when_.ms.toInt - now.ms.toInt)) maxMilliseconds) := by
  have some_ : value ≠ [] := by
    rintro rfl
    rw [parseHttpDate_digits rfl] at date
    cases date
  have other : value.all Decimal.isDigit = false := by
    rw [← Bool.not_eq_true]
    intro digits
    rw [parseHttpDate_digits digits] at date
    cases date
  have most : maxMilliseconds = 2 ^ 63 - 1 := rfl
  simp only [retryAfterDelay, field, some_, other, date, Option.bind_eq_bind, Option.bind_some, Option.pure_def, guard_true,
    not_false_eq_true, ne_eq, Bool.false_eq_true, if_false, toInt_clamped]
  split_ifs with past
  · rw [Int64.le_iff_toInt_le] at past
    rw [max_eq_left (by omega), min_eq_left (by omega)]
  · rw [Int64.not_le] at past
    rw [toNat_ahead past]
    rw [Int64.lt_iff_toInt_lt] at past
    rw [max_eq_right (by omega)]

theorem retryAfterDelay_none (neither : ∀ value, headers.get? (ascii "retry-after") = some value →
    (value = [] ∨ value.all Decimal.isDigit = false) ∧ parseHttpDate value now calendar = none) :
    retryAfterDelay headers now calendar = none := by
  rw [retryAfterDelay]
  cases field : headers.get? (ascii "retry-after") with
  | none => rfl
  | some value =>
    obtain ⟨shape, date⟩ := neither value field
    rcases shape with rfl | other
    · rfl
    · simp only [other, date, Bool.false_eq_true, if_false, Option.bind_eq_bind, Option.bind_some, Option.bind_none,
        Option.bind_fun_none]

/-- A delay is none of negative time. -/
theorem retryAfterDelay_nonneg {delay : ℤ} (asked : retryAfterDelay headers now calendar = some delay) : 0 ≤ delay := by
  have most : maxMilliseconds = 2 ^ 63 - 1 := rfl
  cases date : (headers.get? (ascii "retry-after")).bind (parseHttpDate · now calendar) with
  | some when_ =>
    obtain ⟨value, field, date⟩ := Option.bind_eq_some_iff.mp date
    rw [retryAfterDelay_date field date] at asked
    obtain rfl := Option.some.inj asked
    exact le_min (le_max_left _ _) (by omega)
  | none =>
    have undated : ∀ value, headers.get? (ascii "retry-after") = some value →
        parseHttpDate value now calendar = none := by
      intro value field
      rw [field] at date
      exact date
    by_cases digits : ∃ value, headers.get? (ascii "retry-after") = some value ∧ value ≠ [] ∧
      value.all Decimal.isDigit = true
    · obtain ⟨value, field, some_, digits⟩ := digits
      obtain ⟨n, denotes⟩ := Decimal.exists_read (List.all_eq_true.mp digits)
      rw [retryAfterDelay_digits field some_ digits denotes] at asked
      obtain rfl := Option.some.inj asked
      split_ifs <;> omega
    · rw [retryAfterDelay_none] at asked
      · cases asked
      · intro value field
        refine ⟨?_, undated value field⟩
        by_contra shape
        rw [not_or, Bool.not_eq_false] at shape
        exact digits ⟨value, field, shape⟩

/-- The delay of the first field: that of its digits, up to the largest duration, or the time until its date, from
now on and up to the largest duration, or none. -/
theorem retryAfterDelay_exact (headers : Headers) (now : Timestamp) (calendar : Calendar) :
    (∀ value n, headers.get? (ascii "retry-after") = some value → value ≠ [] → value.all Decimal.isDigit = true →
      Decimal.read value = some n →
        retryAfterDelay headers now calendar =
          some (if (1000 : ℤ) * n ≤ maxMilliseconds then (1000 : ℤ) * n else maxMilliseconds)) ∧
      (∀ value when_, headers.get? (ascii "retry-after") = some value → parseHttpDate value now calendar = some when_ →
        retryAfterDelay headers now calendar = some (min (max 0 (when_.ms.toInt - now.ms.toInt)) maxMilliseconds)) ∧
      ((∀ value, headers.get? (ascii "retry-after") = some value →
        (value = [] ∨ value.all Decimal.isDigit = false) ∧ parseHttpDate value now calendar = none) →
        retryAfterDelay headers now calendar = none) ∧
      ∀ delay, retryAfterDelay headers now calendar = some delay → 0 ≤ delay :=
  ⟨fun _ _ field some_ digits denotes => retryAfterDelay_digits field some_ digits denotes,
    fun _ _ field date => retryAfterDelay_date field date, retryAfterDelay_none, fun _ asked => retryAfterDelay_nonneg asked⟩

/-! ## The product with the jitter -/

/-- An integer rounded to 53 bits. -/
def rounded53 (n : ℤ) : ℚ := (nearest n).value?.getD 0

theorem value?_nearest_of_nonneg {x : ℚ} (nonneg : 0 ≤ x) (finite : nearestCode x < 2047 * 2 ^ 52) :
    (nearest x).value? = some (magnitude (nearestCode x)) := by
  rw [← abs_of_nonneg nonneg] at finite
  rw [Binary64.value?_nearest finite, if_neg (not_lt.mpr nonneg), abs_of_nonneg nonneg]

theorem lt_of_duration {n : ℕ} (fits : (n : ℤ) ≤ maxMilliseconds) : (n : ℚ) < 2 ^ (1023 : ℤ) := by
  have below : (n : ℚ) < 2 ^ (63 : ℤ) := by
    rw [maxMilliseconds] at fits
    exact_mod_cast (by omega : n < 2 ^ 63)
  exact lt_trans below (zpow_lt_zpow_right₀ one_lt_two (by decide))

/-- Less than the whole of a duration is at most the duration, and the whole of it is what it is rounded to. -/
theorem scaled_spec {duration : ℤ} {jitter01 : Binary64} {jitter : ℚ} (some_ : 0 ≤ duration)
    (fits : duration ≤ maxMilliseconds)
    (value : jitter01.value? = some jitter) (low : 0 ≤ jitter) (high : jitter ≤ 1) :
    0 ≤ scaled duration jitter01 ∧ (jitter < 1 → scaled duration jitter01 ≤ duration) ∧
      (jitter = 1 → (scaled duration jitter01 : ℚ) = rounded53 duration) := by
  obtain ⟨n, rfl⟩ := Int.eq_ofNat_of_zero_le some_
  have bounded := lt_of_duration fits
  rcases Nat.eq_zero_or_pos n with rfl | positive
  · have zero : (nearest 0).value? = some 0 := by simpa using @Binary64.nearest_intCast 0 (by decide)
    have product : scaled ((0 : ℕ) : ℤ) jitter01 = 0 := by
      simp only [scaled, value, Nat.cast_zero, Int.cast_zero, zero, zero_mul, Option.map_some, Option.getD_some]
      rfl
    have rounded : rounded53 ((0 : ℕ) : ℤ) = 0 := by
      simp only [rounded53, Nat.cast_zero, Int.cast_zero, zero, Option.getD_some]
    rw [product, rounded]
    exact ⟨le_rfl, fun _ => le_rfl, fun _ => Int.cast_zero⟩
  · have one : (1 : ℚ) ≤ n := by exact_mod_cast positive
    have finite := (Binary64.magnitude_nearestCode (Binary64.normal_of_one_le one) bounded).1
    have whole := value?_nearest_of_nonneg (Nat.cast_nonneg n) finite
    have most := Binary64.nearestCode_mul_le one bounded low high
    have nonneg : 0 ≤ magnitude (nearestCode n) * jitter := mul_nonneg (Binary64.magnitude_nonneg _) low
    have part := value?_nearest_of_nonneg nonneg (lt_of_le_of_lt most finite)
    have product : scaled (n : ℤ) jitter01 = ⌊magnitude (nearestCode (magnitude (nearestCode n) * jitter))⌋ := by
      simp only [scaled, value, Int.cast_natCast, whole, part, Option.map_some, Option.getD_some]
      exact Binary64.truncate_of_nonneg (Binary64.magnitude_nonneg _)
    rw [product]
    refine ⟨Int.floor_nonneg.mpr (Binary64.magnitude_nonneg _), fun less => ?_, fun all => ?_⟩
    · have within := Binary64.magnitude_mul_le one bounded low (Binary64.le_of_value_lt_one value less)
      exact_mod_cast le_trans (Int.floor_le _) within
    · obtain ⟨rounded, integer⟩ := Binary64.exists_magnitude_eq positive bounded
      rw [all, mul_one, Binary64.nearestCode_magnitude finite, rounded53, Int.cast_natCast, whole, Option.getD_some, integer]
      exact_mod_cast Int.floor_natCast rounded

/-! ## The delay -/

section Delay

variable {World : Type} (policy : RetryPolicy World) (retry : ℤ)

/-- The exponent up to its cap. -/
def cappedExponent : ℕ := (min (retry - 1) 20).toNat

/-- The least of the bounds, by the capped exponent. -/
def ceilingOf : ℤ := min policy.maxBackoff (policy.initialBackoff * 2 ^ cappedExponent retry)

/-- The policy's durations are those of the source's type, and none is of negative time. -/
structure Admitted : Prop where
  initial : 0 ≤ policy.initialBackoff ∧ policy.initialBackoff ≤ maxMilliseconds
  largest : 0 ≤ policy.maxBackoff ∧ policy.maxBackoff ≤ maxMilliseconds

/-- Neither the product nor the conversion overflows, and the delay is within its bounds. -/
structure Bounded (jitter01 : Binary64) : Prop where
  product : policy.initialBackoff * 2 ^ cappedExponent retry ≤ maxMilliseconds
  conversion : retryDelay policy retry jitter01 ≤ maxMilliseconds
  nonneg : 0 ≤ retryDelay policy retry jitter01
  largest : retryDelay policy retry jitter01 ≤ policy.maxBackoff
  exponential : retryDelay policy retry jitter01 ≤ policy.initialBackoff * 2 ^ (retry - 1).toNat

/-- The product fits, and the ceiling is not rounded above a bound or not taken whole. -/
structure Safe (jitter : ℚ) : Prop where
  product : policy.initialBackoff * 2 ^ cappedExponent retry ≤ maxMilliseconds
  rounding : jitter < 1 ∨ rounded53 (ceilingOf policy retry) ≤ policy.maxBackoff ∧
    rounded53 (ceilingOf policy retry) ≤ policy.initialBackoff * 2 ^ (retry - 1).toNat

variable {policy retry}

theorem cappedExponent_le : cappedExponent retry ≤ (retry - 1).toNat := by
  rw [cappedExponent]
  omega

/-- Without an overflow, the delay is the product of the jitter and the least of the bounds. -/
theorem retryDelay_eq (admitted : Admitted policy) (jitter01 : Binary64)
    (product : policy.initialBackoff * 2 ^ cappedExponent retry ≤ maxMilliseconds) :
    retryDelay policy retry jitter01 = scaled (ceilingOf policy retry) jitter01 := by
  have nonneg : 0 ≤ policy.initialBackoff * 2 ^ cappedExponent retry :=
    mul_nonneg admitted.initial.1 (pow_nonneg (by decide) _)
  have kept : (Int64.ofInt (policy.initialBackoff * 2 ^ cappedExponent retry)).toInt =
      policy.initialBackoff * 2 ^ cappedExponent retry := by
    rw [maxMilliseconds] at product
    exact Int64.toInt_ofInt_of_le (by omega) (by omega)
  rw [cappedExponent] at kept
  simp only [retryDelay, ceilingOf, cappedExponent, kept]

/-- The delay is within its bounds, and is computed without an overflow, if and only if the product fits and the
ceiling is not rounded above a bound or not taken whole. -/
theorem retryDelay_bounded_iff {jitter01 : Binary64} {jitter : ℚ} (admitted : Admitted policy)
    (value : jitter01.value? = some jitter) (low : 0 ≤ jitter) (high : jitter ≤ 1) :
    Bounded policy retry jitter01 ↔ Safe policy retry jitter := by
  have exponential : policy.initialBackoff * 2 ^ cappedExponent retry ≤ policy.initialBackoff * 2 ^ (retry - 1).toNat :=
    mul_le_mul_of_nonneg_left (pow_le_pow_right₀ (by decide) cappedExponent_le) admitted.initial.1
  have some_ : 0 ≤ ceilingOf policy retry :=
    le_min admitted.largest.1 (mul_nonneg admitted.initial.1 (pow_nonneg (by decide) _))
  have fits : ceilingOf policy retry ≤ maxMilliseconds := le_trans (min_le_left _ _) admitted.largest.2
  obtain ⟨nonneg, part, whole⟩ := scaled_spec some_ fits value low high
  constructor
  · intro bounded
    have delay := retryDelay_eq admitted jitter01 bounded.product
    refine ⟨bounded.product, ?_⟩
    rcases high.lt_or_eq with less | all
    · exact .inl less
    · right
      rw [← whole all, ← delay]
      exact_mod_cast And.intro bounded.largest bounded.exponential
  · intro safe
    have delay := retryDelay_eq admitted jitter01 safe.product
    have within : scaled (ceilingOf policy retry) jitter01 ≤ policy.maxBackoff ∧
        scaled (ceilingOf policy retry) jitter01 ≤ policy.initialBackoff * 2 ^ (retry - 1).toNat := by
      rcases safe.rounding with less | rounded
      · exact ⟨le_trans (part less) (min_le_left _ _), le_trans (part less) (le_trans (min_le_right _ _) exponential)⟩
      · rcases high.lt_or_eq with less | all
        · exact ⟨le_trans (part less) (min_le_left _ _), le_trans (part less) (le_trans (min_le_right _ _) exponential)⟩
        · rw [← whole all] at rounded
          exact_mod_cast rounded
    rw [← delay] at nonneg within
    exact ⟨safe.product, le_trans within.1 admitted.largest.2, nonneg, within.1, within.2⟩

/-- Half of the first backoff of the default policy. -/
theorem retryDelay_bounded_half :
    Admitted ({} : RetryPolicy Unit) ∧ (⟨0x3FE0000000000000⟩ : Binary64).value? = some (1 / 2) ∧
    (Bounded ({} : RetryPolicy Unit) 1 ⟨0x3FE0000000000000⟩ ↔ Safe ({} : RetryPolicy Unit) 1 (1 / 2)) := by
  have admitted : Admitted ({} : RetryPolicy Unit) := ⟨by decide, by decide⟩
  have value : (⟨0x3FE0000000000000⟩ : Binary64).value? = some (1 / 2) := by decide +kernel
  exact ⟨admitted, value, retryDelay_bounded_iff admitted value (by norm_num) (by norm_num)⟩

/-- The largest initial backoff, doubled. -/
theorem retryDelay_unbounded : ¬ ∀ (policy : RetryPolicy Unit) (retry : ℤ) (jitter01 : Binary64) (jitter : ℚ), 1 ≤ retry →
    Admitted policy → jitter01.value? = some jitter → 0 ≤ jitter → jitter ≤ 1 → Bounded policy retry jitter01 := by
  intro all
  have value : (⟨0x3FE0000000000000⟩ : Binary64).value? = some (1 / 2) := by decide +kernel
  have bounded := all { initialBackoff := maxMilliseconds } 2 ⟨0x3FE0000000000000⟩ (1 / 2) (by decide)
    ⟨by decide, by decide⟩ value (by norm_num) (by norm_num)
  exact absurd bounded.product (by decide)

end Delay

end OpalCpp.Client

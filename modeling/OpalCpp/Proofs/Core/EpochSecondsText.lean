import OpalCpp.Machine.Widening
import OpalCpp.Proofs.Core.TimestampText

/-! # Epoch seconds as text

The instants of the window come back from the decimal of their seconds. Its digits stand for the exact
quotient, the sign is set after the rounding, and the product with a thousand is closer than half a
millisecond to the instant.
-/

namespace OpalCpp

open Bytes (ascii)
open Decimal (decimal digit isDigit)

/-! ## The digits -/

/-- The fraction is a point with digits, or there is none; its digits stand for it. -/
theorem appendFraction_tail {ms : ℕ} (few : ms ≤ 999) : ∃ (tail : Bytes) (number : ℕ),
    (appendFraction ms = [] ∧ tail = [] ∨ appendFraction ms = '.'.toUInt8 :: tail ∧ tail ≠ []) ∧
      (∀ byte ∈ tail, isDigit byte = true) ∧ Decimal.read tail = some number ∧
        (number : ℚ) / 10 ^ tail.length = ms / 1000 := by
  obtain ⟨a, b, c, first, second, third, rfl, text⟩ := appendFraction_cases few
  have one := (Decimal.digit_facts first).1
  have two := (Decimal.digit_facts second).1
  have three := (Decimal.digit_facts third).1
  have read₁ : Decimal.read [digit a] = some a := by simpa using @Decimal.read_append_digit [] 0 a rfl first
  have read₂ := Decimal.read_append_digit read₁ second
  have read₃ := Decimal.read_append_digit read₂ third
  obtain ⟨-, text⟩ | ⟨rfl, -, text⟩ | ⟨rfl, rfl, -, text⟩ | ⟨rfl, rfl, rfl, text⟩ := text
  · refine ⟨[digit a, digit b, digit c], _, .inr ⟨text, List.cons_ne_nil _ _⟩, by simp [one, two, three], read₃, ?_⟩
    push_cast [List.length_cons, List.length_nil]
    ring
  · refine ⟨[digit a, digit b], _, .inr ⟨text, List.cons_ne_nil _ _⟩, by simp [one, two], read₂, ?_⟩
    push_cast [List.length_cons, List.length_nil]
    ring
  · refine ⟨[digit a], _, .inr ⟨text, List.cons_ne_nil _ _⟩, by simp [one], read₁, ?_⟩
    push_cast [List.length_cons, List.length_nil]
    ring
  · exact ⟨[], 0, .inl ⟨text, rfl⟩, by simp, rfl, by simp⟩

namespace Timestamp

theorem isEpochSeconds_whole {digits rest : Bytes} (all : ∀ byte ∈ digits, isDigit byte = true) :
    isEpochSeconds false true false (digits ++ rest) = isEpochSeconds false true false rest := by
  induction digits with
  | nil => rfl
  | cons c digits ih =>
    rw [List.cons_append, isEpochSeconds, if_pos (all c List.mem_cons_self), if_neg (by decide)]
    exact ih fun byte member => all byte (List.mem_cons_of_mem _ member)

theorem isEpochSeconds_fraction {digits : Bytes} (all : ∀ byte ∈ digits, isDigit byte = true) :
    isEpochSeconds true true true digits = true := by
  induction digits with
  | nil => rfl
  | cons c digits ih =>
    rw [isEpochSeconds, if_pos (all c List.mem_cons_self), if_pos rfl]
    exact ih fun byte member => all byte (List.mem_cons_of_mem _ member)

/-- What is printed of a magnitude is of the strict grammar. -/
theorem isEpochSeconds_text (whole : ℕ) {ms : ℕ} (few : ms ≤ 999) :
    isEpochSeconds false false false (decimal whole ++ appendFraction ms) = true := by
  obtain ⟨tail, _, shape, digits, -, -⟩ := appendFraction_tail few
  have all := @Decimal.isDigit_of_mem_decimal whole
  cases text : decimal whole with
  | nil => exact absurd text (Decimal.decimal_ne_nil whole)
  | cons c rest =>
    rw [text] at all
    rw [List.cons_append, isEpochSeconds, if_pos (all c List.mem_cons_self), if_neg (by decide),
      isEpochSeconds_whole fun byte member => all byte (List.mem_cons_of_mem _ member)]
    rcases shape with ⟨none_, -⟩ | ⟨point, some_⟩
    · rw [none_]
      rfl
    · obtain ⟨d, tail, rfl⟩ := List.exists_cons_of_ne_nil some_
      rw [point, isEpochSeconds, if_neg (by decide), if_pos (by decide), isEpochSeconds,
        if_pos (digits d List.mem_cons_self), if_pos rfl]
      exact isEpochSeconds_fraction fun byte member => digits byte (List.mem_cons_of_mem _ member)

/-- The number that is rounded is the exact quotient. -/
theorem exact_text (whole : ℕ) {ms : ℕ} (few : ms ≤ 999) :
    let digits := decimal whole ++ appendFraction ms
    let fraction := (digits.dropWhile isDigit).tail
    ((Decimal.read (digits.takeWhile isDigit ++ fraction)).getD 0 : ℚ) / 10 ^ fraction.length = whole + ms / 1000 := by
  obtain ⟨tail, number, shape, -, reads, value⟩ := appendFraction_tail few
  have all := @Decimal.isDigit_of_mem_decimal whole
  have apart : (appendFraction ms).takeWhile isDigit = [] ∧ ((appendFraction ms).dropWhile isDigit).tail = tail := by
    rcases shape with ⟨none_, rfl⟩ | ⟨point, -⟩
    · rw [none_]
      exact ⟨rfl, rfl⟩
    · rw [point]
      exact ⟨List.takeWhile_cons_of_neg (by decide), congrArg List.tail (List.dropWhile_cons_of_neg (by decide))⟩
  dsimp only
  rw [List.takeWhile_append_of_pos all, List.dropWhile_append_of_pos all, apart.1, apart.2, List.append_nil,
    Decimal.read_append (Decimal.read_decimal whole) reads, Option.getD_some, ← value]
  have unit : (10 : ℚ) ^ tail.length ≠ 0 := pow_ne_zero _ (by decide)
  push_cast
  rw [add_div, mul_div_cancel_right₀ _ unit]

/-- A thousandth of a number of milliseconds, rounded: exact for whole seconds, and in the normal range but for zero. -/
theorem nearest_thousandth {m : ℕ} (few : m ≤ 253402300799999) : ∃ y, (Binary64.nearest ((m : ℚ) / 1000)).value? = some y ∧
    |y - m / 1000| ≤ |(m : ℚ) / 1000| * 2 ^ (-53 : ℤ) ∧ (∀ n : ℤ, (m : ℤ) = n * 1000 → y = n) ∧
      (y < 2 ^ (-1022 : ℤ) → y = m / 1000) := by
  rcases Nat.eq_zero_or_pos m with rfl | positive
  · refine ⟨0, ?_, by norm_num, fun n whole => ?_, fun _ => by norm_num⟩
    · simpa using @Binary64.nearest_intCast 0 (by decide)
    · obtain rfl : n = 0 := by omega
      rfl
  · have window : kMinRepresentableMs ≤ (m : ℤ) ∧ (m : ℤ) ≤ kMaxRepresentableMs := by
      rw [kMinRepresentableMs, kMaxRepresentableMs]
      omega
    obtain ⟨least, most⟩ := normal_seconds window.1 window.2 (by omega)
    rw [Int.cast_natCast] at least most
    obtain ⟨y, finite, error⟩ := Binary64.nearest_error least most
    refine ⟨y, finite, error, fun n whole => ?_, fun small => ?_⟩
    · have quotient : (m : ℚ) / 1000 = n := by
        rw [div_eq_iff (by norm_num)]
        exact_mod_cast whole
      rw [quotient, Binary64.nearest_intCast (abs_lt.mpr (by omega))] at finite
      exact (Option.some.inj finite).symm
    · have one : (1 : ℚ) ≤ m := by exact_mod_cast positive
      have ulp : (2 : ℚ) ^ (-53 : ℤ) = 1 / 2 ^ 53 := by norm_num
      have tiny : (2 : ℚ) ^ (-1022 : ℤ) ≤ 2 ^ (-11 : ℤ) := zpow_le_zpow_right₀ one_le_two (by decide)
      have eleven : (2 : ℚ) ^ (-11 : ℤ) = 1 / 2048 := by norm_num
      have least := lt_of_lt_of_le small (le_trans tiny eleven.le)
      rw [abs_of_nonneg (by positivity : (0 : ℚ) ≤ m / 1000), ulp] at error
      have below := (abs_le.mp error).1
      linarith only [least, below, one]

theorem format_epochSeconds (ts : Timestamp) : format ts .epochSeconds = (if ts.ms.toInt < 0 then ascii "-" else []) ++
    (decimal (ts.ms.toInt.natAbs / 1000) ++ appendFraction (ts.ms.toInt.natAbs % 1000 : ℕ)) := by
  rw [format, List.append_assoc]

theorem head?_text (whole : ℕ) (rest : Bytes) : (decimal whole ++ rest).head? ≠ some '-'.toUInt8 := by
  have all := @Decimal.isDigit_of_mem_decimal whole
  cases text : decimal whole with
  | nil => exact absurd text (Decimal.decimal_ne_nil whole)
  | cons c digits =>
    intro sign
    obtain rfl : c = '-'.toUInt8 := Option.some.inj sign
    exact absurd (all _ (text ▸ List.mem_cons_self)) (by decide)

/-- The double that is read of a printed instant: the quotient of its milliseconds, rounded, and exact for whole seconds. -/
theorem strtod_text {ts : Timestamp} (window : ts.Representable) :
    (strtod (format ts .epochSeconds)).2 = false ∧ ∃ seconds, (strtod (format ts .epochSeconds)).1.value? = some seconds ∧
      |seconds - ts.ms.toInt / 1000| ≤ |(ts.ms.toInt : ℚ) / 1000| * 2 ^ (-53 : ℤ) ∧
        ∀ n : ℤ, ts.ms.toInt = n * 1000 → seconds = n := by
  obtain ⟨low, high⟩ := window
  simp only [kMinRepresentableMs, kMaxRepresentableMs] at low high
  obtain ⟨m, magnitude⟩ : ∃ m, ts.ms.toInt.natAbs = m := ⟨_, rfl⟩
  have exact_ := exact_text (m / 1000) (Nat.le_of_lt_succ (Nat.mod_lt m (by decide)))
  have quotient : ((m / 1000 : ℕ) : ℚ) + (m % 1000 : ℕ) / 1000 = m / 1000 := by
    have parts : ((1000 * (m / 1000) + m % 1000 : ℕ) : ℚ) = m := congrArg Nat.cast (Nat.div_add_mod m 1000)
    push_cast at parts
    rw [← parts]
    ring
  rw [quotient] at exact_
  obtain ⟨y, finite, error, whole, normal⟩ := nearest_thousandth (by omega : m ≤ 253402300799999)
  have range : (decide (y < 2 ^ (-1022 : ℤ)) && decide (y ≠ (m : ℚ) / 1000)) = false := by
    rw [Bool.and_eq_false_imp, decide_eq_true_eq, decide_eq_false_iff_not, not_not]
    exact normal
  rw [format_epochSeconds, magnitude]
  generalize printed_ : decimal (m / 1000) ++ appendFraction (m % 1000 : ℕ) = digits at exact_ ⊢
  split_ifs with negative
  · have head : (ascii "-" ++ digits).head? = some '-'.toUInt8 := rfl
    have tail : (ascii "-" ++ digits).tail = digits := rfl
    have signed : (ts.ms.toInt : ℚ) = -(m : ℚ) := by exact_mod_cast (by omega : ts.ms.toInt = -(m : ℤ))
    simp only [strtod, head, tail, if_true, exact_, finite, range, true_and]
    refine ⟨-y, Binary32.value?_neg ?_ finite, ?_, fun n same => ?_⟩
    · rw [Binary32.nearest_toNat (by positivity)]
      exact lt_of_le_of_lt (Binary64.nearestCode_le _) (by norm_num : 2047 * 2 ^ 52 < 2 ^ 63)
    · rw [signed, neg_div, abs_neg, neg_sub_neg, abs_sub_comm]
      exact error
    · rw [whole (-n) (by omega)]
      push_cast
      ring
  · have head : digits.head? ≠ some '-'.toUInt8 := printed_ ▸ head?_text _ _
    have signed : (ts.ms.toInt : ℚ) = m := by exact_mod_cast (by omega : ts.ms.toInt = (m : ℤ))
    simp only [List.nil_append, strtod, head, if_false, exact_, finite, range, true_and]
    refine ⟨y, rfl, ?_, fun n same => whole n (by omega)⟩
    rw [signed]
    exact error

/-- An instant between the years 0000 and 9999 comes back from the decimal of its seconds. The decimal is read and scaled
with a relative error of 2^-53 at most each, and what that gives is rounded to the instant. -/
theorem parse_format_epochSeconds {ts : Timestamp} (window : ts.Representable) :
    parse (format ts .epochSeconds) .epochSeconds = .ok ts ∧
      ∃ seconds scaled : ℚ, (strtod (format ts .epochSeconds)).1.value? = some seconds ∧
        |seconds - ts.ms.toInt / 1000| ≤ |(ts.ms.toInt : ℚ) / 1000| * 2 ^ (-53 : ℤ) ∧
          (Binary64.nearest (seconds * 1000)).value? = some scaled ∧
            |scaled - seconds * 1000| ≤ |seconds * 1000| * 2 ^ (-53 : ℤ) ∧ Binary64.roundHalfAway scaled = ts.ms.toInt := by
  have ⟨low, high⟩ := window
  obtain ⟨inRange, seconds, finite, error, whole⟩ := strtod_text window
  have grammar :
      parse (format ts .epochSeconds) .epochSeconds = fromEpochSecondsChecked (strtod (format ts .epochSeconds)).1 := by
    have checked :=
      isEpochSeconds_text (ts.ms.toInt.natAbs / 1000) (Nat.le_of_lt_succ (Nat.mod_lt ts.ms.toInt.natAbs (by decide)))
    have rest :
        (if (format ts .epochSeconds).head? = some '-'.toUInt8 then (format ts .epochSeconds).tail
          else format ts .epochSeconds) =
        decimal (ts.ms.toInt.natAbs / 1000) ++ appendFraction (ts.ms.toInt.natAbs % 1000 : ℕ) := by
      rw [format_epochSeconds]
      split_ifs with negative sign sign
      · rfl
      · exact absurd rfl sign
      · exact absurd sign (head?_text _ _)
      · rfl
    simp only [parse, parseEpochSeconds, rest, checked, inRange, if_true, Bool.false_eq_true, if_false]
  rw [grammar]
  by_cases divides : (1000 : ℤ) ∣ ts.ms.toInt
  · obtain ⟨n, product⟩ := divides
    have multiple : ts.ms.toInt = n * 1000 := by omega
    obtain rfl := whole n multiple
    simp only [kMinRepresentableMs, kMaxRepresentableMs] at low high
    have exact_ : (Binary64.nearest ((n : ℚ) * 1000)).value? = some ((n : ℚ) * 1000) := by
      have fits := @Binary64.nearest_intCast (n * 1000) (abs_lt.mpr (by omega))
      push_cast at fits
      exact fits
    refine ⟨fromEpochSecondsChecked_whole window multiple finite, n, n * 1000, finite, error, exact_, ?_, ?_⟩
    · rw [sub_self, abs_zero]
      positivity
    · have integer : ((n : ℚ) * 1000) = (ts.ms.toInt : ℚ) := by
        rw [multiple]
        push_cast
        rfl
      rw [integer]
      exact Binary64.roundHalfAway_eq (by rw [sub_self, abs_zero]; norm_num)
  · obtain ⟨first, last, scaled, product, near, close⟩ := scaled_of_near low high divides error
    exact ⟨fromEpochSecondsChecked_of_llround window finite first last product close, seconds, scaled, finite, error,
      product, near,
      Binary64.roundHalfAway_eq close⟩

/-- Half a second before the epoch. -/
theorem parse_format_epochSeconds_half :
    Representable ⟨-500⟩ ∧ parse (format ⟨-500⟩ .epochSeconds) .epochSeconds = .ok ⟨-500⟩ ∧
    ∃ seconds scaled : ℚ, (strtod (format ⟨-500⟩ .epochSeconds)).1.value? = some seconds ∧
      |seconds - (⟨-500⟩ : Timestamp).ms.toInt / 1000| ≤ |((⟨-500⟩ : Timestamp).ms.toInt : ℚ) / 1000| * 2 ^ (-53 : ℤ) ∧
        (Binary64.nearest (seconds * 1000)).value? = some scaled ∧
          |scaled - seconds * 1000| ≤ |seconds * 1000| * 2 ^ (-53 : ℤ) ∧
            Binary64.roundHalfAway scaled = (⟨-500⟩ : Timestamp).ms.toInt := by
  have window : Representable ⟨-500⟩ := by
    constructor
    · decide
    · decide
  exact ⟨window, parse_format_epochSeconds window⟩

end Timestamp

end OpalCpp

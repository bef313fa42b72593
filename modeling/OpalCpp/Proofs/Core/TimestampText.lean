import OpalCpp.Model.Core.TimestampText
import OpalCpp.Proofs.Core.Timestamp

/-! # The text formats of timestamps round-trip

An instant between the years 0000 and 9999 comes back from its date-time, and its second from its
http-date: the civil fields are those of the floor of its days, in columns the parsers know.
-/

namespace OpalCpp

open Bytes (ascii)
open Decimal (padded)

/-! ## Civil time -/

theorem floorDiv_eq (a : ℤ) {b : ℤ} (pos : 0 < b) : floorDiv a b = a / b := by
  have sign : ¬ b < 0 := by omega
  rw [floorDiv, Int.tdiv_eq_ediv, Int.tmod_eq_emod, Int.sign_eq_one_of_pos pos]
  by_cases exact_ : 0 ≤ a ∨ b ∣ a
  · have kept : ¬ (a % b - 0 ≠ 0 ∧ (decide (a < 0) != decide (b < 0)) = true) := by
      rintro ⟨rest, signs⟩
      obtain nonneg | divides := exact_
      · simp [sign, not_lt.mpr nonneg] at signs
      · exact rest (by rw [Int.emod_eq_zero_of_dvd divides, sub_zero])
    rw [if_pos exact_, if_pos exact_, if_neg (by simpa using kept)]
    omega
  · have negative : a < 0 := by omega
    have rest : a % b - b ≠ 0 := by
      have := Int.emod_lt_of_pos a pos
      omega
    rw [if_neg exact_, if_neg exact_, if_pos ⟨by omega, by simp [sign, negative]⟩]
    omega

/-- A day of the years 0000 to 9999. -/
theorem year_ofDays (days : ℤ) (low : -719528 ≤ days) (high : days ≤ 2932896) :
    0 ≤ (CivilDate.ofDays days).year ∧ (CivilDate.ofDays days).year ≤ 9999 := by
  obtain ⟨cycle, century, four, year, day, month, sum, centuries, fours, years, extra, months, made⟩ :=
    CivilDate.ofDays_split days
  rw [made]
  simp only [CivilDate.daysBefore, CivilDate.epoch] at *
  -- January and February of the year 0 are in the March year before it.
  have least : 0 ≤ cycle ∨ cycle = -1 ∧ century = 3 ∧ four = 24 ∧ year = 3 ∧ 306 ≤ day := by omega
  have most : cycle ≤ 23 ∨ cycle = 24 ∧ (century ≤ 2 ∨ century = 3 ∧ (four ≤ 23 ∨ year ≤ 2 ∨ day ≤ 305)) := by omega
  constructor
  · split_ifs with early
    · omega
    · omega
  · split_ifs with early
    · omega
    · omega

/-- The difference takes back what the product wrapped. -/
theorem msOfDay_eq (ms : Int64) :
    (ms - Int64.ofInt (ms.toInt / 86400000) * Int64.ofInt 86400000).toInt = ms.toInt % 86400000 := by
  have wrapped : ms - Int64.ofInt (ms.toInt / 86400000) * Int64.ofInt 86400000 = Int64.ofInt (ms.toInt % 86400000) := by
    conv_lhs => rw [← Int64.ofInt_toInt ms]
    rw [Int64.ofInt_toInt, ← Int64.ofInt_mul]
    conv_lhs => rw [← Int64.ofInt_toInt ms, ← Int64.ofInt_sub]
    rw [Int64.ofInt_toInt, Int.emod_def, mul_comm]
  rw [wrapped, Int64.toInt_ofInt_of_le (by omega) (by omega)]

/-- The fields of an instant of the window, and what they add up to. -/
theorem decompose_facts {ms : Int64} (low : Timestamp.kMinRepresentableMs ≤ ms.toInt)
    (high : ms.toInt ≤ Timestamp.kMaxRepresentableMs) :
    ∃ year month day hour minute second millisecond : ℕ,
      (∀ calendar, decompose ms calendar = ⟨year, month, day, hour, minute, second, millisecond⟩) ∧
        (⟨year, month, day⟩ : CivilDate) = CivilDate.ofDays (ms.toInt / 86400000) ∧
        year ≤ 9999 ∧ hour ≤ 23 ∧ minute ≤ 59 ∧ second ≤ 59 ∧ millisecond ≤ 999 ∧
        ms.toInt = ms.toInt / 86400000 * 86400000 + ((hour * 3600 + minute * 60 + second) * 1000 + millisecond : ℕ) := by
  simp only [Timestamp.kMinRepresentableMs, Timestamp.kMaxRepresentableMs] at low high
  obtain ⟨noYear, fewYears⟩ := year_ofDays (ms.toInt / 86400000) (by omega) (by omega)
  obtain ⟨year, named⟩ := Int.eq_ofNat_of_zero_le noYear
  obtain ⟨msOfDay, rest⟩ := Int.eq_ofNat_of_zero_le (by omega : 0 ≤ ms.toInt % 86400000)
  refine ⟨year, (CivilDate.ofDays (ms.toInt / 86400000)).month, (CivilDate.ofDays (ms.toInt / 86400000)).day,
    msOfDay / 3600000, msOfDay % 3600000 / 60000, msOfDay % 3600000 % 60000 / 1000,
    msOfDay % 3600000 % 60000 % 1000, ?_, ?_, by omega, by omega, by omega, by omega, by omega, by omega⟩
  · intro calendar
    have gregorian := calendar.gregorian (ms.toInt / 86400000) (by omega) (by omega)
    simp only [decompose, kMsPerDay, kMsPerSecond]
    norm_num only
    rw [floorDiv_eq ms.toInt (by decide), msOfDay_eq, rest, gregorian, named]
    rfl
  · rw [← named]

/-- The days and the milliseconds of a date that exists come together again. -/
theorem ok_of_ofDays {year month day hour minute second : ℕ} {days : ℤ} (millisecond : ℤ)
    (date : (⟨year, month, day⟩ : CivilDate) = CivilDate.ofDays days) (hours : hour ≤ 23) (minutes : minute ≤ 59)
    (seconds : second ≤ 59) : CivilTime.ok ⟨year, month, day, hour, minute, second, millisecond⟩ = true := by
  have exists_ : CivilDate.Valid ⟨year, month, day⟩ := date ▸ CivilDate.valid_ofDays days
  simp only [CivilTime.ok, CivilTime.ymd, exists_, Bool.and_eq_true, decide_eq_true_eq]
  exact ⟨⟨⟨⟨⟨⟨trivial, by omega⟩, by omega⟩, by omega⟩, by omega⟩, by omega⟩, by omega⟩

theorem compose_of_ofDays {year month day : ℕ} (hour minute second millisecond : ℕ) {days : ℤ}
    (date : (⟨year, month, day⟩ : CivilDate) = CivilDate.ofDays days) :
    compose ⟨year, month, day, hour, minute, second, millisecond⟩ =
      days * 86400000 + ((hour * 3600 + minute * 60 + second) * 1000 + millisecond : ℕ) := by
  have back : epochDays ⟨year, month, day, hour, minute, second, millisecond⟩ = days := by
    rw [epochDays, CivilTime.ymd, date, CivilDate.toDays_ofDays]
  rw [compose, back, kMsPerDay, kMsPerSecond]
  push_cast
  ring

/-! ## Columns -/

theorem printed_natCast {width : ℕ} (some_ : 0 < width) {number : ℕ} (fits : number < 10 ^ width) :
    printed width number = padded width number := by
  rw [printed, if_neg (by omega), Int.natAbs_natCast, Decimal.zeroPadded_eq some_ fits]

theorem parseDigits_of_substr {text : Bytes} (pos count : ℕ) {number : ℕ} (long : pos + count ≤ text.length)
    (digits : text.substr pos count = padded count number) (fits : number < 10 ^ count) :
    parseDigits text pos count = some number := by
  rw [parseDigits, if_neg (not_lt.mpr long), digits, Decimal.read_padded fits]

theorem padded_two (number : ℕ) : ∃ a b, padded 2 number = [a, b] :=
  List.length_eq_two.mp (Decimal.length_padded 2 number)

theorem padded_four (number : ℕ) : ∃ a b c d, padded 4 number = [a, b, c, d] :=
  ⟨_, _, _, _, rfl⟩

theorem parseDateTimeFields_text {year month day hour minute second : ℕ} (rest : Bytes) (years : year ≤ 9999)
    (months : month ≤ 99) (days : day ≤ 99) (hours : hour ≤ 23) (minutes : minute ≤ 59) (seconds : second ≤ 59)
    (some_ : 0 < rest.length) :
    Timestamp.parseDateTimeFields (padded 4 year ++ ascii "-" ++ padded 2 month ++ ascii "-" ++ padded 2 day ++
      ascii "T" ++ padded 2 hour ++ ascii ":" ++ padded 2 minute ++ ascii ":" ++ padded 2 second ++ rest) =
      some ⟨year, month, day, hour, minute, second, 0⟩ := by
  generalize made : padded 4 year ++ ascii "-" ++ padded 2 month ++ ascii "-" ++ padded 2 day ++
      ascii "T" ++ padded 2 hour ++ ascii ":" ++ padded 2 minute ++ ascii ":" ++ padded 2 second ++ rest = text
  obtain ⟨y₁, y₂, y₃, y₄, ys⟩ := padded_four year
  obtain ⟨m₁, m₂, ms⟩ := padded_two month
  obtain ⟨d₁, d₂, ds⟩ := padded_two day
  obtain ⟨h₁, h₂, hs⟩ := padded_two hour
  obtain ⟨n₁, n₂, ns⟩ := padded_two minute
  obtain ⟨s₁, s₂, ss⟩ := padded_two second
  have cells : text = [y₁, y₂, y₃, y₄, '-'.toUInt8, m₁, m₂, '-'.toUInt8, d₁, d₂, 'T'.toUInt8, h₁, h₂, ':'.toUInt8,
      n₁, n₂, ':'.toUInt8, s₁, s₂] ++ rest := by
    rw [← made, ys, ms, ds, hs, ns, ss]
    rfl
  have long : 20 ≤ text.length := by
    rw [cells, List.length_append]
    change 20 ≤ 19 + rest.length
    omega
  have columns (pos : ℕ) {number : ℕ} (few : number < 10 ^ 2) (within : pos ≤ 18)
      (digits : Bytes.substr text pos 2 = padded 2 number) :
      parseDigits text pos 2 = some number := parseDigits_of_substr pos 2 (by omega) digits few
  have atYear : parseDigits text 0 4 = some year := parseDigits_of_substr 0 4 (by omega) (by rw [ys, cells]; rfl)
    (by omega : year < 10 ^ 4)
  have atMonth := columns 5 (by omega : month < 10 ^ 2) (by decide) (by rw [ms, cells]; rfl)
  have atDay := columns 8 (by omega : day < 10 ^ 2) (by decide) (by rw [ds, cells]; rfl)
  have atHour := columns 11 (by omega : hour < 10 ^ 2) (by decide) (by rw [hs, cells]; rfl)
  have atMinute := columns 14 (by omega : minute < 10 ^ 2) (by decide) (by rw [ns, cells]; rfl)
  have atSecond := columns 17 (by omega : second < 10 ^ 2) (by decide) (by rw [ss, cells]; rfl)
  have dashes : text[4]? = some '-'.toUInt8 ∧ text[7]? = some '-'.toUInt8 := by rw [cells]; exact ⟨rfl, rfl⟩
  have letter : text[10]? = some 'T'.toUInt8 := by rw [cells]; rfl
  have colons : text[13]? = some ':'.toUInt8 ∧ text[16]? = some ':'.toUInt8 := by rw [cells]; exact ⟨rfl, rfl⟩
  simp only [Timestamp.parseDateTimeFields, atYear, atMonth, atDay, atHour, atMinute, atSecond, long, dashes, letter,
    colons, true_or, and_self, guard_true, Option.bind_eq_bind, Option.bind_some, Option.pure_def]

theorem drop_dateTime (year month day hour minute second : ℕ) (rest : Bytes) :
    (padded 4 year ++ ascii "-" ++ padded 2 month ++ ascii "-" ++ padded 2 day ++ ascii "T" ++ padded 2 hour ++
      ascii ":" ++ padded 2 minute ++ ascii ":" ++ padded 2 second ++ rest).drop 19 = rest := by
  obtain ⟨y₁, y₂, y₃, y₄, ys⟩ := padded_four year
  obtain ⟨m₁, m₂, ms⟩ := padded_two month
  obtain ⟨d₁, d₂, ds⟩ := padded_two day
  obtain ⟨h₁, h₂, hs⟩ := padded_two hour
  obtain ⟨n₁, n₂, ns⟩ := padded_two minute
  obtain ⟨s₁, s₂, ss⟩ := padded_two second
  rw [ys, ms, ds, hs, ns, ss]
  rfl

/-! ## The fraction -/

theorem rdropWhile_digit (digits : Bytes) {n : ℕ} (small : n < 10) :
    (digits ++ [Decimal.digit n]).rdropWhile (· == '0'.toUInt8) =
      if n = 0 then digits.rdropWhile (· == '0'.toUInt8) else digits ++ [Decimal.digit n] := by
  have zero : ∀ n < 10, (Decimal.digit n == '0'.toUInt8) = decide (n = 0) := by decide
  rw [List.rdropWhile_concat, zero n small]
  simp only [decide_eq_true_eq]

/-- The fraction is trimmed to its last digit that is not zero. -/
theorem appendFraction_cases {ms : ℕ} (few : ms ≤ 999) : ∃ a b c, a < 10 ∧ b < 10 ∧ c < 10 ∧
    ms = 100 * a + 10 * b + c ∧
      (c ≠ 0 ∧ appendFraction ms = ['.'.toUInt8, Decimal.digit a, Decimal.digit b, Decimal.digit c] ∨
        c = 0 ∧ b ≠ 0 ∧ appendFraction ms = ['.'.toUInt8, Decimal.digit a, Decimal.digit b] ∨
        c = 0 ∧ b = 0 ∧ a ≠ 0 ∧ appendFraction ms = ['.'.toUInt8, Decimal.digit a] ∨
        c = 0 ∧ b = 0 ∧ a = 0 ∧ appendFraction ms = []) := by
  have first : ms / 10 / 10 % 10 < 10 := Nat.mod_lt _ (by decide)
  have second : ms / 10 % 10 < 10 := Nat.mod_lt _ (by decide)
  have third : ms % 10 < 10 := Nat.mod_lt _ (by decide)
  refine ⟨ms / 10 / 10 % 10, ms / 10 % 10, ms % 10, first, second, third, by omega, ?_⟩
  generalize parts : ms / 10 / 10 % 10 = a at *
  generalize parts' : ms / 10 % 10 = b at *
  generalize parts'' : ms % 10 = c at *
  have digits : padded 3 ms = [Decimal.digit a, Decimal.digit b, Decimal.digit c] := by
    rw [← parts, ← parts', ← parts'']
    rfl
  by_cases none_ : ms = 0
  · exact .inr (.inr (.inr ⟨by omega, by omega, by omega, by rw [none_]; rfl⟩))
  · have trimmed : appendFraction ms =
        if c = 0 then if b = 0 then if a = 0 then ['.'.toUInt8] else ['.'.toUInt8, Decimal.digit a]
          else ['.'.toUInt8, Decimal.digit a, Decimal.digit b]
        else ['.'.toUInt8, Decimal.digit a, Decimal.digit b, Decimal.digit c] := by
      rw [appendFraction, if_neg (by omega), printed_natCast (by decide) (by omega), digits]
      exact (rdropWhile_digit ['.'.toUInt8, Decimal.digit a, Decimal.digit b] third).trans
        (if_congr Iff.rfl ((rdropWhile_digit ['.'.toUInt8, Decimal.digit a] second).trans
          (if_congr Iff.rfl ((rdropWhile_digit ['.'.toUInt8] first).trans rfl) rfl)) rfl)
    rw [trimmed]
    by_cases c0 : c = 0
    · by_cases b0 : b = 0
      · have a0 : a ≠ 0 := by omega
        exact .inr (.inr (.inl ⟨c0, b0, a0, by rw [if_pos c0, if_pos b0, if_neg a0]⟩))
      · exact .inr (.inl ⟨c0, b0, by rw [if_pos c0, if_neg b0]⟩)
    · exact .inl ⟨c0, if_neg c0⟩

theorem parseFraction_digit {read n : ℕ} {scale ms : ℤ} {rest : Bytes} (few : read < 3) (small : n < 10) :
    parseFraction read scale ms (Decimal.digit n :: rest) =
      parseFraction (read + 1) (scale / 10) (ms + n * scale) rest := by
  obtain ⟨isDigit, value⟩ := Decimal.digit_facts small
  rw [parseFraction, if_pos isDigit, if_pos few, value]

theorem parseFraction_zulu {read : ℕ} {scale ms : ℤ} : parseFraction read scale ms (ascii "Z") = (ms, read, ascii "Z") :=
  rfl

/-- The digits that are trimmed are those that would add nothing. -/
theorem parseMillisecond_appendFraction {ms : ℕ} (few : ms ≤ 999) :
    parseMillisecond (appendFraction ms ++ ascii "Z") = some ((ms : ℤ), ascii "Z") := by
  have point (digits : Bytes) : parseMillisecond ('.'.toUInt8 :: digits) =
      let parsed := parseFraction 0 100 0 digits
      if parsed.2.1 = 0 then none else some (parsed.1, parsed.2.2) := if_pos rfl
  obtain ⟨a, b, c, first, second, third, sum, text⟩ := appendFraction_cases few
  obtain ⟨c0, text⟩ | ⟨c0, b0, text⟩ | ⟨c0, b0, a0, text⟩ | ⟨c0, b0, a0, text⟩ := text
  · rw [text]
    simp only [List.cons_append, List.nil_append, point]
    rw [parseFraction_digit (by decide) first, parseFraction_digit (by decide) second,
      parseFraction_digit (by decide) third, parseFraction_zulu]
    dsimp only
    rw [if_neg (by decide), sum]
    congr 2
    omega
  · rw [text]
    simp only [List.cons_append, List.nil_append, point]
    rw [parseFraction_digit (by decide) first, parseFraction_digit (by decide) second, parseFraction_zulu]
    dsimp only
    rw [if_neg (by decide), sum]
    congr 2
    omega
  · rw [text]
    simp only [List.cons_append, List.nil_append, point]
    rw [parseFraction_digit (by decide) first, parseFraction_zulu]
    dsimp only
    rw [if_neg (by decide), sum]
    congr 2
    omega
  · rw [text, sum, c0, b0, a0]
    rfl

/-! ## Date-time -/

namespace Timestamp

theorem fromEpochMilliseconds_toInt (ts : Timestamp) : fromEpochMilliseconds ts.ms.toInt = ts := by
  rw [fromEpochMilliseconds, Int64.ofInt_toInt]

theorem parse_format_dateTime {ts : Timestamp} {calendar : Calendar} (window : ts.Representable) :
    parse (format ts .dateTime calendar) .dateTime = .ok ts := by
  obtain ⟨year, month, day, hour, minute, second, millisecond, fields, date, years, hours, minutes, seconds, millis, sum⟩ :=
    decompose_facts window.1 window.2
  obtain ⟨_, months, _, days⟩ := (date ▸ CivilDate.valid_ofDays _ : CivilDate.Valid ⟨year, month, day⟩)
  have few : day ≤ 99 := by
    simp only [CivilDate.lastDay] at days
    split_ifs at days <;> omega
  dsimp only at months
  have some_ : 0 < (appendFraction millisecond ++ ascii "Z").length := by
    rw [List.length_append]
    exact Nat.lt_add_left _ (by decide)
  have printed_ : format ts .dateTime calendar = padded 4 year ++ ascii "-" ++ padded 2 month ++ ascii "-" ++ padded 2 day ++
      ascii "T" ++ padded 2 hour ++ ascii ":" ++ padded 2 minute ++ ascii ":" ++ padded 2 second ++
      (appendFraction millisecond ++ ascii "Z") := by
    simp only [format, fields]
    rw [printed_natCast (by decide) (by omega), printed_natCast (by decide) (by omega),
      printed_natCast (by decide) (by omega), printed_natCast (by decide) (by omega),
      printed_natCast (by decide) (by omega), printed_natCast (by decide) (by omega), List.append_assoc]
  have zulu : parseOffset (ascii "Z") = some (0, []) := rfl
  rw [parse, parseDateTime, printed_, parseDateTimeFields_text _ years (by omega) few hours minutes seconds some_,
    drop_dateTime, Option.bind_eq_bind, Option.bind_some, parseMillisecond_appendFraction millis, Option.bind_eq_bind,
    Option.bind_some]
  dsimp only
  rw [zulu]
  simp only [Option.bind_eq_bind, Option.bind_some, ok_of_ofDays millisecond date hours minutes seconds, and_self,
    guard_true, Option.pure_def, compose_of_ofDays _ _ _ _ date, Option.elim_some, ← sum, sub_zero,
    fromEpochMilliseconds_toInt]

/-! ## Http-date -/

theorem weekday_lt (days : ℤ) : weekdayIndex days < 7 := by
  rw [weekdayIndex, CivilDate.weekday]
  omega

/-- The names have three letters, and a month is found by its name. -/
theorem weekday_name {weekday : ℕ} (few : weekday < 7) :
    ∃ a b c, kWeekdays.getD weekday [] = [a, b, c] ∧ kWeekdays[weekday]? = some [a, b, c] := by
  have all : ∀ weekday < 7, ∃ name, kWeekdays[weekday]? = some name ∧ name.length = 3 := by decide
  obtain ⟨name, found, long⟩ := all weekday few
  obtain ⟨a, b, c, rfl⟩ := List.length_eq_three.mp long
  exact ⟨a, b, c, by rw [List.getD_eq_getElem?_getD, found, Option.getD_some], found⟩

theorem month_name {month : ℕ} (low : 1 ≤ month) (high : month ≤ 12) :
    ∃ a b c, kMonths.getD (month - 1) [] = [a, b, c] ∧
      (kMonths.findIdx? (· = [a, b, c])).elim 0 (· + 1) = month := by
  have all : ∀ index < 12, (kMonths.getD index []).length = 3 ∧
      (kMonths.findIdx? (· = kMonths.getD index [])).elim 0 (· + 1) = index + 1 := by decide
  obtain ⟨long, found⟩ := all (month - 1) (by omega)
  obtain ⟨a, b, c, name⟩ := List.length_eq_three.mp long
  rw [name] at found
  exact ⟨a, b, c, name, found.trans (Nat.sub_add_cancel low)⟩

theorem parseHttpDateFields_text {a b c : UInt8} {year month day hour minute second : ℕ} (years : year ≤ 9999)
    (first : 1 ≤ month) (last : month ≤ 12) (days : day ≤ 99) (hours : hour ≤ 23) (minutes : minute ≤ 59)
    (seconds : second ≤ 59) :
    parseHttpDateFields ([a, b, c] ++ ascii ", " ++ padded 2 day ++ ascii " " ++ kMonths.getD (month - 1) [] ++
      ascii " " ++ padded 4 year ++ ascii " " ++ padded 2 hour ++ ascii ":" ++ padded 2 minute ++ ascii ":" ++
      padded 2 second ++ ascii " GMT") = some ⟨year, month, day, hour, minute, second, 0⟩ := by
  generalize made : [a, b, c] ++ ascii ", " ++ padded 2 day ++ ascii " " ++ kMonths.getD (month - 1) [] ++
      ascii " " ++ padded 4 year ++ ascii " " ++ padded 2 hour ++ ascii ":" ++ padded 2 minute ++ ascii ":" ++
      padded 2 second ++ ascii " GMT" = text
  obtain ⟨y₁, y₂, y₃, y₄, ys⟩ := padded_four year
  obtain ⟨m₁, m₂, m₃, ms, named⟩ := month_name first last
  obtain ⟨d₁, d₂, ds⟩ := padded_two day
  obtain ⟨h₁, h₂, hs⟩ := padded_two hour
  obtain ⟨n₁, n₂, ns⟩ := padded_two minute
  obtain ⟨s₁, s₂, ss⟩ := padded_two second
  have cells : text = [a, b, c, ','.toUInt8, ' '.toUInt8, d₁, d₂, ' '.toUInt8, m₁, m₂, m₃, ' '.toUInt8, y₁, y₂, y₃, y₄,
      ' '.toUInt8, h₁, h₂, ':'.toUInt8, n₁, n₂, ':'.toUInt8, s₁, s₂] ++ ascii " GMT" := by
    rw [← made, ys, ms, ds, hs, ns, ss]
    rfl
  have long : text.length = 29 := by rw [cells]; rfl
  have columns (pos : ℕ) {number : ℕ} (few : number < 10 ^ 2) (within : pos ≤ 24)
      (digits : Bytes.substr text pos 2 = padded 2 number) :
      parseDigits text pos 2 = some number := parseDigits_of_substr pos 2 (by omega) digits few
  have atYear : parseDigits text 12 4 = some year := parseDigits_of_substr 12 4 (by omega) (by rw [ys, cells]; rfl)
    (by omega : year < 10 ^ 4)
  have atDay := columns 5 (by omega : day < 10 ^ 2) (by decide) (by rw [ds, cells]; rfl)
  have atHour := columns 17 (by omega : hour < 10 ^ 2) (by decide) (by rw [hs, cells]; rfl)
  have atMinute := columns 20 (by omega : minute < 10 ^ 2) (by decide) (by rw [ns, cells]; rfl)
  have atSecond := columns 23 (by omega : second < 10 ^ 2) (by decide) (by rw [ss, cells]; rfl)
  have comma : Bytes.substr text 3 2 = ascii ", " := by rw [cells]; rfl
  have blanks : text[7]? = some ' '.toUInt8 ∧ text[11]? = some ' '.toUInt8 ∧ text[16]? = some ' '.toUInt8 := by
    rw [cells]
    exact ⟨rfl, rfl, rfl⟩
  have colons : text[19]? = some ':'.toUInt8 ∧ text[22]? = some ':'.toUInt8 := by rw [cells]; exact ⟨rfl, rfl⟩
  have zone : text.drop 25 = ascii " GMT" := by rw [cells]; rfl
  have month_ : Bytes.substr text 8 3 = [m₁, m₂, m₃] := by rw [cells]; rfl
  simp only [parseHttpDateFields, long, comma, blanks, colons, zone, month_, named, atYear, atDay, atHour, atMinute,
    atSecond, and_self, guard_true, Option.bind_eq_bind, Option.bind_some, Option.pure_def]

theorem parse_format_httpDate {ts : Timestamp} {calendar : Calendar} (window : ts.Representable) :
    parse (format ts .httpDate calendar) .httpDate = .ok (fromEpochMilliseconds (ts.ms.toInt / 1000 * 1000)) := by
  obtain ⟨year, month, day, hour, minute, second, millisecond, fields, date, years, hours, minutes, seconds, millis, sum⟩ :=
    decompose_facts window.1 window.2
  obtain ⟨first, last, _, days⟩ := (date ▸ CivilDate.valid_ofDays _ : CivilDate.Valid ⟨year, month, day⟩)
  have few : day ≤ 99 := by
    simp only [CivilDate.lastDay] at days
    split_ifs at days <;> omega
  dsimp only at first last
  obtain ⟨a, b, c, name, found⟩ := weekday_name (weekday_lt (ts.ms.toInt / 86400000))
  have perDay : (0 : ℤ) < kMsPerDay := by decide
  have printed_ :
      format ts .httpDate calendar = [a, b, c] ++ ascii ", " ++ padded 2 day ++ ascii " " ++ kMonths.getD (month - 1) [] ++
      ascii " " ++ padded 4 year ++ ascii " " ++ padded 2 hour ++ ascii ":" ++ padded 2 minute ++ ascii ":" ++
      padded 2 second ++ ascii " GMT" := by
    have perDay' : kMsPerDay = 86400000 := rfl
    simp only [format, fields, floorDiv_eq _ perDay]
    rw [perDay', name, printed_natCast (by decide) (by omega), printed_natCast (by decide) (by omega),
      printed_natCast (by decide) (by omega), printed_natCast (by decide) (by omega), printed_natCast (by decide) (by omega)]
  have checked := ok_of_ofDays 0 date hours minutes seconds
  have day_ : epochDays ⟨year, month, day, hour, minute, second, 0⟩ = ts.ms.toInt / 86400000 := by
    rw [epochDays, CivilTime.ymd, date, CivilDate.toDays_ofDays]
  have whole : compose ⟨year, month, day, hour, minute, second, 0⟩ = ts.ms.toInt / 1000 * 1000 := by
    have composed := compose_of_ofDays hour minute second 0 date
    push_cast at composed sum
    rw [composed]
    omega
  have letters (rest : Bytes) : Bytes.substr ([a, b, c] ++ rest) 0 3 = [a, b, c] := rfl
  rw [parse, parseHttpDate, printed_, parseHttpDateFields_text years first last few hours minutes seconds,
    Option.bind_eq_bind, Option.bind_some]
  simp only [List.append_assoc, letters, checked, day_, found, whole, Nat.ne_of_gt first, ne_eq, not_false_eq_true,
    and_self, guard_true, Option.bind_eq_bind, Option.bind_some, Option.pure_def, Option.elim_some]

/-- An instant between the years 0000 and 9999 comes back from its date-time, and the last whole second
up to it comes back from its http-date. -/
theorem parse_format {ts : Timestamp} {calendar : Calendar} (window : ts.Representable) :
    parse (format ts .dateTime calendar) .dateTime = .ok ts ∧
      ∃ second : Timestamp, parse (format ts .httpDate calendar) .httpDate = .ok second ∧
        IsGreatest {ms : ℤ | 1000 ∣ ms ∧ ms ≤ ts.ms.toInt} second.ms.toInt := by
  refine ⟨parse_format_dateTime window, _, parse_format_httpDate window, ?_⟩
  obtain ⟨low, high⟩ := window
  simp only [kMinRepresentableMs, kMaxRepresentableMs] at low high
  have kept : (fromEpochMilliseconds (ts.ms.toInt / 1000 * 1000)).ms.toInt = ts.ms.toInt / 1000 * 1000 :=
    Int64.toInt_ofInt_of_le (by omega) (by omega)
  rw [kept]
  constructor
  · exact ⟨Int.dvd_mul_left _ _, by omega⟩
  · rintro ms ⟨⟨seconds, rfl⟩, below⟩
    omega

/-- The millisecond before the leap day of 1968. -/
theorem parse_format_leap :
    Representable ⟨-58060800001⟩ ∧ parse (format ⟨-58060800001⟩ .dateTime) .dateTime = .ok ⟨-58060800001⟩ ∧
    ∃ second : Timestamp, parse (format ⟨-58060800001⟩ .httpDate) .httpDate = .ok second ∧
      IsGreatest {ms : ℤ | 1000 ∣ ms ∧ ms ≤ (⟨-58060800001⟩ : Timestamp).ms.toInt} second.ms.toInt := by
  have window : Representable ⟨-58060800001⟩ := by
    constructor
    · decide
    · decide
  exact ⟨window, parse_format window⟩

end Timestamp

end OpalCpp

import OpalCpp.Model.Http.Headers
import OpalCpp.Proofs.Core.TimestampWindow

/-! # The obsolete dates

The two obsolete spellings of a date are rewritten to the one that is still written. That of `asctime`
has all its digits; that of RFC 850 has two of its year, whose century is the reference's or the one
before.
-/

namespace OpalCpp.Http

open Bytes (ascii)
open Decimal (padded decimal digit)

/-! ## The spellings -/

/-- The year of an instant. -/
def yearOf (ts : Timestamp) : ℤ := (CivilDate.ofDays (floorDiv ts.ms.toInt kMsPerDay)).year

/-- The time of day, to the second. -/
def clock (c : CivilTime) : Bytes := printed 2 c.hour ++ ascii ":" ++ printed 2 c.minute ++ ascii ":" ++ printed 2 c.second

/-- `Sunday, 06-Nov-94 08:49:37 GMT`. -/
def rfc850Date (ts : Timestamp) : Bytes :=
  let c := decompose ts.ms
  kFullDays.getD (weekdayIndex (floorDiv ts.ms.toInt kMsPerDay)) [] ++ ascii ", " ++ printed 2 c.day ++ ascii "-" ++
    kMonths.getD (c.month - 1) [] ++ ascii "-" ++ printed 2 (c.year % 100) ++ ascii " " ++ clock c ++ ascii " GMT"

/-- `Sun Nov  6 08:49:37 1994`. -/
def asctimeDate (ts : Timestamp) : Bytes :=
  let c := decompose ts.ms
  kWeekdays.getD (weekdayIndex (floorDiv ts.ms.toInt kMsPerDay)) [] ++ ascii " " ++ kMonths.getD (c.month - 1) [] ++
    ascii " " ++ List.replicate (2 - (decimal c.day).length) ' '.toUInt8 ++ decimal c.day ++ ascii " " ++ clock c ++
    ascii " " ++ printed 4 c.year

/-! ## Names and digits -/

/-- The names of a day: the full one has no comma, and each is found where it stands. -/
theorem day_names {weekday : ℕ} (few : weekday < 7) : ∃ a b c, kWeekdays.getD weekday [] = [a, b, c] ∧
    kAbbreviatedDays.getD weekday [] = [a, b, c] ∧ kAbbreviatedDays.idxOf? [a, b, c] = some weekday ∧
      (∀ byte ∈ kFullDays.getD weekday [], byte ≠ ','.toUInt8) ∧
        kFullDays.idxOf? (kFullDays.getD weekday []) = some weekday ∧
        5 < (kFullDays.getD weekday []).length := by
  have all : ∀ weekday < 7, (kWeekdays.getD weekday []).length = 3 ∧
      kAbbreviatedDays.getD weekday [] = kWeekdays.getD weekday [] ∧
        kAbbreviatedDays.idxOf? (kWeekdays.getD weekday []) = some weekday ∧
          (∀ byte ∈ kFullDays.getD weekday [], byte ≠ ','.toUInt8) ∧
            kFullDays.idxOf? (kFullDays.getD weekday []) = some weekday ∧
            5 < (kFullDays.getD weekday []).length := by decide
  obtain ⟨long, same, found, others⟩ := all weekday few
  obtain ⟨a, b, c, name⟩ := List.length_eq_three.mp long
  rw [name] at same found
  exact ⟨a, b, c, name, same, found, others⟩

/-- A day of the month that is padded with a space, and with a zero in its place. -/
theorem day_padding {day : ℕ} (first : 1 ≤ day) (last : day ≤ 31) : ∃ d₁ d₂ : UInt8,
    List.replicate (2 - (decimal day).length) ' '.toUInt8 ++ decimal day = [d₁, d₂] ∧
      (if d₁ = ' '.toUInt8 then ascii "0" ++ [d₂] else [d₁, d₂]) = padded 2 day := by
  have all : ∀ day < 32, 1 ≤ day →
      (List.replicate (2 - (decimal day).length) ' '.toUInt8 ++ decimal day).length = 2 ∧
        (if (List.replicate (2 - (decimal day).length) ' '.toUInt8 ++ decimal day).head? = some ' '.toUInt8 then
          ascii "0" ++ (List.replicate (2 - (decimal day).length) ' '.toUInt8 ++ decimal day).tail
        else List.replicate (2 - (decimal day).length) ' '.toUInt8 ++ decimal day) = padded 2 day := by decide
  obtain ⟨long, padding⟩ := all day (Nat.lt_succ_of_le last) first
  obtain ⟨d₁, d₂, text⟩ := List.length_eq_two.mp long
  simp only [text, List.head?_cons, List.tail_cons, Option.some.injEq] at padding
  exact ⟨d₁, d₂, text, padding⟩

theorem allDigits_padded {width : ℕ} (some_ : 0 < width) (number : ℕ) : allDigits (padded width number) = true := by
  have nonempty : padded width number ≠ [] := by
    rw [← List.length_pos_iff, Decimal.length_padded]
    exact some_
  rw [allDigits, Bool.and_eq_true, List.all_eq_true, decide_eq_true_eq]
  exact ⟨nonempty, Decimal.isDigit_of_mem_padded⟩

/-! ## Fields -/

/-- The fields of an instant of the four-digit years, with the names of its day and its month. -/
structure Fields (ts : Timestamp) where
  year : ℕ
  month : ℕ
  day : ℕ
  hour : ℕ
  minute : ℕ
  second : ℕ
  millisecond : ℕ
  fields : ∀ calendar, decompose ts.ms calendar = ⟨year, month, day, hour, minute, second, millisecond⟩
  date : (⟨year, month, day⟩ : CivilDate) = CivilDate.ofDays (ts.ms.toInt / 86400000)
  years : year ≤ 9999
  hours : hour ≤ 23
  minutes : minute ≤ 59
  seconds : second ≤ 59

/-- A year of four digits is one of the window. -/
theorem representable_of_year {ts : Timestamp} (low : 0 ≤ yearOf ts) (high : yearOf ts ≤ 9999) : ts.Representable := by
  have perDay : (0 : ℤ) < kMsPerDay := by decide
  have day : kMsPerDay = 86400000 := rfl
  rw [yearOf, floorDiv_eq _ perDay, day] at low high
  obtain ⟨first, last, -⟩ := toDays_mem (CivilDate.valid_ofDays (ts.ms.toInt / 86400000)) low high
  rw [CivilDate.toDays_ofDays] at first last
  rw [Timestamp.Representable, Timestamp.kMinRepresentableMs, Timestamp.kMaxRepresentableMs]
  omega

theorem exists_fields {ts : Timestamp} (low : 0 ≤ yearOf ts) (high : yearOf ts ≤ 9999) : Nonempty (Fields ts) := by
  obtain ⟨first, last⟩ := representable_of_year low high
  obtain ⟨year, month, day, hour, minute, second, millisecond, fields, date, years, hours, minutes, seconds, -, -⟩ :=
    decompose_facts first last
  exact ⟨⟨year, month, day, hour, minute, second, millisecond, fields, date, years, hours, minutes, seconds⟩⟩

namespace Fields

variable {ts : Timestamp} (f : Fields ts)

/-- The fields of a date with another year. -/
def fixdate (year : ℕ) : Bytes :=
  kWeekdays.getD (weekdayIndex (ts.ms.toInt / 86400000)) [] ++ ascii ", " ++ padded 2 f.day ++ ascii " " ++
    kMonths.getD (f.month - 1) [] ++ ascii " " ++ padded 4 year ++ ascii " " ++ padded 2 f.hour ++ ascii ":" ++
    padded 2 f.minute ++ ascii ":" ++ padded 2 f.second ++ ascii " GMT"

theorem year_eq : yearOf ts = f.year := by
  have perDay : (0 : ℤ) < kMsPerDay := by decide
  rw [yearOf, floorDiv_eq _ perDay]
  exact (congrArg CivilDate.year f.date).symm

theorem month_mem : 1 ≤ f.month ∧ f.month ≤ 12 := by
  obtain ⟨first, last, -⟩ := (f.date ▸ CivilDate.valid_ofDays _ : CivilDate.Valid ⟨f.year, f.month, f.day⟩)
  exact ⟨first, last⟩

theorem day_mem : 1 ≤ f.day ∧ f.day ≤ 31 := by
  obtain ⟨-, -, first, last⟩ := (f.date ▸ CivilDate.valid_ofDays _ : CivilDate.Valid ⟨f.year, f.month, f.day⟩)
  exact ⟨first, le_trans last (lastDay_le _ _)⟩

theorem weekday_eq : weekdayIndex (floorDiv ts.ms.toInt kMsPerDay) = weekdayIndex (ts.ms.toInt / 86400000) := by
  have perDay : (0 : ℤ) < kMsPerDay := by decide
  rw [floorDiv_eq _ perDay]
  rfl

theorem clock_eq : clock ⟨f.year, f.month, f.day, f.hour, f.minute, f.second, f.millisecond⟩ =
    padded 2 f.hour ++ ascii ":" ++ padded 2 f.minute ++ ascii ":" ++ padded 2 f.second := by
  have hours := f.hours
  have minutes := f.minutes
  have seconds := f.seconds
  rw [clock, printed_natCast (by decide) (by omega), printed_natCast (by decide) (by omega),
    printed_natCast (by decide) (by omega)]

theorem format_httpDate (calendar : Calendar) : ts.format .httpDate calendar = f.fixdate f.year := by
  have years := f.years
  have hours := f.hours
  have minutes := f.minutes
  have seconds := f.seconds
  have few := f.day_mem.2
  simp only [Timestamp.format, weekday_eq, fixdate, f.fields]
  rw [printed_natCast (by decide) (by omega), printed_natCast (by decide) (by omega), printed_natCast (by decide) (by omega),
    printed_natCast (by decide) (by omega), printed_natCast (by decide) (by omega)]

theorem rfc850Date_eq : rfc850Date ts = kFullDays.getD (weekdayIndex (ts.ms.toInt / 86400000)) [] ++ ascii ", " ++
    padded 2 f.day ++ ascii "-" ++ kMonths.getD (f.month - 1) [] ++ ascii "-" ++ padded 2 (f.year % 100) ++ ascii " " ++
    (padded 2 f.hour ++ ascii ":" ++ padded 2 f.minute ++ ascii ":" ++ padded 2 f.second) ++ ascii " GMT" := by
  have few := f.day_mem.2
  have digits : ((f.year : ℤ) % 100) = (f.year % 100 : ℕ) := by omega
  simp only [rfc850Date, weekday_eq, f.fields, f.clock_eq, digits]
  rw [printed_natCast (by decide) (by omega), printed_natCast (by decide) (by omega)]

theorem asctimeDate_eq : asctimeDate ts = kWeekdays.getD (weekdayIndex (ts.ms.toInt / 86400000)) [] ++ ascii " " ++
    kMonths.getD (f.month - 1) [] ++ ascii " " ++ List.replicate (2 - (decimal f.day).length) ' '.toUInt8 ++ decimal f.day ++
    ascii " " ++ (padded 2 f.hour ++ ascii ":" ++ padded 2 f.minute ++ ascii ":" ++ padded 2 f.second) ++ ascii " " ++
    padded 4 f.year := by
  have years := f.years
  simp only [asctimeDate, weekday_eq, f.fields, f.clock_eq]
  rw [printed_natCast (by decide) (by omega)]

/-- The rewriting of the date of RFC 850 keeps all but the year. -/
theorem rfc850AsFixdate_text (reference : Timestamp) (calendar : Calendar) :
    rfc850AsFixdate (rfc850Date ts) reference calendar =
    (referenceYear reference calendar).bind fun year =>
      some (kWeekdays.getD (weekdayIndex (ts.ms.toInt / 86400000)) [] ++ ascii ", " ++
      padded 2 f.day ++ ascii " " ++ kMonths.getD (f.month - 1) [] ++ ascii " " ++ resolveTwoDigitYear (f.year % 100) year ++
      ascii " " ++ (padded 2 f.hour ++ ascii ":" ++ padded 2 f.minute ++ ascii ":" ++ padded 2 f.second) ++
        ascii " GMT") := by
  obtain ⟨a, b, c, name, same, -, noComma, found, -⟩ := day_names (Timestamp.weekday_lt (ts.ms.toInt / 86400000))
  obtain ⟨y₁, y₂, ys⟩ := padded_two (f.year % 100)
  obtain ⟨m₁, m₂, m₃, ms, named⟩ := Timestamp.month_name f.month_mem.1 f.month_mem.2
  obtain ⟨d₁, d₂, ds⟩ := padded_two f.day
  obtain ⟨h₁, h₂, hs⟩ := padded_two f.hour
  obtain ⟨n₁, n₂, ns⟩ := padded_two f.minute
  obtain ⟨s₁, s₂, ss⟩ := padded_two f.second
  have days := allDigits_padded (by decide : 0 < 2) f.day
  have years := allDigits_padded (by decide : 0 < 2) (f.year % 100)
  have year := Decimal.read_padded (by omega : f.year % 100 < 10 ^ 2)
  rw [f.rfc850Date_eq, ms, ds, hs, ns, ss, ys]
  rw [ds] at days
  rw [ys] at years year
  generalize kFullDays.getD (weekdayIndex (ts.ms.toInt / 86400000)) [] = fullName at noComma found ⊢
  obtain ⟨rest, isRest⟩ : ∃ rest : Bytes,
    rest = [' '.toUInt8, d₁, d₂, '-'.toUInt8, m₁, m₂, m₃, '-'.toUInt8, y₁, y₂, ' '.toUInt8,
      h₁, h₂, ':'.toUInt8, n₁, n₂, ':'.toUInt8, s₁, s₂] ++ ascii " GMT" := ⟨_, rfl⟩
  have text : fullName ++ ascii ", " ++ [d₁, d₂] ++ ascii "-" ++ [m₁, m₂, m₃] ++ ascii "-" ++ [y₁, y₂] ++ ascii " " ++
      ([h₁, h₂] ++ ascii ":" ++ [n₁, n₂] ++ ascii ":" ++ [s₁, s₂]) ++ ascii " GMT" = fullName ++ ','.toUInt8 :: rest := by
    rw [isRest]
    simp only [List.append_assoc]
    rfl
  have noComma' : ∀ byte ∈ fullName, decide (byte ≠ ','.toUInt8) = true :=
    fun byte member => decide_eq_true (noComma byte member)
  have day : (fullName ++ ','.toUInt8 :: rest).takeWhile (· ≠ ','.toUInt8) = fullName := by
    rw [List.takeWhile_append_of_pos noComma', List.takeWhile_cons_of_neg (by decide), List.append_nil]
  have others : ((fullName ++ ','.toUInt8 :: rest).dropWhile (· ≠ ','.toUInt8)).tail = rest := by
    rw [List.dropWhile_append_of_pos noComma', List.dropWhile_cons_of_neg (by decide), List.tail_cons]
  have comma : ','.toUInt8 ∈ fullName ++ ','.toUInt8 :: rest := List.mem_append_right _ List.mem_cons_self
  have columns :
      rest.length = 23 ∧ rest[0]? = some ' '.toUInt8 ∧ rest[3]? = some '-'.toUInt8 ∧ rest[7]? = some '-'.toUInt8 := by
    rw [isRest]
    exact ⟨rfl, rfl, rfl, rfl⟩
  have columns' : rest[10]? = some ' '.toUInt8 ∧ rest.drop 19 = ascii " GMT" := by
    rw [isRest]
    exact ⟨rfl, rfl⟩
  have dayOfMonth : rest.substr 1 2 = [d₁, d₂] := by rw [isRest]; rfl
  have month : rest.substr 4 3 = [m₁, m₂, m₃] := by rw [isRest]; rfl
  have twoDigitYear : rest.substr 8 2 = [y₁, y₂] := by rw [isRest]; rfl
  have timeOfDay : rest.substr 11 8 = [h₁, h₂] ++ ascii ":" ++ [n₁, n₂] ++ ascii ":" ++ [s₁, s₂] := by rw [isRest]; rfl
  rw [text, rfc850AsFixdate, guard, if_pos comma, day, others, found]
  simp only [columns, columns', dayOfMonth, month, twoDigitYear, timeOfDay, days, years, year, same, name, and_self,
    guard_true, Option.pure_def, Option.bind_eq_bind, Option.bind_some]

theorem asctimeAsFixdate_text : asctimeAsFixdate (asctimeDate ts) = some (f.fixdate f.year) := by
  obtain ⟨a, b, c, name, same, found, -⟩ := day_names (Timestamp.weekday_lt (ts.ms.toInt / 86400000))
  obtain ⟨y₁, y₂, y₃, y₄, ys⟩ := padded_four f.year
  obtain ⟨m₁, m₂, m₃, ms, named⟩ := Timestamp.month_name f.month_mem.1 f.month_mem.2
  obtain ⟨d₁, d₂, ds, padding⟩ := day_padding f.day_mem.1 f.day_mem.2
  obtain ⟨h₁, h₂, hs⟩ := padded_two f.hour
  obtain ⟨n₁, n₂, ns⟩ := padded_two f.minute
  obtain ⟨s₁, s₂, ss⟩ := padded_two f.second
  have days := allDigits_padded (by decide : 0 < 2) f.day
  have years := allDigits_padded (by decide : 0 < 4) f.year
  obtain ⟨text, isText⟩ : ∃ text : Bytes, text = [a, b, c, ' '.toUInt8, m₁, m₂, m₃, ' '.toUInt8, d₁, d₂, ' '.toUInt8,
      h₁, h₂, ':'.toUInt8, n₁, n₂, ':'.toUInt8, s₁, s₂, ' '.toUInt8, y₁, y₂, y₃, y₄] := ⟨_, rfl⟩
  have cells : asctimeDate ts = text := by
    rw [f.asctimeDate_eq, name, ms, List.append_assoc _ (List.replicate _ _), ds, hs, ns, ss, ys, isText]
    rfl
  have columns : text.length = 24 ∧ text[3]? = some ' '.toUInt8 ∧ text[7]? = some ' '.toUInt8 := by
    rw [isText]
    exact ⟨rfl, rfl, rfl⟩
  have columns' : text[10]? = some ' '.toUInt8 ∧ text[19]? = some ' '.toUInt8 := by
    rw [isText]
    exact ⟨rfl, rfl⟩
  have day : text.substr 0 3 = [a, b, c] := by rw [isText]; rfl
  have month : text.substr 4 3 = [m₁, m₂, m₃] := by rw [isText]; rfl
  have timeOfDay : text.substr 11 8 = [h₁, h₂] ++ ascii ":" ++ [n₁, n₂] ++ ascii ":" ++ [s₁, s₂] := by rw [isText]; rfl
  have year : text.substr 20 4 = padded 4 f.year := by rw [ys, isText]; rfl
  have dayOfMonth :
      (if text[8]? = some ' '.toUInt8 then ascii "0" ++ text.substr 9 1 else text.substr 8 2) = padded 2 f.day := by
    have cell : text[8]? = some d₁ := by rw [isText]; rfl
    have second : text.substr 9 1 = [d₂] := by rw [isText]; rfl
    have both : text.substr 8 2 = [d₁, d₂] := by rw [isText]; rfl
    simp only [cell, second, both, Option.some.injEq]
    exact padding
  rw [cells, asctimeAsFixdate, day, found, dayOfMonth]
  simp only [columns, columns', month, timeOfDay, year, days, years, same, and_self, guard_true, Option.pure_def,
    Option.bind_eq_bind, Option.bind_some, fixdate, name, ms, hs, ns, ss, List.append_assoc]

/-- The date comes back from its own spelling. -/
theorem parse_fixdate (whole : (1000 : ℤ) ∣ ts.ms.toInt) : Timestamp.parse (f.fixdate f.year) .httpDate = .ok ts := by
  have years := f.years
  have window : ts.Representable := representable_of_year (by rw [f.year_eq]; omega) (by rw [f.year_eq]; omega)
  rw [← f.format_httpDate .narrow, Timestamp.parse_format_httpDate window, Int.ediv_mul_cancel whole,
    Timestamp.fromEpochMilliseconds_toInt]

/-- The same day and month of two years are not the same day. -/
theorem eq_of_toDays {year other : ℤ} {month day : ℕ}
    (same : (⟨year, month, day⟩ : CivilDate).toDays = (⟨other, month, day⟩ : CivilDate).toDays) : year = other := by
  simp only [CivilDate.toDays] at same
  split_ifs at same <;> omega

/-- The date of another year does not. -/
theorem parse_fixdate_ne {year : ℕ} (few : year ≤ 9999) (other : year ≠ f.year) :
    Timestamp.parse (f.fixdate year) .httpDate ≠ .ok ts := by
  intro (parsed : Timestamp.parseHttpDate (f.fixdate year) = .ok ts)
  have hours := f.hours
  have minutes := f.minutes
  have seconds := f.seconds
  have last := f.day_mem.2
  obtain ⟨a, b, c, name, -⟩ := day_names (Timestamp.weekday_lt (ts.ms.toInt / 86400000))
  obtain ⟨read, fields, ok, composed, -⟩ := Timestamp.of_parseHttpDate parsed
  have columns :=
    Timestamp.parseHttpDateFields_text (a := a) (b := b) (c := c) few f.month_mem.1 f.month_mem.2 (by omega : f.day ≤ 99)
    hours minutes seconds
  rw [fixdate, name, columns] at fields
  obtain rfl := Option.some.inj fields
  obtain ⟨since, until_⟩ := timeOfDay_mem ok (le_refl (0 : ℤ)) (by decide : (0 : ℤ) ≤ 999)
  have sum : ts.ms.toInt = (⟨year, f.month, f.day⟩ : CivilDate).toDays * 86400000 + timeOfDay _ :=
    composed.trans (compose_eq _)
  -- The days of both dates are those of the instant.
  have day : (⟨year, f.month, f.day⟩ : CivilDate).toDays = (⟨f.year, f.month, f.day⟩ : CivilDate).toDays := by
    rw [f.date, CivilDate.toDays_ofDays]
    omega
  exact other (by exact_mod_cast eq_of_toDays day)

end Fields

/-! ## The year -/

theorem referenceYear_eq {reference : Timestamp} (f : Fields reference) (calendar : Calendar) :
    referenceYear reference calendar = some f.year := by
  have years := f.years
  have digits : (reference.format .dateTime calendar).take 4 = padded 4 f.year := by
    simp only [Timestamp.format, f.fields, List.append_assoc]
    rw [printed_natCast (by decide) (by omega), List.take_left' (Decimal.length_padded _ _)]
  rw [referenceYear, digits, if_pos (allDigits_padded (by decide) _), Decimal.read_padded (by omega)]

/-- The century of the two digits is that of the reference, or the one before. -/
theorem resolveTwoDigitYear_eq {twoDigits year : ℕ} (few : twoDigits < 100) (low : 50 ≤ year) (high : year ≤ 9999) :
    resolveTwoDigitYear twoDigits year = padded 4
      (if year + 50 < year / 100 * 100 + twoDigits then year / 100 * 100 + twoDigits - 100
        else year / 100 * 100 + twoDigits) := by
  generalize resolved : (if year + 50 < year / 100 * 100 + twoDigits then year / 100 * 100 + twoDigits - 100
    else year / 100 * 100 + twoDigits) = value
  have chosen : (if (year : ℤ) + 50 < (year / 100 * 100 : ℕ) + (twoDigits : ℤ) then
      (year / 100 * 100 : ℕ) + (twoDigits : ℤ) - 100 else (year / 100 * 100 : ℕ) + (twoDigits : ℤ)) = value := by
    split_ifs at resolved ⊢ <;> omega
  have small : value < 10 ^ 4 := by
    split_ifs at resolved <;> omega
  simp only [resolveTwoDigitYear, chosen, if_neg (not_lt.mpr (Int.natCast_nonneg value)), List.nil_append,
    Int.natAbs_natCast]
  exact Decimal.zeroPadded_eq (by decide) small

/-! ## The obsolete spellings -/

theorem parse_of_length {text : Bytes} (long : text.length ≠ 29) :
    ∃ error, Timestamp.parse text .httpDate = .error error := by
  refine ⟨.Serialization ("timestamp: invalid http-date: " ++ text.text), ?_⟩
  rw [Timestamp.parse, Timestamp.parseHttpDate, Timestamp.parseHttpDateFields, guard, if_neg long]
  rfl

/-- What is rewritten from the date of RFC 850 is too long for the other two spellings. -/
theorem length_of_rfc850 {text normalized : Bytes} {reference : Timestamp} {calendar : Calendar}
    (rewritten : rfc850AsFixdate text reference calendar = some normalized) : 29 < text.length := by
  simp only [rfc850AsFixdate, Option.bind_eq_bind, Option.bind_eq_some_iff] at rewritten
  obtain ⟨_, _, day, found, _, columns, _⟩ := rewritten
  have columns := (Option.guard_eq_some' _).mp columns
  have full : ∀ name ∈ kFullDays, 5 < name.length := by decide
  have named := full _ (List.isSome_idxOf?.mp (by rw [found]; rfl))
  have parts := congrArg List.length (List.takeWhile_append_dropWhile (p := (· ≠ ','.toUInt8)) (l := text))
  rw [List.length_append] at parts
  have rest := columns.1
  rw [List.length_tail] at rest
  omega

theorem length_of_asctime {text normalized : Bytes} (rewritten : asctimeAsFixdate text = some normalized) :
    text.length = 24 := by
  simp only [asctimeAsFixdate, Option.bind_eq_bind, Option.bind_eq_some_iff] at rewritten
  obtain ⟨_, columns, _⟩ := rewritten
  exact ((Option.guard_eq_some' _).mp columns).1

theorem parseHttpDate_fixdate {ts reference : Timestamp} (f : Fields ts) (calendar : Calendar)
    (whole : (1000 : ℤ) ∣ ts.ms.toInt) : parseHttpDate (f.fixdate f.year) reference calendar = some ts := by
  rw [parseHttpDate, f.parse_fixdate whole]

theorem parseHttpDate_asctime {ts reference : Timestamp} (f : Fields ts) (calendar : Calendar)
    (whole : (1000 : ℤ) ∣ ts.ms.toInt) : parseHttpDate (asctimeDate ts) reference calendar = some ts := by
  have long := length_of_asctime f.asctimeAsFixdate_text
  obtain ⟨error, refused⟩ := parse_of_length (by omega : (asctimeDate ts).length ≠ 29)
  have other : rfc850AsFixdate (asctimeDate ts) reference calendar = none := by
    rw [Option.eq_none_iff_forall_ne_some]
    intro normalized rewritten
    exact absurd (length_of_rfc850 rewritten) (by omega)
  rw [parseHttpDate, refused]
  dsimp only
  rw [other, f.asctimeAsFixdate_text, Option.none_or, Option.bind_eq_bind, Option.bind_some, f.parse_fixdate whole]
  rfl

/-- The date of RFC 850 is the instant's exactly when the two digits are resolved to its year. -/
theorem parseHttpDate_rfc850 {ts reference : Timestamp} (f : Fields ts) (g : Fields reference) (calendar : Calendar)
    (whole : (1000 : ℤ) ∣ ts.ms.toInt) (low : 50 ≤ g.year) : parseHttpDate (rfc850Date ts) reference calendar = some ts ↔
      (if g.year + 50 < g.year / 100 * 100 + f.year % 100 then g.year / 100 * 100 + f.year % 100 - 100
        else g.year / 100 * 100 + f.year % 100) = f.year := by
  have years := f.years
  have rewritten := f.rfc850AsFixdate_text reference calendar
  rw [referenceYear_eq g calendar, Option.bind_some,
    resolveTwoDigitYear_eq (Nat.mod_lt _ (by decide)) low g.years] at rewritten
  generalize resolved : (if g.year + 50 < g.year / 100 * 100 + f.year % 100 then g.year / 100 * 100 + f.year % 100 - 100
    else g.year / 100 * 100 + f.year % 100) = year at rewritten ⊢
  obtain ⟨error, refused⟩ := parse_of_length (length_of_rfc850 rewritten).ne'
  have same : kWeekdays.getD (weekdayIndex (ts.ms.toInt / 86400000)) [] ++ ascii ", " ++ padded 2 f.day ++ ascii " " ++
      kMonths.getD (f.month - 1) [] ++ ascii " " ++ padded 4 year ++ ascii " " ++
      (padded 2 f.hour ++ ascii ":" ++ padded 2 f.minute ++ ascii ":" ++ padded 2 f.second) ++ ascii " GMT" =
        f.fixdate year := by
    simp only [Fields.fixdate, List.append_assoc]
  rw [parseHttpDate, refused]
  dsimp only
  rw [rewritten, same, Option.some_or, Option.bind_eq_bind, Option.bind_some]
  constructor
  · intro read
    by_contra other
    have few : year ≤ 9999 := by
      have last := g.years
      split_ifs at resolved <;> omega
    cases parsed : Timestamp.parse (f.fixdate year) .httpDate with
    | error e =>
      rw [parsed] at read
      cases read
    | ok instant =>
      rw [parsed] at read
      obtain rfl := Option.some.inj read
      exact f.parse_fixdate_ne few other parsed
  · rintro rfl
    rw [f.parse_fixdate whole]
    rfl

/-- The instant is in the years 0050 to 9949. -/
def Dated (ts : Timestamp) : Prop := 50 ≤ yearOf ts ∧ yearOf ts ≤ 9949

instance (ts : Timestamp) : Decidable (Dated ts) := inferInstanceAs (Decidable (_ ∧ _))

/-- The year is at most fifty after that of the reference, and less than fifty before it. -/
def Near (ts reference : Timestamp) : Prop := yearOf ts ≤ yearOf reference + 50 ∧ yearOf reference < yearOf ts + 50

instance (ts reference : Timestamp) : Decidable (Near ts reference) := inferInstanceAs (Decidable (_ ∧ _))

/-- The date of `asctime` is read as its instant, as that of IMF is. The date of RFC 850 is if and only if its
century is not after that of the reference: the two digits of a year are of the reference's century or of the one before. -/
theorem obsolete_dates {ts reference : Timestamp} {calendar : Calendar} (whole : (1000 : ℤ) ∣ ts.ms.toInt) (dated : Dated ts)
    (from_ : Dated reference) : parseHttpDate (asctimeDate ts) reference calendar = some ts ∧
      parseHttpDate (ts.format .httpDate calendar) reference calendar = some ts ∧
      ((Near ts reference → parseHttpDate (rfc850Date ts) reference calendar = some ts) ↔
        ¬ (Near ts reference ∧ yearOf reference / 100 < yearOf ts / 100)) := by
  obtain ⟨low, high⟩ := dated
  obtain ⟨low', high'⟩ := from_
  obtain ⟨f⟩ := exists_fields (by omega : 0 ≤ yearOf ts) (by omega)
  obtain ⟨g⟩ := exists_fields (by omega : 0 ≤ yearOf reference) (by omega)
  refine ⟨parseHttpDate_asctime f calendar whole, f.format_httpDate calendar ▸ parseHttpDate_fixdate f calendar whole, ?_⟩
  rw [g.year_eq] at low'
  rw [parseHttpDate_rfc850 f g calendar whole (by omega), Near, f.year_eq, g.year_eq]
  constructor
  · rintro read ⟨near, later⟩
    have same := read near
    split_ifs at same <;> omega
  · intro kept near
    have century : ¬ ((g.year : ℤ) / 100 < f.year / 100) := fun later => kept ⟨near, later⟩
    split_ifs <;> omega

/-- The example of RFC 9110, in 2026. -/
theorem obsolete_dates_rfc9110 :
    (1000 : ℤ) ∣ (⟨784111777000⟩ : Timestamp).ms.toInt ∧ Dated ⟨784111777000⟩ ∧ Dated ⟨1789171200000⟩ ∧
    parseHttpDate (asctimeDate ⟨784111777000⟩) ⟨1789171200000⟩ = some ⟨784111777000⟩ ∧
      parseHttpDate ((⟨784111777000⟩ : Timestamp).format .httpDate) ⟨1789171200000⟩ = some ⟨784111777000⟩ ∧
        ((Near ⟨784111777000⟩ ⟨1789171200000⟩ →
            parseHttpDate (rfc850Date ⟨784111777000⟩) ⟨1789171200000⟩ = some ⟨784111777000⟩) ↔
          ¬ (Near ⟨784111777000⟩ ⟨1789171200000⟩ ∧ yearOf ⟨1789171200000⟩ / 100 < yearOf ⟨784111777000⟩ / 100)) := by
  have whole : (1000 : ℤ) ∣ (⟨784111777000⟩ : Timestamp).ms.toInt := by decide
  have dated : Dated ⟨784111777000⟩ := by decide
  have from_ : Dated ⟨1789171200000⟩ := by decide
  exact ⟨whole, dated, from_, obsolete_dates whole dated from_⟩

/-- The first second of 2100, a second before. -/
theorem obsolete_dates_century : ¬ ∀ ts reference : Timestamp, (1000 : ℤ) ∣ ts.ms.toInt → Dated ts → Dated reference →
    parseHttpDate (asctimeDate ts) reference = some ts ∧
      (Near ts reference → parseHttpDate (rfc850Date ts) reference = some ts) := by
  intro all
  have refused : parseHttpDate (rfc850Date ⟨4102444800000⟩) ⟨4102444799000⟩ = none := by decide
  have read := (all ⟨4102444800000⟩ ⟨4102444799000⟩ (by decide) (by decide) (by decide)).2 (by decide)
  rw [refused] at read
  cases read

end OpalCpp.Http

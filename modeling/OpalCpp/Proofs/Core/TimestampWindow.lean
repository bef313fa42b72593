import OpalCpp.Proofs.Core.Timestamp
import OpalCpp.Proofs.Core.TimestampText

/-! # Instants that are read

What the parsers read lies in the window of the four-digit years, but for the date-times whose offset
carries them across one of its ends. Their civil fields are in the window, and the offset is taken off
without a check.
-/

namespace OpalCpp

open Bytes (ascii)

/-! ## Civil times -/

theorem lastDay_le (year : ℤ) (month : ℕ) : CivilDate.lastDay year month ≤ 31 := by
  rw [CivilDate.lastDay]
  split_ifs <;> omega

/-- A date of the four-digit years is one of the days of the window, and only its first and last dates are its ends. -/
theorem toDays_mem {date : CivilDate} (valid : date.Valid) (low : 0 ≤ date.year) (high : date.year ≤ 9999) :
    -719528 ≤ date.toDays ∧ date.toDays ≤ 2932896 ∧ (date.toDays = -719528 → date = ⟨0, 1, 1⟩) ∧
      (date.toDays = 2932896 → date = ⟨9999, 12, 31⟩) := by
  obtain ⟨year, month, day⟩ := date
  obtain ⟨first, last, some_, few⟩ := valid
  have days := le_trans few (lastDay_le year month)
  simp only [CivilDate.toDays, CivilDate.daysBefore, CivilDate.epoch, CivilDate.mk.injEq] at *
  split_ifs with early
  · exact ⟨by omega, by omega, fun _ => ⟨by omega, by omega, by omega⟩, fun _ => by omega⟩
  · refine ⟨by omega, by omega, fun _ => by omega, fun end_ => ?_⟩
    obtain rfl : year = 9999 := by omega
    obtain rfl : month = 12 := by omega
    exact ⟨rfl, rfl, by omega⟩

/-- The milliseconds since midnight. -/
def timeOfDay (c : CivilTime) : ℤ := (c.hour * 3600 + c.minute * 60 + c.second) * kMsPerSecond + c.millisecond

theorem timeOfDay_mem {c : CivilTime} (ok : c.ok = true) (some_ : 0 ≤ c.millisecond) (few : c.millisecond ≤ 999) :
    0 ≤ timeOfDay c ∧ timeOfDay c < 86400000 := by
  simp only [CivilTime.ok, Bool.and_eq_true, decide_eq_true_eq] at ok
  obtain ⟨⟨⟨⟨⟨⟨_, noHour⟩, hours⟩, noMinute⟩, minutes⟩, noSecond⟩, seconds⟩ := ok
  rw [timeOfDay, kMsPerSecond]
  omega

theorem valid_of_ok {c : CivilTime} (ok : c.ok = true) : c.ymd.Valid := by
  simp only [CivilTime.ok, Bool.and_eq_true, decide_eq_true_eq] at ok
  exact ok.1.1.1.1.1.1

theorem compose_eq (c : CivilTime) : compose c = c.ymd.toDays * 86400000 + timeOfDay c := by
  rw [compose, timeOfDay, epochDays, kMsPerDay, kMsPerSecond]
  ring

/-- The first day of the window starts at its first instant, and the last one ends with its last. -/
theorem compose_mem {c : CivilTime} (ok : c.ok = true) (low : 0 ≤ c.year) (high : c.year ≤ 9999) (some_ : 0 ≤ c.millisecond)
    (few : c.millisecond ≤ 999) : Timestamp.kMinRepresentableMs ≤ compose c ∧ compose c ≤ Timestamp.kMaxRepresentableMs := by
  obtain ⟨first, last, -⟩ := toDays_mem (valid_of_ok ok) low high
  obtain ⟨since, until_⟩ := timeOfDay_mem ok some_ few
  rw [compose_eq, Timestamp.kMinRepresentableMs, Timestamp.kMaxRepresentableMs]
  omega

/-- The offset is more than the time since the first midnight of the window, or it takes the time past its last. -/
def CrossesEdge (c : CivilTime) (offsetMs : ℤ) : Prop :=
  c.ymd = ⟨0, 1, 1⟩ ∧ timeOfDay c < offsetMs ∨ c.ymd = ⟨9999, 12, 31⟩ ∧ kMsPerDay ≤ timeOfDay c - offsetMs

theorem crossesEdge_iff {c : CivilTime} {offsetMs : ℤ} (ok : c.ok = true) (low : 0 ≤ c.year) (high : c.year ≤ 9999)
    (some_ : 0 ≤ c.millisecond) (few : c.millisecond ≤ 999) (early : -86400000 < offsetMs) (late : offsetMs < 86400000) :
    CrossesEdge c offsetMs ↔ compose c - offsetMs < Timestamp.kMinRepresentableMs ∨
      Timestamp.kMaxRepresentableMs < compose c - offsetMs := by
  obtain ⟨first, last, only, only'⟩ := toDays_mem (valid_of_ok ok) low high
  obtain ⟨since, until_⟩ := timeOfDay_mem ok some_ few
  rw [CrossesEdge, compose_eq, Timestamp.kMinRepresentableMs, Timestamp.kMaxRepresentableMs, kMsPerDay, kMsPerSecond]
  constructor
  · rintro (⟨date, past⟩ | ⟨date, past⟩)
    · have day : (⟨0, 1, 1⟩ : CivilDate).toDays = -719528 := by decide
      rw [date, day]
      omega
    · have day : (⟨9999, 12, 31⟩ : CivilDate).toDays = 2932896 := by decide
      rw [date, day]
      omega
  · rintro (below | above)
    · exact .inl ⟨only (by omega), by omega⟩
    · exact .inr ⟨only' (by omega), by omega⟩

/-! ## Fields -/

/-- The digits that are read leave room for those to come: a digit of a place adds nine of its units at most. -/
theorem parseFraction_mem {text : Bytes} {read : ℕ} {scale ms : ℤ} (unit : read < 3 → scale = 10 ^ (2 - read))
    (some_ : 0 ≤ ms)
    (room : ms + 10 ^ (3 - read) ≤ 1000) :
    0 ≤ (parseFraction read scale ms text).1 ∧ (parseFraction read scale ms text).1 ≤ 999 := by
  have last : (1 : ℤ) ≤ 10 ^ (3 - read) := one_le_pow₀ (by decide)
  induction text generalizing read scale ms with
  | nil => exact ⟨some_, by rw [parseFraction]; omega⟩
  | cons c rest ih =>
    rw [parseFraction]
    split_ifs with digit few
    · have most := Decimal.value_le digit
      have places : 3 - read = 2 - read + 1 := by omega
      have place : (1 : ℤ) ≤ 10 ^ (2 - read) := one_le_pow₀ (by decide)
      have added : (Decimal.value c : ℤ) * 10 ^ (2 - read) ≤ 9 * 10 ^ (2 - read) :=
        mul_le_mul_of_nonneg_right (by exact_mod_cast most) (by omega)
      rw [unit few]
      rw [places, pow_succ] at room
      have next : 3 - (read + 1) = 2 - read := by omega
      apply ih
      · intro more
        have places : 2 - read = 2 - (read + 1) + 1 := by omega
        rw [places, pow_succ, Int.mul_ediv_cancel _ (by decide)]
      · exact add_nonneg some_ (mul_nonneg (by omega) (by omega))
      · rw [next]
        linarith
      · rw [next]
        exact place
    · have past : 3 - (read + 1) = 3 - read := by omega
      exact ih (fun few' => absurd few' (by omega)) some_ (by rw [past]; exact room) (by rw [past]; exact last)
    · exact ⟨some_, by omega⟩

theorem parseMillisecond_mem {text rest : Bytes} {millisecond : ℤ}
    (parsed : parseMillisecond text = some (millisecond, rest)) :
    0 ≤ millisecond ∧ millisecond ≤ 999 := by
  simp only [parseMillisecond] at parsed
  split_ifs at parsed
  · obtain ⟨rfl, rfl⟩ := Prod.mk.inj (Option.some.inj parsed)
    exact parseFraction_mem (fun _ => rfl) le_rfl (by decide)
  · obtain ⟨rfl, rfl⟩ := Prod.mk.inj (Option.some.inj parsed)
    decide

/-- An offset is less than a day. -/
theorem parseOffset_mem {text rest : Bytes} {offsetMs : ℤ} (parsed : parseOffset text = some (offsetMs, rest)) :
    -86400000 < offsetMs ∧ offsetMs < 86400000 := by
  match text with
  | [] => cases parsed
  | c :: digits =>
    rw [parseOffset] at parsed
    split at parsed
    · obtain ⟨rfl, rfl⟩ := Prod.mk.inj (Option.some.inj parsed)
      decide
    · split at parsed
      · simp only [Option.bind_eq_bind, Option.bind_eq_some_iff, kMsPerSecond] at parsed
        obtain ⟨oh, _, _, colon, om, _, _, bounds, made⟩ := parsed
        obtain ⟨hours, minutes⟩ := (Option.guard_eq_some' _).mp bounds
        obtain ⟨rfl, rfl⟩ := Prod.mk.inj (Option.some.inj made)
        split_ifs <;> omega
      · cases parsed

theorem parseDigits_lt {text : Bytes} {pos count number : ℕ} (parsed : parseDigits text pos count = some number) :
    number < 10 ^ count := by
  rw [parseDigits] at parsed
  split_ifs at parsed with long
  exact lt_of_lt_of_le (Decimal.read_lt parsed) (Nat.pow_le_pow_right (by decide) (List.length_take_le _ _))

theorem parseDateTimeFields_year {text : Bytes} {c : CivilTime} (parsed : Timestamp.parseDateTimeFields text = some c) :
    0 ≤ c.year ∧ c.year ≤ 9999 := by
  simp only [Timestamp.parseDateTimeFields, Option.bind_eq_bind, Option.bind_eq_some_iff, Option.pure_def] at parsed
  obtain ⟨year, digits, _, _, _, _, _, _, _, _, month, _, day, _, hour, _, minute, _, second, _, made⟩ := parsed
  have bound := parseDigits_lt digits
  obtain rfl := Option.some.inj made
  dsimp only
  omega

theorem parseHttpDateFields_mem {text : Bytes} {c : CivilTime} (parsed : Timestamp.parseHttpDateFields text = some c) :
    0 ≤ c.year ∧ c.year ≤ 9999 ∧ c.millisecond = 0 := by
  simp only [Timestamp.parseHttpDateFields, Option.bind_eq_bind, Option.bind_eq_some_iff, Option.pure_def] at parsed
  obtain ⟨_, _, _, _, _, _, _, _, day, _, year, digits, hour, _, minute, _, second, _, made⟩ := parsed
  have bound := parseDigits_lt digits
  obtain rfl := Option.some.inj made
  exact ⟨by dsimp only; omega, by dsimp only; omega, rfl⟩

/-! ## What is read -/

namespace Timestamp

/-- The civil time of a date-time and its offset from UTC. -/
def DateTimeReads (text : Bytes) (c : CivilTime) (offsetMs : ℤ) : Prop :=
  ∃ fields millisecond rest, parseDateTimeFields text = some fields ∧
    parseMillisecond (text.drop 19) = some (millisecond, rest) ∧
    parseOffset rest = some (offsetMs, []) ∧ c = { fields with millisecond } ∧ c.ok = true

theorem parseDateTime_eq_ok_iff {text : Bytes} {ts : Timestamp} : parseDateTime text = .ok ts ↔
    ∃ c offsetMs, DateTimeReads text c offsetMs ∧ ts = fromEpochMilliseconds (compose c - offsetMs) := by
  constructor
  · intro parsed
    rw [parseDateTime] at parsed
    cases fields : parseDateTimeFields text with
    | none =>
      rw [fields] at parsed
      cases parsed
    | some c =>
      cases fraction : parseMillisecond (text.drop 19) with
      | none =>
        simp only [fields, fraction, Option.bind_eq_bind, Option.bind_some, Option.bind_none] at parsed
        cases parsed
      | some more =>
        obtain ⟨millisecond, rest⟩ := more
        cases offset : parseOffset rest with
        | none =>
          simp only [fields, fraction, offset, Option.bind_eq_bind, Option.bind_some, Option.bind_none] at parsed
          cases parsed
        | some last =>
          obtain ⟨offsetMs, rest'⟩ := last
          simp only [fields, fraction, offset, Option.bind_eq_bind, Option.bind_some] at parsed
          by_cases checked : rest' = [] ∧ ({ c with millisecond } : CivilTime).ok = true
          · obtain ⟨rfl, ok⟩ := checked
            refine ⟨_, _, ⟨c, millisecond, rest, fields, fraction, offset, rfl, ok⟩, ?_⟩
            simp only [ok, and_self, guard_true, Option.bind_some, Option.pure_def] at parsed
            exact (Except.ok.inj parsed).symm
          · rw [guard, if_neg checked] at parsed
            cases parsed
  · rintro ⟨_, offsetMs, ⟨fields, millisecond, rest, columns, fraction, offset, rfl, ok⟩, rfl⟩
    simp only [parseDateTime, columns, fraction, offset, ok, and_self, guard_true, Option.bind_eq_bind, Option.bind_some,
      Option.pure_def, Option.elim_some]

/-- The instant of a date-time is in the window but for an offset that crosses one of its ends. -/
theorem representable_dateTime {text : Bytes} {c : CivilTime} {offsetMs : ℤ} (reads : DateTimeReads text c offsetMs) :
    (fromEpochMilliseconds (compose c - offsetMs)).Representable ↔ ¬ CrossesEdge c offsetMs := by
  obtain ⟨fields, millisecond, rest, columns, fraction, offset, rfl, ok⟩ := reads
  obtain ⟨low, high⟩ := parseDateTimeFields_year columns
  obtain ⟨some_, few⟩ := parseMillisecond_mem fraction
  obtain ⟨early, late⟩ := parseOffset_mem offset
  obtain ⟨first, last⟩ := compose_mem ok low high some_ few
  rw [crossesEdge_iff ok low high some_ few early late]
  simp only [kMinRepresentableMs, kMaxRepresentableMs] at first last
  rw [Representable, fromEpochMilliseconds, Int64.toInt_ofInt_of_le (by omega) (by omega), not_or, not_lt, not_lt]

/-- An http-date that is read is that of its fields. -/
theorem of_parseHttpDate {text : Bytes} {ts : Timestamp} (parsed : parseHttpDate text = .ok ts) :
    ∃ c, parseHttpDateFields text = some c ∧ c.ok = true ∧ ts.ms.toInt = compose c ∧ ts.Representable := by
  rw [parseHttpDate] at parsed
  cases fields : parseHttpDateFields text with
  | none =>
    rw [fields] at parsed
    cases parsed
  | some c =>
    obtain ⟨low, high, whole⟩ := parseHttpDateFields_mem fields
    simp only [fields, Option.bind_eq_bind, Option.bind_some] at parsed
    by_cases checked : c.month ≠ 0 ∧ c.ok = true
    · by_cases weekday : kWeekdays[weekdayIndex (epochDays c)]? = some (text.substr 0 3)
      · rw [guard, if_pos checked, guard, if_pos weekday] at parsed
        obtain rfl : fromEpochMilliseconds (compose c) = ts := Except.ok.inj parsed
        obtain ⟨first, last⟩ := compose_mem checked.2 low high (by omega) (by omega)
        simp only [kMinRepresentableMs, kMaxRepresentableMs] at first last
        have kept : (fromEpochMilliseconds (compose c)).ms.toInt = compose c := Int64.toInt_ofInt_of_le (by omega) (by omega)
        refine ⟨c, rfl, checked.2, kept, ?_⟩
        rw [Representable, kept]
        exact ⟨first, last⟩
      · rw [guard, if_pos checked, guard, if_neg weekday] at parsed
        cases parsed
    · rw [guard, if_neg checked] at parsed
      cases parsed

/-- What is read is in the window, and comes back from the date-time it is written as, if and only if it is not a
date-time whose offset crosses an end of the window. -/
theorem parsed_in_window (format : TimestampFormat) (text : Bytes) (calendar : Calendar) :
    (∀ ts, parse text format = .ok ts → ts.Representable ∧ parse (ts.format .dateTime calendar) .dateTime = .ok ts) ↔
      ¬ (format = .dateTime ∧ ∃ c offsetMs, DateTimeReads text c offsetMs ∧ CrossesEdge c offsetMs) := by
  constructor
  · rintro window ⟨rfl, c, offsetMs, reads, crosses⟩
    exact (representable_dateTime reads).mp (window _ (parseDateTime_eq_ok_iff.mpr ⟨c, offsetMs, reads, rfl⟩)).1 crosses
  · intro within ts parsed
    have window : ts.Representable := by
      cases format with
      | epochSeconds =>
        simp only [parse, parseEpochSeconds] at parsed
        generalize (if text.head? = some '-'.toUInt8 then text.tail else text) = rest at parsed
        split_ifs at parsed
        exact representable_of_fromEpochSecondsChecked parsed
      | dateTime =>
        obtain ⟨c, offsetMs, reads, rfl⟩ := parseDateTime_eq_ok_iff.mp parsed
        exact (representable_dateTime reads).mpr fun crosses => within ⟨rfl, c, offsetMs, reads, crosses⟩
      | httpDate =>
        obtain ⟨_, _, _, _, within⟩ := of_parseHttpDate parsed
        exact within
    exact ⟨window, parse_format_dateTime window⟩

/-- The first midnight of the window, an hour ahead of UTC. -/
theorem parsed_before_window : ¬ ∀ (format : TimestampFormat) (text : Bytes) (ts : Timestamp), parse text format = .ok ts →
    ts.Representable ∧ parse (ts.format .dateTime) .dateTime = .ok ts := by
  intro all
  have read : parse (ascii "0000-01-01T00:00:00+01:00") .dateTime = .ok ⟨-62167222800000⟩ := by rfl
  obtain ⟨⟨low, _⟩, _⟩ := all .dateTime _ _ read
  exact absurd low (by decide)

end Timestamp

end OpalCpp

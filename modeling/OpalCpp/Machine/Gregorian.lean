import Mathlib.Data.Int.Basic
import Mathlib.Tactic.Linarith

/-! # The proleptic Gregorian calendar

Dates and days since the first of January 1970. Years are counted from March here, so that the day
a leap year has more comes last: a date is a number of whole cycles of four centuries, a year of the
cycle and a day of the year, and a cycle is four centuries of twenty-five times four years.
-/

namespace OpalCpp

structure CivilDate where
  year : ℤ
  month : ℕ
  day : ℕ
deriving DecidableEq, Repr

namespace CivilDate

def isLeap (year : ℤ) : Bool := year % 4 = 0 && (year % 100 ≠ 0 || year % 400 = 0)

def lastDay (year : ℤ) (month : ℕ) : ℕ :=
  if month = 2 then if isLeap year then 29 else 28
  else if month = 4 ∨ month = 6 ∨ month = 9 ∨ month = 11 then 30 else 31

/-- The date exists. -/
def Valid (date : CivilDate) : Prop :=
  1 ≤ date.month ∧ date.month ≤ 12 ∧ 1 ≤ date.day ∧ date.day ≤ lastDay date.year date.month

instance (date : CivilDate) : Decidable date.Valid := inferInstanceAs (Decidable (_ ∧ _))

/-- The days of a year from March on, before a month of it. -/
def daysBefore (month : ℤ) : ℤ := (153 * month + 2) / 5

/-- The days from the first of March of the year 0 to the first of January 1970. -/
def epoch : ℤ := 719468

/-- The days since the epoch. -/
def toDays (date : CivilDate) : ℤ :=
  let year := if date.month ≤ 2 then date.year - 1 else date.year
  let month : ℤ := if date.month ≤ 2 then date.month + 9 else date.month - 3
  365 * year + year / 4 - year / 100 + year / 400 + daysBefore month + date.day - 1 - epoch

/-- The date so many days after the epoch. -/
def ofDays (days : ℤ) : CivilDate :=
  let cycle := (days + epoch) / 146097
  let ofCycle := (days + epoch) % 146097
  -- The last century of a cycle and the last year of four have a day more than the others.
  let century := min 3 (ofCycle / 36524)
  let ofCentury := ofCycle - 36524 * century
  let four := ofCentury / 1461
  let year := min 3 (ofCentury % 1461 / 365)
  let day := ofCentury % 1461 - 365 * year
  let month := (5 * day + 2) / 153
  let marchYear := 400 * cycle + 100 * century + 4 * four + year
  { year := if month < 10 then marchYear else marchYear + 1
    month := if month < 10 then (month + 3).toNat else (month - 9).toNat
    day := (day - daysBefore month + 1).toNat }

/-- The day of the week, from Sunday on; the epoch is a Thursday. -/
def weekday (days : ℤ) : ℕ := ((days + 4) % 7).toNat

/-- A day of a cycle, by its century, its four years, its year and its day. -/
theorem cycle_split {ofCycle : ℤ} (low : 0 ≤ ofCycle) (high : ofCycle < 146097) :
    let century := min 3 (ofCycle / 36524)
    let ofCentury := ofCycle - 36524 * century
    let four := ofCentury / 1461
    let year := min 3 (ofCentury % 1461 / 365)
    let day := ofCentury % 1461 - 365 * year
    0 ≤ century ∧ century ≤ 3 ∧ 0 ≤ four ∧ four ≤ 24 ∧ 0 ≤ year ∧ year ≤ 3 ∧ 0 ≤ day ∧
      ofCycle = 36524 * century + 1461 * four + 365 * year + day ∧
      (day ≤ 364 ∨ day = 365 ∧ year = 3 ∧ (four ≤ 23 ∨ century = 3)) := by
  intro century ofCentury four year day
  have hc : century = min 3 (ofCycle / 36524) := rfl
  have ho : ofCentury = ofCycle - 36524 * century := rfl
  have hf : four = ofCentury / 1461 := rfl
  have hy : year = min 3 (ofCentury % 1461 / 365) := rfl
  have hd : day = ofCentury % 1461 - 365 * year := rfl
  clear_value century ofCentury four year day
  omega

/-- A month of a year from March on holds the days that are not before it. -/
theorem month_split {day : ℤ} (low : 0 ≤ day) (high : day ≤ 365) :
    let month := (5 * day + 2) / 153
    0 ≤ month ∧ month ≤ 11 ∧ daysBefore month ≤ day ∧
      (month < 11 → day < daysBefore (month + 1)) := by
  intro month
  simp only [daysBefore]
  omega

/-- A date with its parts: the whole cycles, the whole centuries, the whole four years and the whole
years before it, the days of its year before it, and its month of that year. -/
theorem ofDays_split (days : ℤ) : ∃ cycle century four year day month : ℤ,
    days + epoch = 146097 * cycle + 36524 * century + 1461 * four + 365 * year + day ∧
      (0 ≤ century ∧ century ≤ 3) ∧ (0 ≤ four ∧ four ≤ 24) ∧ (0 ≤ year ∧ year ≤ 3) ∧
      (0 ≤ day ∧ (day ≤ 364 ∨ day = 365 ∧ year = 3 ∧ (four ≤ 23 ∨ century = 3))) ∧
      (0 ≤ month ∧ month ≤ 11 ∧ daysBefore month ≤ day ∧ (month < 11 → day < daysBefore (month + 1))) ∧
      ofDays days = {
        year := if month < 10 then 400 * cycle + 100 * century + 4 * four + year
          else 400 * cycle + 100 * century + 4 * four + year + 1
        month := if month < 10 then (month + 3).toNat else (month - 9).toNat
        day := (day - daysBefore month + 1).toNat } := by
  have whole : days + epoch = 146097 * ((days + epoch) / 146097) + (days + epoch) % 146097 :=
    (Int.mul_ediv_add_emod _ _).symm
  obtain ⟨noCentury, fewCenturies, noFour, fewFours, noYear, fewYears, noDay, sum, fewDays⟩ :=
    cycle_split (Int.emod_nonneg (days + epoch) (by decide)) (Int.emod_lt_of_pos (days + epoch) (by decide))
  refine ⟨_, _, _, _, _, _, ?_, ⟨noCentury, fewCenturies⟩, ⟨noFour, fewFours⟩, ⟨noYear, fewYears⟩,
    ⟨noDay, fewDays⟩, month_split noDay (by omega), rfl⟩
  linarith

theorem toDays_ofDays (days : ℤ) : (ofDays days).toDays = days := by
  obtain ⟨cycle, century, four, year, day, month, sum, centuries, fours, years, extra, months, made⟩ := ofDays_split days
  rw [made, toDays]
  simp only [daysBefore] at *
  by_cases early : month < 10
  · simp only [if_pos early]
    have late : ¬ (month + 3).toNat ≤ 2 := by omega
    simp only [if_neg late]
    omega
  · simp only [if_neg early]
    have soon : (month - 9).toNat ≤ 2 := by omega
    simp only [if_pos soon]
    omega

/-- A year of the cycle that is its last of four, and not the last of a century but the fourth one. -/
theorem isLeap_of_parts {cycle century four : ℤ} (fours : 0 ≤ four ∧ four ≤ 24)
    (last : four ≤ 23 ∨ century = 3) :
    isLeap (400 * cycle + 100 * century + 4 * four + 3 + 1) = true := by
  simp only [isLeap, Bool.and_eq_true, Bool.or_eq_true, decide_eq_true_eq]
  constructor
  · omega
  · obtain few | fourth := last
    · exact .inl (by omega)
    · by_cases end_ : four = 24
      · exact .inr (by omega)
      · exact .inl (by omega)

theorem valid_ofDays (days : ℤ) : (ofDays days).Valid := by
  obtain ⟨cycle, century, four, year, day, month, sum, centuries, fours, years, extra, months, made⟩ := ofDays_split days
  have february (leap : day = 365) : isLeap (400 * cycle + 100 * century + 4 * four + year + 1) = true := by
    obtain ⟨_, few | ⟨_, third, last⟩⟩ := extra
    · omega
    · rw [third]
      exact isLeap_of_parts fours last
  obtain ⟨low, high, from_, until_⟩ := months
  rw [made]
  simp only [Valid, lastDay]
  simp only [daysBefore] at *
  obtain early | rfl | rfl : month < 10 ∨ month = 10 ∨ month = 11 := by omega
  · have named : ∃ m : ℕ, (month + 3).toNat = m + 3 ∧ month = m := ⟨month.toNat, by omega, by omega⟩
    obtain ⟨m, named, rfl⟩ := named
    simp only [if_pos early, named]
    have : m < 10 := by omega
    refine ⟨by omega, by omega, by omega, ?_⟩
    rw [if_neg (by omega)]
    split_ifs with short
    · omega
    · omega
  · have first : ((10 : ℤ) - 9).toNat = 1 := rfl
    have late : ¬ (10 : ℤ) < 10 := by decide
    simp only [if_neg late, first]
    rw [if_neg (by decide), if_neg (by decide)]
    omega
  · have second : ((11 : ℤ) - 9).toNat = 2 := rfl
    have late : ¬ (11 : ℤ) < 10 := by decide
    simp only [if_neg late, second, if_true]
    split_ifs with leap
    · omega
    · have short : day ≠ 365 := fun last => leap (february last)
      omega

end CivilDate

end OpalCpp

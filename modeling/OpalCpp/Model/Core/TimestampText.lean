import Mathlib.Data.List.DropRight
import OpalCpp.Machine.Decimal
import OpalCpp.Machine.Gregorian
import OpalCpp.Model.Core.Bytes
import OpalCpp.Model.Core.Timestamp

/-! # Timestamps as text

The three text formats of a timestamp and their parsers. `std::chrono`'s civil calendar is the
proleptic Gregorian one as long as a `std::chrono::year` holds the year. The arithmetic of the parsers,
which know years of four digits only, comes nowhere near the bounds of the source's types; that of
`decompose` wraps.
-/

namespace OpalCpp

open Bytes (ascii)

def kMsPerSecond : ℤ := 1000
def kMsPerDay : ℤ := 86400 * kMsPerSecond

def kWeekdays : List Bytes :=
  [ascii "Sun", ascii "Mon", ascii "Tue", ascii "Wed", ascii "Thu", ascii "Fri", ascii "Sat"]

def kMonths : List Bytes :=
  [ascii "Jan", ascii "Feb", ascii "Mar", ascii "Apr", ascii "May", ascii "Jun",
    ascii "Jul", ascii "Aug", ascii "Sep", ascii "Oct", ascii "Nov", ascii "Dec"]

structure CivilTime where
  year : ℤ := 1970
  month : ℕ := 1
  day : ℕ := 1
  hour : ℤ := 0
  minute : ℤ := 0
  second : ℤ := 0
  millisecond : ℤ := 0

namespace CivilTime

def ymd (c : CivilTime) : CivilDate := ⟨c.year, c.month, c.day⟩

/-- False for out-of-range fields, the day of the month against leap years included. -/
def ok (c : CivilTime) : Bool :=
  c.ymd.Valid && 0 ≤ c.hour && c.hour ≤ 23 && 0 ≤ c.minute && c.minute ≤ 59 && 0 ≤ c.second && c.second ≤ 59

end CivilTime

def floorDiv (a b : ℤ) : ℤ :=
  a.tdiv b - if a.tmod b ≠ 0 ∧ ((decide (a < 0)) != decide (b < 0)) then 1 else 0

def epochDays (c : CivilTime) : ℤ := c.ymd.toDays

/-- `std::chrono::year_month_day` of a day. A `std::chrono::year` has 16 bits, of which the least number is
none; what the date is where they do not hold the year of the day, the standard leaves open. -/
structure Calendar where
  ofDays : ℤ → CivilDate
  gregorian : ∀ days, -32767 ≤ (CivilDate.ofDays days).year → (CivilDate.ofDays days).year ≤ 32767 →
    ofDays days = CivilDate.ofDays days

/-- The calendar that keeps the low bits of the year, as the constructor of `std::chrono::year` does. -/
def Calendar.narrow : Calendar where
  ofDays days := { CivilDate.ofDays days with year := (Int16.ofInt (CivilDate.ofDays days).year).toInt }
  gregorian days low high := by
    rw [Int16.toInt_ofInt_of_le (by omega) (by omega)]

def decompose (ms : Int64) (calendar : Calendar := .narrow) : CivilTime :=
  let days := floorDiv ms.toInt kMsPerDay
  -- On the first day of all the product leaves the 64 bits, and the difference brings it back.
  let msOfDay := (ms - Int64.ofInt days * Int64.ofInt kMsPerDay).toInt
  let ymd := calendar.ofDays days
  let msOfHour := msOfDay.tmod (3600 * kMsPerSecond)
  let msOfMinute := msOfHour.tmod (60 * kMsPerSecond)
  { year := ymd.year
    month := ymd.month
    day := ymd.day
    hour := msOfDay.tdiv (3600 * kMsPerSecond)
    minute := msOfHour.tdiv (60 * kMsPerSecond)
    second := msOfMinute.tdiv kMsPerSecond
    millisecond := msOfMinute.tmod kMsPerSecond }

def compose (c : CivilTime) : ℤ :=
  epochDays c * kMsPerDay + (c.hour * 3600 + c.minute * 60 + c.second) * kMsPerSecond + c.millisecond

/-- 0 is Sunday, as in `kWeekdays`. -/
def weekdayIndex (days : ℤ) : ℕ := CivilDate.weekday days

/-- `%0wd` of `snprintf`: the sign is one of the width. -/
def printed (width : ℕ) (number : ℤ) : Bytes :=
  if number < 0 then '-'.toUInt8 :: Decimal.zeroPadded (width - 1) number.natAbs
  else Decimal.zeroPadded width number.natAbs

/-- The fraction without its trailing zeros, or nothing when there is none. -/
def appendFraction (ms : ℤ) : Bytes :=
  if ms = 0 then [] else (ascii "." ++ printed 3 ms).rdropWhile (· == '0'.toUInt8)

def parseDigits (text : Bytes) (pos count : ℕ) : Option ℕ :=
  if text.length < pos + count then none else Decimal.read (text.substr pos count)

/-- The digits after the point: of the first three the milliseconds, with how many there are and what
follows them. -/
def parseFraction (read : ℕ) (scale ms : ℤ) : Bytes → ℤ × ℕ × Bytes
  | c :: rest =>
    if Decimal.isDigit c then
      if read < 3 then parseFraction (read + 1) (scale / 10) (ms + Decimal.value c * scale) rest
      else parseFraction (read + 1) scale ms rest
    else (ms, read, c :: rest)
  | [] => (ms, read, [])

/-- The fraction, if there is one, and what follows it. -/
def parseMillisecond (text : Bytes) : Option (ℤ × Bytes) :=
  if text.head? = some '.'.toUInt8 then
    let (ms, read, rest) := parseFraction 0 100 0 text.tail
    if read = 0 then none else some (ms, rest)
  else some (0, text)

/-- The offset from UTC in milliseconds, and what follows it. -/
def parseOffset (text : Bytes) : Option (ℤ × Bytes) :=
  match text with
  | c :: rest =>
    if c = 'Z'.toUInt8 ∨ c = 'z'.toUInt8 then some (0, rest)
    else if c = '+'.toUInt8 ∨ c = '-'.toUInt8 then do
      let oh ← parseDigits text 1 2
      guard (text[3]? = some ':'.toUInt8)
      let om ← parseDigits text 4 2
      guard (oh ≤ 23 ∧ om ≤ 59)
      let offsetMs := ((oh : ℤ) * 3600 + om * 60) * kMsPerSecond
      some (if c = '-'.toUInt8 then -offsetMs else offsetMs, text.drop 6)
    else none
  | [] => none

namespace Timestamp

/-- `FromEpochMilliseconds`. -/
def fromEpochMilliseconds (ms : ℤ) : Timestamp := ⟨Int64.ofInt ms⟩

/-- The fields of a date-time in their columns. -/
def parseDateTimeFields (text : Bytes) : Option CivilTime := do
  let year ← parseDigits text 0 4
  guard (20 ≤ text.length)
  guard (text[4]? = some '-'.toUInt8 ∧ text[7]? = some '-'.toUInt8)
  guard (text[10]? = some 'T'.toUInt8 ∨ text[10]? = some 't'.toUInt8)
  guard (text[13]? = some ':'.toUInt8 ∧ text[16]? = some ':'.toUInt8)
  let month ← parseDigits text 5 2
  let day ← parseDigits text 8 2
  let hour ← parseDigits text 11 2
  let minute ← parseDigits text 14 2
  let second ← parseDigits text 17 2
  return { year, month, day, hour, minute, second }

def parseDateTime (text : Bytes) : Outcome Timestamp :=
  let parsed := do
    let c ← parseDateTimeFields text
    let (millisecond, rest) ← parseMillisecond (text.drop 19)
    let (offsetMs, rest) ← parseOffset rest
    let c := { c with millisecond }
    guard (rest = [] ∧ c.ok)
    return fromEpochMilliseconds (compose c - offsetMs)
  parsed.elim (.error (.Serialization ("timestamp: invalid date-time: " ++ text.text))) .ok

/-- The fields of an IMF-fixdate in their columns; the month by its name, 0 where there is none. -/
def parseHttpDateFields (text : Bytes) : Option CivilTime := do
  guard (text.length = 29)
  guard (text.substr 3 2 = ascii ", " ∧ text[7]? = some ' '.toUInt8 ∧ text[11]? = some ' '.toUInt8)
  guard (text[16]? = some ' '.toUInt8 ∧ text[19]? = some ':'.toUInt8 ∧ text[22]? = some ':'.toUInt8)
  guard (text.drop 25 = ascii " GMT")
  let day ← parseDigits text 5 2
  let year ← parseDigits text 12 4
  let hour ← parseDigits text 17 2
  let minute ← parseDigits text 20 2
  let second ← parseDigits text 23 2
  let month := (kMonths.findIdx? (· = text.substr 8 3)).elim 0 (· + 1)
  return { year, month, day, hour, minute, second }

def parseHttpDate (text : Bytes) : Outcome Timestamp :=
  let parsed := do
    let c ← parseHttpDateFields text
    guard (c.month ≠ 0 ∧ c.ok)
    guard (kWeekdays[weekdayIndex (epochDays c)]? = some (text.substr 0 3))
    return fromEpochMilliseconds (compose c)
  parsed.elim (.error (.Serialization ("timestamp: invalid http-date: " ++ text.text))) .ok

/-- The loop over `digits[.digits]`, with what it has seen: a point, digits before it, digits after it. -/
def isEpochSeconds (seenDot before after : Bool) : Bytes → Bool
  | c :: rest =>
    if Decimal.isDigit c then
      if seenDot then isEpochSeconds seenDot before true rest else isEpochSeconds seenDot true after rest
    else if c = '.'.toUInt8 ∧ !seenDot then isEpochSeconds true before after rest
    else false
  | [] => before && (!seenDot || after)

/-- `std::strtod` of `[-]digits[.digits]`: the double nearest to the number, and whether `errno` is
`ERANGE` for it, being too large or too small to be rounded to the full precision. -/
def strtod (text : Bytes) : Binary64 × Bool :=
  let negative := text.head? = some '-'.toUInt8
  let digits := if negative then text.tail else text
  let fraction := (digits.dropWhile Decimal.isDigit).tail
  let exact_ : ℚ := ((Decimal.read (digits.takeWhile Decimal.isDigit ++ fraction)).getD 0 : ℚ) / 10 ^ fraction.length
  let nearest := Binary64.nearest exact_
  let range := match nearest.value? with
    | none => true
    | some value => value < 2 ^ (-1022 : ℤ) && value ≠ exact_
  (if negative then nearest.neg else nearest, range)

def parseEpochSeconds (text : Bytes) : Outcome Timestamp :=
  let invalid : Outcome Timestamp := .error (.Serialization ("timestamp: invalid epoch-seconds: " ++ text.text))
  let rest := if text.head? = some '-'.toUInt8 then text.tail else text
  if isEpochSeconds false false false rest then
    let (seconds, range) := strtod text
    if range then invalid else fromEpochSecondsChecked seconds
  else invalid

def format (ts : Timestamp) (format : TimestampFormat) (calendar : Calendar := .narrow) : Bytes :=
  match format with
  | .epochSeconds =>
    let magnitude := ts.ms.toInt.natAbs
    (if ts.ms.toInt < 0 then ascii "-" else []) ++ Decimal.decimal (magnitude / 1000) ++
      appendFraction (magnitude % 1000 : ℕ)
  | .dateTime =>
    let c := decompose ts.ms calendar
    printed 4 c.year ++ ascii "-" ++ printed 2 c.month ++ ascii "-" ++ printed 2 c.day ++ ascii "T" ++
      printed 2 c.hour ++ ascii ":" ++ printed 2 c.minute ++ ascii ":" ++ printed 2 c.second ++
      appendFraction c.millisecond ++ ascii "Z"
  | .httpDate =>
    let c := decompose ts.ms calendar
    let weekday := weekdayIndex (floorDiv ts.ms.toInt kMsPerDay)
    kWeekdays.getD weekday [] ++ ascii ", " ++ printed 2 c.day ++ ascii " " ++ kMonths.getD (c.month - 1) [] ++
      ascii " " ++ printed 4 c.year ++ ascii " " ++ printed 2 c.hour ++ ascii ":" ++ printed 2 c.minute ++
      ascii ":" ++ printed 2 c.second ++ ascii " GMT"

def parse (text : Bytes) : TimestampFormat → Outcome Timestamp
  | .epochSeconds => parseEpochSeconds text
  | .dateTime => parseDateTime text
  | .httpDate => parseHttpDate text

end Timestamp

end OpalCpp

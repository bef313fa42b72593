import Mathlib.Data.List.DropRight
import OpalCpp.Model.Core.Bytes
import OpalCpp.Model.Core.TimestampText

/-! # Requests and responses

Headers keep the names and values they are given, in order; names are compared without the case of
ASCII letters. Of the fields there are the lookups by name, the splitters of lists, the dates in the three spellings a
recipient accepts, and the checks of what a client puts on the wire.
-/

namespace OpalCpp.Http

open Bytes (ascii)

def asciiLower (c : UInt8) : UInt8 :=
  if 'A'.toUInt8 ≤ c ∧ c ≤ 'Z'.toUInt8 then c - 'A'.toUInt8 + 'a'.toUInt8 else c

def headerNameEquals (a b : Bytes) : Bool := a.map asciiLower = b.map asciiLower

structure Headers where
  entries : List (Bytes × Bytes) := []
deriving DecidableEq

namespace Headers

def add (headers : Headers) (name value : Bytes) : Headers := ⟨headers.entries ++ [(name, value)]⟩

def remove (headers : Headers) (name : Bytes) : Headers :=
  ⟨headers.entries.filter fun entry => !headerNameEquals entry.1 name⟩

/-- Replaces every existing value for the name. -/
def set (headers : Headers) (name value : Bytes) : Headers := (headers.remove name).add name value

end Headers

structure HttpRequest where
  method : Bytes := Bytes.ascii "GET"
  target : Bytes := Bytes.ascii "/"
  headers : Headers := {}
  body : Bytes := []
  peerAddress : Bytes := []
deriving DecidableEq

structure HttpResponse where
  status : ℤ := 200
  headers : Headers := {}
  body : Bytes := []
  /-- The operation whose route produced the response. -/
  operation : Bytes := []
deriving DecidableEq

/-! ## Lookups -/

namespace Headers

/-- The value of the first field of the name. -/
def get? (headers : Headers) (name : Bytes) : Option Bytes :=
  (headers.entries.find? fun entry => headerNameEquals entry.1 name).map Prod.snd

def getAll (headers : Headers) (name : Bytes) : List Bytes :=
  (headers.entries.filter fun entry => headerNameEquals entry.1 name).map Prod.snd

def has (headers : Headers) (name : Bytes) : Bool := (headers.get? name).isSome

end Headers

/-! ## Lists -/

def isBlank (c : UInt8) : Bool := c = ' '.toUInt8 || c = '\t'.toUInt8

/-- The loops that take blanks from the front and then from the back. -/
def trimSpaces (text : Bytes) : Bytes := (text.dropWhile isBlank).rdropWhile isBlank

def splitHeaderListValues (value : Bytes) : List Bytes := (value.splitOn ','.toUInt8).map trimSpaces

/-! ## Dates -/

def kAbbreviatedDays : List Bytes :=
  [ascii "Sun", ascii "Mon", ascii "Tue", ascii "Wed", ascii "Thu", ascii "Fri", ascii "Sat"]

def kFullDays : List Bytes :=
  [ascii "Sunday", ascii "Monday", ascii "Tuesday", ascii "Wednesday", ascii "Thursday", ascii "Friday",
    ascii "Saturday"]

def allDigits (text : Bytes) : Bool := text ≠ [] && text.all Decimal.isDigit

/-- The year of the reference by the format of the runtime; nothing where the instant has no year of
four digits. -/
def referenceYear (reference : Timestamp) (calendar : Calendar := .narrow) : Option ℕ :=
  let year := (reference.format .dateTime calendar).take 4
  if allDigits year then Decimal.read year else none

/-- A year more than fifty years ahead of the reference is the last one with these digits. -/
def resolveTwoDigitYear (twoDigits referenceYear : ℕ) : Bytes :=
  let year : ℤ := (referenceYear / 100 * 100 : ℕ) + twoDigits
  let year := if (referenceYear : ℤ) + 50 < year then year - 100 else year
  let text := (if year < 0 then ascii "-" else []) ++ Decimal.decimal year.natAbs
  List.replicate (4 - text.length) '0'.toUInt8 ++ text

/-- `Sunday, 06-Nov-94 08:49:37 GMT` as an IMF-fixdate. The day of the week is carried across, so that
the parser still checks it. -/
def rfc850AsFixdate (text : Bytes) (reference : Timestamp) (calendar : Calendar := .narrow) : Option Bytes := do
  guard (','.toUInt8 ∈ text)
  let day ← kFullDays.idxOf? (text.takeWhile (· ≠ ','.toUInt8))
  let rest : Bytes := (text.dropWhile (· ≠ ','.toUInt8)).tail
  guard (rest.length = 23 ∧ rest[0]? = some ' '.toUInt8 ∧ rest[3]? = some '-'.toUInt8 ∧ rest[7]? = some '-'.toUInt8)
  guard (rest[10]? = some ' '.toUInt8 ∧ rest.drop 19 = ascii " GMT")
  let dayOfMonth := rest.substr 1 2
  let month := rest.substr 4 3
  let twoDigitYear := rest.substr 8 2
  let timeOfDay := rest.substr 11 8
  guard (allDigits dayOfMonth ∧ allDigits twoDigitYear)
  let year ← referenceYear reference calendar
  let yearDigits ← Decimal.read twoDigitYear
  return kAbbreviatedDays.getD day [] ++ ascii ", " ++ dayOfMonth ++ ascii " " ++ month ++ ascii " " ++
    resolveTwoDigitYear yearDigits year ++ ascii " " ++ timeOfDay ++ ascii " GMT"

/-- `Sun Nov  6 08:49:37 1994` as an IMF-fixdate: the day of the month is padded with a space. -/
def asctimeAsFixdate (text : Bytes) : Option Bytes := do
  guard (text.length = 24 ∧ text[3]? = some ' '.toUInt8 ∧ text[7]? = some ' '.toUInt8)
  guard (text[10]? = some ' '.toUInt8 ∧ text[19]? = some ' '.toUInt8)
  let day ← kAbbreviatedDays.idxOf? (text.substr 0 3)
  let month := text.substr 4 3
  let timeOfDay := text.substr 11 8
  let year := text.substr 20 4
  let dayOfMonth := if text[8]? = some ' '.toUInt8 then ascii "0" ++ text.substr 9 1 else text.substr 8 2
  guard (allDigits dayOfMonth ∧ allDigits year)
  return kAbbreviatedDays.getD day [] ++ ascii ", " ++ dayOfMonth ++ ascii " " ++ month ++ ascii " " ++ year ++
    ascii " " ++ timeOfDay ++ ascii " GMT"

/-- The form a sender may produce comes first, and the two obsolete ones are rewritten to it. -/
def parseHttpDate (text : Bytes) (reference : Timestamp) (calendar : Calendar := .narrow) : Option Timestamp :=
  match Timestamp.parse text .httpDate with
  | .ok fixdate => some fixdate
  | .error _ => do
    let normalized ← (rfc850AsFixdate text reference calendar).or (asctimeAsFixdate text)
    (Timestamp.parse normalized .httpDate).toOption

/-! ## Checks -/

/-- Control bytes split or corrupt the line; a space and a colon corrupt the boundary of the name. -/
def validHeaderName (name : Bytes) : Bool :=
  name ≠ [] && name.all fun byte => !(byte ≤ 0x20 || byte = 0x7F || byte = ':'.toUInt8)

/-- A tab is legal within a value; no other control byte is. -/
def validHeaderValue (value : Bytes) : Bool :=
  value.all fun byte => byte = '\t'.toUInt8 || (0x20 ≤ byte && byte ≠ 0x7F)

/-- The name of the first field that must not be written. -/
def findUnsafeHeader (headers : Headers) : Option Bytes :=
  (headers.entries.find? fun entry => !validHeaderName entry.1 || !validHeaderValue entry.2).map Prod.fst

/-- A space and a control byte split or corrupt the request line. -/
def validRequestLineField (field : Bytes) : Bool := field.all fun byte => !(byte ≤ 0x20 || byte = 0x7F)

/-! ## Lookups and blanks -/

theorem has_eq_false {headers : Headers} {name : Bytes} :
    headers.has name = false ↔ ∀ field ∈ headers.entries, headerNameEquals field.1 name = false := by
  rw [Headers.has, Headers.get?, Option.isSome_map, ← Bool.not_eq_true, List.find?_isSome]
  simp

theorem trimSpaces_blank (text : Bytes) : trimSpaces (' '.toUInt8 :: text) = trimSpaces text := by
  rw [trimSpaces, trimSpaces, List.dropWhile_cons_of_pos (by decide)]

theorem trimSpaces_of_not_blank {text : Bytes} (without : ∀ c ∈ text, isBlank c = false) : trimSpaces text = text := by
  have front : text.dropWhile isBlank = text := by
    cases text with
    | nil => rfl
    | cons c text => rw [List.dropWhile_cons_of_neg (by simp [without c List.mem_cons_self])]
  rw [trimSpaces, front, List.rdropWhile_eq_self_iff]
  intro some_
  simp [without _ (List.getLast_mem some_)]

end OpalCpp.Http

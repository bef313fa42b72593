import OpalCpp.Machine.Decimal
import OpalCpp.Proofs.Json.Library

/-! # A JSON library

An implementation of what the codec relies on. A double is written with all of its digits, as an integer
and a power of ten.
-/

namespace OpalCpp.Json.Standard

open Bytes (ascii)
open Decimal (decimal isDigit)

/-! ## Numbers -/

/-- The magnitude of a finite double as an integer and a power of two, by the bits without the sign. -/
def binary (code : ℕ) : ℕ × ℤ :=
  if code < 2 ^ 52 then (code, -1074) else (2 ^ 52 + code % 2 ^ 52, (code / 2 ^ 52 : ℕ) - 1075)

/-- The same as an integer and a power of ten. -/
def scientific (code : ℕ) : ℕ × ℤ :=
  let (significand, exponent) := binary code
  if 0 ≤ exponent then (significand * 2 ^ exponent.toNat, 0) else (significand * 5 ^ (-exponent).toNat, exponent)

def printInt (value : ℤ) : Bytes := (if value < 0 then ['-'.toUInt8] else []) ++ decimal value.natAbs

def printNumber : Number → Bytes
  | .integer value => printInt value.toInt
  | .unsigned value => decimal value.toNat
  | .float value =>
    if value.value? = none then JsonText.null
    else
      let (digits, exponent) := scientific value.code
      (if value.isNegative then ['-'.toUInt8] else []) ++ decimal digits ++ 'e'.toUInt8 :: printInt exponent

/-- The digits at the front, of which there is one at least, and what follows them. -/
def digits (text : Bytes) : Option (Bytes × Bytes) :=
  if text.takeWhile isDigit = [] then none else some (text.takeWhile isDigit, text.dropWhile isDigit)

def readSign (text : Bytes) : Bool × Bytes :=
  if text.head? = some '-'.toUInt8 then (true, text.tail) else (false, text)

/-- The digits after a point, if there is one. -/
def readFraction (text : Bytes) : Option (Bytes × Bytes) :=
  if text.head? = some '.'.toUInt8 then digits text.tail else some ([], text)

/-- The exponent, if there is one. -/
def readExponent (text : Bytes) : Option (Option ℤ × Bytes) :=
  if text.head? = some 'e'.toUInt8 ∨ text.head? = some 'E'.toUInt8 then do
    let (negative, rest) := readSign text.tail
    let rest := if rest.head? = some '+'.toUInt8 ∧ !negative then rest.tail else rest
    let (exponent, rest) ← digits rest
    let value ← Decimal.read exponent
    return (some (if negative then -(value : ℤ) else value), rest)
  else some (none, text)

/-- The double nearest to a number with a sign, unless it is infinite. -/
def toFloat (negative : Bool) (magnitude : ℚ) : Option Number :=
  if Binary64.nearestCode magnitude < 2047 * 2 ^ 52 then
    some (.float ⟨UInt64.ofNat (Binary64.nearestCode magnitude + if negative then 2 ^ 63 else 0)⟩)
  else none

/-- A number with neither a fraction nor an exponent, if it fits. -/
def toInteger (negative : Bool) (value : ℕ) : Option Number :=
  if negative then if value ≤ 2 ^ 63 then some (.integer (Int64.ofInt (-value))) else none
  else if value < 2 ^ 64 then some (.unsigned (UInt64.ofNat value)) else none

/-- A number without its sign. -/
def readMagnitude (negative : Bool) (text : Bytes) : Option Number := do
  let (whole, rest) ← digits text
  guard (whole.head? = some '0'.toUInt8 → whole.length = 1)
  let (fraction, rest) ← readFraction rest
  let (exponent, rest) ← readExponent rest
  guard (rest = [])
  let value ← Decimal.read (whole ++ fraction)
  let magnitude : ℚ := value * 10 ^ (exponent.getD 0 - fraction.length)
  if fraction = [] ∧ exponent = none then (toInteger negative value).orElse fun _ => toFloat negative magnitude
  else toFloat negative magnitude

def readNumber (text : Bytes) : Option Number := readMagnitude (readSign text).1 (readSign text).2

theorem digits_decimal (number : ℕ) (rest : Bytes) (stops : ∀ c ∈ rest.head?, isDigit c = false) :
    digits (decimal number ++ rest) = some (decimal number, rest) := by
  have all : ∀ c ∈ decimal number, isDigit c = true := Decimal.isDigit_of_mem_decimal
  have taken : (decimal number ++ rest).takeWhile isDigit = decimal number := by
    rw [List.takeWhile_append_of_pos all]
    cases rest with
    | nil => simp
    | cons c rest => rw [List.takeWhile_cons_of_neg (by simp [stops c rfl]), List.append_nil]
  have left : (decimal number ++ rest).dropWhile isDigit = rest := by
    rw [List.dropWhile_append_of_pos all]
    cases rest with
    | nil => rfl
    | cons c rest => rw [List.dropWhile_cons_of_neg (by simp [stops c rfl])]
  rw [digits, taken, left, if_neg (Decimal.decimal_ne_nil number)]

/-- The first byte of a number is a digit. -/
theorem exists_decimal_cons (number : ℕ) : ∃ first rest, decimal number = first :: rest ∧ isDigit first = true := by
  obtain ⟨first, rest, spelled⟩ := List.exists_cons_of_ne_nil (Decimal.decimal_ne_nil number)
  exact ⟨first, rest, spelled, Decimal.isDigit_of_mem_decimal first (by rw [spelled]; exact List.mem_cons_self)⟩

def sign (negative : Bool) : Bytes := if negative then ['-'.toUInt8] else []

theorem readSign_sign (negative : Bool) (number : ℕ) (rest : Bytes) :
    readSign (sign negative ++ (decimal number ++ rest)) = (negative, decimal number ++ rest) := by
  cases negative with
  | true => rfl
  | false =>
    obtain ⟨first, more, spelled, isFirst⟩ := exists_decimal_cons number
    rw [sign, if_neg Bool.false_ne_true, List.nil_append, spelled, readSign, if_neg]
    intro same
    rw [Option.some.inj same] at isFirst
    cases isFirst

theorem printInt_eq (value : ℤ) : printInt value = sign (decide (value < 0)) ++ decimal value.natAbs := by
  rw [printInt, sign]
  by_cases negative : value < 0 <;> simp [negative]

/-- No number starts with a zero that is not all of it. -/
theorem guard_decimal (number : ℕ) :
    (guard ((decimal number).head? = some '0'.toUInt8 → (decimal number).length = 1) : Option Unit) = some () := by
  rw [guard, if_pos]
  · rfl
  intro zero
  obtain rfl | positive := Nat.eq_zero_or_pos number
  · rfl
  · exact absurd zero (Decimal.head?_decimal_ne positive)

theorem readMagnitude_integer (negative : Bool) (number : ℕ) : readMagnitude negative (decimal number) =
    (toInteger negative number).orElse fun _ => toFloat negative (number * 10 ^ (0 : ℤ)) := by
  have front := digits_decimal number [] (fun c isFirst => nomatch isFirst)
  rw [List.append_nil] at front
  have noFraction : readFraction [] = some ([], []) := rfl
  have noExponent : readExponent [] = some (none, []) := rfl
  rw [readMagnitude, front]
  simp only [Option.bind_eq_bind, Option.bind_some, guard_decimal, noFraction, noExponent, List.append_nil,
    Decimal.read_decimal]
  simp [guard]

theorem readMagnitude_scientific (negative : Bool) (number : ℕ) {exponent : ℤ} (small : exponent ≤ 0) :
    readMagnitude negative (decimal number ++ 'e'.toUInt8 :: printInt exponent) =
      toFloat negative (number * 10 ^ exponent) := by
  have front := digits_decimal number ('e'.toUInt8 :: printInt exponent)
    (fun c isFirst => by rw [← Option.some.inj isFirst]; rfl)
  have back := digits_decimal exponent.natAbs [] (fun c isFirst => nomatch isFirst)
  have power : readExponent ('e'.toUInt8 :: printInt exponent) = some (some exponent, []) := by
    have signed := readSign_sign (decide (exponent < 0)) exponent.natAbs []
    rw [List.append_nil] at signed back
    obtain ⟨first, more, spelled, isFirst⟩ := exists_decimal_cons exponent.natAbs
    have noPlus : ¬ ((decimal exponent.natAbs).head? = some '+'.toUInt8 ∧ (!decide (exponent < 0)) = true) := by
      rintro ⟨plus, _⟩
      rw [spelled] at plus
      rw [Option.some.inj plus] at isFirst
      cases isFirst
    rw [readExponent, if_pos (.inl rfl), List.tail_cons, printInt_eq, signed]
    simp only [if_neg noPlus, back, Option.bind_eq_bind, Option.bind_some, Decimal.read_decimal, Option.pure_def,
      decide_eq_true_eq]
    split_ifs with less
    · rw [Int.ofNat_natAbs_of_nonpos small, neg_neg]
    · rw [Int.natAbs_of_nonneg (not_lt.mp less)]
  rw [readMagnitude, front]
  have noPoint : ¬ ('e'.toUInt8 :: printInt exponent).head? = some '.'.toUInt8 :=
    fun same => absurd (Option.some.inj same) (by decide)
  simp only [Option.bind_eq_bind, Option.bind_some, guard_decimal, readFraction, if_neg noPoint, power, List.append_nil,
    Decimal.read_decimal]
  simp [guard]

theorem magnitude_eq_binary (code : ℕ) : Binary64.magnitude code = (binary code).1 * 2 ^ (binary code).2 := by
  rw [Binary64.magnitude, binary]
  split_ifs <;> rfl

theorem magnitude_eq_scientific (code : ℕ) :
    Binary64.magnitude code = (scientific code).1 * 10 ^ (scientific code).2 ∧ (scientific code).2 ≤ 0 := by
  rw [magnitude_eq_binary, scientific]
  generalize binary code = parts
  obtain ⟨significand, exponent⟩ := parts
  dsimp only
  split_ifs with nonneg
  · obtain ⟨shift, rfl⟩ := Int.eq_ofNat_of_zero_le nonneg
    simp
  · obtain ⟨shift, rfl⟩ : ∃ shift : ℕ, exponent = -shift := ⟨(-exponent).toNat, by omega⟩
    refine ⟨?_, by omega⟩
    have ten : (10 : ℚ) ^ shift = 5 ^ shift * 2 ^ shift := by rw [← mul_pow]; norm_num
    have five : (5 : ℚ) ^ shift ≠ 0 := pow_ne_zero _ (by norm_num)
    rw [neg_neg, Int.toNat_natCast, zpow_neg, zpow_neg, zpow_natCast, zpow_natCast, ten, mul_inv]
    push_cast
    rw [mul_assoc, mul_inv_cancel_left₀ five]

/-- A number that the parser may give. -/
def Parsed : Number → Prop
  | .integer value => value < 0
  | .unsigned _ => True
  | .float value => value.value? ≠ none

theorem toFloat_code {value : Binary64} (finite : value.code < 2047 * 2 ^ 52) :
    toFloat value.isNegative (Binary64.magnitude value.code) = some (.float value) := by
  have bits := Binary64.bits_eq finite
  have code := Binary64.nearestCode_magnitude finite
  rw [toFloat, if_pos (by rw [code]; exact finite)]
  obtain ⟨bits'⟩ := value
  rw [← bits]

theorem readNumber_printNumber {number : Number} (parsed : Parsed number) :
    readNumber (printNumber number) = some number := by
  cases number with
  | integer value =>
    have negative : value.toInt < 0 := Int64.lt_iff_toInt_lt.mp parsed
    have least := value.le_toInt
    have signed := readSign_sign true value.toInt.natAbs []
    rw [List.append_nil] at signed
    rw [printNumber, printInt_eq, decide_eq_true negative, readNumber, signed]
    dsimp only
    rw [readMagnitude_integer, toInteger, if_pos rfl, if_pos (by omega), Int.ofNat_natAbs_of_nonpos negative.le, neg_neg,
      Int64.ofInt_toInt]
    rfl
  | unsigned value =>
    have signed := readSign_sign false value.toNat []
    rw [List.append_nil, sign, if_neg Bool.false_ne_true, List.nil_append] at signed
    rw [printNumber, readNumber, signed]
    dsimp only
    rw [readMagnitude_integer, toInteger, if_neg Bool.false_ne_true, if_pos value.toNat_lt, UInt64.ofNat_toNat]
    rfl
  | float value =>
    have finite : value.code < 2047 * 2 ^ 52 := by
      by_contra infinite
      exact parsed (by rw [Binary64.value?, if_pos (not_lt.mp infinite)])
    obtain ⟨same, small⟩ := magnitude_eq_scientific value.code
    have signed :=
      readSign_sign value.isNegative (scientific value.code).1 ('e'.toUInt8 :: printInt (scientific value.code).2)
    rw [sign, ← List.append_assoc] at signed
    rw [printNumber, if_neg parsed]
    dsimp only
    rw [readNumber, signed]
    dsimp only
    rw [readMagnitude_scientific _ _ small, ← same, toFloat_code finite]

/-! ## Values -/

/-- In the place of the key, whether it is taken or not. -/
def assign (key : Bytes) (value : Value) : List (Bytes × Value) → List (Bytes × Value)
  | [] => [(key, value)]
  | (other, old) :: members =>
    if key < other then (key, value) :: (other, old) :: members
    else if other < key then (other, old) :: assign key value members
    else (key, value) :: members

/-- The last one of the members with the same key, in the order of the keys. -/
def keep (members : List (Bytes × Value)) : List (Bytes × Value) :=
  members.foldl (fun kept member => assign member.1 member.2 kept) []

def dialect : JsonText.Dialect Number where
  print := printNumber
  read := readNumber
  keep := keep

mutual

/-- The value with U+FFFD for what is not UTF-8. -/
def repaired : Value → Value
  | .string value => .string (Utf8.repair value)
  | .array items => .array (allRepaired items)
  | .object members => .object (membersRepaired members)
  | value => value

def allRepaired : List Value → List Value
  | [] => []
  | item :: items => repaired item :: allRepaired items

def membersRepaired : List (Bytes × Value) → List (Bytes × Value)
  | [] => []
  | (key, value) :: members => (Utf8.repair key, repaired value) :: membersRepaired members

end

mutual

def isValid : Value → Bool
  | .number (.float value) => value.value? ≠ none
  | .string value => Utf8.Valid value
  | .array items => allAreValid items
  | .object members => decide ((members.map Prod.fst).Pairwise (· < ·)) && membersAreValid members
  | _ => true

def allAreValid : List Value → Bool
  | [] => true
  | item :: items => isValid item && allAreValid items

def membersAreValid : List (Bytes × Value) → Bool
  | [] => true
  | (key, value) :: members => decide (Utf8.Valid key) && isValid value && membersAreValid members

end

/-- What is not valid is refused, a double that is too large among it. -/
def library : Backend where
  parse text := (JsonText.parse dialect text).filter isValid
  dump value := JsonText.print dialect (repaired (reparsed value))

mutual

theorem isValid_iff : (value : Value) → (isValid value = true ↔ Valid value)
  | .null | .bool _ | .number (.integer _) | .number (.unsigned _) => by simp [isValid, Valid]
  | .number (.float _) => by simp [isValid, Valid]
  | .string _ => by simp [isValid, Valid]
  | .array items => by rw [isValid, Valid, allAreValid_iff items]
  | .object members => by rw [isValid, Valid, Bool.and_eq_true, decide_eq_true_eq, membersAreValid_iff members]

theorem allAreValid_iff : (items : List Value) → (allAreValid items = true ↔ allValid items)
  | [] => by simp [allAreValid, allValid]
  | item :: items => by rw [allAreValid, allValid, Bool.and_eq_true, isValid_iff item, allAreValid_iff items]

theorem membersAreValid_iff : (members : List (Bytes × Value)) → (membersAreValid members = true ↔ membersValid members)
  | [] => by simp [membersAreValid, membersValid]
  | (key, value) :: members => by
    rw [membersAreValid, membersValid, Bool.and_eq_true, Bool.and_eq_true, decide_eq_true_eq, isValid_iff value,
      membersAreValid_iff members, and_assoc]

end

mutual

theorem repaired_of_valid : (value : Value) → Valid value → repaired value = value
  | .null, _ | .bool _, _ | .number _, _ => by rw [repaired] <;> simp
  | .string value, valid => by
    rw [Valid] at valid
    rw [repaired, Utf8.repair_of_valid valid]
  | .array items, valid => by
    rw [Valid] at valid
    rw [repaired, allRepaired_of_valid items valid]
  | .object members, valid => by
    rw [Valid] at valid
    rw [repaired, membersRepaired_of_valid members valid.2]

theorem allRepaired_of_valid : (items : List Value) → allValid items → allRepaired items = items
  | [], _ => by rw [allRepaired]
  | item :: items, valid => by
    rw [allValid] at valid
    rw [allRepaired, repaired_of_valid item valid.1, allRepaired_of_valid items valid.2]

theorem membersRepaired_of_valid :
    (members : List (Bytes × Value)) → membersValid members → membersRepaired members = members
  | [], _ => by rw [membersRepaired]
  | (key, value) :: members, valid => by
    rw [membersValid] at valid
    rw [membersRepaired, Utf8.repair_of_valid valid.1, repaired_of_valid value valid.2.1,
      membersRepaired_of_valid members valid.2.2]

end

theorem keys_membersReparsed (members : List (Bytes × Value)) :
    (membersReparsed members).map Prod.fst = members.map Prod.fst := by
  induction members with
  | nil => rw [membersReparsed]
  | cons member members ih => rw [membersReparsed, List.map_cons, ih, List.map_cons]

theorem parsed_reparsed {number : Number} (valid : Valid (.number number)) : Parsed number.reparsed := by
  cases number with
  | integer value =>
    rw [Number.reparsed]
    split_ifs with negative
    · exact negative
    · trivial
  | unsigned value => trivial
  | float value =>
    rw [Valid] at valid
    exact valid

/-- A key after all the others comes last. -/
theorem assign_last {key : Bytes} {kept : List (Bytes × Value)} (after : ∀ other ∈ kept.map Prod.fst, other < key)
    (value : Value) :
    assign key value kept = kept ++ [(key, value)] := by
  induction kept with
  | nil => rfl
  | cons member kept ih =>
    rw [List.map_cons, List.forall_mem_cons] at after
    rw [assign, if_neg (List.lt_asymm after.1), if_pos after.1, ih after.2, List.cons_append]

theorem keep_of_ordered {members : List (Bytes × Value)} (ordered : (members.map Prod.fst).Pairwise (· < ·)) :
    keep members = members := by
  have more (kept : List (Bytes × Value)) (ordered : ((kept ++ members).map Prod.fst).Pairwise (· < ·)) :
      members.foldl (fun kept member => assign member.1 member.2 kept) kept = kept ++ members := by
    induction members generalizing kept with
    | nil => rw [List.foldl_nil, List.append_nil]
    | cons member members ih =>
      rw [List.append_cons] at ordered ⊢
      have front : ((kept ++ [member]).map Prod.fst).Pairwise (· < ·) := by
        rw [List.map_append] at ordered
        exact (List.pairwise_append.mp ordered).1
      rw [List.map_append, List.pairwise_append] at front
      have last : assign member.1 member.2 kept = kept ++ [member] :=
        assign_last (fun other before => front.2.2 other before _ (List.mem_singleton_self _)) _
      rw [List.foldl_cons, last]
      exact ih (List.pairwise_append.mp (by rw [List.map_append] at ordered; exact ordered)).2.1 _ ordered
  exact more [] ordered

theorem isNumberByte_decimal {number : ℕ} : ∀ c ∈ decimal number, JsonText.isNumberByte c = true := by
  intro c member
  have digit := Decimal.isDigit_of_mem_decimal c member
  rw [isDigit] at digit
  rw [JsonText.isNumberByte, digit]
  rfl

theorem isNumberByte_printInt {value : ℤ} : ∀ c ∈ printInt value, JsonText.isNumberByte c = true := by
  intro c member
  rw [printInt_eq, List.mem_append] at member
  obtain member | member := member
  · rw [sign] at member
    split_ifs at member
    · rw [List.mem_singleton.mp member]
      rfl
    · cases member
  · exact isNumberByte_decimal c member

theorem printNumber_facts {number : Number} (parsed : Parsed number) :
    printNumber number ≠ [] ∧ ∀ c ∈ printNumber number, JsonText.isNumberByte c = true := by
  have some_ (text : Bytes) (number : ℕ) : text ++ decimal number ≠ [] :=
    List.append_ne_nil_of_right_ne_nil _ (Decimal.decimal_ne_nil number)
  cases number with
  | integer value =>
    refine ⟨?_, isNumberByte_printInt⟩
    rw [printNumber, printInt]
    exact some_ _ _
  | unsigned value => exact ⟨Decimal.decimal_ne_nil _, isNumberByte_decimal⟩
  | float value =>
    rw [printNumber, if_neg parsed]
    refine ⟨List.append_ne_nil_of_right_ne_nil _ (List.cons_ne_nil _ _), fun c member => ?_⟩
    rw [List.mem_append, List.mem_append, List.mem_cons] at member
    obtain (member | member) | rfl | member := member
    · split_ifs at member
      · rw [List.mem_singleton.mp member]
        rfl
      · cases member
    · exact isNumberByte_decimal c member
    · rfl
    · exact isNumberByte_printInt c member

mutual

theorem valid_reparsed : (value : Value) → Valid value → Valid (reparsed value)
  | .null, valid | .bool _, valid | .string _, valid => by rwa [reparsed] <;> simp
  | .number number, valid => by
    rw [reparsed]
    cases number with
    | integer value =>
      rw [Number.reparsed]
      split_ifs <;> rw [Valid] <;> simp
    | unsigned value => exact valid
    | float value => exact valid
  | .array items, valid => by
    rw [Valid] at valid
    rw [reparsed, Valid]
    exact allValid_reparsed items valid
  | .object members, valid => by
    rw [Valid] at valid
    rw [reparsed, Valid, keys_membersReparsed]
    exact ⟨valid.1, membersValid_reparsed members valid.2⟩

theorem allValid_reparsed : (items : List Value) → allValid items → allValid (allReparsed items)
  | [], valid => by rwa [allReparsed]
  | item :: items, valid => by
    rw [allValid] at valid
    rw [allReparsed, allValid]
    exact ⟨valid_reparsed item valid.1, allValid_reparsed items valid.2⟩

theorem membersValid_reparsed :
    (members : List (Bytes × Value)) → membersValid members → membersValid (membersReparsed members)
  | [], valid => by rwa [membersReparsed]
  | (key, value) :: members, valid => by
    rw [membersValid] at valid
    rw [membersReparsed, membersValid]
    exact ⟨valid.1, valid_reparsed value valid.2.1, membersValid_reparsed members valid.2.2⟩

end

mutual

/-- What comes from `reparsed` is read back. -/
theorem readable_reparsed : (value : Value) → Valid value → JsonText.Readable dialect (reparsed value)
  | .null, _ | .bool _, _ | .string _, _ => by rw [reparsed] <;> simp [JsonText.Readable]
  | .number number, valid => by
    rw [reparsed, JsonText.Readable]
    have parsed := parsed_reparsed valid
    exact ⟨(printNumber_facts parsed).1, (printNumber_facts parsed).2, readNumber_printNumber parsed⟩
  | .array items, valid => by
    rw [Valid] at valid
    rw [reparsed, JsonText.Readable]
    exact readableAll_reparsed items valid
  | .object members, valid => by
    rw [Valid] at valid
    rw [reparsed, JsonText.Readable]
    exact ⟨keep_of_ordered (by rw [keys_membersReparsed]; exact valid.1), readableMembers_reparsed members valid.2⟩

theorem readableAll_reparsed : (items : List Value) → allValid items → JsonText.readableAll dialect (allReparsed items)
  | [], _ => by rw [allReparsed, JsonText.readableAll]; trivial
  | item :: items, valid => by
    rw [allValid] at valid
    rw [allReparsed, JsonText.readableAll]
    exact ⟨readable_reparsed item valid.1, readableAll_reparsed items valid.2⟩

theorem readableMembers_reparsed : (members : List (Bytes × Value)) → membersValid members →
    JsonText.readableMembers dialect (membersReparsed members)
  | [], _ => by rw [membersReparsed, JsonText.readableMembers]; trivial
  | (key, value) :: members, valid => by
    rw [membersValid] at valid
    rw [membersReparsed, JsonText.readableMembers]
    exact ⟨readable_reparsed value valid.2.1, readableMembers_reparsed members valid.2.2⟩

end

/-! ## The laws -/

theorem plain_of_isNumberByte {text : Bytes} (all : ∀ c ∈ text, JsonText.isNumberByte c = true) : Plain text := by
  intro c member special
  have notNumber :
      ∀ c ∈ [JsonText.quote, JsonText.openBracket, JsonText.closeBracket, JsonText.openBrace, JsonText.closeBrace],
      JsonText.isNumberByte c = false := by decide
  have isNumber := all c member
  rw [notNumber c special] at isNumber
  cases isNumber

theorem plain_printNumber (number : Number) : Plain (printNumber number) := by
  cases number with
  | integer value => exact plain_of_isNumberByte isNumberByte_printInt
  | unsigned value => exact plain_of_isNumberByte isNumberByte_decimal
  | float value =>
    by_cases infinite : value.value? = none
    · rw [printNumber, if_pos infinite, Plain]
      decide
    · exact plain_of_isNumberByte (@printNumber_facts (.float value) infinite).2

/-- The escape of a byte has no quote that ends the string. -/
theorem escaped_escapeByte (c : UInt8) {rest : Bytes} (escaped : Escaped rest) :
    Escaped (JsonText.escapeByte c ++ rest) := by
  rw [JsonText.escapeByte]
  split_ifs with special control
  · exact (escaped_slash _ _).mpr escaped
  · have digits : ∀ n < 16, JsonText.hexDigit n ≠ JsonText.backslash ∧ JsonText.hexDigit n ≠ JsonText.quote := by decide
    cases JsonText.letters.find? fun letter => letter.2 = c with
    | some letter => exact (escaped_slash _ _).mpr escaped
    | none =>
      have low : c.toNat < 32 := UInt8.lt_iff_toNat_lt.mp control
      have first := digits (c.toNat / 16) (by omega)
      have second := digits (c.toNat % 16) (by omega)
      refine (escaped_slash _ _).mpr
        ((escaped_cons (by decide) _).mpr ⟨by decide, (escaped_cons (by decide) _).mpr ⟨by decide, ?_⟩⟩)
      exact (escaped_cons first.1 _).mpr ⟨first.2, (escaped_cons second.1 _).mpr ⟨second.2, escaped⟩⟩
  · rw [not_or] at special
    exact (escaped_cons special.2 _).mpr ⟨special.1, escaped⟩

theorem escaped_flatMap (text : Bytes) : Escaped (text.flatMap JsonText.escapeByte) := by
  induction text with
  | nil => exact escaped_nil
  | cons c text ih =>
    rw [List.flatMap_cons]
    exact escaped_escapeByte c ih

theorem printAll_eq (items : List Value) :
    JsonText.printAll dialect (allRepaired (allReparsed items)) = items.map library.dump := by
  induction items with
  | nil => rw [allReparsed, allRepaired, JsonText.printAll, List.map_nil]
  | cons item items ih =>
    rw [allReparsed, allRepaired, JsonText.printAll, ih, List.map_cons]
    rfl

theorem printMembers_eq (members : List (Bytes × Value)) :
    JsonText.printMembers dialect (membersRepaired (membersReparsed members)) =
      members.map fun member => library.dump (.string member.1) ++ JsonText.colon :: library.dump member.2 := by
  induction members with
  | nil => rw [membersReparsed, membersRepaired, JsonText.printMembers, List.map_nil]
  | cons member members ih =>
    have key : JsonText.printString (Utf8.repair member.1) = library.dump (.string member.1) := by
      simp only [library, reparsed, repaired, JsonText.print]
    rw [membersReparsed, membersRepaired, JsonText.printMembers, ih, List.map_cons, key]
    rfl

theorem library_lawful : library.Lawful where
  dump_null := by
    simp only [library, reparsed, repaired, JsonText.print, Plain]
    decide
  dump_bool value := by
    simp only [library, reparsed, repaired, JsonText.print, Plain]
    cases value <;> decide
  dump_number value := by
    simp only [library, reparsed, repaired, JsonText.print]
    exact plain_printNumber value.reparsed
  dump_string text := by
    simp only [library, reparsed, repaired, JsonText.print, JsonText.printString]
    exact ⟨_, rfl, escaped_flatMap _⟩
  dump_array items := by
    rw [← printAll_eq]
    simp only [library, reparsed, repaired, JsonText.print]
  dump_object members := by
    rw [← printMembers_eq]
    simp only [library, reparsed, repaired, JsonText.print]
  parse_dump value valid := by
    have valid' := valid_reparsed value valid
    have parsed := JsonText.parse_print (readable_reparsed value valid)
    simp only [library, repaired_of_valid _ valid', parsed, Option.filter_some, (isValid_iff _).mpr valid', if_true]
  valid_of_parse text value parsed := by
    simp only [library, Option.filter_eq_some_iff] at parsed
    exact (isValid_iff value).mp parsed.2

/-- Nothing of a valid value is replaced. -/
theorem dump_of_valid {value : Value} (valid : Valid value) :
    library.dump value = JsonText.print dialect (reparsed value) := by
  simp only [library, repaired_of_valid _ (valid_reparsed value valid)]

end OpalCpp.Json.Standard

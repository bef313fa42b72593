import OpalCpp.Machine.Binary64
import OpalCpp.Machine.Decimal
import OpalCpp.Machine.Utf8

/-! # Literals of C++

What ordinary string literals, integer literals and floating literals of C++ stand for. Of a string literal these
are bytes, one for each byte of the source that is not part of an escape; there are no trigraphs. An integer literal
is one of decimal digits, of the type `int`, `long` or `long long`; a floating literal is the double nearest to its
decimal.
-/

namespace OpalCpp

namespace CppLiteral

def quote : UInt8 := 0x22
def backslash : UInt8 := 0x5c
def lineFeed : UInt8 := 0x0a

/-! ## Escapes -/

/-- The escapes of one character, by the character and the byte it stands for. -/
def simple : List (UInt8 × UInt8) :=
  [(0x27, 0x27), (0x22, 0x22), (0x3f, 0x3f), (0x5c, 0x5c), (0x61, 0x07), (0x62, 0x08), (0x66, 0x0c), (0x6e, 0x0a),
    (0x72, 0x0d), (0x74, 0x09), (0x76, 0x0b)]

def octalDigit (byte : UInt8) : Option ℕ := if 0x30 ≤ byte ∧ byte ≤ 0x37 then some (byte.toNat - 0x30) else none

def hexDigit (byte : UInt8) : Option ℕ :=
  if 0x30 ≤ byte ∧ byte ≤ 0x39 then some (byte.toNat - 0x30)
  else if 0x61 ≤ byte ∧ byte ≤ 0x66 then some (byte.toNat - 0x57)
  else if 0x41 ≤ byte ∧ byte ≤ 0x46 then some (byte.toNat - 0x37)
  else none

/-- Where a scanner stands: outside of an escape, behind its backslash, or in a number, with the digits that may
still belong to it and the value of those before. -/
inductive State where
  | plain
  | slash
  | octal (left value : ℕ)
  | hex (value : Option ℕ)
  | universal (left value : ℕ)
deriving DecidableEq

/-- A byte in front of those that follow. -/
def emit (bytes : List UInt8) (result : Option (List UInt8 × List UInt8)) : Option (List UInt8 × List UInt8) :=
  result.map fun (text, rest) => (bytes ++ text, rest)

/-- A byte by its number, if it is one. -/
def byte (value : ℕ) : Option (List UInt8) := if value < 256 then some [UInt8.ofNat value] else none

/-- The character of a universal name, in UTF-8. -/
def character (value : ℕ) : Option (List UInt8) :=
  if valid : value.isValidChar then some (String.utf8EncodeChar (Char.ofNatAux value valid)) else none

/-- A byte outside of an escape. -/
def scanPlain (scan : State → Option (List UInt8 × List UInt8)) (c : UInt8) (rest : List UInt8) :
    Option (List UInt8 × List UInt8) :=
  if c = quote then some ([], rest)
  else if c = backslash then scan .slash
  else if c = lineFeed then none
  else emit [c] (scan .plain)

/-- The bytes of a literal up to the quote that ends it, and what follows the quote. -/
def scan : State → List UInt8 → Option (List UInt8 × List UInt8)
  | _, [] => none
  | .plain, c :: rest => scanPlain (fun state => scan state rest) c rest
  | .slash, c :: rest =>
    match simple.lookup c, octalDigit c with
    | some byte, _ => emit [byte] (scan .plain rest)
    | none, some value => scan (.octal 2 value) rest
    | none, none =>
      if c = 0x78 then scan (.hex none) rest
      else if c = 0x75 then scan (.universal 4 0) rest
      else if c = 0x55 then scan (.universal 8 0) rest
      else none
  | .octal left value, c :: rest =>
    match octalDigit c with
    | some digit =>
      if left = 1 then (byte (value * 8 + digit)).bind fun bytes => emit bytes (scan .plain rest)
      else scan (.octal (left - 1) (value * 8 + digit)) rest
    | none => (byte value).bind fun bytes => emit bytes (scanPlain (fun state => scan state rest) c rest)
  | .hex value, c :: rest =>
    match hexDigit c with
    | some digit => scan (.hex (some (value.getD 0 * 16 + digit))) rest
    | none =>
      value.bind fun value => (byte value).bind fun bytes => emit bytes (scanPlain (fun state => scan state rest) c rest)
  | .universal left value, c :: rest =>
    (hexDigit c).bind fun digit =>
      if left = 1 then (character (value * 16 + digit)).bind fun bytes => emit bytes (scan .plain rest)
      else scan (.universal (left - 1) (value * 16 + digit)) rest

/-- A string literal at the front of a text. -/
def readString : List UInt8 → Option (List UInt8 × List UInt8)
  | [] => none
  | c :: rest => if c = quote then scan .plain rest else none

/-- A string as it is seen through a pointer to its first character. -/
def cString (bytes : List UInt8) : List UInt8 := bytes.takeWhile (· ≠ 0)

/-! ## Scanning -/

theorem scan_plain {c : UInt8} (notQuote : c ≠ quote) (notSlash : c ≠ backslash) (notLine : c ≠ lineFeed)
    (rest : List UInt8) :
    scan .plain (c :: rest) = emit [c] (scan .plain rest) := by
  rw [scan, scanPlain, if_neg notQuote, if_neg notSlash, if_neg notLine]

theorem scan_slash (rest : List UInt8) : scan .plain (backslash :: rest) = scan .slash rest := by
  rw [scan, scanPlain, if_neg (by decide), if_pos rfl]

theorem scan_simple {letter byte : UInt8} (escape : simple.lookup letter = some byte) (rest : List UInt8) :
    scan .plain (backslash :: letter :: rest) = emit [byte] (scan .plain rest) := by
  rw [scan_slash, scan.eq_def]
  simp only [escape]

/-- Three octal digits end an escape, whatever follows. -/
theorem scan_octal {a b c : UInt8} {first second third : ℕ} (notSimple : simple.lookup a = none)
    (a_ : octalDigit a = some first)
    (b_ : octalDigit b = some second) (c_ : octalDigit c = some third) (fits : (first * 8 + second) * 8 + third < 256)
    (rest : List UInt8) : scan .plain (backslash :: a :: b :: c :: rest) =
      emit [UInt8.ofNat ((first * 8 + second) * 8 + third)] (scan .plain rest) := by
  rw [scan_slash, scan, notSimple, a_]
  simp only
  rw [scan, b_]
  simp only
  rw [if_neg (by decide), scan, c_]
  simp only [byte, if_pos fits, Option.bind_some]
  rfl

/-! ## Integers -/

/-- An integer literal with its sign, at the front of a text: decimal digits, which must be those of a `long long`,
and its suffix or none. -/
def readOperand (text : List UInt8) : Option (ℤ × List UInt8) :=
  let negative := text.head? = some 0x2d
  let unsigned := if negative then text.tail else text
  let digits := unsigned.takeWhile Decimal.isDigit
  let rest := unsigned.dropWhile Decimal.isDigit
  let rest := if [0x4c, 0x4c] <+: rest then rest.drop 2 else rest
  -- Digits behind a zero would be octal.
  if digits = [] ∨ (digits.head? = some 0x30 ∧ digits ≠ [0x30]) then none
  else
    (Decimal.read digits).bind fun magnitude =>
      if magnitude < 2 ^ 63 then some (if negative then -(magnitude : ℤ) else magnitude, rest) else none

/-- What follows a text at the front of another one. -/
def after (front text : List UInt8) : Option (List UInt8) := if front <+: text then some (text.drop front.length) else none

/-- An operand, or a difference of two in parentheses. -/
def readInteger (text : List UInt8) : Option (ℤ × List UInt8) :=
  match after [0x28] text with
  | none => readOperand text
  | some text => do
    let (first, rest) ← readOperand text
    let rest ← after [0x20, 0x2d, 0x20] rest
    let (second, rest) ← readOperand rest
    let rest ← after [0x29] rest
    if -2 ^ 63 ≤ first - second ∧ first - second < 2 ^ 63 then some (first - second, rest) else none

theorem after_append (front rest : List UInt8) : after front (front ++ rest) = some rest := by
  rw [after, if_pos (List.prefix_append _ _), List.drop_left]

/-- The text of an integer. -/
def decimalText (value : ℤ) : List UInt8 := (if value < 0 then [0x2d] else []) ++ Decimal.decimal value.natAbs

theorem span_decimal (number : ℕ) {rest : List UInt8} (stops : ∀ byte ∈ rest.head?, Decimal.isDigit byte = false) :
    (Decimal.decimal number ++ rest).takeWhile Decimal.isDigit = Decimal.decimal number ∧
      (Decimal.decimal number ++ rest).dropWhile Decimal.isDigit = rest := by
  have all : ∀ byte ∈ Decimal.decimal number, Decimal.isDigit byte = true := Decimal.isDigit_of_mem_decimal
  rw [List.takeWhile_append_of_pos all, List.dropWhile_append_of_pos all]
  cases rest with
  | nil => simp
  | cons byte rest => simp [stops byte rfl]

/-- An integer is read back, where a literal can have its magnitude and neither a digit nor a suffix follows. -/
theorem readOperand_decimal {value : ℤ} (fits : value.natAbs < 2 ^ 63) {suffix rest : List UInt8}
    (long : suffix = [] ∨ suffix = [0x4c, 0x4c])
    (stops : ∀ byte ∈ rest.head?, Decimal.isDigit byte = false ∧ byte ≠ 0x4c) :
    readOperand (decimalText value ++ suffix ++ rest) = some (value, rest) := by
  obtain ⟨first, digits, spelled⟩ := List.exists_cons_of_ne_nil (Decimal.decimal_ne_nil value.natAbs)
  have isFirst : Decimal.isDigit first = true :=
    Decimal.isDigit_of_mem_decimal first (by rw [spelled]; exact List.mem_cons_self)
  have noZero : ¬ ((Decimal.decimal value.natAbs).head? = some 0x30 ∧ Decimal.decimal value.natAbs ≠ [0x30]) := by
    rintro ⟨zero, more⟩
    obtain none_ | positive := Nat.eq_zero_or_pos value.natAbs
    · rw [none_] at more
      exact more rfl
    · exact Decimal.head?_decimal_ne positive zero
  have ends : ∀ byte ∈ (suffix ++ rest).head?, Decimal.isDigit byte = false := by
    rcases long with rfl | rfl
    · exact fun byte member => (stops byte member).1
    · intro byte member
      cases member
      rfl
  have dropped : (if [0x4c, 0x4c] <+: suffix ++ rest then (suffix ++ rest).drop 2 else suffix ++ rest) = rest := by
    rcases long with rfl | rfl
    · rw [List.nil_append, if_neg]
      rintro ⟨more, rfl⟩
      exact (stops 0x4c rfl).2 rfl
    · rw [if_pos (List.prefix_append _ _)]
      rfl
  obtain ⟨taken, left⟩ := span_decimal value.natAbs ends
  rw [decimalText, List.append_assoc, List.append_assoc]
  by_cases negative : value < 0
  · rw [if_pos negative]
    simp only [readOperand, List.cons_append, List.nil_append, List.head?_cons, if_true, List.tail_cons, taken, left,
      dropped, Decimal.decimal_ne_nil, false_or, if_neg noZero, Decimal.read_decimal, Option.bind_some, if_pos fits]
    congr 2
    omega
  · have unsigned : (Decimal.decimal value.natAbs ++ (suffix ++ rest)).head? ≠ some 0x2d := by
      rw [spelled, List.cons_append, List.head?_cons]
      intro minus
      rw [Option.some.inj minus] at isFirst
      cases isFirst
    rw [if_neg negative, List.nil_append]
    simp only [readOperand, if_neg unsigned, taken, left, dropped,
      Decimal.decimal_ne_nil, false_or, if_neg noZero, Decimal.read_decimal, Option.bind_some, if_pos fits]
    congr 2
    omega

/-- The text of an integer is no parenthesis. -/
theorem readInteger_decimal {value : ℤ} (fits : value.natAbs < 2 ^ 63) {suffix rest : List UInt8}
    (long : suffix = [] ∨ suffix = [0x4c, 0x4c])
    (stops : ∀ byte ∈ rest.head?, Decimal.isDigit byte = false ∧ byte ≠ 0x4c) :
    readInteger (decimalText value ++ suffix ++ rest) = some (value, rest) := by
  have notOpen : after [0x28] (decimalText value ++ suffix ++ rest) = none := by
    obtain ⟨first, digits, spelled⟩ := List.exists_cons_of_ne_nil (Decimal.decimal_ne_nil value.natAbs)
    have isFirst : Decimal.isDigit first = true :=
      Decimal.isDigit_of_mem_decimal first (by rw [spelled]; exact List.mem_cons_self)
    rw [after, if_neg]
    rintro ⟨_, same⟩
    rw [decimalText, spelled] at same
    split_ifs at same with negative
    · cases (List.cons.inj same).1
    · obtain rfl : (0x28 : UInt8) = first := (List.cons.inj same).1
      cases isFirst
  rw [readInteger, notOpen]
  exact readOperand_decimal fits long stops

/-! ## Doubles -/

/-- The exponent of a floating literal, or zero where there is none. -/
def readExponent : List UInt8 → Option ℤ
  | [] => some 0
  | letter :: text =>
    if letter = 0x45 ∨ letter = 0x65 then
      let unsigned := if text.head? = some 0x2d ∨ text.head? = some 0x2b then text.tail else text
      if unsigned = [] then none
      else (Decimal.read unsigned).map fun exponent => if text.head? = some 0x2d then -(exponent : ℤ) else exponent
    else none

/-- A text that is a floating literal of type `double`, with a point, and its sign. -/
def readFloating (text : List UInt8) : Option Binary64 :=
  let negative := text.head? = some 0x2d
  let unsigned := if negative then text.tail else text
  let whole := unsigned.takeWhile Decimal.isDigit
  let pointed := unsigned.dropWhile Decimal.isDigit
  let fraction := pointed.tail.takeWhile Decimal.isDigit
  if pointed.head? ≠ some 0x2e ∨ whole ++ fraction = [] then none
  else do
    let digits ← Decimal.read (whole ++ fraction)
    let exponent ← readExponent (pointed.tail.dropWhile Decimal.isDigit)
    let magnitude := Binary64.nearest (digits * 10 ^ (exponent - fraction.length))
    some (if negative then magnitude.neg else magnitude)

end CppLiteral

end OpalCpp

import OpalCpp.Machine.Delimited
import OpalCpp.Machine.Utf8

/-! # JSON text

JSON values over some type of numbers, their compact text, and a parser for JSON text. How numbers are written and
read, and which of an object's members are kept, is a dialect. The parser has fuel, of which the length of the text
is enough.
-/

namespace OpalCpp

/-! ## Values -/

/-- Strings are bytes. The parser may find several members of an object with the same name. -/
inductive JsonValue (N : Type) where
  | null
  | bool (value : Bool)
  | number (value : N)
  | string (value : List UInt8)
  | array (items : List (JsonValue N))
  | object (members : List (List UInt8 × JsonValue N))

namespace JsonValue

variable {N : Type}

mutual

/-- How many arrays and objects the value is deep. -/
def nesting : JsonValue N → ℕ
  | .array items => nestingAll items + 1
  | .object members => nestingMembers members + 1
  | _ => 0

def nestingAll : List (JsonValue N) → ℕ
  | [] => 0
  | item :: items => max item.nesting (nestingAll items)

def nestingMembers : List (List UInt8 × JsonValue N) → ℕ
  | [] => 0
  | (_, value) :: members => max value.nesting (nestingMembers members)

end

end JsonValue

namespace JsonText

structure Dialect (N : Type) where
  print : N → List UInt8
  read : List UInt8 → Option N
  keep : List (List UInt8 × JsonValue N) → List (List UInt8 × JsonValue N)

def quote : UInt8 := 0x22
def backslash : UInt8 := 0x5c
def comma : UInt8 := 0x2c
def colon : UInt8 := 0x3a
def openBracket : UInt8 := 0x5b
def closeBracket : UInt8 := 0x5d
def openBrace : UInt8 := 0x7b
def closeBrace : UInt8 := 0x7d

/-! ## Strings -/

/-- In lower case. -/
def hexDigit (value : ℕ) : UInt8 := UInt8.ofNat (if value < 10 then 0x30 + value else 0x57 + value)

def hexValue (byte : UInt8) : Option ℕ :=
  if 0x30 ≤ byte ∧ byte ≤ 0x39 then some (byte.toNat - 0x30)
  else if 0x61 ≤ byte ∧ byte ≤ 0x66 then some (byte.toNat - 0x57)
  else if 0x41 ≤ byte ∧ byte ≤ 0x46 then some (byte.toNat - 0x37)
  else none

/-- The escapes of one letter, by the letter and the byte it stands for. -/
def letters : List (UInt8 × UInt8) := [(0x62, 0x08), (0x74, 0x09), (0x6e, 0x0a), (0x66, 0x0c), (0x72, 0x0d)]

/-- A byte of a string, escaped if it has to be. -/
def escapeByte (byte : UInt8) : List UInt8 :=
  if byte = quote ∨ byte = backslash then [backslash, byte]
  else if byte < 0x20 then
    match letters.find? fun letter => letter.2 = byte with
    | some (letter, _) => [backslash, letter]
    | none => [backslash, 0x75, 0x30, 0x30, hexDigit (byte.toNat / 16), hexDigit (byte.toNat % 16)]
  else [byte]

def printString (text : List UInt8) : List UInt8 := quote :: (text.flatMap escapeByte ++ [quote])

/-- The code unit of four digits. -/
def codeUnit (a b c d : UInt8) : Option ℕ := do
  let a ← hexValue a
  let b ← hexValue b
  let c ← hexValue c
  let d ← hexValue d
  return ((a * 16 + b) * 16 + c) * 16 + d

/-- The byte of an escape of one character. -/
def shortEscape (byte : UInt8) : Option UInt8 :=
  if byte = quote ∨ byte = backslash ∨ byte = 0x2f then some byte else letters.lookup byte

def encodeScalar (code : ℕ) : List UInt8 := String.utf8EncodeChar (Char.ofNat code)

/-- The text up to the closing quote, and what follows it. -/
def parseChars : List UInt8 → Option (List UInt8 × List UInt8)
  | [] => none
  | byte :: rest =>
    if byte = quote then some ([], rest)
    else if byte < 0x20 then none
    else if byte ≠ backslash then (parseChars rest).map fun (text, rest) => (byte :: text, rest)
    else
      match rest with
      | [] => none
      | letter :: rest =>
        match shortEscape letter with
        | some byte => (parseChars rest).map fun (text, rest) => (byte :: text, rest)
        | none =>
          match rest with
          | a :: b :: c :: d :: rest =>
            match codeUnit a b c d with
            | none => none
            | some unit =>
              if letter ≠ 0x75 then none
              else if unit < 0xD800 ∨ 0xDFFF < unit then
                (parseChars rest).map fun (text, rest) => (encodeScalar unit ++ text, rest)
              else
                -- A high surrogate needs a low one.
                match rest with
                | slash :: letter :: a :: b :: c :: d :: rest =>
                  match codeUnit a b c d with
                  | none => none
                  | some low =>
                    if slash = backslash ∧ letter = 0x75 ∧ unit < 0xDC00 ∧ 0xDC00 ≤ low ∧ low ≤ 0xDFFF then
                      (parseChars rest).map fun (text, rest) =>
                        (encodeScalar (0x10000 + (unit - 0xD800) * 0x400 + (low - 0xDC00)) ++ text, rest)
                    else none
                | _ => none
          | _ => none

/-! ## Printing and parsing -/

variable {N : Type} (dialect : Dialect N)

def null : List UInt8 := [0x6e, 0x75, 0x6c, 0x6c]

def bool (value : Bool) : List UInt8 :=
  if value then [0x74, 0x72, 0x75, 0x65] else [0x66, 0x61, 0x6c, 0x73, 0x65]

mutual

def print : JsonValue N → List UInt8
  | .null => null
  | .bool value => bool value
  | .number value => dialect.print value
  | .string value => printString value
  | .array items => openBracket :: (Delimited.join comma (printAll items) ++ [closeBracket])
  | .object members => openBrace :: (Delimited.join comma (printMembers members) ++ [closeBrace])

def printAll : List (JsonValue N) → List (List UInt8)
  | [] => []
  | item :: items => print item :: printAll items

def printMembers : List (List UInt8 × JsonValue N) → List (List UInt8)
  | [] => []
  | (key, value) :: members => (printString key ++ colon :: print value) :: printMembers members

end

def isSpace (byte : UInt8) : Bool := byte = 0x20 || byte = 0x09 || byte = 0x0a || byte = 0x0d

/-- Digits, signs, a point and the letters of an exponent. -/
def isNumberByte (byte : UInt8) : Bool :=
  (0x30 ≤ byte && byte ≤ 0x39) || byte = 0x2b || byte = 0x2d || byte = 0x2e || byte = 0x45 || byte = 0x65

def skipSpace (text : List UInt8) : List UInt8 := text.dropWhile isSpace

/-- A number, or one of the three words. -/
def parseScalar (text : List UInt8) : Option (JsonValue N × List UInt8) :=
  if null.isPrefixOf text then some (.null, text.drop null.length)
  else if (bool true).isPrefixOf text then some (.bool true, text.drop (bool true).length)
  else if (bool false).isPrefixOf text then some (.bool false, text.drop (bool false).length)
  else (dialect.read (text.takeWhile isNumberByte)).map fun value => (.number value, text.dropWhile isNumberByte)

mutual

def parseValue : ℕ → List UInt8 → Option (JsonValue N × List UInt8)
  | 0, _ => none
  | fuel + 1, text =>
    match skipSpace text with
    | [] => none
    | byte :: rest =>
      if byte = quote then (parseChars rest).map fun (text, rest) => (.string text, rest)
      else if byte = openBracket then
        if (skipSpace rest).head? = some closeBracket then some (.array [], (skipSpace rest).tail)
        else (parseItems fuel rest).map fun (items, rest) => (.array items, rest)
      else if byte = openBrace then
        if (skipSpace rest).head? = some closeBrace then some (.object (dialect.keep []), (skipSpace rest).tail)
        else (parseMembers fuel rest).map fun (members, rest) => (.object (dialect.keep members), rest)
      else parseScalar dialect (byte :: rest)

/-- The items up to the closing bracket, one at least. -/
def parseItems : ℕ → List UInt8 → Option (List (JsonValue N) × List UInt8)
  | 0, _ => none
  | fuel + 1, text => do
    let (item, rest) ← parseValue fuel text
    match skipSpace rest with
    | [] => none
    | byte :: rest =>
      if byte = comma then (parseItems fuel rest).map fun (items, rest) => (item :: items, rest)
      else if byte = closeBracket then some ([item], rest)
      else none

/-- The members up to the closing brace, one at least. -/
def parseMembers : ℕ → List UInt8 → Option (List (List UInt8 × JsonValue N) × List UInt8)
  | 0, _ => none
  | fuel + 1, text => do
    guard ((skipSpace text).head? = some quote)
    let (key, rest) ← parseChars (skipSpace text).tail
    guard ((skipSpace rest).head? = some colon)
    let (value, rest) ← parseValue fuel (skipSpace rest).tail
    match skipSpace rest with
    | [] => none
    | byte :: rest =>
      if byte = comma then (parseMembers fuel rest).map fun (members, rest) => ((key, value) :: members, rest)
      else if byte = closeBrace then some ([(key, value)], rest)
      else none

end

def parse (text : List UInt8) : Option (JsonValue N) := do
  let (value, rest) ← parseValue dialect (text.length + 1) text
  guard (skipSpace rest = [])
  return value

/-! ## What is printed is parsed -/

theorem parseChars_quote (rest : List UInt8) : parseChars (quote :: rest) = some ([], rest) := by
  rw [parseChars.eq_def]
  rfl

theorem parseChars_plain {byte : UInt8} (notQuote : byte ≠ quote) (notControl : ¬ byte < 0x20) (notSlash : byte ≠ backslash)
    (rest : List UInt8) : parseChars (byte :: rest) = (parseChars rest).map fun (text, rest) => (byte :: text, rest) := by
  rw [parseChars.eq_def]
  simp only [if_neg notQuote, if_neg notControl, if_pos notSlash]

theorem parseChars_short {letter byte : UInt8} (short : shortEscape letter = some byte) (rest : List UInt8) :
    parseChars (backslash :: letter :: rest) = (parseChars rest).map fun (text, rest) => (byte :: text, rest) := by
  rw [parseChars.eq_def]
  simp only [short]
  rfl

theorem parseChars_unit {a b c d : UInt8} {unit : ℕ} (digits : codeUnit a b c d = some unit) (scalar : unit < 0xD800)
    (rest : List UInt8) : parseChars (backslash :: 0x75 :: a :: b :: c :: d :: rest) =
      (parseChars rest).map fun (text, rest) => (encodeScalar unit ++ text, rest) := by
  have long : shortEscape 0x75 = none := by decide
  rw [parseChars.eq_def]
  simp only [long, digits, if_pos (Or.inl scalar : unit < 0xD800 ∨ 0xDFFF < unit)]
  rfl

theorem parseChars_escapeByte (byte : UInt8) (rest : List UInt8) :
    parseChars (escapeByte byte ++ rest) = (parseChars rest).map fun (text, rest) => (byte :: text, rest) := by
  rw [escapeByte]
  split_ifs with special control
  · have short : shortEscape byte = some byte := by rw [shortEscape, if_pos (special.imp_right .inl)]
    exact parseChars_short short rest
  · -- A control character has an escape of one letter or of its code.
    have all : ∀ n < 0x20, codeUnit 0x30 0x30 (hexDigit (n / 16)) (hexDigit (n % 16)) = some n ∧
        encodeScalar n = [UInt8.ofNat n] := by
      decide
    have named : letters.all (fun letter => shortEscape letter.1 = some letter.2) = true := by decide
    obtain ⟨digits, encoded⟩ := all byte.toNat (UInt8.lt_iff_toNat_lt.mp control)
    cases found : letters.find? fun letter => letter.2 = byte with
    | some letter =>
      have same : letter.2 = byte := by simpa using List.find?_some found
      have short := of_decide_eq_true (List.all_eq_true.mp named letter (List.mem_of_find?_eq_some found))
      exact parseChars_short (same ▸ short) rest
    | none =>
      refine (parseChars_unit digits (lt_trans (UInt8.lt_iff_toNat_lt.mp control) (by decide)) rest).trans ?_
      rw [encoded, UInt8.ofNat_toNat]
      rfl
  · rw [not_or] at special
    exact parseChars_plain special.1 control special.2 rest

theorem parseChars_printed (text rest : List UInt8) :
    parseChars (text.flatMap escapeByte ++ quote :: rest) = some (text, rest) := by
  induction text with
  | nil => exact parseChars_quote rest
  | cons byte text ih =>
    rw [List.flatMap_cons, List.append_assoc, parseChars_escapeByte, ih]
    rfl

mutual

/-- The numbers are read back as they are printed, and the members of objects are kept as they are. -/
def Readable : JsonValue N → Prop
  | .number value => dialect.print value ≠ [] ∧ (∀ byte ∈ dialect.print value, isNumberByte byte = true) ∧
      dialect.read (dialect.print value) = some value
  | .array items => readableAll items
  | .object members => dialect.keep members = members ∧ readableMembers members
  | _ => True

def readableAll : List (JsonValue N) → Prop
  | [] => True
  | item :: items => Readable item ∧ readableAll items

def readableMembers : List (List UInt8 × JsonValue N) → Prop
  | [] => True
  | (_, value) :: members => Readable value ∧ readableMembers members

end

/-- What follows does not belong to a number. -/
def Stops (rest : List UInt8) : Prop := ∀ byte ∈ rest.head?, isNumberByte byte = false

section Printed

variable {dialect} {rest : List UInt8}

theorem stops_cons {byte : UInt8} (other : isNumberByte byte = false) (rest : List UInt8) : Stops (byte :: rest) := by
  intro first isFirst
  cases isFirst
  exact other

/-- Bytes that start a number are none of the others. -/
theorem isNumberByte_facts {byte : UInt8} (is : isNumberByte byte = true) :
    isSpace byte = false ∧ byte ≠ quote ∧ byte ≠ openBracket ∧ byte ≠ openBrace ∧ byte ≠ closeBracket ∧
      byte ≠ 0x6e ∧ byte ≠ 0x74 ∧ byte ≠ 0x66 := by
  refine ⟨Bool.eq_false_iff.mpr fun space => ?_, ?_, ?_, ?_, ?_, ?_, ?_, ?_⟩
  · simp only [isSpace, Bool.or_eq_true, decide_eq_true_eq] at space
    obtain ((rfl | rfl) | rfl) | rfl := space <;> cases is
  all_goals rintro rfl; cases is

theorem skipSpace_cons {byte : UInt8} (notSpace : isSpace byte = false) (rest : List UInt8) :
    skipSpace (byte :: rest) = byte :: rest := by
  rw [skipSpace, List.dropWhile_cons_of_neg (by rw [notSpace]; exact Bool.false_ne_true)]

theorem isPrefixOf_append (word rest : List UInt8) : word.isPrefixOf (word ++ rest) = true :=
  List.isPrefixOf_iff_prefix.mpr (List.prefix_append word rest)

theorem not_isPrefixOf {letter other : UInt8} (differs : letter ≠ other) (word rest : List UInt8) :
    ¬ (letter :: word).isPrefixOf (other :: rest) = true :=
  fun isPrefix => differs (List.cons_prefix_cons.mp (List.isPrefixOf_iff_prefix.mp isPrefix)).1

theorem parseScalar_null (dialect : Dialect N) (rest : List UInt8) :
    parseScalar dialect (null ++ rest) = some (.null, rest) := by
  rw [parseScalar, if_pos (isPrefixOf_append _ _), List.drop_left]

theorem parseScalar_bool (dialect : Dialect N) (value : Bool) (rest : List UInt8) :
    parseScalar dialect (bool value ++ rest) = some (.bool value, rest) := by
  cases value with
  | true =>
    have notNull : ¬ null.isPrefixOf (bool true ++ rest) = true := not_isPrefixOf (by decide) _ _
    rw [parseScalar, if_neg notNull, if_pos (isPrefixOf_append _ _), List.drop_left]
  | false =>
    have notNull : ¬ null.isPrefixOf (bool false ++ rest) = true := not_isPrefixOf (by decide) _ _
    have notTrue : ¬ (bool true).isPrefixOf (bool false ++ rest) = true := not_isPrefixOf (by decide) _ _
    rw [parseScalar, if_neg notNull, if_neg notTrue, if_pos (isPrefixOf_append _ _), List.drop_left]

theorem parseScalar_number {value : N} (readable : Readable dialect (.number value)) (stops : Stops rest) :
    parseScalar dialect (dialect.print value ++ rest) = some (.number value, rest) := by
  rw [Readable] at readable
  obtain ⟨some_, bytes, read⟩ := readable
  have taken : (dialect.print value ++ rest).takeWhile isNumberByte = dialect.print value := by
    rw [List.takeWhile_append_of_pos bytes]
    cases rest with
    | nil => simp
    | cons byte rest => rw [List.takeWhile_cons_of_neg (by simp [stops byte rfl]), List.append_nil]
  have left : (dialect.print value ++ rest).dropWhile isNumberByte = rest := by
    rw [List.dropWhile_append_of_pos bytes]
    cases rest with
    | nil => rfl
    | cons byte rest => rw [List.dropWhile_cons_of_neg (by simp [stops byte rfl])]
  obtain ⟨first, digits, printed⟩ := List.exists_cons_of_ne_nil some_
  obtain ⟨_, _, _, _, _, notNull, notTrue, notFalse⟩ :=
    isNumberByte_facts (bytes first (by rw [printed]; exact List.mem_cons_self))
  have start : dialect.print value ++ rest = first :: (digits ++ rest) := by rw [printed, List.cons_append]
  have noNull : ¬ null.isPrefixOf (dialect.print value ++ rest) = true := start ▸ not_isPrefixOf notNull.symm _ _
  have noTrue : ¬ (bool true).isPrefixOf (dialect.print value ++ rest) = true := start ▸ not_isPrefixOf notTrue.symm _ _
  have noFalse : ¬ (bool false).isPrefixOf (dialect.print value ++ rest) = true := start ▸ not_isPrefixOf notFalse.symm _ _
  rw [parseScalar, if_neg noNull, if_neg noTrue, if_neg noFalse, taken, left, read]
  rfl

/-- How the text of a value starts. -/
theorem print_head {value : JsonValue N} (readable : Readable dialect value) :
    ∃ byte tail, print dialect value = byte :: tail ∧ isSpace byte = false ∧ byte ≠ closeBracket := by
  cases value with
  | number value =>
    rw [Readable] at readable
    obtain ⟨first, digits, printed⟩ := List.exists_cons_of_ne_nil readable.1
    obtain ⟨notSpace, _, _, _, notClose, _⟩ :=
      isNumberByte_facts (readable.2.1 first (by rw [printed]; exact List.mem_cons_self))
    exact ⟨first, digits, by rw [print, printed], notSpace, notClose⟩
  | bool value => cases value <;> exact ⟨_, _, rfl, by decide, by decide⟩
  | null => exact ⟨0x6e, [0x75, 0x6c, 0x6c], by rw [print]; rfl, by decide, by decide⟩
  | string text => exact ⟨quote, _, by rw [print, printString], by decide, by decide⟩
  | array | object => exact ⟨_, _, by rw [print], by decide, by decide⟩

theorem parseValue_scalar {byte : UInt8} (notSpace : isSpace byte = false) (notQuote : byte ≠ quote)
    (notBracket : byte ≠ openBracket) (notBrace : byte ≠ openBrace) (fuel : ℕ) (rest : List UInt8) :
    parseValue dialect (fuel + 1) (byte :: rest) = parseScalar dialect (byte :: rest) := by
  rw [parseValue, skipSpace_cons notSpace]
  simp only [if_neg notQuote, if_neg notBracket, if_neg notBrace]

theorem parseValue_string (fuel : ℕ) (text rest : List UInt8) :
    parseValue dialect (fuel + 1) (printString text ++ rest) = some (.string text, rest) := by
  rw [printString, List.cons_append, parseValue, skipSpace_cons (by decide)]
  simp only [if_true]
  rw [List.append_assoc, List.singleton_append, parseChars_printed]
  rfl

theorem parseValue_array {items : List (JsonValue N)} {fuel : ℕ} {byte : UInt8} {text : List UInt8}
    (starts : ∃ tail, text = byte :: tail) (notSpace : isSpace byte = false) (notClose : byte ≠ closeBracket)
    (parsed : parseItems dialect fuel text = some (items, rest)) :
    parseValue dialect (fuel + 1) (openBracket :: text) = some (.array items, rest) := by
  obtain ⟨tail, rfl⟩ := starts
  rw [parseValue, skipSpace_cons (by decide)]
  have notQuote : openBracket ≠ quote := by decide
  have notFirst : ¬ (byte :: tail).head? = some closeBracket := fun same => notClose (Option.some.inj same)
  simp only [if_neg notQuote, if_true, skipSpace_cons notSpace, if_neg notFirst, parsed]
  rfl

theorem parseValue_object {members : List (List UInt8 × JsonValue N)} {fuel : ℕ} {text : List UInt8}
    (starts : ∃ tail, text = quote :: tail) (kept : dialect.keep members = members)
    (parsed : parseMembers dialect fuel text = some (members, rest)) :
    parseValue dialect (fuel + 1) (openBrace :: text) = some (.object members, rest) := by
  obtain ⟨tail, rfl⟩ := starts
  rw [parseValue, skipSpace_cons (by decide)]
  have notQuote : openBrace ≠ quote := by decide
  have notBracket : openBrace ≠ openBracket := by decide
  have notFirst : ¬ (quote :: tail).head? = some closeBrace := fun same => absurd (Option.some.inj same) (by decide)
  simp only [if_neg notQuote, if_neg notBracket, if_true, skipSpace_cons (by decide : isSpace quote = false),
    if_neg notFirst, parsed, Option.map_some, kept]

theorem parseItems_of {item : JsonValue N} {fuel : ℕ} {text : List UInt8} {byte : UInt8}
    (parsed : parseValue dialect fuel text = some (item, byte :: rest)) (notSpace : isSpace byte = false) :
    parseItems dialect (fuel + 1) text =
      if byte = comma then (parseItems dialect fuel rest).map fun (items, rest) => (item :: items, rest)
      else if byte = closeBracket then some ([item], rest)
      else none := by
  rw [parseItems, parsed, Option.bind_eq_bind, Option.bind_some]
  simp only [skipSpace_cons notSpace]

theorem parseMembers_of {key : List UInt8} {value : JsonValue N} {fuel : ℕ} {text : List UInt8} {byte : UInt8}
    (parsed : parseValue dialect fuel text = some (value, byte :: rest)) (notSpace : isSpace byte = false) :
    parseMembers dialect (fuel + 1) (printString key ++ colon :: text) =
      if byte = comma then (parseMembers dialect fuel rest).map fun (members, rest) => ((key, value) :: members, rest)
      else if byte = closeBrace then some ([(key, value)], rest)
      else none := by
  rw [printString, List.cons_append, parseMembers, skipSpace_cons (by decide), List.tail_cons, List.append_assoc,
    List.singleton_append, parseChars_printed]
  simp only [List.head?_cons, guard_true, Option.bind_eq_bind, Option.pure_def, Option.bind_some,
    skipSpace_cons (by decide : isSpace colon = false), List.tail_cons, parsed, skipSpace_cons notSpace]

mutual

theorem parseValue_print : (value : JsonValue N) → Readable dialect value → ∀ (fuel : ℕ) (rest : List UInt8),
    (print dialect value).length < fuel → Stops rest →
      parseValue dialect fuel (print dialect value ++ rest) = some (value, rest)
  | _, _, 0, _, less, _ => absurd less (Nat.not_lt_zero _)
  | .null, _, fuel + 1, rest, _, _ => by
    rw [print]
    exact (parseValue_scalar (by decide) (by decide) (by decide) (by decide) fuel _).trans (parseScalar_null dialect rest)
  | .bool value, _, fuel + 1, rest, _, _ => by
    rw [print, ← parseScalar_bool dialect value rest]
    cases value <;> exact parseValue_scalar (by decide) (by decide) (by decide) (by decide) fuel _
  | .number value, readable, fuel + 1, rest, _, stops => by
    have parsed := parseScalar_number readable stops
    rw [Readable] at readable
    obtain ⟨first, digits, printed⟩ := List.exists_cons_of_ne_nil readable.1
    obtain ⟨notSpace, notQuote, notBracket, notBrace, _⟩ :=
      isNumberByte_facts (readable.2.1 first (by rw [printed]; exact List.mem_cons_self))
    rw [print, ← parsed, printed, List.cons_append]
    exact parseValue_scalar notSpace notQuote notBracket notBrace fuel _
  | .string text, _, fuel + 1, rest, _, _ => by
    rw [print]
    exact parseValue_string fuel text rest
  | .array [], _, fuel + 1, rest, _, _ => by
    rw [print, printAll, parseValue.eq_def]
    rfl
  | .array (item :: items), readable, fuel + 1, rest, less, _ => by
    rw [Readable] at readable
    rw [print, List.length_cons, List.length_append, List.length_singleton] at less
    have parsed := parseItems_print item items readable fuel rest (by omega)
    rw [readableAll] at readable
    obtain ⟨byte, tail, starts, notSpace, notClose⟩ := print_head readable.1
    obtain ⟨more, joined⟩ := Delimited.exists_join_cons comma byte tail (printAll dialect items)
    rw [print, List.cons_append, List.append_assoc, List.singleton_append]
    refine parseValue_array ⟨more ++ closeBracket :: rest, ?_⟩ notSpace notClose parsed
    rw [printAll, starts, joined, List.cons_append]
  | .object [], readable, fuel + 1, rest, _, _ => by
    rw [Readable] at readable
    rw [print, printMembers]
    conv_rhs => rw [← readable.1]
    rw [parseValue.eq_def]
    rfl
  | .object ((key, value) :: members), readable, fuel + 1, rest, less, _ => by
    rw [Readable] at readable
    rw [print, List.length_cons, List.length_append, List.length_singleton] at less
    have parsed := parseMembers_print key value members readable.2 fuel rest (by omega)
    obtain ⟨more, joined⟩ := Delimited.exists_join_cons comma quote
      (key.flatMap escapeByte ++ [quote] ++ colon :: print dialect value) (printMembers dialect members)
    rw [print, List.cons_append, List.append_assoc, List.singleton_append]
    refine parseValue_object ⟨more ++ closeBrace :: rest, ?_⟩ readable.1 parsed
    rw [printMembers, printString, List.cons_append, joined, List.cons_append]

theorem parseItems_print : (item : JsonValue N) → (items : List (JsonValue N)) → readableAll dialect (item :: items) →
    ∀ (fuel : ℕ) (rest : List UInt8), (Delimited.join comma (printAll dialect (item :: items))).length + 1 < fuel →
      parseItems dialect fuel (Delimited.join comma (printAll dialect (item :: items)) ++ closeBracket :: rest) =
        some (item :: items, rest)
  | _, _, _, 0, _, less => absurd less (Nat.not_lt_zero _)
  | item, [], readable, fuel + 1, rest, less => by
    rw [readableAll] at readable
    rw [printAll, printAll, Delimited.join] at less ⊢
    have parsed := parseValue_print item readable.1 fuel (closeBracket :: rest) (by omega) (stops_cons (by decide) rest)
    rw [parseItems_of parsed (by decide)]
    rfl
  | item, next :: items, readable, fuel + 1, rest, less => by
    rw [readableAll] at readable
    rw [printAll, printAll, Delimited.join, ← printAll] at less ⊢
    rw [List.length_append, List.length_cons] at less
    have parsed := parseValue_print item readable.1 fuel
      (comma :: (Delimited.join comma (printAll dialect (next :: items)) ++ closeBracket :: rest)) (by omega)
      (stops_cons (by decide) _)
    rw [List.append_assoc, List.cons_append, parseItems_of parsed (by decide), if_pos rfl,
      parseItems_print next items readable.2 fuel rest (by omega)]
    rfl

theorem parseMembers_print : (key : List UInt8) → (value : JsonValue N) → (members : List (List UInt8 × JsonValue N)) →
    readableMembers dialect ((key, value) :: members) → ∀ (fuel : ℕ) (rest : List UInt8),
      (Delimited.join comma (printMembers dialect ((key, value) :: members))).length + 1 < fuel →
        parseMembers dialect fuel (Delimited.join comma (printMembers dialect ((key, value) :: members)) ++
          closeBrace :: rest) =
          some ((key, value) :: members, rest)
  | _, _, _, _, 0, _, less => absurd less (Nat.not_lt_zero _)
  | key, value, [], readable, fuel + 1, rest, less => by
    rw [readableMembers] at readable
    rw [printMembers, printMembers, Delimited.join] at less ⊢
    rw [List.length_append, List.length_cons] at less
    have parsed := parseValue_print value readable.1 fuel (closeBrace :: rest) (by omega) (stops_cons (by decide) rest)
    rw [List.append_assoc, List.cons_append, parseMembers_of parsed (by decide)]
    rfl
  | key, value, (next, after) :: members, readable, fuel + 1, rest, less => by
    rw [readableMembers] at readable
    rw [printMembers, printMembers, Delimited.join, ← printMembers] at less ⊢
    rw [List.length_append, List.length_append, List.length_cons, List.length_cons] at less
    have parsed := parseValue_print value readable.1 fuel
      (comma :: (Delimited.join comma (printMembers dialect ((next, after) :: members)) ++ closeBrace :: rest)) (by omega)
      (stops_cons (by decide) _)
    rw [List.append_assoc, List.append_assoc, List.cons_append, List.cons_append, parseMembers_of parsed (by decide),
      if_pos rfl, parseMembers_print next after members readable.2 fuel rest (by omega)]
    rfl

end

/-- Text that was printed is parsed. -/
theorem parse_print {value : JsonValue N} (readable : Readable dialect value) :
    parse dialect (print dialect value) = some value := by
  have parsed := parseValue_print value readable ((print dialect value).length + 1) [] (Nat.lt_succ_self _)
    (fun byte isFirst => nomatch isFirst)
  rw [List.append_nil] at parsed
  rw [parse, parsed]
  rfl

end Printed

/-! ## The bytes of what is printed -/

theorem le_of_mem_escapeByte : ∀ byte, ∀ other ∈ escapeByte byte, 0x20 ≤ other := forall_byte (by decide +kernel)

theorem le_of_mem_printString (text : List UInt8) : ∀ byte ∈ printString text, 0x20 ≤ byte := by
  intro byte member
  rw [printString, List.mem_cons, List.mem_append, List.mem_singleton, List.mem_flatMap] at member
  rcases member with rfl | ⟨source, -, member⟩ | rfl
  · decide
  · exact le_of_mem_escapeByte source byte member
  · decide

/-- The bytes of a character of two or more are not escaped. -/
theorem escapeByte_of_le : ∀ {byte}, 0x80 ≤ byte → escapeByte byte = [byte] := @(forall_byte (by decide +kernel))

theorem escapeByte_of_lt : ∀ {byte}, byte < 0x80 → ∀ other ∈ escapeByte byte, other < 0x80 :=
  @(forall_byte (by decide +kernel))

theorem flatMap_escapeByte_of_le {text : List UInt8} (high : ∀ byte ∈ text, 0x80 ≤ byte) :
    text.flatMap escapeByte = text := by
  induction text with
  | nil => rfl
  | cons byte text ih =>
    rw [List.forall_mem_cons] at high
    rw [List.flatMap_cons, escapeByte_of_le high.1, ih high.2]
    rfl

theorem valid_printString {text : List UInt8} (valid : Utf8.Valid text) : Utf8.Valid (printString text) := by
  have quoted : Utf8.Valid [quote] := Utf8.valid_singleton (by decide)
  have inner : Utf8.Valid (text.flatMap escapeByte) := by
    obtain ⟨chars, rfl⟩ := valid.exists_chars
    clear valid
    induction chars with
    | nil => exact Utf8.valid_nil
    | cons c chars ih =>
      rw [List.flatMap_cons, List.flatMap_append]
      refine Utf8.Valid.append ?_ ih
      rcases Utf8.encode_cases c with ⟨byte, low, one⟩ | high
      · rw [one, List.flatMap_singleton]
        exact Utf8.valid_of_ascii (escapeByte_of_lt low)
      · rw [flatMap_escapeByte_of_le high]
        exact Utf8.valid_encode c
  exact quoted.append (inner.append quoted)

/-- What holds of the marks and of the members of an object, and of texts put together, holds of an object. -/
theorem print_object {property : List UInt8 → Prop}
    (append : ∀ first second, property first → property second → property (first ++ second))
    (mark : ∀ byte ∈ [openBrace, closeBrace, colon, comma], property [byte]) (nil : property [])
    {N : Type} {dialect : Dialect N} {members : List (List UInt8 × JsonValue N)}
    (each : ∀ member ∈ members, property (printString member.1) ∧ property (print dialect member.2)) :
    property (print dialect (.object members)) := by
  have joined (members : List (List UInt8 × JsonValue N))
      (each : ∀ member ∈ members, property (printString member.1) ∧ property (print dialect member.2)) :
      property (Delimited.join comma (printMembers dialect members)) := by
    induction members with
    | nil => exact nil
    | cons member members ih =>
      obtain ⟨key, value⟩ := member
      rw [List.forall_mem_cons] at each
      have here : property (printString key ++ colon :: print dialect value) :=
        append _ _ each.1.1 (append [colon] _ (mark colon (by simp)) each.1.2)
      rw [printMembers]
      by_cases last : printMembers dialect members = []
      · rwa [last, Delimited.join]
      · rw [Delimited.join_cons _ last]
        exact append _ _ here (append [comma] _ (mark comma (by simp)) (ih each.2))
  rw [print]
  exact append [openBrace] _ (mark openBrace (by simp)) (append _ _ (joined members each) (mark closeBrace (by simp)))

end JsonText

end OpalCpp

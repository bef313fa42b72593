import OpalCpp.Model.Core.Regex

/-! # The parser of regular expressions

Recursive descent over the bytes of the pattern. The parser's position is the list of the bytes
still to read, and a quantifier that turns out not to be one gives back what it has read. The
mutually recursive functions take fuel, which the length of the pattern bounds: between two bytes
read there are at most six calls.
-/

namespace OpalCpp.Regex

def kMaxRepeatCount : ℕ := 1024

def kMaxGroupDepth : ℕ := 128

/-- The bytes of the pattern from the parser's position on. -/
abbrev Rest := List UInt8

def fail {α : Type} (why : String) : Outcome α := .error (.Serialization ("Regex: " ++ why))

/-- Not an outcome of the parser; its fuel is never used up. -/
def outOfFuel : Error := .Serialization "Regex: out of fuel"

def eat (c : UInt8) : Rest → Option Rest
  | [] => none
  | next :: rest => if next = c then some rest else none

def isDigit (c : UInt8) : Bool := byteOf '0' ≤ c && c ≤ byteOf '9'

/-- The digits of `ParseInt` after the first `value`. -/
def parseDigits (value : ℕ) : Rest → Option (ℕ × Rest)
  | [] => some (value, [])
  | c :: rest =>
    if isDigit c then
      let value := value * 10 + (c.toNat - 48)
      if kMaxRepeatCount < value then none else parseDigits value rest
    else some (value, c :: rest)

def parseInt : Rest → Option (ℕ × Rest)
  | [] => none
  | c :: rest => if isDigit c then parseDigits 0 (c :: rest) else none

/-- `ParseBoundedQuantifier` after its opening brace: the bounds of n, n-or-more or n-to-m. -/
def parseBoundedQuantifier (rest : Rest) : Option (ℕ × Option ℕ × Rest) :=
  match parseInt rest with
  | none => none
  | some (n, rest) =>
    match eat 0x7d rest with
    | some rest => some (n, some n, rest)
    | none =>
      match eat (byteOf ',') rest with
      | none => none
      | some rest =>
        match eat 0x7d rest with
        | some rest => some (n, none, rest)
        | none =>
          match parseInt rest with
          | none => none
          | some (m, rest) =>
            match eat 0x7d rest with
            | none => none
            | some rest => if m < n then none else some (n, some m, rest)

def hexDigit (c : UInt8) : Option ℕ :=
  if isDigit c then some (c.toNat - 48)
  else if byteOf 'a' ≤ c && c ≤ byteOf 'f' then some (c.toNat - 97 + 10)
  else if byteOf 'A' ≤ c && c ≤ byteOf 'F' then some (c.toNat - 65 + 10)
  else none

def parseHex : ℕ → ℕ → Rest → Option (ℕ × Rest)
  | 0, value, rest => some (value, rest)
  | _ + 1, _, [] => none
  | digits + 1, value, c :: rest =>
    match hexDigit c with
    | none => none
    | some digit => parseHex digits (value * 16 + digit) rest

/-- Escapes shared by class and non-class contexts. -/
def simpleEscapeByte (c : UInt8) (rest : Rest) : Option (UInt8 × Rest) :=
  if c = byteOf 'n' then some (0x0a, rest)
  else if c = byteOf 'r' then some (0x0d, rest)
  else if c = byteOf 't' then some (0x09, rest)
  else if c = byteOf 'f' then some (0x0c, rest)
  else if c = byteOf 'v' then some (0x0b, rest)
  else if c = byteOf '0' then some (0x00, rest)
  else if c = byteOf 'x' then (parseHex 2 0 rest).map fun (value, rest) => (UInt8.ofNat value, rest)
  else if isWordByte c then none
  else some (c, rest)

def unsupportedEscape {α : Type} (c : UInt8) : Outcome α :=
  fail ("unsupported escape '\\" ++ String.singleton (Char.ofNat c.toNat) ++ "'")

/-- The class a letter after a backslash stands for, if it stands for one. -/
def escapedClass (c : UInt8) : Option ByteClass :=
  if c = byteOf 'd' then some digitClass
  else if c = byteOf 'D' then some (~~~digitClass)
  else if c = byteOf 'w' then some wordClass
  else if c = byteOf 'W' then some (~~~wordClass)
  else if c = byteOf 's' then some spaceClass
  else if c = byteOf 'S' then some (~~~spaceClass)
  else none

/-- A member of a bracketed class: a whole class or one byte. -/
inductive ClassMember where
  | cls (cls : ByteClass)
  | byte (byte : UInt8)
deriving DecidableEq, Repr

/-- After a backslash inside a class. -/
def parseClassEscape : Rest → Outcome (ClassMember × Rest)
  | [] => fail "dangling escape"
  | c :: rest =>
    match escapedClass c with
    | some cls => .ok (.cls cls, rest)
    | none =>
      if c = byteOf 'b' then .ok (.byte 0x08, rest)
      else
        match simpleEscapeByte c rest with
        | none => unsupportedEscape c
        | some (byte, rest) => .ok (.byte byte, rest)

/-- One member that starts with `c`. -/
def parseClassMember (c : UInt8) (rest : Rest) : Outcome (ClassMember × Rest) :=
  if c = 0x5c then parseClassEscape rest else .ok (.byte c, rest)

/-- The members of a class up to its closing bracket, which does not close it in the first place. -/
def parseClassMembers : ℕ → Bool → ByteClass → Rest → Outcome (ByteClass × Rest)
  | 0, _, _, _ => .error outOfFuel
  | _ + 1, _, _, [] => fail "unterminated character class"
  | fuel + 1, first, cls, c :: rest =>
    if c = byteOf ']' && !first then .ok (cls, rest)
    else do
      let (member, rest) ← parseClassMember c rest
      match member, rest with
      | .cls members, rest => parseClassMembers fuel false (cls ||| members) rest
      | .byte lo, dash :: h :: rest =>
        if dash = byteOf '-' && h != byteOf ']' then do
          let (last, rest) ← parseClassMember h rest
          match last with
          | .cls _ => fail "class escape cannot end a range"
          | .byte hi =>
            if hi < lo then fail "character range is out of order"
            else parseClassMembers fuel false (cls.setAll (byteRange lo.toNat hi.toNat)) rest
        else parseClassMembers fuel false (cls.set lo) (dash :: h :: rest)
      | .byte lo, rest => parseClassMembers fuel false (cls.set lo) rest

def parseClass (rest : Rest) : Outcome (Node × Rest) :=
  match eat (byteOf '^') rest with
  | some rest => do
    let (cls, rest) ← parseClassMembers (rest.length + 1) true 0 rest
    return (.cls (~~~cls), rest)
  | none => do
    let (cls, rest) ← parseClassMembers (rest.length + 1) true 0 rest
    return (.cls cls, rest)

/-- A code point as the sequence of its UTF-8 bytes. -/
def utf8Literal (code : ℕ) : Outcome Node :=
  if 0xD800 ≤ code ∧ code ≤ 0xDFFF then fail "surrogate \\u escapes are not supported"
  else if code < 0x80 then .ok (.byte (UInt8.ofNat code))
  else if code < 0x800 then
    .ok (.concat [.byte (UInt8.ofNat (0xC0 ||| (code >>> 6))), .byte (UInt8.ofNat (0x80 ||| (code &&& 0x3F)))])
  else
    .ok (.concat [.byte (UInt8.ofNat (0xE0 ||| (code >>> 12))),
      .byte (UInt8.ofNat (0x80 ||| ((code >>> 6) &&& 0x3F))), .byte (UInt8.ofNat (0x80 ||| (code &&& 0x3F)))])

/-- After a backslash outside a class. -/
def parseEscape : Rest → Outcome (Node × Rest)
  | [] => fail "dangling escape"
  | c :: rest =>
    match escapedClass c with
    | some cls => .ok (.cls cls, rest)
    | none =>
      if c = byteOf 'b' then .ok (.assertion .wordBoundary, rest)
      else if c = byteOf 'B' then .ok (.assertion .notWordBoundary, rest)
      else if byteOf '1' ≤ c && c ≤ byteOf '9' then
        fail "backreferences are not supported by the linear-time engine"
      else if c = byteOf 'u' then
        match parseHex 4 0 rest with
        | none => fail "malformed \\uHHHH escape"
        | some (code, rest) => do
          let node ← utf8Literal code
          return (node, rest)
      else
        match simpleEscapeByte c rest with
        | none => unsupportedEscape c
        | some (byte, rest) => .ok (.byte byte, rest)

/-- The quantifier at the parser's position: its bounds, or none. -/
def parseQuantifier : Rest → Option (ℕ × Option ℕ × Rest)
  | [] => none
  | q :: rest =>
    if q = byteOf '*' then some (0, none, rest)
    else if q = byteOf '+' then some (1, none, rest)
    else if q = byteOf '?' then some (0, some 1, rest)
    else if q = 0x7b then parseBoundedQuantifier rest
    else none

def Node.isAssertion : Node → Bool
  | .assertion _ => true
  | _ => false

/-- The end of `ParseRepeat`, with the atom and what follows it. -/
def quantify (atom : Node) (rest : Rest) : Outcome (Node × Rest) :=
  match parseQuantifier rest with
  | none => .ok (atom, rest)
  | some (min, max, rest) =>
    if atom.isAssertion then fail "quantifier applied to an assertion"
    else
      let rest := (eat (byteOf '?') rest).getD rest
      if rest.head? = some (byteOf '*') ∨ rest.head? = some (byteOf '+') then fail "double quantifier"
      else .ok (.repetition min max atom, rest)

/-- The head of a group after its parenthesis: the special forms, and what they leave to be read. -/
def parseGroupHead (rest : Rest) : Outcome Rest :=
  match eat (byteOf '?') rest with
  | none => .ok rest
  | some rest =>
    match eat (byteOf ':') rest with
    | some rest => .ok rest
    | none =>
      if rest.head? = some (byteOf '=') ∨ rest.head? = some (byteOf '!') then
        fail "lookahead is not supported by the linear-time engine"
      else
        match eat (byteOf '<') rest with
        | none => fail "unsupported group syntax '(?'"
        | some rest =>
          if rest.head? = some (byteOf '=') ∨ rest.head? = some (byteOf '!') then
            fail "lookbehind is not supported by the linear-time engine"
          else
            match eat (byteOf '>') (rest.dropWhile (· != byteOf '>')) with
            | none => fail "unterminated group name"
            | some rest => .ok rest

/-- `ParseConcat` with its pieces read. -/
def concatOf : List Node → Node
  | [] => .empty
  | [piece] => piece
  | pieces => .concat pieces

mutual

def parseAlternation : ℕ → ℕ → Rest → Outcome (Node × Rest)
  | 0, _, _ => .error outOfFuel
  | fuel + 1, depth, rest => do
    let (first, rest) ← parseConcat fuel depth rest
    if rest.head? = some (byteOf '|') then do
      let (branches, rest) ← parseBranches fuel depth rest
      return (.alt (first :: branches), rest)
    else return (first, rest)
termination_by structural fuel => fuel

/-- The branches after the first, each after its bar. -/
def parseBranches : ℕ → ℕ → Rest → Outcome (List Node × Rest)
  | 0, _, _ => .error outOfFuel
  | fuel + 1, depth, rest =>
    match eat (byteOf '|') rest with
    | none => .ok ([], rest)
    | some rest => do
      let (branch, rest) ← parseConcat fuel depth rest
      let (branches, rest) ← parseBranches fuel depth rest
      return (branch :: branches, rest)
termination_by structural fuel => fuel

def parseConcat : ℕ → ℕ → Rest → Outcome (Node × Rest)
  | 0, _, _ => .error outOfFuel
  | fuel + 1, depth, rest => do
    let (pieces, rest) ← parsePieces fuel depth rest
    return (concatOf pieces, rest)
termination_by structural fuel => fuel

/-- The pieces up to the end, a bar or a closing parenthesis. -/
def parsePieces : ℕ → ℕ → Rest → Outcome (List Node × Rest)
  | 0, _, _ => .error outOfFuel
  | _ + 1, _, [] => .ok ([], [])
  | fuel + 1, depth, c :: rest =>
    if c = byteOf '|' || c = byteOf ')' then .ok ([], c :: rest)
    else do
      let (piece, rest) ← parseRepeat fuel depth c rest
      let (pieces, rest) ← parsePieces fuel depth rest
      return (piece :: pieces, rest)
termination_by structural fuel => fuel

/-- `ParseRepeat` of an atom that starts with `c`. -/
def parseRepeat : ℕ → ℕ → UInt8 → Rest → Outcome (Node × Rest)
  | 0, _, _, _ => .error outOfFuel
  | fuel + 1, depth, c, rest => do
    let (atom, rest) ← parseAtom fuel depth c rest
    quantify atom rest
termination_by structural fuel => fuel

def parseAtom : ℕ → ℕ → UInt8 → Rest → Outcome (Node × Rest)
  | 0, _, _, _ => .error outOfFuel
  | fuel + 1, depth, c, rest =>
    if c = byteOf '^' then .ok (.assertion .inputStart, rest)
    else if c = byteOf '$' then .ok (.assertion .inputEnd, rest)
    else if c = byteOf '.' then .ok (.cls dotClass, rest)
    else if c = byteOf '(' then parseGroup fuel depth rest
    else if c = byteOf '[' then parseClass rest
    else if c = 0x5c then parseEscape rest
    else if c = byteOf '*' || c = byteOf '+' || c = byteOf '?' then
      fail "quantifier with nothing to repeat"
    else .ok (.byte c, rest)
termination_by structural fuel => fuel

def parseGroup : ℕ → ℕ → Rest → Outcome (Node × Rest)
  | 0, _, _ => .error outOfFuel
  | fuel + 1, depth, rest =>
    if kMaxGroupDepth ≤ depth then fail "groups nested too deeply"
    else do
      let rest ← parseGroupHead rest
      let (body, rest) ← parseAlternation fuel (depth + 1) rest
      match eat (byteOf ')') rest with
      | none => fail "missing ')'"
      | some rest => .ok (body, rest)
termination_by structural fuel => fuel

end

def parse (pattern : List UInt8) : Outcome Node := do
  let (node, rest) ← parseAlternation (8 * pattern.length + 8) 0 pattern
  if rest.isEmpty then return node else fail "unbalanced ')'"

/-- `Regex::Compile`. -/
def compile (pattern : List UInt8) : Outcome Regex := do
  let tree ← parse pattern
  compileTree tree

end OpalCpp.Regex

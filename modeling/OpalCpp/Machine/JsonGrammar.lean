import OpalCpp.Machine.JsonText

/-! # The grammar of JSON text

A text is the tokens of a value with space between them. A value has its strings and numbers here as they
are written, between the quotes. How many arrays and objects are open behind a token is counted by the
brackets; the most that are open at a point is how many the value is deep.
-/

namespace OpalCpp

namespace JsonGrammar

open JsonText

/-- A value as it is written. -/
abbrev Written := JsonValue (List UInt8)

/-! ## Tokens -/

inductive Token where
  /-- A bracket, a brace, a comma or a colon. -/
  | mark (byte : UInt8)
  /-- What stands between two quotes. -/
  | string (body : List UInt8)
  /-- A number or one of the three words. -/
  | scalar (text : List UInt8)

namespace Token

def text : Token → List UInt8
  | mark byte => [byte]
  | string body => quote :: (body ++ [quote])
  | scalar text => text

/-- One more array or object is open behind the token, or one less. -/
def change : Token → ℤ
  | mark byte =>
    if byte = openBracket ∨ byte = openBrace then 1 else if byte = closeBracket ∨ byte = closeBrace then -1 else 0
  | _ => 0

end Token

def IsDigit (byte : UInt8) : Prop := 0x30 ≤ byte ∧ byte ≤ 0x39

/-- One digit or more. -/
def Digits (text : List UInt8) : Prop := text ≠ [] ∧ ∀ byte ∈ text, IsDigit byte

/-- A point and the digits behind it, or nothing. -/
inductive Fraction : List UInt8 → Prop
  | none : Fraction []
  | some {digits : List UInt8} : Digits digits → Fraction (0x2e :: digits)

/-- The letter of an exponent, a sign or none, and digits; or nothing. -/
inductive Exponent : List UInt8 → Prop
  | none : Exponent []
  | some {letter : UInt8} {sign digits : List UInt8} : letter = 0x65 ∨ letter = 0x45 → sign ∈ [[], [0x2b], [0x2d]] →
      Digits digits → Exponent (letter :: (sign ++ digits))

/-- A number: no zero in front of other digits. -/
inductive IsNumber : List UInt8 → Prop
  | mk {sign whole fraction exponent : List UInt8} :
      sign ∈ [[], [0x2d]] → Digits whole → (whole.head? = some 0x30 → whole = [0x30]) →
      Fraction fraction → Exponent exponent → IsNumber (sign ++ whole ++ fraction ++ exponent)

/-- The characters of a string. Bytes from 0x80 on are those of characters in UTF-8, which is not asked for. -/
inductive Characters : List UInt8 → Prop
  | nil : Characters []
  | plain {byte : UInt8} {rest : List UInt8} : 0x20 ≤ byte → byte ≠ quote → byte ≠ backslash → Characters rest →
      Characters (byte :: rest)
  | short {letter byte : UInt8} {rest : List UInt8} : shortEscape letter = some byte → Characters rest →
      Characters (backslash :: letter :: rest)
  | unit {a b c d : UInt8} {value : ℕ} {rest : List UInt8} : codeUnit a b c d = some value → Characters rest →
      Characters (backslash :: 0x75 :: a :: b :: c :: d :: rest)

def Token.Valid : Token → Prop
  | .mark byte => byte ∈ [openBracket, closeBracket, openBrace, closeBrace, comma, colon]
  | .string body => Characters body
  | .scalar text => text = null ∨ text = JsonText.bool true ∨ text = JsonText.bool false ∨ IsNumber text

/-- Tokens with space before, between and behind them. -/
inductive Spaced : List Token → List UInt8 → Prop
  | nil {space : List UInt8} : (∀ byte ∈ space, isSpace byte = true) → Spaced [] space
  | cons {token : Token} {tokens : List Token} {space text : List UInt8} :
      (∀ byte ∈ space, isSpace byte = true) → token.Valid →
      Spaced tokens text → Spaced (token :: tokens) (space ++ token.text ++ text)

/-! ## Values -/

mutual

def tokens : Written → List Token
  | .null => [.scalar null]
  | .bool value => [.scalar (JsonText.bool value)]
  | .number text => [.scalar text]
  | .string body => [.string body]
  | .array items => .mark openBracket :: (tokensAll items ++ [.mark closeBracket])
  | .object members => .mark openBrace :: (tokensMembers members ++ [.mark closeBrace])

/-- Values with commas between them. -/
def tokensAll : List Written → List Token
  | [] => []
  | [item] => tokens item
  | item :: items => tokens item ++ .mark comma :: tokensAll items

/-- Names, each with a colon and a value, and with commas between them. -/
def tokensMembers : List (List UInt8 × Written) → List Token
  | [] => []
  | [(key, value)] => .string key :: .mark colon :: tokens value
  | (key, value) :: members => .string key :: .mark colon :: (tokens value ++ .mark comma :: tokensMembers members)

end

/-- A well-formed text, and the value that it is the text of. -/
def IsText (value : Written) (text : List UInt8) : Prop := Spaced (tokens value) text

mutual

/-- The most arrays and objects that a value stands inside of. -/
def surrounding : Written → ℕ
  | .array [] => 0
  | .array items => surroundingAll items + 1
  | .object [] => 0
  | .object members => surroundingMembers members + 1
  | _ => 0

def surroundingAll : List Written → ℕ
  | [] => 0
  | item :: items => max (surrounding item) (surroundingAll items)

def surroundingMembers : List (List UInt8 × Written) → ℕ
  | [] => 0
  | (_, value) :: members => max (surrounding value) (surroundingMembers members)

end

/-! ## Open arrays and objects -/

/-- How many are open behind the tokens. -/
def opened : List Token → ℤ
  | [] => 0
  | token :: tokens => token.change + opened tokens

/-- The most that are open at a point of the tokens. -/
def peak : List Token → ℤ
  | [] => 0
  | token :: tokens => max 0 (token.change + peak tokens)

theorem peak_nonneg (tokens : List Token) : 0 ≤ peak tokens := by
  cases tokens with
  | nil => exact le_refl _
  | cons token tokens => exact le_max_left _ _

theorem opened_le_peak (tokens : List Token) : opened tokens ≤ peak tokens := by
  induction tokens with
  | nil => exact le_refl _
  | cons token tokens ih =>
    rw [opened, peak]
    omega

theorem opened_append (first second : List Token) : opened (first ++ second) = opened first + opened second := by
  induction first with
  | nil => exact (Int.zero_add _).symm
  | cons token first ih => rw [List.cons_append, opened, opened, ih, Int.add_assoc]

theorem peak_append (first second : List Token) :
    peak (first ++ second) = max (peak first) (opened first + peak second) := by
  induction first with
  | nil =>
    have nonneg := peak_nonneg second
    rw [List.nil_append, peak, opened]
    omega
  | cons token first ih =>
    rw [List.cons_append, peak, peak, opened, ih]
    omega

/-- Of a value nothing is left open, and the most that are open are those it is deep. -/
def Balanced (tokens : List Token) (nesting : ℕ) : Prop := opened tokens = 0 ∧ peak tokens = nesting

theorem Balanced.append {first second : List Token} {low high : ℕ} (one : Balanced first low) (two : Balanced second high) :
    Balanced (first ++ second) (max low high) := by
  constructor
  · rw [opened_append, one.1, two.1, Int.add_zero]
  · rw [peak_append, one.1, one.2, two.2]
    omega

theorem Balanced.single {token : Token} (neutral : token.change = 0) : Balanced [token] 0 := by
  constructor
  · rw [opened, opened, neutral]
    rfl
  · rw [peak, peak, neutral]
    rfl

theorem Balanced.enclosed {inner : List Token} {nesting : ℕ} {first last : Token} (balanced : Balanced inner nesting)
    (begins : first.change = 1) (ends : last.change = -1) : Balanced (first :: (inner ++ [last])) (nesting + 1) := by
  have tail : opened [last] = -1 ∧ peak [last] = 0 := by
    rw [opened, opened, peak, peak, ends]
    decide
  constructor
  · rw [opened, opened_append, balanced.1, begins, tail.1]
    rfl
  · rw [peak, peak_append, balanced.1, balanced.2, begins, tail.2]
    omega

mutual

theorem balanced_tokens : (value : Written) → Balanced (tokens value) value.nesting
  | .null => .single rfl
  | .bool _ => .single rfl
  | .number _ => .single rfl
  | .string _ => .single rfl
  | .array items => by
    rw [tokens, JsonValue.nesting]
    exact (balanced_tokensAll items).enclosed (by decide) (by decide)
  | .object members => by
    rw [tokens, JsonValue.nesting]
    exact (balanced_tokensMembers members).enclosed (by decide) (by decide)

theorem balanced_tokensAll : (items : List Written) → Balanced (tokensAll items) (JsonValue.nestingAll items)
  | [] => ⟨rfl, rfl⟩
  | [item] => by
    rw [tokensAll, JsonValue.nestingAll, JsonValue.nestingAll, Nat.max_zero]
    exact balanced_tokens item
  | item :: next :: items => by
    have comma_ : Balanced [.mark comma] 0 := .single (by decide)
    have both := (balanced_tokens item).append (comma_.append (balanced_tokensAll (next :: items)))
    rw [tokensAll, JsonValue.nestingAll]
    · rwa [Nat.zero_max] at both
    · exact List.cons_ne_nil _ _

theorem balanced_tokensMembers : (members : List (List UInt8 × Written)) →
    Balanced (tokensMembers members) (JsonValue.nestingMembers members)
  | [] => ⟨rfl, rfl⟩
  | [(key, value)] => by
    have name : Balanced [.string key, .mark colon] 0 := Balanced.append (.single rfl) (.single (by decide))
    have both := name.append (balanced_tokens value)
    rw [tokensMembers, JsonValue.nestingMembers, JsonValue.nestingMembers, Nat.max_zero]
    rwa [Nat.zero_max] at both
  | (key, value) :: next :: members => by
    have name : Balanced [.string key, .mark colon] 0 := Balanced.append (.single rfl) (.single (by decide))
    have comma_ : Balanced [.mark comma] 0 := .single (by decide)
    have both := name.append ((balanced_tokens value).append (comma_.append (balanced_tokensMembers (next :: members))))
    rw [tokensMembers, JsonValue.nestingMembers]
    · rwa [Nat.zero_max, Nat.zero_max] at both
    · exact List.cons_ne_nil _ _

end

/-- A text begins a well-formed one, and so many arrays and objects are open at one of its points. -/
def Opens (text : List UInt8) (count : ℤ) : Prop :=
  ∃ value whole, IsText value whole ∧ text <+: whole ∧
    ∃ first second before, tokens value = first ++ second ∧ Spaced first before ∧ before <+: text ∧ opened first = count

/-! ## Printed values -/

theorem spaced_compact {tokens : List Token} (valid : ∀ token ∈ tokens, token.Valid) :
    Spaced tokens (tokens.flatMap Token.text) := by
  induction tokens with
  | nil => exact .nil fun _ member => absurd member List.not_mem_nil
  | cons token tokens ih =>
    obtain ⟨first, others⟩ := List.forall_mem_cons.mp valid
    exact .cons (fun _ member => absurd member List.not_mem_nil) first (ih others)

section Printed

variable {N : Type} (dialect : Dialect N)

mutual

/-- A value as it is printed. -/
def written : JsonValue N → Written
  | .null => .null
  | .bool value => .bool value
  | .number value => .number (dialect.print value)
  | .string text => .string (text.flatMap escapeByte)
  | .array items => .array (writtenAll items)
  | .object members => .object (writtenMembers members)

def writtenAll : List (JsonValue N) → List Written
  | [] => []
  | item :: items => written item :: writtenAll items

def writtenMembers : List (List UInt8 × JsonValue N) → List (List UInt8 × Written)
  | [] => []
  | (key, value) :: members => (key.flatMap escapeByte, written value) :: writtenMembers members

end

mutual

/-- The tokens of a value, one after the other, are what is printed. -/
theorem text_tokens : (value : JsonValue N) → (tokens (written dialect value)).flatMap Token.text = print dialect value
  | .null => rfl
  | .bool _ => List.append_nil _
  | .number _ => List.append_nil _
  | .string _ => by rw [written, tokens, List.flatMap_singleton, print, Token.text, printString]
  | .array items => by
    rw [written, tokens, List.flatMap_cons, List.flatMap_append, text_tokensAll items, print]
    rfl
  | .object members => by
    rw [written, tokens, List.flatMap_cons, List.flatMap_append, text_tokensMembers members, print]
    rfl

theorem text_tokensAll : (items : List (JsonValue N)) →
    (tokensAll (writtenAll dialect items)).flatMap Token.text = Delimited.join comma (printAll dialect items)
  | [] => rfl
  | [item] => by rw [writtenAll, writtenAll, tokensAll, text_tokens item, printAll, printAll, Delimited.join]
  | item :: next :: items => by
    have printed : printAll dialect (item :: next :: items) = print dialect item :: printAll dialect (next :: items) := by
      rw [printAll]
    have some_ : printAll dialect (next :: items) ≠ [] := by
      rw [printAll]
      exact List.cons_ne_nil _ _
    rw [writtenAll, tokensAll, List.flatMap_append, text_tokens item, List.flatMap_cons, text_tokensAll (next :: items),
      printed, Delimited.join_cons _ some_]
    · rfl
    · rw [writtenAll]
      exact List.cons_ne_nil _ _

theorem text_tokensMembers : (members : List (List UInt8 × JsonValue N)) →
    (tokensMembers (writtenMembers dialect members)).flatMap Token.text = Delimited.join comma (printMembers dialect members)
  | [] => rfl
  | [(key, value)] => by
    rw [writtenMembers, writtenMembers, tokensMembers, List.flatMap_cons, List.flatMap_cons, text_tokens value, printMembers,
      printMembers, Delimited.join, printString]
    simp [Token.text]
  | (key, value) :: next :: members => by
    have printed : printMembers dialect ((key, value) :: next :: members) =
        (printString key ++ colon :: print dialect value) :: printMembers dialect (next :: members) := by
      rw [printMembers]
    have some_ : printMembers dialect (next :: members) ≠ [] := by
      rw [printMembers]
      exact List.cons_ne_nil _ _
    rw [writtenMembers, tokensMembers, List.flatMap_cons, List.flatMap_cons, List.flatMap_append, text_tokens value,
      List.flatMap_cons, text_tokensMembers (next :: members), printed, Delimited.join_cons _ some_, printString]
    · simp [Token.text]
    · rw [writtenMembers]
      exact List.cons_ne_nil _ _

end

theorem characters_escapeByte (byte : UInt8) {rest : List UInt8} (more : Characters rest) :
    Characters (escapeByte byte ++ rest) := by
  have all : ∀ n < 0x20, codeUnit 0x30 0x30 (hexDigit (n / 16)) (hexDigit (n % 16)) = some n := by decide
  have named : letters.all (fun letter => shortEscape letter.1 = some letter.2) = true := by decide
  rw [escapeByte]
  split_ifs with special control
  · have short : shortEscape byte = some byte := by rw [shortEscape, if_pos (special.imp_right .inl)]
    exact .short short more
  · cases found : letters.find? fun letter => letter.2 = byte with
    | some letter =>
      have short := of_decide_eq_true (List.all_eq_true.mp named letter (List.mem_of_find?_eq_some found))
      exact .short short more
    | none => exact .unit (all byte.toNat (UInt8.lt_iff_toNat_lt.mp control)) more
  · rw [not_or] at special
    exact .plain (UInt8.not_lt.mp control) special.1 special.2 more

theorem characters_flatMap (text : List UInt8) : Characters (text.flatMap escapeByte) := by
  induction text with
  | nil => exact .nil
  | cons byte text ih =>
    rw [List.flatMap_cons]
    exact characters_escapeByte byte ih

variable {dialect}

mutual

theorem valid_tokens (numbers : ∀ value, IsNumber (dialect.print value)) : (value : JsonValue N) →
    ∀ token ∈ tokens (written dialect value), token.Valid
  | .null => by simp [written, tokens, Token.Valid]
  | .bool value => by cases value <;> simp [written, tokens, Token.Valid]
  | .number value => by simp [written, tokens, Token.Valid, numbers value]
  | .string text => by simp [written, tokens, Token.Valid, characters_flatMap]
  | .array items => by
    have inner := valid_tokensAll numbers items
    rw [written, tokens, List.forall_mem_cons, List.forall_mem_append]
    exact ⟨by simp [Token.Valid], inner, by simp [Token.Valid]⟩
  | .object members => by
    have inner := valid_tokensMembers numbers members
    rw [written, tokens, List.forall_mem_cons, List.forall_mem_append]
    exact ⟨by simp [Token.Valid], inner, by simp [Token.Valid]⟩

theorem valid_tokensAll (numbers : ∀ value, IsNumber (dialect.print value)) : (items : List (JsonValue N)) →
    ∀ token ∈ tokensAll (writtenAll dialect items), token.Valid
  | [] => by simp [writtenAll, tokensAll]
  | [item] => by
    rw [writtenAll, writtenAll, tokensAll]
    exact valid_tokens numbers item
  | item :: next :: items => by
    have first := valid_tokens numbers item
    have others := valid_tokensAll numbers (next :: items)
    rw [writtenAll, tokensAll, List.forall_mem_append, List.forall_mem_cons]
    · exact ⟨first, by simp [Token.Valid], others⟩
    · rw [writtenAll]
      exact List.cons_ne_nil _ _

theorem valid_tokensMembers (numbers : ∀ value, IsNumber (dialect.print value)) :
    (members : List (List UInt8 × JsonValue N)) →
    ∀ token ∈ tokensMembers (writtenMembers dialect members), token.Valid
  | [] => by simp [writtenMembers, tokensMembers]
  | [(key, value)] => by
    have only := valid_tokens numbers value
    rw [writtenMembers, writtenMembers, tokensMembers, List.forall_mem_cons, List.forall_mem_cons]
    exact ⟨characters_flatMap key, by simp [Token.Valid], only⟩
  | (key, value) :: next :: members => by
    have first := valid_tokens numbers value
    have others := valid_tokensMembers numbers (next :: members)
    rw [writtenMembers, tokensMembers, List.forall_mem_cons, List.forall_mem_cons, List.forall_mem_append,
      List.forall_mem_cons]
    · exact ⟨characters_flatMap key, by simp [Token.Valid], first, by simp [Token.Valid], others⟩
    · rw [writtenMembers]
      exact List.cons_ne_nil _ _

end

/-- What is printed is well-formed. -/
theorem isText_print (numbers : ∀ value, IsNumber (dialect.print value)) (value : JsonValue N) :
    IsText (written dialect value) (print dialect value) := by
  have compact := spaced_compact (valid_tokens numbers value)
  rwa [text_tokens] at compact

end Printed

end JsonGrammar

end OpalCpp

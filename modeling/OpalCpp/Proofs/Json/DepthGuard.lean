import OpalCpp.Machine.JsonGrammar
import OpalCpp.Proofs.Json.RoundTrip

/-! # The guard of the depth

The scan reads a text token by token: what is between quotes does not count, and of the other bytes only
the brackets do. It stops at the first point where more arrays and objects are open than may be, whatever
follows, and comes to the end of a text that has no such point.
-/

namespace OpalCpp.Json

open JsonText (quote backslash comma colon openBracket closeBracket openBrace closeBrace)
open JsonGrammar

/-! ## Tokens -/

theorem plain_of_forall {text : Bytes} {good : UInt8 → Prop} (all : ∀ byte ∈ text, good byte)
    (apart : ∀ byte, good byte → byte ∉ [quote, openBracket, closeBracket, openBrace, closeBrace]) : Plain text :=
  fun byte member => apart byte (all byte member)

theorem Plain.append {first second : Bytes} (one : Plain first) (two : Plain second) : Plain (first ++ second) :=
  fun byte member => (List.mem_append.mp member).elim (one byte) (two byte)

theorem Plain.cons {byte : UInt8} {rest : Bytes} (other : byte ∉ [quote, openBracket, closeBracket, openBrace, closeBrace])
    (plain : Plain rest) : Plain (byte :: rest) := List.forall_mem_cons.mpr ⟨other, plain⟩

theorem plain_nil : Plain [] := fun _ member => absurd member List.not_mem_nil

theorem plain_digits {text : Bytes} (digits : Digits text) : Plain text := by
  apply plain_of_forall digits.2
  rintro byte ⟨least, greatest⟩ member
  have all : ∀ mark ∈ [quote, openBracket, closeBracket, openBrace, closeBrace], ¬ (0x30 ≤ mark ∧ mark ≤ 0x39) := by decide
  exact all byte member ⟨least, greatest⟩

theorem plain_sign {sign : Bytes} (among : sign ∈ [[], [0x2b], [0x2d]]) : Plain sign := by
  have all : ∀ sign ∈ [[], [0x2b], [0x2d]], Plain sign := by
    unfold Plain
    decide
  exact all sign among

theorem plain_number {text : Bytes} (number : IsNumber text) : Plain text := by
  obtain ⟨among, whole, _, fraction, exponent⟩ := number
  refine Plain.append (Plain.append (Plain.append (plain_sign ?_) (plain_digits whole)) ?_) ?_
  · revert among
    simp only [List.mem_cons]
    tauto
  · cases fraction with
    | none => exact plain_nil
    | some digits => exact Plain.cons (by decide) (plain_digits digits)
  · cases exponent with
    | none => exact plain_nil
    | some letter among digits =>
      apply Plain.cons _ ((plain_sign among).append (plain_digits digits))
      obtain rfl | rfl := letter <;> decide

theorem plain_space {space : Bytes} (all : ∀ byte ∈ space, JsonText.isSpace byte = true) : Plain space := by
  apply plain_of_forall all
  intro byte isSpace member
  have none_ : ∀ mark ∈ [quote, openBracket, closeBracket, openBrace, closeBrace], JsonText.isSpace mark ≠ true := by decide
  exact none_ byte member isSpace

theorem hexValue_ne {byte : UInt8} {value : ℕ} (hex : JsonText.hexValue byte = some value) :
    byte ≠ quote ∧ byte ≠ backslash := by
  constructor
  · rintro rfl
    cases hex
  · rintro rfl
    cases hex

theorem codeUnit_ne {a b c d : UInt8} {value : ℕ} (unit : JsonText.codeUnit a b c d = some value) :
    ∀ digit ∈ [a, b, c, d], digit ≠ quote ∧ digit ≠ backslash := by
  simp only [JsonText.codeUnit, Option.bind_eq_bind, Option.bind_eq_some_iff] at unit
  obtain ⟨_, first, _, second, _, third, _, fourth, _⟩ := unit
  simp only [List.forall_mem_cons]
  exact ⟨hexValue_ne first, hexValue_ne second, hexValue_ne third, hexValue_ne fourth, fun _ member =>
    absurd member List.not_mem_nil⟩

theorem escaped_of_characters {body : Bytes} (characters : Characters body) : Escaped body := by
  induction characters with
  | nil => exact escaped_nil
  | plain _ notQuote notSlash _ ih => exact (escaped_cons notSlash _).mpr ⟨notQuote, ih⟩
  | short _ _ ih => exact (escaped_slash _ _).mpr ih
  | unit digits _ ih =>
    have apart := codeUnit_ne digits
    simp only [List.forall_mem_cons] at apart
    obtain ⟨first, second, third, fourth, _⟩ := apart
    rw [escaped_slash, escaped_cons first.2, escaped_cons second.2, escaped_cons third.2, escaped_cons fourth.2]
    exact ⟨first.1, second.1, third.1, fourth.1, ih⟩

theorem plain_scalar {text : Bytes} (valid : (Token.scalar text).Valid) : Plain text := by
  obtain rfl | rfl | rfl | number := valid
  · unfold Plain
    decide
  · unfold Plain
    decide
  · unfold Plain
    decide
  · exact plain_number number

theorem scan_neutral {token : Token} (scans : Scans token.text 0) (neutral : token.change = 0) {depth : ℤ}
    (within : depth ≤ 512)
    (rest : Bytes) : exceedsMaxDepth depth false false (token.text ++ rest) =
      if 512 < depth + token.change then true else exceedsMaxDepth (depth + token.change) false false rest := by
  have here := scans depth rest within
  rw [Nat.cast_zero, add_zero] at here
  rw [neutral, add_zero]
  exact here

/-- The scan over a token, from a depth within the limit. -/
theorem scan_token {token : Token} (valid : token.Valid) {depth : ℤ} (within : depth ≤ 512) (rest : Bytes) :
    exceedsMaxDepth depth false false (token.text ++ rest) =
      if 512 < depth + token.change then true else exceedsMaxDepth (depth + token.change) false false rest := by
  cases token with
  | mark byte =>
    by_cases isOpen : byte = openBracket ∨ byte = openBrace
    · have more : (Token.mark byte).change = 1 := if_pos isOpen
      rw [more]
      rcases Int.lt_or_le depth 512 with room | full
      · rw [if_neg (by omega)]
        exact scan_open isOpen room rest
      · rw [if_pos (by omega)]
        exact scan_tooDeep isOpen full rest
    by_cases isClose : byte = closeBracket ∨ byte = closeBrace
    · have less : (Token.mark byte).change = -1 := (if_neg isOpen).trans (if_pos isClose)
      rw [less, if_neg (by omega)]
      exact scan_close isClose depth rest
    · have separator : byte = comma ∨ byte = colon := by
        rw [Token.Valid] at valid
        simp only [List.mem_cons, List.not_mem_nil, or_false] at valid
        tauto
      have none_ : (Token.mark byte).change = 0 := (if_neg isOpen).trans (if_neg isClose)
      have plain : Scans (Token.mark byte).text 0 := by
        obtain rfl | rfl := separator
        · exact .plain plain_comma
        · exact .plain plain_colon
      exact scan_neutral plain none_ within rest
  | string body => exact scan_neutral (.string rfl (escaped_of_characters valid)) rfl within rest
  | scalar text =>
    have plain : Scans (Token.scalar text).text 0 := .plain (plain_scalar valid)
    exact scan_neutral plain rfl within rest

/-- The scan over tokens: it stops if there is a point that is too deep, and comes out with the change of
them all if not. -/
theorem scan_spaced {tokens : List Token} {text : Bytes} (spaced : Spaced tokens text) {depth : ℤ} (within : depth ≤ 512)
    (rest : Bytes) : exceedsMaxDepth depth false false (text ++ rest) =
      if 512 < depth + peak tokens then true else exceedsMaxDepth (depth + opened tokens) false false rest := by
  induction spaced generalizing depth with
  | nil space =>
    rw [scan_plain (plain_space space), peak, opened, add_zero, if_neg (by omega)]
  | @cons token tokens space text blank valid _ ih =>
    have later := peak_nonneg tokens
    rw [List.append_assoc, List.append_assoc, scan_plain (plain_space blank), scan_token valid within, peak, opened]
    by_cases deep : 512 < depth + token.change
    · rw [if_pos deep, if_pos (by omega)]
    · rw [if_neg deep, ih (by omega), ← add_assoc]
      by_cases deeper : 512 < depth + token.change + peak tokens
      · rw [if_pos deeper, if_pos (by omega)]
      · rw [if_neg deeper, if_neg (by omega)]

/-! ## The guard -/

theorem exceeds_text {value : Written} {text : Bytes} (isText : IsText value text) :
    exceedsMaxDepth 0 false false text = true ↔ 512 < value.nesting := by
  have scanned := scan_spaced isText (by decide : (0 : ℤ) ≤ 512) []
  obtain ⟨closed, deep⟩ := balanced_tokens value
  rw [List.append_nil, deep, closed, zero_add] at scanned
  rw [scanned]
  split_ifs with beyond
  · simpa using beyond
  · simp only [exceedsMaxDepth, Bool.false_eq_true, false_iff]
    omega

theorem exceeds_opens {text before : Bytes} (passes : exceedsMaxDepth 0 false false text = false) (begins : before <+: text)
    {count : ℤ}
    (opens : Opens before count) : count ≤ 512 := by
  obtain ⟨value, whole, _, _, first, second, tokens, _, spaced, inside, rfl⟩ := opens
  obtain ⟨rest, rfl⟩ := inside.trans begins
  have scanned := scan_spaced spaced (by decide : (0 : ℤ) ≤ 512) rest
  by_contra deep
  have highest := opened_le_peak first
  rw [passes, if_pos (by omega)] at scanned
  cases scanned

/-- Of a well-formed text the guard is exact: it refuses those where arrays and objects are nested more than
512 deep. Of any text that it lets pass, no beginning that begins a well-formed text has more than 512 of them
open at a point. -/
theorem depth_guard :
    (∀ value text, IsText value text → (exceedsMaxDepth 0 false false text = true ↔ 512 < value.nesting)) ∧
    ∀ text, exceedsMaxDepth 0 false false text = false → ∀ before, before <+: text → ∀ count, Opens before count →
      count ≤ 512 :=
  ⟨fun _ _ isText => exceeds_text isText, fun _ passes _ begins _ opens => exceeds_opens passes begins opens⟩

/-! ### An empty array, so many deep -/

def nest : ℕ → Written
  | 0 => .array []
  | depth + 1 => .array [nest depth]

theorem nesting_nest (depth : ℕ) : (nest depth).nesting = depth + 1 := by
  induction depth with
  | zero => simp [nest, JsonValue.nesting, JsonValue.nestingAll]
  | succ depth ih => simp [nest, JsonValue.nesting, JsonValue.nestingAll, ih]

theorem surrounding_nest (depth : ℕ) : surrounding (nest depth) = depth := by
  induction depth with
  | zero => simp [nest, surrounding]
  | succ depth ih => simp [nest, surrounding, surroundingAll, ih]

theorem valid_nest (depth : ℕ) : ∀ token ∈ tokens (nest depth), token.Valid := by
  have opens : (Token.mark openBracket).Valid := List.mem_cons_self
  have closes : (Token.mark closeBracket).Valid := List.mem_cons_of_mem _ List.mem_cons_self
  induction depth with
  | zero => simpa [nest, tokens, tokensAll] using ⟨opens, closes⟩
  | succ depth ih =>
    rw [nest, tokens, tokensAll, List.forall_mem_cons, List.forall_mem_append]
    exact ⟨opens, ih, by simpa using closes⟩

/-- The innermost of 513 arrays counts, though no value is inside of it. -/
theorem depth_guard_empty : ¬ ∀ value text, IsText value text →
    (exceedsMaxDepth 0 false false text = true ↔ 512 < surrounding value) := by
  intro exact_
  have isText : IsText (nest 512) ((tokens (nest 512)).flatMap Token.text) := spaced_compact (valid_nest 512)
  have deep := (exceeds_text isText).mpr (by rw [nesting_nest]; decide)
  have inside := (exact_ _ _ isText).mp deep
  rw [surrounding_nest] at inside
  exact lt_irrefl _ inside

end OpalCpp.Json

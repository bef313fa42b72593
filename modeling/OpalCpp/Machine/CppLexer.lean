import OpalCpp.Machine.CppLiteral
import Mathlib.Data.List.TakeWhile

/-! # Elements of string literals

How an ordinary string literal of C++17 and later is taken apart: physical lines are spliced, there are no trigraphs,
and each element is as long as it can be. What a standard or an implementation decides for itself is a dialect. The
grammar says which spellings are elements and what may follow them; an element is closed where that is anything, and a
text of closed elements can be put into any literal behind one of them.
-/

namespace OpalCpp.CppLiteral

structure Dialect where
  /-- Whether there are escapes with braces, as of C++23. -/
  delimited : Bool
  /-- Whether blanks between a backslash and the end of its line go with it, as of C++23. -/
  trims : Bool
  /-- The character with a name, `\N{…}`. -/
  named : List UInt8 → Option (List UInt8)
  /-- What a conditionally supported escape stands for. -/
  conditional : UInt8 → Option (List UInt8)

inductive Element where
  | ordinary (c : UInt8)
  | simple (letter : UInt8)
  | octal (digits : List UInt8)
  | hex (digits : List UInt8)
  | universal (letter : UInt8) (digits : List UInt8)
  | delimited (letter : UInt8) (content : List UInt8)
  | conditional (letter : UInt8)
deriving DecidableEq

def isOctal (c : UInt8) : Bool := (octalDigit c).isSome

def isHex (c : UInt8) : Bool := (hexDigit c).isSome

/-! ## Lines -/

def isBlank (c : UInt8) : Bool := c = 0x20 || c = 0x09 || c = 0x0b || c = 0x0c

/-- How many characters there are up to the end of the line, where there is nothing else on it. -/
def lineEnd (trims : Bool) : List UInt8 → Option ℕ
  | [] => none
  | c :: text => if c = lineFeed then some 1 else if trims && isBlank c then (lineEnd trims text).map (· + 1) else none

/-- A text without the characters that it begins with, this many, and with each backslash that ends a line gone with
that end. -/
def splice (trims : Bool) : ℕ → List UInt8 → List UInt8
  | _, [] => []
  | skipped + 1, _ :: text => splice trims skipped text
  | 0, c :: text =>
    match (if c = backslash then lineEnd trims text else none) with
    | some length => splice trims length text
    | none => c :: splice trims 0 text

/-! ## Elements -/

/-- What there is up to a closing brace on the line, and what is behind it. -/
def takeBraced : List UInt8 → Option (List UInt8 × List UInt8)
  | [] => none
  | c :: text =>
    if c = 0x7d then some ([], text)
    else if c = lineFeed then none
    else (takeBraced text).map fun (content, rest) => (c :: content, rest)

/-- The letters of escapes with braces: `o`, `x`, `u` and `N`. -/
def bracedLetters : List UInt8 := [0x6f, 0x78, 0x75, 0x4e]

/-- How many digits there are behind a `u` or a `U`. -/
def universalLength (letter : UInt8) : ℕ := if letter = 0x75 then 4 else 8

def takeUniversal (letter : UInt8) (text : List UInt8) : Option (Element × List UInt8) :=
  let digits := text.take (universalLength letter)
  if digits.length = universalLength letter ∧ digits.all isHex then
    some (.universal letter digits, text.drop (universalLength letter))
  else none

/-- An escape, behind its backslash. -/
def Dialect.takeEscape (d : Dialect) : List UInt8 → Option (Element × List UInt8)
  | [] => none
  | c :: text =>
    if (CppLiteral.simple.lookup c).isSome then some (.simple c, text)
    else if isOctal c then
      let digits := ((c :: text).take 3).takeWhile isOctal
      some (.octal digits, (c :: text).drop digits.length)
    else if d.delimited ∧ c ∈ bracedLetters ∧ text.head? = some 0x7b then
      (takeBraced text.tail).map fun (content, rest) => (.delimited c content, rest)
    else if c = 0x78 then
      if text.takeWhile isHex = [] then none else some (.hex (text.takeWhile isHex), text.dropWhile isHex)
    else if c = 0x75 ∨ c = 0x55 then takeUniversal c text
    else if c = lineFeed then none
    else some (.conditional c, text)

def Dialect.takeElement (d : Dialect) : List UInt8 → Option (Element × List UInt8)
  | [] => none
  | c :: text =>
    if c = quote ∨ c = lineFeed then none
    else if c = backslash then d.takeEscape text
    else some (.ordinary c, text)

/-- The number that digits of a base spell. -/
def number (digit : UInt8 → Option ℕ) (base : ℕ) (digits : List UInt8) : Option ℕ :=
  digits.foldlM (fun value c => (digit c).map (value * base + ·)) 0

/-- What an escape with braces stands for. -/
def Dialect.content (d : Dialect) (letter : UInt8) (content : List UInt8) : Option (List UInt8) :=
  if letter = 0x4e then d.named content
  else if content = [] then none
  else if letter = 0x6f then (number octalDigit 8 content).bind byte
  else if letter = 0x78 then (number hexDigit 16 content).bind byte
  else (number hexDigit 16 content).bind character

def Dialect.bytes (d : Dialect) : Element → Option (List UInt8)
  | .ordinary c => some [c]
  | .simple letter => (CppLiteral.simple.lookup letter).map fun byte => [byte]
  | .octal digits => (number octalDigit 8 digits).bind byte
  | .hex digits => (number hexDigit 16 digits).bind byte
  | .universal _ digits => (number hexDigit 16 digits).bind character
  | .delimited letter content => d.content letter content
  | .conditional letter => d.conditional letter

/-! ## Literals -/

/-- The elements up to the quote that ends a literal, and what follows it. -/
def Dialect.lexBody (d : Dialect) : ℕ → List UInt8 → Option (List Element × List UInt8)
  | 0, _ => none
  | fuel + 1, text =>
    if text.head? = some quote then some ([], text.tail)
    else do
      let (element, text) ← d.takeElement text
      let (elements, rest) ← lexBody d fuel text
      return (element :: elements, rest)

/-- A literal at the front of a text: each element has a character at least, so there are no more of them. -/
def Dialect.lex (d : Dialect) (text : List UInt8) : Option (List Element × List UInt8) :=
  match splice d.trims 0 text with
  | [] => none
  | c :: body => if c = quote then d.lexBody body.length body else none

def Dialect.value (d : Dialect) (elements : List Element) : Option (List UInt8) := (elements.mapM d.bytes).map List.flatten

/-- What the literal at the front of a text stands for, and what follows it. -/
def Dialect.readString (d : Dialect) (text : List UInt8) : Option (List UInt8 × List UInt8) := do
  let (elements, rest) ← d.lex text
  let bytes ← d.value elements
  return (bytes, rest)

/-- What can stand between the quotes of a literal, with its elements and what they stand for. -/
structure Dialect.IsText (d : Dialect) (text : List UInt8) (elements : List Element) (bytes : List UInt8) : Prop where
  lexed : d.lex (quote :: (text ++ [quote])) = some (elements, [])
  valued : d.value elements = some bytes

/-! ## Grammar -/

def Element.spelling : Element → List UInt8
  | .ordinary c => [c]
  | .simple letter | .conditional letter => [backslash, letter]
  | .octal digits => backslash :: digits
  | .hex digits => backslash :: 0x78 :: digits
  | .universal letter digits => backslash :: letter :: digits
  | .delimited letter content => backslash :: letter :: 0x7b :: (content ++ [0x7d])

def Element.Valid (d : Dialect) : Element → Prop
  | .ordinary c => c ≠ quote ∧ c ≠ lineFeed ∧ c ≠ backslash
  | .simple letter => (CppLiteral.simple.lookup letter).isSome
  | .octal digits => digits ≠ [] ∧ digits.length ≤ 3 ∧ ∀ c ∈ digits, isOctal c
  | .hex digits => digits ≠ [] ∧ ∀ c ∈ digits, isHex c
  | .universal letter digits =>
    (letter = 0x75 ∨ letter = 0x55) ∧ digits.length = universalLength letter ∧ ∀ c ∈ digits, isHex c
  | .delimited letter content => d.delimited ∧ letter ∈ bracedLetters ∧ 0x7d ∉ content ∧ lineFeed ∉ content
  | .conditional letter =>
    CppLiteral.simple.lookup letter = none ∧ isOctal letter = false ∧ letter ∉ [0x78, 0x75, 0x55, lineFeed]

/-- The element is not continued by the character that follows. -/
def Element.Stops (d : Dialect) (next : Option UInt8) : Element → Prop
  | .octal digits => digits.length = 3 ∨ ∀ c ∈ next, isOctal c = false
  | .hex _ => ∀ c ∈ next, isHex c = false
  | .conditional letter => ¬ (d.delimited ∧ letter ∈ bracedLetters ∧ next = some 0x7b)
  | _ => True

/-- No character continues the element: a character that is not escaped, a simple escape, three octal digits, a
universal name, and whatever has braces. -/
def Element.IsClosed : Element → Prop
  | .octal digits => digits.length = 3
  | .hex _ | .conditional _ => False
  | _ => True

def spell (elements : List Element) : List UInt8 := elements.flatMap Element.spelling

/-- Each of the elements is valid and stops where the next one begins, the last one in front of the rest. -/
def Follow (d : Dialect) : List Element → List UInt8 → Prop
  | [], _ => True
  | element :: elements, rest => element.Valid d ∧ element.Stops d (spell elements ++ rest).head? ∧ Follow d elements rest

/-! ### Runs of digits -/

section Runs

variable {p : UInt8 → Bool}

theorem span_append {digits rest : List UInt8} (all : ∀ c ∈ digits, p c) (stops : ∀ c ∈ rest.head?, p c = false) :
    (digits ++ rest).takeWhile p = digits ∧ (digits ++ rest).dropWhile p = rest := by
  rw [List.takeWhile_append_of_pos all, List.dropWhile_append_of_pos all]
  cases rest with
  | nil => simp
  | cons c rest => simp [stops c rfl]

theorem stops_dropWhile (p : UInt8 → Bool) (text : List UInt8) : ∀ c ∈ (text.dropWhile p).head?, p c = false := by
  intro c front
  have stops := List.head?_dropWhile_not p text
  rwa [front] at stops

theorem takeWhile_take_append {digits rest : List UInt8} {limit : ℕ} (all : ∀ c ∈ digits, p c)
    (short : digits.length ≤ limit)
    (stops : digits.length = limit ∨ ∀ c ∈ rest.head?, p c = false) :
    ((digits ++ rest).take limit).takeWhile p = digits := by
  rw [List.take_append, List.take_of_length_le short, List.takeWhile_append_of_pos all]
  rcases stops with full | stops
  · rw [full, Nat.sub_self, List.take_zero, List.takeWhile_nil, List.append_nil]
  · cases rest with
    | nil => simp
    | cons c rest =>
      cases limit - digits.length with
      | zero => simp
      | succ more => simp [stops c rfl]

theorem stops_takeWhile_take (p : UInt8 → Bool) (limit : ℕ) (text : List UInt8) :
    ((text.take limit).takeWhile p).length = limit ∨
      ∀ c ∈ (text.drop ((text.take limit).takeWhile p).length).head?, p c = false := by
  induction text generalizing limit with
  | nil => exact .inr fun c front => by simp at front
  | cons c text ih =>
    cases limit with
    | zero => exact .inl rfl
    | succ limit =>
      by_cases accepted : p c = true
      · rw [List.take_succ_cons, List.takeWhile_cons_of_pos accepted, List.length_cons, List.drop_succ_cons]
        exact (ih limit).imp_left (congrArg (· + 1))
      · rw [List.take_succ_cons, List.takeWhile_cons_of_neg accepted]
        exact .inr fun other front => by
          obtain rfl := Option.some.inj front
          exact Bool.eq_false_of_not_eq_true accepted

end Runs

theorem takeBraced_eq_some {text content rest : List UInt8} :
    takeBraced text = some (content, rest) ↔ text = content ++ 0x7d :: rest ∧ 0x7d ∉ content ∧ lineFeed ∉ content := by
  induction text generalizing content with
  | nil => simp [takeBraced]
  | cons c text ih =>
    rw [takeBraced]
    split_ifs with closes line
    · subst closes
      constructor
      · intro taken
        cases taken
        exact ⟨rfl, List.not_mem_nil, List.not_mem_nil⟩
      · rintro ⟨spelled, unclosed, -⟩
        cases content with
        | nil =>
          obtain rfl := (List.cons.inj spelled).2
          rfl
        | cons other content =>
          obtain rfl := (List.cons.inj spelled).1
          exact absurd List.mem_cons_self unclosed
    · subst line
      constructor
      · exact fun taken => absurd taken (by simp)
      · rintro ⟨spelled, -, noLine⟩
        cases content with
        | nil => cases (List.cons.inj spelled).1
        | cons other content =>
          obtain rfl := (List.cons.inj spelled).1
          exact absurd List.mem_cons_self noLine
    · constructor
      · intro taken
        obtain ⟨⟨inner, last⟩, taken, same⟩ := Option.map_eq_some_iff.mp taken
        cases same
        obtain ⟨rfl, unclosed, noLine⟩ := ih.mp taken
        exact ⟨rfl, by simp [unclosed, Ne.symm closes], by simp [noLine, Ne.symm line]⟩
      · rintro ⟨spelled, unclosed, noLine⟩
        cases content with
        | nil => exact absurd (List.cons.inj spelled).1 closes
        | cons other content =>
          obtain ⟨rfl, rfl⟩ := List.cons.inj spelled
          rw [ih.mpr ⟨rfl, fun member => unclosed (List.mem_cons_of_mem _ member), fun member =>
            noLine (List.mem_cons_of_mem _ member)⟩]
          rfl

/-! ### One element -/

variable {d : Dialect}

theorem lookup_of_isOctal : ∀ {c}, isOctal c = true → CppLiteral.simple.lookup c = none := @(forall_byte (by decide +kernel))

theorem of_mem_bracedLetters : ∀ c ∈ bracedLetters, CppLiteral.simple.lookup c = none ∧ isOctal c = false := by decide

theorem Dialect.takeEscape_sound {text rest : List UInt8} {element : Element}
    (taken : d.takeEscape text = some (element, rest)) :
    backslash :: text = element.spelling ++ rest ∧ element.Valid d ∧ element.Stops d rest.head? := by
  cases text with
  | nil => cases taken
  | cons c text =>
    rw [Dialect.takeEscape] at taken
    split_ifs at taken with simple octal braced hexed none_ universal line
    · cases taken
      exact ⟨rfl, simple, trivial⟩
    · cases taken
      have front : ((c :: text).take 3).takeWhile isOctal <+: c :: text :=
        (List.takeWhile_prefix _).trans (List.take_prefix _ _)
      refine ⟨congrArg (backslash :: ·) (List.prefix_iff_eq_append.mp front).symm, ⟨?_, ?_, ?_⟩, stops_takeWhile_take _ _ _⟩
      · rw [List.take_succ_cons, List.takeWhile_cons_of_pos octal]
        exact List.cons_ne_nil _ _
      · exact (List.takeWhile_prefix _).length_le.trans (List.length_take_le _ _)
      · exact fun _ => List.mem_takeWhile_imp
    · obtain ⟨delimited, letter, front⟩ := braced
      obtain ⟨⟨content, last⟩, taken, same⟩ := Option.map_eq_some_iff.mp taken
      cases same
      obtain ⟨spelled, unclosed, noLine⟩ := takeBraced_eq_some.mp taken
      obtain ⟨_, rfl⟩ := List.head?_eq_some_iff.mp front
      rw [List.tail_cons] at spelled
      subst spelled
      exact ⟨by simp [Element.spelling], ⟨delimited, letter, unclosed, noLine⟩, trivial⟩
    · cases taken
      subst hexed
      refine ⟨?_, ⟨none_, fun _ => List.mem_takeWhile_imp⟩, stops_dropWhile _ _⟩
      simp [Element.spelling]
    · rw [takeUniversal] at taken
      split_ifs at taken with full
      cases taken
      refine ⟨?_, ⟨universal, full.1, List.all_eq_true.mp full.2⟩, trivial⟩
      simp [Element.spelling]
    · cases taken
      refine ⟨rfl, ⟨Option.not_isSome_iff_eq_none.mp simple, Bool.eq_false_of_not_eq_true octal, ?_⟩, braced⟩
      simp only [List.mem_cons, List.not_mem_nil, or_false]
      tauto

theorem Dialect.takeEscape_complete {element : Element} {text rest : List UInt8}
    (spelled : element.spelling = backslash :: text)
    (escaped : ∀ c, element ≠ .ordinary c) (valid : element.Valid d) (stops : element.Stops d rest.head?) :
    d.takeEscape (text ++ rest) = some (element, rest) := by
  cases element with
  | ordinary c => exact absurd rfl (escaped c)
  | simple letter =>
    obtain rfl := (List.cons.inj spelled).2
    rw [List.singleton_append, Dialect.takeEscape]
    exact if_pos valid
  | octal digits =>
    obtain rfl := (List.cons.inj spelled).2
    obtain ⟨some_, short, all⟩ := valid
    obtain ⟨c, digits, rfl⟩ := List.exists_cons_of_ne_nil some_
    have octal := all c List.mem_cons_self
    have taken := takeWhile_take_append all short stops
    rw [List.cons_append] at taken ⊢
    rw [Dialect.takeEscape, lookup_of_isOctal octal, if_neg (by simp), if_pos octal]
    simp only [taken]
    rw [← List.cons_append, List.drop_left]
  | hex digits =>
    obtain rfl := (List.cons.inj spelled).2
    obtain ⟨some_, all⟩ := valid
    obtain ⟨c, digits, rfl⟩ := List.exists_cons_of_ne_nil some_
    obtain ⟨taken, left⟩ := span_append all stops
    have unbraced : c ≠ 0x7b := by
      rintro rfl
      exact absurd (all _ List.mem_cons_self) (by decide)
    rw [List.cons_append, Dialect.takeEscape, if_neg (by decide), if_neg (by decide), if_neg (by simp [unbraced]),
      if_pos rfl, taken, left, if_neg some_]
  | universal letter digits =>
    obtain rfl := (List.cons.inj spelled).2
    obtain ⟨letter_, full, all⟩ := valid
    have taken : (digits ++ rest).take (universalLength letter) = digits := by rw [← full, List.take_left]
    have left : (digits ++ rest).drop (universalLength letter) = rest := by rw [← full, List.drop_left]
    have unbraced : (digits ++ rest).head? ≠ some 0x7b := by
      cases digits with
      | nil => rcases letter_ with rfl | rfl <;> cases full
      | cons c digits =>
        intro brace
        obtain rfl := Option.some.inj brace
        exact absurd (all _ List.mem_cons_self) (by decide)
    have others : CppLiteral.simple.lookup letter = none ∧ isOctal letter = false ∧ letter ≠ 0x78 := by
      rcases letter_ with rfl | rfl <;> decide
    rw [List.cons_append, Dialect.takeEscape, others.1, if_neg (by simp), others.2.1, if_neg (by simp),
      if_neg (fun braced => unbraced braced.2.2), if_neg others.2.2, if_pos letter_, takeUniversal, taken, left]
    exact if_pos ⟨full, List.all_eq_true.mpr all⟩
  | delimited letter content =>
    obtain rfl := (List.cons.inj spelled).2
    obtain ⟨delimited, letter_, unclosed, noLine⟩ := valid
    obtain ⟨unsimple, unoctal⟩ := of_mem_bracedLetters letter letter_
    have taken : takeBraced (content ++ 0x7d :: rest) = some (content, rest) :=
      takeBraced_eq_some.mpr ⟨rfl, unclosed, noLine⟩
    rw [List.cons_append, List.cons_append, List.append_assoc, Dialect.takeEscape, unsimple, if_neg (by simp), unoctal,
      if_neg (by simp), if_pos ⟨delimited, letter_, rfl⟩]
    change (takeBraced (content ++ 0x7d :: rest)).map _ = _
    rw [taken]
    rfl
  | conditional letter =>
    obtain rfl := (List.cons.inj spelled).2
    obtain ⟨unsimple, unoctal, others⟩ := valid
    simp only [List.mem_cons, List.not_mem_nil, or_false, not_or] at others
    rw [List.singleton_append, Dialect.takeEscape, unsimple, if_neg (by simp), unoctal, if_neg (by simp), if_neg stops,
      if_neg others.1, if_neg (by tauto), if_neg others.2.2.2]

/-- What is taken is the one element that the text is a spelling of, in front of something where it stops. -/
theorem Dialect.takeElement_eq_some {text rest : List UInt8} {element : Element} :
    d.takeElement text = some (element, rest) ↔
      text = element.spelling ++ rest ∧ element.Valid d ∧ element.Stops d rest.head? := by
  constructor
  · intro taken
    cases text with
    | nil => cases taken
    | cons c text =>
      rw [takeElement] at taken
      split_ifs at taken with ends escaped
      · subst escaped
        exact takeEscape_sound taken
      · cases taken
        obtain ⟨notQuote, notLine⟩ := not_or.mp ends
        exact ⟨rfl, ⟨notQuote, notLine, escaped⟩, trivial⟩
  · rintro ⟨rfl, valid, stops⟩
    by_cases ordinary : ∃ c, element = .ordinary c
    · obtain ⟨c, rfl⟩ := ordinary
      obtain ⟨notQuote, notLine, unescaped⟩ := valid
      rw [Element.spelling, List.singleton_append, takeElement, if_neg (not_or.mpr ⟨notQuote, notLine⟩), if_neg unescaped]
    · obtain ⟨text, spelled⟩ : ∃ text, element.spelling = backslash :: text := by
        cases element with
        | ordinary c => exact absurd ⟨c, rfl⟩ ordinary
        | _ => exact ⟨_, rfl⟩
      rw [spelled, List.cons_append, takeElement, if_neg (by decide), if_pos rfl]
      exact takeEscape_complete spelled (fun c same => ordinary ⟨c, same⟩) valid stops

theorem Element.exists_spelling {element : Element} (valid : element.Valid d) :
    ∃ c text, element.spelling = c :: text ∧ c ≠ quote ∧ c ≠ lineFeed := by
  cases element with
  | ordinary c => exact ⟨c, [], rfl, valid.1, valid.2.1⟩
  | _ => exact ⟨backslash, _, rfl, by decide, by decide⟩

theorem lineFeed_notMem_of_all {p : UInt8 → Bool} {digits : List UInt8} (all : ∀ c ∈ digits, p c = true)
    (no : p lineFeed = false) :
    lineFeed ∉ digits := fun member => by
  rw [all _ member] at no
  cases no

/-- No element is on two lines. -/
theorem Element.lineFeed_notMem {element : Element} (valid : element.Valid d) : lineFeed ∉ element.spelling := by
  have notSlash : lineFeed ≠ backslash := by decide
  cases element with
  | ordinary c => exact fun member => valid.2.1 (List.mem_singleton.mp member).symm
  | simple letter =>
    simp only [Element.spelling, List.mem_cons, List.not_mem_nil, or_false, not_or]
    refine ⟨notSlash, ?_⟩
    rintro rfl
    cases valid
  | octal digits =>
    rw [Element.spelling, List.mem_cons, not_or]
    exact ⟨notSlash, lineFeed_notMem_of_all valid.2.2 rfl⟩
  | hex digits =>
    simp only [Element.spelling, List.mem_cons, not_or]
    exact ⟨notSlash, by decide, lineFeed_notMem_of_all valid.2 rfl⟩
  | universal letter digits =>
    simp only [Element.spelling, List.mem_cons, not_or]
    refine ⟨notSlash, ?_, lineFeed_notMem_of_all valid.2.2 rfl⟩
    rintro rfl
    exact absurd valid.1 (by decide)
  | delimited letter content =>
    simp only [Element.spelling, List.mem_cons, List.mem_append, List.not_mem_nil, or_false, not_or]
    refine ⟨notSlash, ?_, by decide, valid.2.2.2, by decide⟩
    rintro rfl
    exact absurd valid.2.1 (by decide)
  | conditional letter =>
    simp only [Element.spelling, List.mem_cons, List.not_mem_nil, or_false, not_or]
    refine ⟨notSlash, ?_⟩
    rintro rfl
    exact absurd valid.2.2 (by decide)

theorem Element.IsClosed.stops {element : Element} (closed : element.IsClosed) (next : Option UInt8) :
    element.Stops d next := by
  cases element with
  | octal digits => exact .inl closed
  | hex digits => exact closed.elim
  | conditional letter => exact closed.elim
  | _ => trivial

/-! ### Whole literals -/

theorem spell_cons (element : Element) (elements : List Element) :
    spell (element :: elements) = element.spelling ++ spell elements :=
  List.flatMap_cons

theorem spell_append (elements others : List Element) : spell (elements ++ others) = spell elements ++ spell others :=
  List.flatMap_append

theorem Follow.valid {elements : List Element} {rest : List UInt8} (follow : Follow d elements rest) :
    ∀ element ∈ elements, element.Valid d := by
  induction elements with
  | nil => exact fun _ member => absurd member List.not_mem_nil
  | cons first elements ih => exact List.forall_mem_cons.mpr ⟨follow.1, ih follow.2.2⟩

theorem follow_append {elements others : List Element} {rest : List UInt8} :
    Follow d (elements ++ others) rest ↔ Follow d elements (spell others ++ rest) ∧ Follow d others rest := by
  induction elements with
  | nil => simp [Follow]
  | cons first elements ih =>
    rw [List.cons_append, Follow, Follow, ih, spell_append, List.append_assoc, and_assoc, and_assoc]

/-- Elements can be put in front of another text, where it begins with the same character or the last of them is
closed. -/
theorem Follow.move {elements : List Element} {rest other : List UInt8} (follow : Follow d elements rest)
    (moves : other.head? = rest.head? ∨ ∀ last ∈ elements.getLast?, last.IsClosed) : Follow d elements other := by
  induction elements with
  | nil => trivial
  | cons first elements ih =>
    obtain ⟨valid, stops, follow⟩ := follow
    cases elements with
    | nil =>
      refine ⟨valid, ?_, trivial⟩
      rcases moves with same | closed
      · exact same ▸ stops
      · exact (closed first rfl).stops _
    | cons second elements =>
      obtain ⟨c, text, spelled, -⟩ := Element.exists_spelling follow.1
      refine ⟨valid, ?_, ih follow (moves.imp_right fun closed last member =>
        closed last (by rwa [List.getLast?_cons_cons]))⟩
      rw [spell_cons, spelled] at stops ⊢
      exact stops

theorem follow_of_closed {elements : List Element} (valid : ∀ element ∈ elements, element.Valid d ∧ element.IsClosed)
    (rest : List UInt8) : Follow d elements rest := by
  induction elements with
  | nil => trivial
  | cons first elements ih =>
    obtain ⟨⟨valid, closed⟩, others⟩ := List.forall_mem_cons.mp valid
    exact ⟨valid, closed.stops _, ih others⟩

theorem lineFeed_notMem_spell {elements : List Element} (valid : ∀ element ∈ elements, element.Valid d) :
    lineFeed ∉ spell elements := by
  intro member
  obtain ⟨element, present, member⟩ := List.mem_flatMap.mp member
  exact Element.lineFeed_notMem (valid element present) member

theorem Dialect.lexBody_eq_some {elements : List Element} {fuel : ℕ} {text rest : List UInt8} (enough : text.length ≤ fuel) :
    d.lexBody fuel text = some (elements, rest) ↔
      text = spell elements ++ quote :: rest ∧ Follow d elements (quote :: rest) := by
  induction fuel generalizing text elements with
  | zero =>
    obtain rfl := List.eq_nil_of_length_eq_zero (Nat.le_zero.mp enough)
    simp [lexBody]
  | succ fuel ih =>
    rw [lexBody]
    split_ifs with closes
    · obtain ⟨last, rfl⟩ := List.head?_eq_some_iff.mp closes
      constructor
      · intro lexed
        cases lexed
        exact ⟨rfl, trivial⟩
      · rintro ⟨spelled, follow⟩
        cases elements with
        | nil =>
          obtain rfl := (List.cons.inj spelled).2
          rfl
        | cons first elements =>
          obtain ⟨c, text, front, notQuote, -⟩ := Element.exists_spelling follow.1
          rw [spell_cons, front] at spelled
          exact absurd (List.cons.inj spelled).1.symm notQuote
    · constructor
      · intro lexed
        obtain ⟨⟨first, left⟩, taken, next⟩ := Option.bind_eq_some_iff.mp lexed
        obtain ⟨⟨others, last⟩, left_, done⟩ := Option.bind_eq_some_iff.mp next
        cases done
        obtain ⟨rfl, valid, stops⟩ := takeElement_eq_some.mp taken
        obtain ⟨c, text, front, -⟩ := Element.exists_spelling valid
        rw [front, List.cons_append, List.length_cons, List.length_append] at enough
        obtain ⟨rfl, follow⟩ := (ih (by omega)).mp left_
        exact ⟨by rw [spell_cons, List.append_assoc], valid, stops, follow⟩
      · rintro ⟨rfl, follow⟩
        cases elements with
        | nil => exact absurd rfl closes
        | cons first elements =>
          obtain ⟨valid, stops, follow⟩ := follow
          obtain ⟨c, text, front, -⟩ := Element.exists_spelling valid
          rw [spell_cons, List.append_assoc] at enough ⊢
          rw [front, List.cons_append, List.length_cons, List.length_append] at enough
          have lexed := (@ih elements _ (by omega)).mpr ⟨rfl, follow⟩
          rw [takeElement_eq_some.mpr ⟨rfl, valid, stops⟩, Option.bind_eq_bind, Option.bind_some]
          dsimp only
          rw [lexed]
          rfl

theorem Dialect.lex_eq_some {elements : List Element} {text rest : List UInt8} :
    d.lex text = some (elements, rest) ↔
      splice d.trims 0 text = quote :: (spell elements ++ quote :: rest) ∧ Follow d elements (quote :: rest) := by
  rw [lex]
  cases splice d.trims 0 text with
  | nil => simp
  | cons c body =>
    dsimp only
    split_ifs with opens
    · rw [lexBody_eq_some (Nat.le_refl _), opens, List.cons.injEq, eq_self, true_and]
    · simp [opens]

/-! ### Lines -/

theorem lineEnd_append (trims : Bool) (text : List UInt8) {more : List UInt8} (starts : lineEnd trims more = none) :
    lineEnd trims (text ++ more) = lineEnd trims text := by
  induction text with
  | nil => exact starts
  | cons c text ih => rw [List.cons_append, lineEnd, lineEnd, ih]

theorem lineEnd_le {trims : Bool} {text : List UInt8} {length : ℕ} (ends : lineEnd trims text = some length) :
    length ≤ text.length := by
  induction text generalizing length with
  | nil => cases ends
  | cons c text ih =>
    rw [lineEnd] at ends
    rw [List.length_cons]
    split_ifs at ends
    · cases ends
      omega
    · obtain ⟨more, ends', rfl⟩ := Option.map_eq_some_iff.mp ends
      exact Nat.succ_le_succ (ih ends')

theorem lineEnd_eq_none {trims : Bool} {text : List UInt8} (noLine : lineFeed ∉ text) : lineEnd trims text = none := by
  induction text with
  | nil => rfl
  | cons c text ih =>
    rw [List.mem_cons, not_or] at noLine
    rw [lineEnd, if_neg (Ne.symm noLine.1), ih noLine.2, Option.map_none, ite_self]

/-- Texts are spliced one by one, where the second does not begin with the end of a line. -/
theorem splice_append {trims : Bool} {text more : List UInt8} (starts : lineEnd trims more = none) {skipped : ℕ}
    (few : skipped ≤ text.length) :
    splice trims skipped (text ++ more) = splice trims skipped text ++ splice trims 0 more := by
  induction text generalizing skipped with
  | nil =>
    obtain rfl := Nat.le_zero.mp few
    rfl
  | cons c text ih =>
    rw [List.cons_append]
    cases skipped with
    | succ skipped =>
      rw [splice, splice]
      exact ih (Nat.le_of_succ_le_succ few)
    | zero =>
      rw [splice, splice, lineEnd_append trims text starts]
      split
      · next length ends =>
        split_ifs at ends
        exact ih (lineEnd_le ends)
      · rw [ih (Nat.zero_le _), List.cons_append]

theorem splice_of_notMem {trims : Bool} {text : List UInt8} (noLine : lineFeed ∉ text) : splice trims 0 text = text := by
  induction text with
  | nil => rfl
  | cons c text ih =>
    rw [List.mem_cons, not_or] at noLine
    rw [splice, lineEnd_eq_none noLine.2, ite_self, ih noLine.2]

/-- An end of a line stays where there is no backslash in front of it. -/
theorem lineFeed_mem_splice {trims : Bool} {text : List UInt8} {length : ℕ} (ends : lineEnd trims text = some length) :
    lineFeed ∈ splice trims 0 text := by
  induction text generalizing length with
  | nil => cases ends
  | cons c text ih =>
    rw [lineEnd] at ends
    split_ifs at ends with line blank
    · rw [splice, line, if_neg (by decide)]
      exact List.mem_cons_self
    · obtain ⟨more, ends', rfl⟩ := Option.map_eq_some_iff.mp ends
      have notSlash : c ≠ backslash := by
        rintro rfl
        exact absurd blank (by cases trims <;> decide)
      rw [splice, if_neg notSlash]
      exact List.mem_cons_of_mem _ (ih ends')

theorem splice_quote (trims : Bool) (text : List UInt8) : splice trims 0 (quote :: text) = quote :: splice trims 0 text := by
  rw [splice, if_neg (by decide)]

theorem lineEnd_quote (trims : Bool) (text : List UInt8) : lineEnd trims (quote :: text) = none := by
  cases trims <;> rfl

/-! ### What is between two texts -/

theorem Dialect.IsText.spliced {text : List UInt8} {elements : List Element} {bytes : List UInt8}
    (isText : d.IsText text elements bytes) :
    splice d.trims 0 text = spell elements ∧ Follow d elements [quote] := by
  obtain ⟨spliced, follow⟩ := lex_eq_some.mp isText.lexed
  rw [splice_quote, splice_append (lineEnd_quote _ _) (Nat.zero_le _), splice_quote] at spliced
  exact ⟨List.append_cancel_right (List.cons.inj spliced).2, follow⟩

/-- A text does not begin with the end of a line. -/
theorem Dialect.IsText.lineEnd_eq_none {text : List UInt8} {elements : List Element} {bytes : List UInt8}
    (isText : d.IsText text elements bytes) : lineEnd d.trims text = none := by
  obtain ⟨spliced, follow⟩ := isText.spliced
  cases ends : lineEnd d.trims text with
  | none => rfl
  | some length =>
    have present := lineFeed_mem_splice ends
    rw [spliced] at present
    exact absurd present (lineFeed_notMem_spell follow.valid)

theorem Dialect.value_append {elements others : List Element} {front back : List UInt8}
    (front_ : d.value elements = some front)
    (back_ : d.value others = some back) : d.value (elements ++ others) = some (front ++ back) := by
  obtain ⟨parts, each, rfl⟩ := Option.map_eq_some_iff.mp front_
  obtain ⟨more, others_, rfl⟩ := Option.map_eq_some_iff.mp back_
  rw [value, List.mapM_append, each, others_, ← List.flatten_append]
  rfl

/-- Closed elements stand for themselves between any two texts of which the first ends in a closed one. -/
theorem Dialect.readString_between {before after front within back : List UInt8} {opening middle closing : List Element}
    (preceding : d.IsText before opening front) (ends : ∀ last ∈ opening.getLast?, last.IsClosed)
    (valid : ∀ element ∈ middle, element.Valid d ∧ element.IsClosed) (valued : d.value middle = some within)
    (following : d.IsText after closing back) (rest : List UInt8) :
    d.readString (quote :: (before ++ spell middle ++ after ++ quote :: rest)) =
      some (front ++ within ++ back, splice d.trims 0 rest) := by
  obtain ⟨opened, precedes⟩ := preceding.spliced
  obtain ⟨closed, follows⟩ := following.spliced
  have noLine : lineFeed ∉ spell middle := lineFeed_notMem_spell fun element member => (valid element member).1
  have starts : lineEnd d.trims (after ++ quote :: rest) = none := by
    rw [lineEnd_append _ _ (lineEnd_quote _ _), following.lineEnd_eq_none]
  have starts' : lineEnd d.trims (spell middle ++ (after ++ quote :: rest)) = none := by
    rw [lineEnd_append _ _ starts, CppLiteral.lineEnd_eq_none noLine]
  have lexed : d.lex (quote :: (before ++ spell middle ++ after ++ quote :: rest)) =
      some (opening ++ middle ++ closing, splice d.trims 0 rest) := by
    refine lex_eq_some.mpr ⟨?_, ?_⟩
    · rw [splice_quote, List.append_assoc, List.append_assoc, splice_append starts' (Nat.zero_le _),
        splice_append starts (Nat.zero_le _), splice_append (lineEnd_quote _ _) (Nat.zero_le _), splice_quote, opened,
        splice_of_notMem noLine, closed, spell_append, spell_append, List.append_assoc, List.append_assoc]
    · exact follow_append.mpr ⟨follow_append.mpr ⟨precedes.move (.inr ends), follow_of_closed valid _⟩,
        follows.move (.inl rfl)⟩
  rw [readString, lexed, Option.bind_eq_bind, Option.bind_some]
  dsimp only
  rw [value_append (value_append preceding.valued valued) following.valued]
  rfl

end OpalCpp.CppLiteral

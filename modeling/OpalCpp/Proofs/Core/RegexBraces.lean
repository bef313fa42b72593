import OpalCpp.Machine.Decimal
import OpalCpp.Proofs.Core.RegexSearch

/-! # Quantifiers in braces

What the parser reads at a place of the pattern stands in the tree of the pattern: a call of one of its
functions succeeds when the function that makes it does, and the nodes it builds are nodes of the caller's.
So a quantifier in braces can be followed from its text into the tree, wherever in the pattern it stands.
-/

namespace OpalCpp.Regex

/-! ## The nodes of a tree -/

inductive Node.Child : Node → Node → Prop
  | concat {child : Node} {children : List Node} : child ∈ children → Child child (.concat children)
  | alt {child : Node} {children : List Node} : child ∈ children → Child child (.alt children)
  | repetition {min : ℕ} {max : Option ℕ} {body : Node} : Child body (.repetition min max body)

def Node.Within : Node → Node → Prop := Relation.ReflTransGen Node.Child

theorem within_concatOf {piece : Node} {pieces : List Node} (member : piece ∈ pieces) : piece.Within (concatOf pieces) := by
  match pieces, member with
  | [only], member =>
    obtain rfl := List.mem_singleton.mp member
    exact .refl
  | _ :: _ :: _, member => exact .single (.concat member)

/-! ## The calls of the parser -/

/-- A call of one of the functions that descend, with its fuel. -/
inductive Call where
  | alternation (fuel depth : ℕ) (rest : Rest)
  | branches (fuel depth : ℕ) (rest : Rest)
  | concat (fuel depth : ℕ) (rest : Rest)
  | pieces (fuel depth : ℕ) (rest : Rest)
  | repetition (fuel depth : ℕ) (c : UInt8) (rest : Rest)
  | atom (fuel depth : ℕ) (c : UInt8) (rest : Rest)
  | group (fuel depth : ℕ) (rest : Rest)

def single : Outcome (Node × Rest) → Outcome (List Node × Rest)
  | .ok (node, rest) => .ok ([node], rest)
  | .error error => .error error

/-- The nodes that a call builds, and what it leaves to be read. -/
def Call.result : Call → Outcome (List Node × Rest)
  | .alternation fuel depth rest => single (parseAlternation fuel depth rest)
  | .branches fuel depth rest => parseBranches fuel depth rest
  | .concat fuel depth rest => single (parseConcat fuel depth rest)
  | .pieces fuel depth rest => parsePieces fuel depth rest
  | .repetition fuel depth c rest => single (parseRepeat fuel depth c rest)
  | .atom fuel depth c rest => single (parseAtom fuel depth c rest)
  | .group fuel depth rest => single (parseGroup fuel depth rest)

/-- A call makes another one, in the course of the parser. -/
inductive Calls : Call → Call → Prop
  | first {fuel depth : ℕ} {rest : Rest} : Calls (.alternation (fuel + 1) depth rest) (.concat fuel depth rest)
  | others {fuel depth : ℕ} {rest left : Rest} {first : Node} : parseConcat fuel depth rest = .ok (first, left) →
      left.head? = some (byteOf '|') → Calls (.alternation (fuel + 1) depth rest) (.branches fuel depth left)
  | branch {fuel depth : ℕ} {rest left : Rest} : eat (byteOf '|') rest = some left →
      Calls (.branches (fuel + 1) depth rest) (.concat fuel depth left)
  | branches {fuel depth : ℕ} {rest left after : Rest} {branch : Node} : eat (byteOf '|') rest = some left →
      parseConcat fuel depth left = .ok (branch, after) →
        Calls (.branches (fuel + 1) depth rest) (.branches fuel depth after)
  | concat {fuel depth : ℕ} {rest : Rest} : Calls (.concat (fuel + 1) depth rest) (.pieces fuel depth rest)
  | piece {fuel depth : ℕ} {c : UInt8} {rest : Rest} : c ≠ byteOf '|' → c ≠ byteOf ')' →
      Calls (.pieces (fuel + 1) depth (c :: rest)) (.repetition fuel depth c rest)
  | pieces {fuel depth : ℕ} {c : UInt8} {rest left : Rest} {piece : Node} : c ≠ byteOf '|' → c ≠ byteOf ')' →
      parseRepeat fuel depth c rest = .ok (piece, left) →
        Calls (.pieces (fuel + 1) depth (c :: rest)) (.pieces fuel depth left)
  | atom {fuel depth : ℕ} {c : UInt8} {rest : Rest} : Calls (.repetition (fuel + 1) depth c rest) (.atom fuel depth c rest)
  | group {fuel depth : ℕ} {rest : Rest} : Calls (.atom (fuel + 1) depth (byteOf '(') rest) (.group fuel depth rest)
  | body {fuel depth : ℕ} {rest left : Rest} : depth < kMaxGroupDepth → parseGroupHead rest = .ok left →
      Calls (.group (fuel + 1) depth rest) (.alternation fuel (depth + 1) left)

/-- A call succeeds, and all it builds is in the tree. -/
def Call.Builds (tree : Node) (call : Call) : Prop :=
  ∃ nodes left, call.result = .ok (nodes, left) ∧ ∀ node ∈ nodes, node.Within tree

theorem single_eq_ok {outcome : Outcome (Node × Rest)} {nodes : List Node} {left : Rest} :
    single outcome = .ok (nodes, left) ↔ ∃ node, outcome = .ok (node, left) ∧ nodes = [node] := by
  rcases outcome with error | ⟨node, rest⟩
  · simp [single]
  · simp only [single, Except.ok.injEq, Prod.mk.injEq]
    constructor
    · rintro ⟨rfl, rfl⟩
      exact ⟨node, ⟨rfl, rfl⟩, rfl⟩
    · rintro ⟨_, ⟨rfl, rfl⟩, rfl⟩
      exact ⟨rfl, rfl⟩

theorem Call.builds_single {tree : Node} {call : Call} {outcome : Outcome (Node × Rest)}
    (same : call.result = single outcome) :
    call.Builds tree ↔ ∃ node left, outcome = .ok (node, left) ∧ node.Within tree := by
  rw [Call.Builds, same]
  constructor
  · rintro ⟨nodes, left, built, within⟩
    obtain ⟨node, here, rfl⟩ := single_eq_ok.mp built
    exact ⟨node, left, here, within node (List.mem_singleton_self node)⟩
  · rintro ⟨node, left, built, within⟩
    refine ⟨[node], left, single_eq_ok.mpr ⟨node, built, rfl⟩, ?_⟩
    intro other member
    obtain rfl := List.mem_singleton.mp member
    exact within

/-! ### What the functions call, of which the result is part of theirs -/

section Inversion

variable {fuel depth : ℕ} {c : UInt8} {rest left after : Rest} {node : Node} {nodes : List Node}

theorem parseAlternation_ok (built : parseAlternation (fuel + 1) depth rest = .ok (node, left)) :
    ∃ first after, parseConcat fuel depth rest = .ok (first, after) ∧
      (after.head? ≠ some (byteOf '|') ∧ node = first ∧ left = after ∨
        after.head? = some (byteOf '|') ∧
          ∃ branches, parseBranches fuel depth after = .ok (branches, left) ∧ node = .alt (first :: branches)) := by
  rw [parseAlternation] at built
  obtain ⟨⟨first, after⟩, head, built⟩ := Outcome.bind_eq_ok.mp built
  refine ⟨first, after, head, ?_⟩
  dsimp only at built
  split_ifs at built with bar
  · obtain ⟨⟨branches, left'⟩, others, built⟩ := Outcome.bind_eq_ok.mp built
    cases built
    exact .inr ⟨bar, branches, others, rfl⟩
  · cases built
    exact .inl ⟨bar, rfl, rfl⟩

theorem parseBranches_ok (ate : eat (byteOf '|') rest = some after)
    (built : parseBranches (fuel + 1) depth rest = .ok (nodes, left)) :
    ∃ branch behind branches, parseConcat fuel depth after = .ok (branch, behind) ∧
      parseBranches fuel depth behind = .ok (branches, left) ∧ nodes = branch :: branches := by
  rw [parseBranches, ate] at built
  obtain ⟨⟨branch, behind⟩, head, built⟩ := Outcome.bind_eq_ok.mp built
  obtain ⟨⟨branches, left'⟩, others, built⟩ := Outcome.bind_eq_ok.mp built
  cases built
  exact ⟨branch, behind, branches, head, others, rfl⟩

theorem parseConcat_ok (built : parseConcat (fuel + 1) depth rest = .ok (node, left)) :
    ∃ pieces, parsePieces fuel depth rest = .ok (pieces, left) ∧ node = concatOf pieces := by
  rw [parseConcat] at built
  obtain ⟨⟨pieces, left'⟩, all, built⟩ := Outcome.bind_eq_ok.mp built
  cases built
  exact ⟨pieces, all, rfl⟩

theorem parsePieces_ok (bar : c ≠ byteOf '|') (close : c ≠ byteOf ')')
    (built : parsePieces (fuel + 1) depth (c :: rest) = .ok (nodes, left)) :
    ∃ piece behind pieces, parseRepeat fuel depth c rest = .ok (piece, behind) ∧
      parsePieces fuel depth behind = .ok (pieces, left) ∧ nodes = piece :: pieces := by
  have goesOn : ¬ (c = byteOf '|' || c = byteOf ')') = true := by simp [bar, close]
  rw [parsePieces, if_neg goesOn] at built
  obtain ⟨⟨piece, behind⟩, head, built⟩ := Outcome.bind_eq_ok.mp built
  obtain ⟨⟨pieces, left'⟩, others, built⟩ := Outcome.bind_eq_ok.mp built
  cases built
  exact ⟨piece, behind, pieces, head, others, rfl⟩

theorem parseRepeat_ok (built : parseRepeat (fuel + 1) depth c rest = .ok (node, left)) :
    ∃ atom behind, parseAtom fuel depth c rest = .ok (atom, behind) ∧ quantify atom behind = .ok (node, left) := by
  rw [parseRepeat] at built
  obtain ⟨⟨atom, behind⟩, head, built⟩ := Outcome.bind_eq_ok.mp built
  exact ⟨atom, behind, head, built⟩

theorem parseGroup_ok (head : parseGroupHead rest = .ok after)
    (built : parseGroup (fuel + 1) depth rest = .ok (node, left)) :
    ∃ behind, parseAlternation fuel (depth + 1) after = .ok (node, behind) := by
  rw [parseGroup] at built
  split_ifs at built with deep
  · cases built
  obtain ⟨after', head', built⟩ := Outcome.bind_eq_ok.mp built
  obtain rfl := Except.ok.inj (head.symm.trans head')
  obtain ⟨⟨body, behind⟩, inside, built⟩ := Outcome.bind_eq_ok.mp built
  dsimp only at built
  split at built
  · cases built
  · cases built
    exact ⟨behind, inside⟩

/-- The piece is the atom, or repeats it. -/
theorem quantify_ok {atom : Node} (built : quantify atom rest = .ok (node, left)) :
    parseQuantifier rest = none ∧ node = atom ∧ left = rest ∨
      ∃ min max behind, parseQuantifier rest = some (min, max, behind) ∧ atom.isAssertion = false ∧
        node = .repetition min max atom ∧ left = (eat (byteOf '?') behind).getD behind := by
  rw [quantify] at built
  split at built
  next none_ =>
    cases built
    exact .inl ⟨none_, rfl, rfl⟩
  next min max behind read =>
    dsimp only at built
    split_ifs at built with assertion double
    · cases built
    · cases built
    cases built
    exact .inr ⟨min, max, behind, read, Bool.eq_false_of_not_eq_true assertion, rfl, rfl⟩

end Inversion

/-- What a call builds is in what its caller builds. -/
theorem Calls.builds {tree : Node} {caller callee : Call} (calls : Calls caller callee) (builds : caller.Builds tree) :
    callee.Builds tree := by
  cases calls with
  | first =>
    obtain ⟨node, left, built, within⟩ := (Call.builds_single rfl).mp builds
    obtain ⟨first, after, head, here⟩ := parseAlternation_ok built
    refine (Call.builds_single rfl).mpr ⟨first, after, head, ?_⟩
    obtain ⟨_, rfl, _⟩ | ⟨_, branches, _, rfl⟩ := here
    · exact within
    · exact .head (.alt List.mem_cons_self) within
  | others head bar =>
    obtain ⟨node, left, built, within⟩ := (Call.builds_single rfl).mp builds
    obtain ⟨first, after, head', here⟩ := parseAlternation_ok built
    obtain ⟨rfl, rfl⟩ := Prod.mk.inj (Except.ok.inj (head.symm.trans head'))
    obtain ⟨ends, _⟩ | ⟨_, branches, others, rfl⟩ := here
    · exact absurd bar ends
    · refine ⟨branches, left, others, ?_⟩
      intro branch member
      exact .head (.alt (List.mem_cons_of_mem _ member)) within
  | branch ate =>
    obtain ⟨nodes, left, built, within⟩ := builds
    obtain ⟨branch, behind, branches, head, _, rfl⟩ := parseBranches_ok ate built
    exact (Call.builds_single rfl).mpr ⟨branch, behind, head, within branch List.mem_cons_self⟩
  | branches ate head =>
    obtain ⟨nodes, left, built, within⟩ := builds
    obtain ⟨branch, behind, branches, head', others, rfl⟩ := parseBranches_ok ate built
    obtain ⟨rfl, rfl⟩ := Prod.mk.inj (Except.ok.inj (head.symm.trans head'))
    exact ⟨branches, left, others, fun other member => within other (List.mem_cons_of_mem _ member)⟩
  | concat =>
    obtain ⟨node, left, built, within⟩ := (Call.builds_single rfl).mp builds
    obtain ⟨pieces, all, rfl⟩ := parseConcat_ok built
    exact ⟨pieces, left, all, fun piece member => (within_concatOf member).trans within⟩
  | piece bar close =>
    obtain ⟨nodes, left, built, within⟩ := builds
    obtain ⟨piece, behind, pieces, head, _, rfl⟩ := parsePieces_ok bar close built
    exact (Call.builds_single rfl).mpr ⟨piece, behind, head, within piece List.mem_cons_self⟩
  | pieces bar close head =>
    obtain ⟨nodes, left, built, within⟩ := builds
    obtain ⟨piece, behind, pieces, head', others, rfl⟩ := parsePieces_ok bar close built
    obtain ⟨rfl, rfl⟩ := Prod.mk.inj (Except.ok.inj (head.symm.trans head'))
    exact ⟨pieces, left, others, fun other member => within other (List.mem_cons_of_mem _ member)⟩
  | atom =>
    obtain ⟨node, left, built, within⟩ := (Call.builds_single rfl).mp builds
    obtain ⟨atom, behind, head, quantified⟩ := parseRepeat_ok built
    refine (Call.builds_single rfl).mpr ⟨atom, behind, head, ?_⟩
    obtain ⟨_, rfl, _⟩ | ⟨min, max, _, _, _, rfl, _⟩ := quantify_ok quantified
    · exact within
    · exact .head .repetition within
  | group =>
    obtain ⟨node, left, built, within⟩ := (Call.builds_single rfl).mp builds
    refine (Call.builds_single rfl).mpr ⟨node, left, ?_, within⟩
    rw [parseAtom] at built
    exact built
  | body shallow head =>
    obtain ⟨node, left, built, within⟩ := (Call.builds_single rfl).mp builds
    obtain ⟨behind, inside⟩ := parseGroup_ok head built
    exact (Call.builds_single rfl).mpr ⟨node, behind, inside, within⟩

/-- The parser comes to a call in the course of the pattern. -/
def Reaches (pattern : List UInt8) : Call → Prop :=
  Relation.ReflTransGen Calls (.alternation (8 * pattern.length + 8) 0 pattern)

/-- All that the parser builds on its way is in the tree of the pattern. -/
theorem Reaches.builds {pattern : List UInt8} {tree : Node} {call : Call} (parsed : parse pattern = .ok tree)
    (reaches : Reaches pattern call) : call.Builds tree := by
  induction reaches with
  | refl =>
    rw [parse] at parsed
    obtain ⟨⟨node, rest⟩, built, parsed⟩ := Outcome.bind_eq_ok.mp parsed
    dsimp only at parsed
    split_ifs at parsed with all
    · cases parsed
      exact (Call.builds_single rfl).mpr ⟨_, rest, built, .refl⟩
    · cases parsed
  | tail _ calls ih => exact calls.builds ih

/-! ## The texts of quantifiers -/

/-- One or more digits, and the number they stand for. -/
def Number (digits : List UInt8) (number : ℕ) : Prop := digits ≠ [] ∧ Decimal.read digits = some number

/-- A quantifier in braces with its bounds in order, and what follows it. -/
inductive Braces : Rest → ℕ → Option ℕ → Rest → Prop
  | exactly {digits : List UInt8} {n : ℕ} {rest : Rest} : Number digits n →
      Braces (0x7b :: digits ++ 0x7d :: rest) n (some n) rest
  | atLeast {digits : List UInt8} {n : ℕ} {rest : Rest} : Number digits n →
      Braces (0x7b :: digits ++ byteOf ',' :: 0x7d :: rest) n none rest
  | between {digits others : List UInt8} {n m : ℕ} {rest : Rest} : Number digits n → Number others m → n ≤ m →
      Braces (0x7b :: digits ++ byteOf ',' :: others ++ 0x7d :: rest) n (some m) rest

/-- No bound is greater than the parser counts. -/
def WithinCap (min : ℕ) (max : Option ℕ) : Prop := min ≤ kMaxRepeatCount ∧ ∀ bound ∈ max, bound ≤ kMaxRepeatCount

/-- `Decimal.read` with digits read before. -/
def readFrom (value : ℕ) (digits : List UInt8) : Option ℕ :=
  digits.foldlM (fun number byte => if Decimal.isDigit byte then some (number * 10 + Decimal.value byte) else none) value

theorem readFrom_cons {value number : ℕ} {digit : UInt8} {digits : List UInt8}
    (read : readFrom value (digit :: digits) = some number) :
    isDigit digit = true ∧ readFrom (value * 10 + (digit.toNat - 48)) digits = some number := by
  rw [readFrom, List.foldlM_cons] at read
  split_ifs at read with isDigit'
  · exact ⟨isDigit', read⟩
  · cases read

theorem le_of_readFrom {value number : ℕ} {digits : List UInt8} (read : readFrom value digits = some number) :
    value ≤ number := by
  induction digits generalizing value with
  | nil => exact (Option.some.inj read).le
  | cons digit digits ih =>
    have grows := ih (readFrom_cons read).2
    omega

/-- The digits are read up to the first number that is greater than the parser counts; the numbers only grow. -/
theorem parseDigits_append {digits : List UInt8} {value number : ℕ} (small : value ≤ kMaxRepeatCount)
    (read : readFrom value digits = some number) {c : UInt8} {rest : Rest} (stops : isDigit c = false) :
    parseDigits value (digits ++ c :: rest) = if number ≤ kMaxRepeatCount then some (number, c :: rest) else none := by
  induction digits generalizing value with
  | nil =>
    obtain rfl := Option.some.inj read
    rw [List.nil_append, parseDigits, stops, if_pos small]
    rfl
  | cons digit digits ih =>
    obtain ⟨isDigit', others⟩ := readFrom_cons read
    rw [List.cons_append, parseDigits, if_pos isDigit']
    dsimp only
    split_ifs with large within within
    · exact absurd (le_of_readFrom others) (by omega)
    · rfl
    · rw [ih (Nat.le_of_not_lt large) others, if_pos within]
    · rw [ih (Nat.le_of_not_lt large) others, if_neg within]

theorem parseInt_append {digits : List UInt8} {number : ℕ} (text : Number digits number) {c : UInt8} {rest : Rest}
    (stops : isDigit c = false) :
    parseInt (digits ++ c :: rest) = if number ≤ kMaxRepeatCount then some (number, c :: rest) else none := by
  obtain ⟨nonempty, read⟩ := text
  have all := @parseDigits_append digits 0 number (Nat.zero_le _) read c rest stops
  cases digits with
  | nil => exact absurd rfl nonempty
  | cons digit digits =>
    rw [List.cons_append] at all ⊢
    rw [parseInt, if_pos (readFrom_cons read).1, all]

theorem eat_cons (c : UInt8) (rest : Rest) : eat c (c :: rest) = some rest := if_pos rfl

theorem eat_other {c next : UInt8} (other : next ≠ c) (rest : Rest) : eat c (next :: rest) = none := if_neg other

/-- A number does not begin with a brace. -/
theorem number_head {digits : List UInt8} {number : ℕ} (text : Number digits number) (rest : Rest) :
    eat 0x7d (digits ++ rest) = none := by
  obtain ⟨nonempty, read⟩ := text
  cases digits with
  | nil => exact absurd rfl nonempty
  | cons digit digits =>
    apply eat_other
    rintro rfl
    exact absurd (readFrom_cons read).1 (by decide)

/-- Of the texts of quantifiers, the parser reads those within its cap. -/
theorem parseQuantifier_braces {rest behind : Rest} {min : ℕ} {max : Option ℕ} (braces : Braces rest min max behind) :
    (WithinCap min max → parseQuantifier rest = some (min, max, behind)) ∧
      (¬ WithinCap min max → parseQuantifier rest = none) := by
  have brace (text : Rest) : parseQuantifier (0x7b :: text) = parseBoundedQuantifier text := rfl
  cases braces with
  | exactly number =>
    rw [List.cons_append, brace, parseBoundedQuantifier, parseInt_append number (by decide)]
    constructor
    · rintro ⟨within, _⟩
      rw [if_pos within]
      dsimp only
      rw [eat_cons]
    · intro beyond
      have large : ¬ min ≤ kMaxRepeatCount := fun within => beyond ⟨within, by simpa using within⟩
      rw [if_neg large]
  | atLeast number =>
    rw [List.cons_append, brace, parseBoundedQuantifier, parseInt_append number (by decide)]
    constructor
    · rintro ⟨within, _⟩
      rw [if_pos within]
      dsimp only
      rw [eat_other (by decide), eat_cons]
      dsimp only
      rw [eat_cons]
    · intro beyond
      have large : ¬ min ≤ kMaxRepeatCount := fun within => beyond ⟨within, by simp⟩
      rw [if_neg large]
  | @between digits others n m _ first second ordered =>
    rw [List.append_assoc, List.cons_append, brace, parseBoundedQuantifier, List.cons_append,
      parseInt_append first (by decide)]
    have digit := number_head second (0x7d :: behind)
    constructor
    · rintro ⟨within, within'⟩
      rw [if_pos within]
      dsimp only
      rw [eat_other (by decide), eat_cons]
      dsimp only
      rw [digit, parseInt_append second (by decide), if_pos (within' m rfl)]
      dsimp only
      rw [eat_cons]
      dsimp only
      rw [if_neg (Nat.not_lt.mpr ordered)]
    · intro beyond
      have large : ¬ m ≤ kMaxRepeatCount := fun within => beyond ⟨ordered.trans within, by simpa using within⟩
      split_ifs with small
      · dsimp only
        rw [eat_other (by decide), eat_cons]
        dsimp only
        rw [digit, parseInt_append second (by decide), if_neg large]
      · rfl

theorem Braces.head {rest behind : Rest} {min : ℕ} {max : Option ℕ} (braces : Braces rest min max behind) :
    ∃ text, rest = 0x7b :: text := by
  cases braces with
  | exactly _ => exact ⟨_, rfl⟩
  | atLeast _ => exact ⟨_, rfl⟩
  | between _ _ _ => exact ⟨_, by rw [List.append_assoc, List.cons_append]⟩

/-- What a quantifier means where it follows an atom. -/
theorem quantify_braces {atom piece : Node} {rest behind left : Rest} {min : ℕ} {max : Option ℕ}
    (braces : Braces rest min max behind)
    (built : quantify atom rest = .ok (piece, left)) :
    (WithinCap min max → piece = .repetition min max atom ∧ left = (eat (byteOf '?') behind).getD behind) ∧
      (¬ WithinCap min max → piece = atom ∧ left = rest) := by
  obtain ⟨within, beyond⟩ := parseQuantifier_braces braces
  constructor
  · intro cap
    obtain ⟨none_, _⟩ | ⟨min', max', behind', read, _, same, left⟩ := quantify_ok built
    · rw [within cap] at none_
      cases none_
    · rw [within cap] at read
      cases read
      exact ⟨same, left⟩
  · intro cap
    obtain ⟨_, same⟩ | ⟨min', max', behind', read, _⟩ := quantify_ok built
    · exact same
    · rw [beyond cap] at read
      cases read

/-! ## Quantifiers in the tree -/

/-- An atom of the pattern: the parser comes to it, and reads it up to what follows it. -/
structure AtomAt (pattern : List UInt8) (fuel depth : ℕ) (c : UInt8) (rest : Rest) (atom : Node) (after : Rest) : Prop where
  reached : Reaches pattern (.repetition (fuel + 1) depth c rest)
  read : parseAtom fuel depth c rest = .ok (atom, after)

/-- The piece of the pattern that the atom is or that repeats it. -/
theorem AtomAt.piece {pattern : List UInt8} {tree atom : Node} {fuel depth : ℕ} {c : UInt8} {rest after : Rest}
    (here : AtomAt pattern fuel depth c rest atom after) (parsed : parse pattern = .ok tree) :
    ∃ piece left, quantify atom after = .ok (piece, left) ∧ piece.Within tree ∧
      parseRepeat (fuel + 1) depth c rest = .ok (piece, left) := by
  obtain ⟨piece, left, built, within⟩ := (Call.builds_single rfl).mp (here.reached.builds parsed)
  obtain ⟨atom', after', read, quantified⟩ := parseRepeat_ok built
  obtain ⟨rfl, rfl⟩ := Prod.mk.inj (Except.ok.inj (here.read.symm.trans read))
  exact ⟨piece, left, quantified, within, built⟩

/-- The parser comes to an atom from the pieces of which it is the first, and goes on with those behind it. -/
theorem Reaches.next {pattern : List UInt8} {fuel depth : ℕ} {c : UInt8} {rest left : Rest} {piece : Node}
    (reaches : Reaches pattern (.repetition fuel depth c rest)) (read : parseRepeat fuel depth c rest = .ok (piece, left)) :
    Reaches pattern (.pieces fuel depth left) := by
  obtain same | ⟨caller, before, calls⟩ := Relation.ReflTransGen.cases_tail reaches
  · cases same
  · cases calls with
    | piece bar close => exact before.tail (.pieces bar close read)

/-- A brace where an atom is expected is a byte like any other. -/
theorem AtomAt.literal {pattern : List UInt8} {tree : Node} {fuel depth : ℕ} {rest : Rest}
    (parsed : parse pattern = .ok tree)
    (reaches : Reaches pattern (.pieces fuel depth (0x7b :: rest))) :
    ∃ fuel', AtomAt pattern fuel' depth 0x7b rest (.byte 0x7b) rest := by
  obtain ⟨pieces, left, built, _⟩ := reaches.builds parsed
  cases fuel with
  | zero => cases built
  | succ fuel =>
    have head : Reaches pattern (.repetition fuel depth 0x7b rest) := reaches.tail (.piece (by decide) (by decide))
    obtain ⟨piece, left, built, _⟩ := (Call.builds_single rfl).mp (head.builds parsed)
    cases fuel with
    | zero => cases built
    | succ fuel =>
      obtain ⟨atom, behind, read, _⟩ := parseRepeat_ok built
      cases fuel with
      | zero => cases read
      | succ fuel => exact ⟨fuel + 1, head, rfl⟩

/-- A quantifier in braces that follows an atom, wherever in the pattern, repeats the atom with its bounds
where they are within the cap: that repetition is the piece, and stands in the tree that the program is
compiled from and finds. Beyond the cap the piece is the atom, and the brace behind it a byte. -/
theorem braces_within_cap {pattern : List UInt8} {re : Regex} (accepted : compile pattern = .ok re) :
    ∃ tree, parse pattern = .ok tree ∧ compileTree tree = .ok re ∧
      (∀ text, text.length + 1 < 2 ^ 32 → (re.search text = true ↔ MatchesSomewhere tree text)) ∧
      ∀ fuel depth c rest atom after, AtomAt pattern fuel depth c rest atom after →
        ∀ min max behind, Braces after min max behind →
          (WithinCap min max → (Node.repetition min max atom).Within tree ∧
            parseRepeat (fuel + 1) depth c rest = .ok (.repetition min max atom, (eat (byteOf '?') behind).getD behind)) ∧
          (¬ WithinCap min max → parseRepeat (fuel + 1) depth c rest = .ok (atom, after) ∧
            ∃ text fuel', after = 0x7b :: text ∧ AtomAt pattern fuel' depth 0x7b text (.byte 0x7b) text) := by
  obtain ⟨tree, parsed, wellFormed, compiled⟩ := exists_tree accepted
  refine ⟨tree, parsed, compiled, ?_, ?_⟩
  · intro text short
    constructor
    · intro found
      obtain ⟨first, last, ordered, inside, _, matched⟩ := search_sound wellFormed compiled found
      exact ⟨first, last, ordered, inside, matched⟩
    · rintro ⟨first, last, ordered, inside, matched⟩
      exact search_complete wellFormed compiled ordered inside (by omega) matched
  · intro fuel depth c rest atom after here min max behind braces
    obtain ⟨piece, left, quantified, within, built⟩ := here.piece parsed
    obtain ⟨inside, beyond⟩ := quantify_braces braces quantified
    constructor
    · intro cap
      obtain ⟨rfl, rfl⟩ := inside cap
      exact ⟨within, built⟩
    · intro cap
      obtain ⟨rfl, rfl⟩ := beyond cap
      refine ⟨built, ?_⟩
      obtain ⟨text, rfl⟩ := braces.head
      obtain ⟨fuel', literal⟩ := AtomAt.literal parsed (here.reached.next built)
      exact ⟨text, fuel', rfl, literal⟩

/-- The pattern of a letter that stands twice. -/
theorem braces_within_cap_letter :
    ∃ tree, parse [0x61, 0x7b, 0x32, 0x7d] = .ok tree ∧
      compileTree tree = .ok ⟨[.byte 0x61, .byte 0x61, .matched], []⟩ ∧
      (∀ text, text.length + 1 < 2 ^ 32 →
        (search ⟨[.byte 0x61, .byte 0x61, .matched], []⟩ text = true ↔ MatchesSomewhere tree text)) ∧
      ∀ fuel depth c rest atom after, AtomAt [0x61, 0x7b, 0x32, 0x7d] fuel depth c rest atom after →
        ∀ min max behind, Braces after min max behind →
          (WithinCap min max → (Node.repetition min max atom).Within tree ∧
            parseRepeat (fuel + 1) depth c rest = .ok (.repetition min max atom, (eat (byteOf '?') behind).getD behind)) ∧
          (¬ WithinCap min max → parseRepeat (fuel + 1) depth c rest = .ok (atom, after) ∧
            ∃ text fuel', after = 0x7b :: text ∧ AtomAt [0x61, 0x7b, 0x32, 0x7d] fuel' depth 0x7b text (.byte 0x7b) text) :=
  braces_within_cap rfl

/-- Every quantifier in braces that follows an atom repeats it. -/
def BracesRepeat (pattern : List UInt8) : Prop :=
  ∀ re, compile pattern = .ok re → ∀ fuel depth c rest atom after, AtomAt pattern fuel depth c rest atom after →
    ∀ min max behind, Braces after min max behind →
      ∃ left, parseRepeat (fuel + 1) depth c rest = .ok (.repetition min max atom, left)

def literalProgram : Regex :=
  ⟨[.byte 0x61, .byte 0x7b, .byte 0x31, .byte 0x30, .byte 0x32, .byte 0x35, .byte 0x7d, .matched], []⟩

def halfProgram : Regex := ⟨[.byte 0x61, .byte 0x61, .byte 0x7b, .byte 0x33, .byte 0x7d, .matched], []⟩

/-- A bound beyond the cap makes a text of the quantifier, and so does another quantifier before it. -/
theorem braces_as_text :
    ¬ BracesRepeat [0x61, 0x7b, 0x31, 0x30, 0x32, 0x35, 0x7d] ∧
    (compile [0x61, 0x7b, 0x31, 0x30, 0x32, 0x35, 0x7d] = .ok literalProgram ∧
      literalProgram.search [0x61, 0x7b, 0x31, 0x30, 0x32, 0x35, 0x7d] = true) ∧
    compile [0x61, 0x7b, 0x32, 0x7d, 0x7b, 0x33, 0x7d] = .ok halfProgram ∧
      halfProgram.search [0x61, 0x61, 0x7b, 0x33, 0x7d] = true := by
  refine ⟨?_, ⟨rfl, by decide⟩, rfl, by decide⟩
  intro repeats
  have reached : Reaches [0x61, 0x7b, 0x31, 0x30, 0x32, 0x35, 0x7d]
      (.repetition (60 + 1) 0 0x61 [0x7b, 0x31, 0x30, 0x32, 0x35, 0x7d]) :=
    ((Relation.ReflTransGen.single .first).tail .concat).tail (.piece (by decide) (by decide))
  have accepted : compile [0x61, 0x7b, 0x31, 0x30, 0x32, 0x35, 0x7d] = .ok literalProgram := rfl
  have number : Number [0x31, 0x30, 0x32, 0x35] 1025 := ⟨by decide, by decide⟩
  obtain ⟨left, read⟩ := repeats _ accepted 60 0 0x61 _ (.byte 0x61) _ ⟨reached, rfl⟩ 1025 (some 1025) [] (.exactly number)
  have letter : parseRepeat (60 + 1) 0 0x61 [0x7b, 0x31, 0x30, 0x32, 0x35, 0x7d] =
      .ok (.byte 0x61, [0x7b, 0x31, 0x30, 0x32, 0x35, 0x7d]) := rfl
  rw [letter] at read
  cases congrArg Prod.fst (Except.ok.inj read)

end OpalCpp.Regex

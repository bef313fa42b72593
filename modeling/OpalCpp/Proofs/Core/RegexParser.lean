import OpalCpp.Model.Core.Regex
import OpalCpp.Model.Core.RegexParser

/-! # The parser of regular expressions builds well-formed trees

Every function of the parser is described by one predicate: it succeeds with a good value and no
more bytes left than it was given, or fails with an error of its own. That the fuel is never used
up is part of the predicate, so each of the mutually recursive functions is described for the fuel
it needs, six units a byte.
-/

namespace OpalCpp.Regex

variable {α β : Type}

/-- A good value with at most so many bytes left to read, or an error of the parser's own. -/
def Parses (good : α → Prop) (bound : ℕ) : Outcome (α × Rest) → Prop
  | .ok (value, rest) => good value ∧ rest.length ≤ bound
  | .error error => error ≠ outOfFuel

theorem Parses.bind {good : α → Prop} {better : β → Prop} {bound limit : ℕ} {outcome : Outcome (α × Rest)}
    {next : α × Rest → Outcome (β × Rest)} (first : Parses good bound outcome)
    (then_ : ∀ value rest, good value → rest.length ≤ bound → Parses better limit (next (value, rest))) :
    Parses better limit (outcome >>= next) := by
  cases outcome with
  | error error => exact first
  | ok result => exact then_ result.1 result.2 first.1 first.2

theorem Parses.mono {good better : α → Prop} {bound limit : ℕ} {outcome : Outcome (α × Rest)}
    (parses : Parses good bound outcome) (implies : ∀ value, good value → better value)
    (below : bound ≤ limit) : Parses better limit outcome := by
  cases outcome with
  | error error => exact parses
  | ok result => exact ⟨implies _ parses.1, Nat.le_trans parses.2 below⟩

theorem parses_fail {good : α → Prop} {bound : ℕ} {why : String} (other : why ≠ "out of fuel") :
    Parses good bound (fail why) := by
  intro same
  apply other
  have texts : "Regex: " ++ why = "Regex: " ++ "out of fuel" := congrArg Error.message same
  exact (String.append_right_inj _).mp texts

theorem parses_unsupportedEscape {good : α → Prop} {bound : ℕ} (c : UInt8) :
    Parses good bound (unsupportedEscape c) := by
  apply parses_fail
  intro same
  have letters := congrArg String.toList same
  rw [String.toList_append, String.toList_append] at letters
  exact absurd (List.cons.inj letters).1 (by decide)

/-! ## The parts without recursion -/

theorem length_eat {c : UInt8} {rest left : Rest} (ate : eat c rest = some left) :
    rest.length = left.length + 1 := by
  cases rest with
  | nil => cases ate
  | cons next rest =>
    rw [eat] at ate
    split_ifs at ate
    cases ate
    rfl

theorem length_parseDigits {value result : ℕ} {rest left : Rest}
    (parsed : parseDigits value rest = some (result, left)) : left.length ≤ rest.length := by
  induction rest generalizing value with
  | nil =>
    cases parsed
    exact Nat.le_refl _
  | cons c rest ih =>
    simp only [parseDigits] at parsed
    split_ifs at parsed with digit
    · exact Nat.le_succ_of_le (ih parsed)
    · cases parsed
      exact Nat.le_refl _

theorem length_parseInt {result : ℕ} {rest left : Rest} (parsed : parseInt rest = some (result, left)) :
    left.length ≤ rest.length := by
  cases rest with
  | nil => cases parsed
  | cons c rest =>
    rw [parseInt] at parsed
    split_ifs at parsed
    exact length_parseDigits parsed

/-- The bounds of a quantifier are in order. -/
theorem parseBoundedQuantifier_spec {min : ℕ} {max : Option ℕ} {rest left : Rest}
    (parsed : parseBoundedQuantifier rest = some (min, max, left)) :
    (∀ bound ∈ max, min ≤ bound) ∧ left.length ≤ rest.length := by
  rw [parseBoundedQuantifier] at parsed
  split at parsed
  · cases parsed
  next n afterN first =>
    have read := length_parseInt first
    split at parsed
    next closed ate =>
      have := length_eat ate
      cases parsed
      exact ⟨by simp, by omega⟩
    split at parsed
    · cases parsed
    next afterComma ate =>
      have comma := length_eat ate
      split at parsed
      next closed ate =>
        have := length_eat ate
        cases parsed
        exact ⟨by simp, by omega⟩
      split at parsed
      · cases parsed
      next m afterM second =>
        have := length_parseInt second
        split at parsed
        · cases parsed
        next closed ate =>
          have := length_eat ate
          split_ifs at parsed with ordered
          cases parsed
          refine ⟨fun bound member => ?_, by omega⟩
          obtain rfl := Option.some.inj member
          exact Nat.le_of_not_lt ordered

theorem parseQuantifier_spec {min : ℕ} {max : Option ℕ} {rest left : Rest}
    (parsed : parseQuantifier rest = some (min, max, left)) :
    (∀ bound ∈ max, min ≤ bound) ∧ left.length ≤ rest.length := by
  cases rest with
  | nil => cases parsed
  | cons q rest =>
    rw [parseQuantifier] at parsed
    rw [List.length_cons]
    split_ifs at parsed
    · cases parsed
      exact ⟨by simp, Nat.le_succ _⟩
    · cases parsed
      exact ⟨by simp, Nat.le_succ _⟩
    · cases parsed
      exact ⟨by simp, Nat.le_succ _⟩
    · obtain ⟨ordered, fewer⟩ := parseBoundedQuantifier_spec parsed
      exact ⟨ordered, Nat.le_succ_of_le fewer⟩

theorem length_parseHex {digits value result : ℕ} {rest left : Rest}
    (parsed : parseHex digits value rest = some (result, left)) : left.length ≤ rest.length := by
  induction digits generalizing value rest with
  | zero =>
    cases parsed
    exact Nat.le_refl _
  | succ digits ih =>
    cases rest with
    | nil => cases parsed
    | cons c rest =>
      rw [parseHex] at parsed
      split at parsed
      · cases parsed
      · exact Nat.le_succ_of_le (ih parsed)

theorem length_simpleEscapeByte {c byte : UInt8} {rest left : Rest}
    (parsed : simpleEscapeByte c rest = some (byte, left)) : left.length ≤ rest.length := by
  rw [simpleEscapeByte] at parsed
  by_cases hex : c = byteOf 'x'
  · subst hex
    rw [if_neg (by decide), if_neg (by decide), if_neg (by decide), if_neg (by decide), if_neg (by decide),
      if_neg (by decide), if_pos rfl] at parsed
    obtain ⟨⟨value, after⟩, found, same⟩ := Option.map_eq_some_iff.mp parsed
    cases same
    exact length_parseHex found
  · rw [if_neg hex] at parsed
    split_ifs at parsed <;> cases parsed <;> exact Nat.le_refl _

theorem parses_classEscape (rest : Rest) : Parses (fun _ => True) rest.length (parseClassEscape rest) := by
  cases rest with
  | nil => exact parses_fail (by decide)
  | cons c rest =>
    rw [parseClassEscape]
    split
    · exact ⟨trivial, Nat.le_succ _⟩
    · split_ifs
      · exact ⟨trivial, Nat.le_succ _⟩
      · split
        · exact parses_unsupportedEscape c
        next byte left parsed => exact ⟨trivial, Nat.le_succ_of_le (length_simpleEscapeByte parsed)⟩

theorem parses_classMember (c : UInt8) (rest : Rest) :
    Parses (fun _ => True) rest.length (parseClassMember c rest) := by
  rw [parseClassMember]
  split_ifs
  · exact parses_classEscape rest
  · exact ⟨trivial, Nat.le_refl _⟩

theorem parses_classMembers (fuel : ℕ) (first : Bool) (cls : ByteClass) (rest : Rest)
    (enough : rest.length < fuel) :
    Parses (fun _ => True) rest.length (parseClassMembers fuel first cls rest) := by
  induction fuel generalizing first cls rest with
  | zero => omega
  | succ fuel ih =>
    cases rest with
    | nil => exact parses_fail (by decide)
    | cons c rest =>
      rw [List.length_cons] at enough ⊢
      have later (first : Bool) (cls : ByteClass) (left : Rest) (fewer : left.length ≤ rest.length) :
          Parses (fun _ => True) (rest.length + 1) (parseClassMembers fuel first cls left) :=
        (ih first cls left (by omega)).mono (fun _ _ => trivial) (by omega)
      rw [parseClassMembers]
      split_ifs
      · exact ⟨trivial, Nat.le_succ _⟩
      · apply (parses_classMember c rest).bind
        intro member left _ fewer
        dsimp only
        split
        · exact later _ _ _ fewer
        · simp only [List.length_cons] at fewer
          split_ifs
          · apply (parses_classMember _ _).bind
            intro last left' _ fewer'
            dsimp only
            split
            · exact parses_fail (by decide)
            · split_ifs
              · exact parses_fail (by decide)
              · exact later _ _ _ (by omega)
          · exact later _ _ _ (by simpa using fewer)
        · exact later _ _ _ fewer

theorem parses_class (rest : Rest) : Parses Node.WellFormed rest.length (parseClass rest) := by
  rw [parseClass]
  split
  next left ate =>
    have := length_eat ate
    apply (parses_classMembers _ true 0 left (Nat.lt_succ_self _)).bind
    intro cls after _ fewer
    exact ⟨by simp [Node.WellFormed], by omega⟩
  · apply (parses_classMembers _ true 0 rest (Nat.lt_succ_self _)).bind
    intro cls after _ fewer
    exact ⟨by simp [Node.WellFormed], fewer⟩

theorem parses_utf8Literal (code : ℕ) (rest : Rest) :
    Parses Node.WellFormed rest.length (utf8Literal code >>= fun node => pure (node, rest)) := by
  rw [utf8Literal]
  split_ifs
  · exact parses_fail (by decide)
  all_goals exact ⟨by simp [Node.WellFormed, allWellFormed], Nat.le_refl _⟩

theorem parses_escape (rest : Rest) : Parses Node.WellFormed rest.length (parseEscape rest) := by
  cases rest with
  | nil => exact parses_fail (by decide)
  | cons c rest =>
    rw [parseEscape]
    split
    · exact ⟨by simp [Node.WellFormed], Nat.le_succ _⟩
    split_ifs
    · exact ⟨by simp [Node.WellFormed], Nat.le_succ _⟩
    · exact ⟨by simp [Node.WellFormed], Nat.le_succ _⟩
    · exact parses_fail (by decide)
    · split
      · exact parses_fail (by decide)
      next code left parsed =>
        exact (parses_utf8Literal code left).mono (fun _ good => good)
          (Nat.le_succ_of_le (length_parseHex parsed))
    · split
      · exact parses_unsupportedEscape c
      next byte left parsed =>
        exact ⟨by simp [Node.WellFormed], Nat.le_succ_of_le (length_simpleEscapeByte parsed)⟩

theorem parses_quantify {atom : Node} (wellFormed : atom.WellFormed) (rest : Rest) :
    Parses Node.WellFormed rest.length (quantify atom rest) := by
  rw [quantify]
  split
  · exact ⟨wellFormed, Nat.le_refl _⟩
  next min max left parsed =>
    obtain ⟨ordered, fewer⟩ := parseQuantifier_spec parsed
    have lazy : ((eat (byteOf '?') left).getD left).length ≤ left.length := by
      cases ate : eat (byteOf '?') left with
      | none => exact Nat.le_refl _
      | some after =>
        have := length_eat ate
        simp only [Option.getD_some]
        omega
    dsimp only
    split_ifs
    · exact parses_fail (by decide)
    · exact parses_fail (by decide)
    · exact ⟨by rw [Node.WellFormed]; exact ⟨ordered, wellFormed⟩, Nat.le_trans lazy fewer⟩

/-- The head of a group leaves no more to read, or fails with an error of its own. -/
theorem parseGroupHead_spec (rest : Rest) :
    (∃ left, parseGroupHead rest = .ok left ∧ left.length ≤ rest.length) ∨
      ∃ why, parseGroupHead rest = fail why ∧ why ≠ "out of fuel" := by
  rw [parseGroupHead]
  split
  · exact .inl ⟨rest, rfl, Nat.le_refl _⟩
  next left ate =>
    have question := length_eat ate
    split
    next after ate =>
      have := length_eat ate
      exact .inl ⟨after, rfl, by omega⟩
    split_ifs
    · exact .inr ⟨_, rfl, by decide⟩
    split
    · exact .inr ⟨_, rfl, by decide⟩
    next after ate =>
      have angle := length_eat ate
      split_ifs
      · exact .inr ⟨_, rfl, by decide⟩
      split
      · exact .inr ⟨_, rfl, by decide⟩
      next named ate =>
        have close := length_eat ate
        have skipped : (after.dropWhile (· != byteOf '>')).length ≤ after.length :=
          (List.dropWhile_suffix _).length_le
        exact .inl ⟨named, rfl, by omega⟩

theorem wellFormed_concatOf {pieces : List Node} (wellFormed : allWellFormed pieces) :
    (concatOf pieces).WellFormed := by
  match pieces, wellFormed with
  | [], _ => simp [concatOf, Node.WellFormed]
  | [piece], wellFormed =>
    rw [allWellFormed] at wellFormed
    exact wellFormed.1
  | first :: second :: rest, wellFormed =>
    simpa only [concatOf, Node.WellFormed] using wellFormed

/-! ## The recursive descent -/

/-- What the functions of the parser do with this much fuel. -/
structure Descends (fuel : ℕ) : Prop where
  alternation : ∀ depth rest, 6 * rest.length + 3 ≤ fuel →
    Parses Node.WellFormed rest.length (parseAlternation fuel depth rest)
  branches : ∀ depth rest, 6 * rest.length + 2 ≤ fuel →
    Parses allWellFormed rest.length (parseBranches fuel depth rest)
  concat : ∀ depth rest, 6 * rest.length + 2 ≤ fuel →
    Parses Node.WellFormed rest.length (parseConcat fuel depth rest)
  pieces : ∀ depth rest, 6 * rest.length + 1 ≤ fuel →
    Parses allWellFormed rest.length (parsePieces fuel depth rest)
  repetition : ∀ depth c rest, 6 * rest.length + 6 ≤ fuel →
    Parses Node.WellFormed rest.length (parseRepeat fuel depth c rest)
  atom : ∀ depth c rest, 6 * rest.length + 5 ≤ fuel →
    Parses Node.WellFormed rest.length (parseAtom fuel depth c rest)
  group : ∀ depth rest, 6 * rest.length + 4 ≤ fuel →
    Parses Node.WellFormed rest.length (parseGroup fuel depth rest)

theorem descends_zero : Descends 0 := by
  constructor
  all_goals
    intros
    omega

section Descent

variable {fuel : ℕ} (descends : Descends fuel)

include descends

theorem parses_alternation (depth : ℕ) (rest : Rest) (enough : 6 * rest.length + 3 ≤ fuel + 1) :
    Parses Node.WellFormed rest.length (parseAlternation (fuel + 1) depth rest) := by
  rw [parseAlternation]
  apply (descends.concat depth rest (by omega)).bind
  intro first left wellFormed fewer
  dsimp only
  split_ifs
  · apply (descends.branches depth left (by omega)).bind
    intro branches left' others fewer'
    refine ⟨?_, Nat.le_trans fewer' fewer⟩
    rw [Node.WellFormed, allWellFormed]
    exact ⟨by simp, wellFormed, others⟩
  · exact ⟨wellFormed, fewer⟩

theorem parses_branches (depth : ℕ) (rest : Rest) (enough : 6 * rest.length + 2 ≤ fuel + 1) :
    Parses allWellFormed rest.length (parseBranches (fuel + 1) depth rest) := by
  rw [parseBranches]
  split
  · exact ⟨by simp [allWellFormed], Nat.le_refl _⟩
  next left ate =>
    have bar := length_eat ate
    apply (descends.concat depth left (by omega)).bind
    intro branch left wellFormed fewer
    dsimp only
    apply (descends.branches depth left (by omega)).bind
    intro branches left' others fewer'
    refine ⟨?_, by dsimp only; omega⟩
    rw [allWellFormed]
    exact ⟨wellFormed, others⟩

theorem parses_pieces (depth : ℕ) (rest : Rest) (enough : 6 * rest.length + 1 ≤ fuel + 1) :
    Parses allWellFormed rest.length (parsePieces (fuel + 1) depth rest) := by
  cases rest with
  | nil => exact ⟨by simp [allWellFormed], Nat.le_refl _⟩
  | cons c rest =>
    rw [List.length_cons] at enough
    rw [parsePieces]
    split_ifs
    · exact ⟨by simp [allWellFormed], Nat.le_refl _⟩
    · apply (descends.repetition depth c rest (by omega)).bind
      intro piece left wellFormed fewer
      dsimp only
      apply (descends.pieces depth left (by omega)).bind
      intro pieces left' others fewer'
      refine ⟨?_, by simp only [List.length_cons]; omega⟩
      rw [allWellFormed]
      exact ⟨wellFormed, others⟩

theorem parses_atom (depth : ℕ) (c : UInt8) (rest : Rest) (enough : 6 * rest.length + 5 ≤ fuel + 1) :
    Parses Node.WellFormed rest.length (parseAtom (fuel + 1) depth c rest) := by
  rw [parseAtom]
  split_ifs
  · exact ⟨by simp [Node.WellFormed], Nat.le_refl _⟩
  · exact ⟨by simp [Node.WellFormed], Nat.le_refl _⟩
  · exact ⟨by simp [Node.WellFormed], Nat.le_refl _⟩
  · exact descends.group depth rest (by omega)
  · exact parses_class rest
  · exact parses_escape rest
  · exact parses_fail (by decide)
  · exact ⟨by simp [Node.WellFormed], Nat.le_refl _⟩

theorem parses_group (depth : ℕ) (rest : Rest) (enough : 6 * rest.length + 4 ≤ fuel + 1) :
    Parses Node.WellFormed rest.length (parseGroup (fuel + 1) depth rest) := by
  rw [parseGroup]
  split_ifs
  · exact parses_fail (by decide)
  obtain ⟨left, head, fewer⟩ | ⟨why, head, other⟩ := parseGroupHead_spec rest
  · rw [head]
    have body := descends.alternation (depth + 1) left (by omega)
    apply body.bind
    intro body after wellFormed fewer'
    dsimp only
    split
    · exact parses_fail (by decide)
    next closed ate =>
      have := length_eat ate
      exact ⟨wellFormed, by omega⟩
  · rw [head]
    have failed : Parses Node.WellFormed rest.length (fail why) := parses_fail other
    exact failed

theorem descends_succ : Descends (fuel + 1) where
  alternation := parses_alternation descends
  branches := parses_branches descends
  concat depth rest enough := by
    rw [parseConcat]
    apply (descends.pieces depth rest (by omega)).bind
    intro pieces left wellFormed fewer
    exact ⟨wellFormed_concatOf wellFormed, fewer⟩
  pieces := parses_pieces descends
  repetition depth c rest enough := by
    rw [parseRepeat]
    apply (descends.atom depth c rest (by omega)).bind
    intro atom left wellFormed fewer
    exact (parses_quantify wellFormed left).mono (fun _ good => good) fewer
  atom := parses_atom descends
  group := parses_group descends

end Descent

theorem descends (fuel : ℕ) : Descends fuel := by
  induction fuel with
  | zero => exact descends_zero
  | succ fuel ih => exact descends_succ ih

/-- The parser builds a well-formed tree or fails, and its fuel is never used up. -/
theorem parse_spec (pattern : List UInt8) :
    (∃ tree, parse pattern = .ok tree ∧ tree.WellFormed) ∨
      ∃ error, parse pattern = .error error ∧ error ≠ outOfFuel := by
  have parses := (descends (8 * pattern.length + 8)).alternation 0 pattern (by omega)
  rw [parse]
  cases parsed : parseAlternation (8 * pattern.length + 8) 0 pattern with
  | error error =>
    rw [parsed] at parses
    exact .inr ⟨error, rfl, parses⟩
  | ok result =>
    obtain ⟨tree, rest⟩ := result
    rw [parsed] at parses
    cases rest with
    | nil => exact .inl ⟨tree, rfl, parses.1⟩
    | cons c rest => exact .inr ⟨_, rfl, by decide⟩

theorem wellFormed_of_parse {pattern : List UInt8} {tree : Node} (parsed : parse pattern = .ok tree) :
    tree.WellFormed := by
  obtain ⟨other, parsed', wellFormed⟩ | ⟨error, failed, _⟩ := parse_spec pattern
  · rw [parsed] at parsed'
    obtain rfl := Except.ok.inj parsed'
    exact wellFormed
  · rw [parsed] at failed
    cases failed

end OpalCpp.Regex

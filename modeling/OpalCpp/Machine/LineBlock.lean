import Mathlib.Data.List.Infix

/-! # Blocks of lines

A text is cut where a delimiter of several symbols occurs first. Lines that end with a delimiter of two
different symbols, and that an empty line closes, come back one by one; a text that arrives in pieces is
cut where the whole of it would be.
-/

namespace OpalCpp

namespace LineBlock

variable {α : Type*} [DecidableEq α]

/-- What is before the first occurrence of the delimiter, and what is after it. -/
def cutAt (delimiter : List α) : List α → Option (List α × List α)
  | [] => if delimiter = [] then some ([], []) else none
  | item :: items =>
    if delimiter <+: item :: items then some ([], (item :: items).drop delimiter.length)
    else (cutAt delimiter items).map fun (before, after) => (item :: before, after)

theorem cutAt_append {delimiter : List α} (some_ : delimiter ≠ []) (after : List α) :
    cutAt delimiter (delimiter ++ after) = some ([], after) := by
  obtain ⟨first, rest, rfl⟩ := List.exists_cons_of_ne_nil some_
  have starts := List.prefix_append (first :: rest) after
  have behind : (first :: rest ++ after).drop (first :: rest).length = after := List.drop_left
  rw [List.cons_append] at starts behind ⊢
  rw [cutAt, if_pos starts, behind]

/-- Symbols at which the delimiter does not begin are passed over. -/
theorem cutAt_passed {delimiter before after : List α}
    (clear : ∀ tail, tail ≠ [] → tail <:+ before → ¬ delimiter <+: tail ++ after) :
    cutAt delimiter (before ++ after) = (cutAt delimiter after).map fun (first, rest) => (before ++ first, rest) := by
  induction before with
  | nil =>
    rw [List.nil_append]
    cases cutAt delimiter after <;> rfl
  | cons item before ih =>
    have here := clear (item :: before) (List.cons_ne_nil _ _) (List.suffix_refl _)
    rw [List.cons_append] at here
    rw [List.cons_append, cutAt, if_neg here,
      ih fun tail some_ within => clear tail some_ (within.trans (List.suffix_cons _ _))]
    cases cutAt delimiter after <;> rfl

theorem of_cutAt {delimiter items before after : List α} (cut : cutAt delimiter items = some (before, after)) :
    items = before ++ delimiter ++ after := by
  induction items generalizing before with
  | nil =>
    rw [cutAt] at cut
    split_ifs at cut with empty
    cases cut
    rw [empty]
    rfl
  | cons item items ih =>
    rw [cutAt] at cut
    split_ifs at cut with here
    · cases cut
      obtain ⟨rest, same⟩ := here
      rw [← same, List.drop_left, List.nil_append]
    · obtain ⟨⟨first, rest⟩, found, same⟩ := Option.map_eq_some_iff.mp cut
      cases same
      rw [ih found]
      rfl

theorem length_of_cutAt {delimiter items before after : List α} (some_ : delimiter ≠ [])
    (cut : cutAt delimiter items = some (before, after)) : after.length < items.length := by
  have positive := List.length_pos_iff.mpr some_
  rw [of_cutAt cut, List.length_append, List.length_append]
  omega

/-- More symbols do not move a cut. -/
theorem cutAt_append_right {delimiter items before after : List α} (cut : cutAt delimiter items = some (before, after))
    (more : List α) (some_ : delimiter ≠ []) : cutAt delimiter (items ++ more) = some (before, after ++ more) := by
  induction items generalizing before with
  | nil =>
    rw [cutAt, if_neg some_] at cut
    cases cut
  | cons item items ih =>
    rw [cutAt] at cut
    split_ifs at cut with here
    · cases cut
      rw [List.cons_append, cutAt, ← List.cons_append, if_pos (here.trans (List.prefix_append _ _)),
        List.drop_append_of_le_length here.length_le]
    · obtain ⟨⟨first, rest⟩, found, same⟩ := Option.map_eq_some_iff.mp cut
      cases same
      -- The delimiter fits before what comes in addition, so that it does not begin here either.
      have long : delimiter.length ≤ (item :: items).length := by
        rw [of_cutAt found, List.length_cons, List.length_append, List.length_append]
        omega
      have still : ¬ delimiter <+: item :: (items ++ more) := fun starts =>
        here (List.prefix_of_prefix_length_le starts (List.prefix_append (item :: items) more) long)
      rw [List.cons_append, cutAt, if_neg still, ih found]
      rfl

/-- A text with the delimiter in it is cut. -/
theorem cutAt_isSome {delimiter items : List α} (inside : delimiter <:+: items) : (cutAt delimiter items).isSome := by
  obtain ⟨before, after, rfl⟩ := inside
  obtain rfl | some_ := eq_or_ne delimiter []
  · cases before ++ [] ++ after with
    | nil => rfl
    | cons item items => rw [cutAt, if_pos List.nil_prefix, Option.isSome_some]
  · induction before with
    | nil => rw [List.nil_append, cutAt_append some_, Option.isSome_some]
    | cons item before ih =>
      rw [List.cons_append, List.cons_append, cutAt]
      split_ifs
      · rfl
      · rwa [Option.isSome_map]

/-! ## Texts without a pair -/

section Pairs

variable {first second : α} {before after : List α}

omit [DecidableEq α] in
theorem pair_infix_of_append_left (without : first ∉ before) (inside : [first, second] <:+: before ++ after) :
    [first, second] <:+: after := by
  induction before with
  | nil => exact inside
  | cons item before ih =>
    rw [List.mem_cons, not_or] at without
    obtain starts | later := List.infix_cons_iff.mp inside
    · exact absurd (List.cons_prefix_cons.mp starts).1 without.1
    · exact ih without.2 later

omit [DecidableEq α] in
theorem pair_infix_of_append_right (without : second ∉ after) (inside : [first, second] <:+: before ++ after) :
    [first, second] <:+: before := by
  have turned : [second, first] <:+: after.reverse ++ before.reverse := by
    rw [← List.reverse_append]
    exact List.reverse_infix.mpr inside
  rw [← List.reverse_infix]
  exact pair_infix_of_append_left (by simpa using without) turned

end Pairs

/-! ## Lines -/

section Lines

variable {first second : α} (differ : first ≠ second)

/-- A line that does not hold the delimiter, and is not empty. -/
def IsLine (first second : α) (line : List α) : Prop := line ≠ [] ∧ ¬ [first, second] <:+: line

include differ

omit [DecidableEq α] in
/-- In a line and the delimiter after it no delimiter begins before the end. -/
theorem IsLine.no_start {line : List α} (isLine : ¬ [first, second] <:+: line) {tail : List α} (some_ : tail ≠ [])
    (within : tail <:+ line) (after : List α) : ¬ [first, second] <+: tail ++ ([first, second] ++ after) := by
  intro starts
  cases tail with
  | nil => exact some_ rfl
  | cons item tail =>
    cases tail with
    | nil =>
      obtain ⟨rest, same⟩ := starts
      simp only [List.cons_append, List.nil_append, List.cons.injEq] at same
      exact differ same.2.1.symm
    | cons next tail =>
      obtain ⟨rest, same⟩ := starts
      simp only [List.cons_append, List.nil_append, List.cons.injEq] at same
      obtain ⟨rfl, rfl, _⟩ := same
      exact isLine ((List.prefix_append [first, second] tail).isInfix.trans within.isInfix)

/-- The first line of a text. -/
theorem cutAt_line {line : List α} (isLine : ¬ [first, second] <:+: line) (after : List α) :
    cutAt [first, second] (line ++ ([first, second] ++ after)) = some (line, after) := by
  rw [cutAt_passed fun tail some_ within => IsLine.no_start differ isLine some_ within after,
    cutAt_append (List.cons_ne_nil _ _)]
  simp

/-- Lines with the delimiter between them. -/
def joined (first second : α) : List (List α) → List α
  | [] => []
  | [line] => line
  | line :: lines => line ++ ([first, second] ++ joined first second lines)

omit [DecidableEq α] differ in
theorem joined_cons_cons (line next : List α) (lines : List (List α)) :
    joined first second (line :: next :: lines) = line ++ ([first, second] ++ joined first second (next :: lines)) := rfl

/-- The empty line after a block is the first one. -/
theorem cutAt_block {lines : List (List α)} (some_ : lines ≠ []) (areLines : ∀ line ∈ lines, IsLine first second line)
    (after : List α) :
    cutAt [first, second, first, second] (joined first second lines ++ ([first, second, first, second] ++ after)) =
      some (joined first second lines, after) := by
  have twice {text : List α} (starts : [first, second, first, second] <+: text) : [first, second] <+: text :=
    List.IsPrefix.trans ⟨[first, second], rfl⟩ starts
  induction lines with
  | nil => exact absurd rfl some_
  | cons line lines ih =>
    have isLine := (areLines line List.mem_cons_self).2
    cases lines with
    | nil =>
      have clear (tail : List α) (some_ : tail ≠ []) (within : tail <:+ line) :
          ¬ [first, second, first, second] <+: tail ++ ([first, second, first, second] ++ after) := fun starts =>
        IsLine.no_start differ isLine some_ within ([first, second] ++ after) (twice starts)
      rw [joined, cutAt_passed clear, cutAt_append (List.cons_ne_nil _ _)]
      simp
    | cons next lines =>
      have later := ih (List.cons_ne_nil _ _) fun other member => areLines other (List.mem_cons_of_mem _ member)
      generalize rest : joined first second (next :: lines) ++ ([first, second, first, second] ++ after) = text at later
      have nextLine : ∃ more, text = next ++ ([first, second] ++ more) := by
        subst rest
        cases lines with
        | nil => exact ⟨[first, second] ++ after, rfl⟩
        | cons third lines =>
          exact ⟨joined first second (third :: lines) ++ ([first, second, first, second] ++ after), by simp [joined]⟩
      have clear (tail : List α) (some_ : tail ≠ []) (within : tail <:+ line) :
          ¬ [first, second, first, second] <+: tail ++ ([first, second] ++ text) := fun starts =>
        IsLine.no_start differ isLine some_ within text (twice starts)
      have ended (tail : List α) (some_ : tail ≠ []) (within : tail <:+ [first, second]) :
          ¬ [first, second, first, second] <+: tail ++ text := by
        intro starts
        obtain rfl | within := List.suffix_cons_iff.mp within
        · obtain ⟨more, rfl⟩ := nextLine
          obtain ⟨nextSome, nextIsLine⟩ := areLines next (List.mem_cons_of_mem _ List.mem_cons_self)
          exact IsLine.no_start differ nextIsLine nextSome (List.suffix_refl _) more
            ((List.prefix_append_right_inj [first, second]).mp starts)
        · obtain rfl | within := List.suffix_cons_iff.mp within
          · exact differ (List.cons_prefix_cons.mp starts).1
          · exact some_ (List.suffix_nil.mp within)
      have whole : joined first second (line :: next :: lines) ++ ([first, second, first, second] ++ after) =
          line ++ ([first, second] ++ text) := by
        rw [← rest]
        simp [joined]
      rw [whole, cutAt_passed clear, cutAt_passed ended, later]
      rfl

end Lines

/-! ## Pieces -/

/-- A text of which the cut is known, without an end of it: it is not cut before the delimiter is there,
and the rest of what it is cut into is in what is missing. -/
theorem cutAt_of_append {delimiter items more before after : List α} (some_ : delimiter ≠ [])
    (whole : cutAt delimiter (items ++ more) = some (before, after)) :
    (cutAt delimiter items = none ∧ items.length < before.length + delimiter.length) ∨
      ∃ rest, cutAt delimiter items = some (before, rest) ∧ after = rest ++ more := by
  cases cut : cutAt delimiter items with
  | none =>
    refine .inl ⟨rfl, ?_⟩
    by_contra long
    have same := of_cutAt whole
    have starts : before ++ delimiter <+: items := by
      apply List.prefix_of_prefix_length_le ⟨after, same.symm⟩ (List.prefix_append items more)
      rw [List.length_append]
      omega
    obtain ⟨rest, rfl⟩ := starts
    have inside : delimiter <:+: before ++ delimiter ++ rest := ⟨before, rest, rfl⟩
    have found := cutAt_isSome inside
    rw [cut] at found
    cases found
  | some result =>
    obtain ⟨first, rest⟩ := result
    have extended := cutAt_append_right cut more some_
    rw [whole] at extended
    cases extended
    exact .inr ⟨rest, rfl, rfl⟩

end LineBlock

end OpalCpp

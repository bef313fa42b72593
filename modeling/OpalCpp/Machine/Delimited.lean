import Mathlib.Data.List.Basic

/-! # Lists cut at a delimiter

A list up to the first delimiter and what follows it, and lists put together with a delimiter
between them.
-/

namespace OpalCpp

namespace Delimited

variable {α : Type*} [DecidableEq α]

/-- What stands before the first delimiter, and what follows it if there is one. -/
def cut (delimiter : α) : List α → List α × Option (List α)
  | [] => ([], none)
  | item :: items =>
    if item = delimiter then ([], some items)
    else
      let (before, after) := cut delimiter items
      (item :: before, after)

/-- The lists with a delimiter between them. -/
def join (delimiter : α) : List (List α) → List α
  | [] => []
  | [items] => items
  | items :: next :: rest => items ++ delimiter :: join delimiter (next :: rest)

omit [DecidableEq α] in
/-- The first list starts what is put together. -/
theorem exists_join_cons (delimiter item : α) (items : List α) (rest : List (List α)) :
    ∃ more, join delimiter ((item :: items) :: rest) = item :: more := by
  cases rest with
  | nil => exact ⟨items, rfl⟩
  | cons next rest => exact ⟨_, rfl⟩

theorem cut_of_notMem {delimiter : α} {items : List α} (without : delimiter ∉ items) :
    cut delimiter items = (items, none) := by
  induction items with
  | nil => rfl
  | cons item items ih =>
    rw [List.mem_cons, not_or] at without
    rw [cut, if_neg (Ne.symm without.1), ih without.2]

theorem cut_append {delimiter : α} {before : List α} (without : delimiter ∉ before) (after : List α) :
    cut delimiter (before ++ delimiter :: after) = (before, some after) := by
  induction before with
  | nil => rw [List.nil_append, cut, if_pos rfl]
  | cons item before ih =>
    rw [List.mem_cons, not_or] at without
    rw [List.cons_append, cut, if_neg (Ne.symm without.1), ih without.2]

/-- What was cut goes together again. -/
theorem of_cut {delimiter : α} {items before : List α} {after : Option (List α)}
    (split : cut delimiter items = (before, after)) :
    delimiter ∉ before ∧ items = before ++ after.elim [] (delimiter :: ·) := by
  induction items generalizing before with
  | nil =>
    cases split
    exact ⟨List.not_mem_nil, rfl⟩
  | cons item items ih =>
    rw [cut] at split
    split_ifs at split with same
    · cases split
      exact ⟨List.not_mem_nil, by rw [same]; rfl⟩
    · have rest : cut delimiter items = ((cut delimiter items).1, after) := by rw [← (Prod.mk.inj split).2]
      obtain ⟨without, whole⟩ := ih rest
      cases split
      exact ⟨fun member => (List.mem_cons.mp member).elim (fun equal => same equal.symm) without,
        by rw [List.cons_append, ← whole]⟩

theorem length_of_cut {delimiter : α} {items before after : List α}
    (split : cut delimiter items = (before, some after)) : after.length < items.length := by
  rw [(of_cut split).2, Option.elim_some, List.length_append, List.length_cons]
  omega

/-- What stands before the last delimiter, and what follows it if there is one. -/
def cutLast (delimiter : α) (items : List α) : List α × Option (List α) :=
  match cut delimiter items.reverse with
  | (_, none) => (items, none)
  | (after, some before) => (before.reverse, some after.reverse)

theorem cutLast_of_notMem {delimiter : α} {items : List α} (without : delimiter ∉ items) :
    cutLast delimiter items = (items, none) := by
  rw [cutLast, cut_of_notMem (fun member => without (List.mem_reverse.mp member))]

theorem cutLast_append {delimiter : α} {after : List α} (without : delimiter ∉ after) (before : List α) :
    cutLast delimiter (before ++ delimiter :: after) = (before, some after) := by
  have reversed : (before ++ delimiter :: after).reverse = after.reverse ++ delimiter :: before.reverse := by simp
  simp only [cutLast, reversed, cut_append (fun member => without (List.mem_reverse.mp member)), List.reverse_reverse]

theorem of_cutLast {delimiter : α} {items before after : List α} (split : cutLast delimiter items = (before, some after)) :
    delimiter ∉ after ∧ items = before ++ delimiter :: after := by
  rw [cutLast] at split
  split at split
  · cases split
  · next reversed =>
    cases split
    obtain ⟨without, whole⟩ := of_cut reversed
    refine ⟨fun member => without (List.mem_reverse.mp member), ?_⟩
    have forward := congrArg List.reverse whole
    simpa using forward

theorem of_cutLast_none {delimiter : α} {items before : List α} (split : cutLast delimiter items = (before, none)) :
    delimiter ∉ items ∧ before = items := by
  rw [cutLast] at split
  split at split
  · next reversed =>
    cases split
    obtain ⟨without, whole⟩ := of_cut reversed
    rw [Option.elim_none, List.append_nil] at whole
    exact ⟨fun member => without (whole ▸ List.mem_reverse.mpr member), rfl⟩
  · cases split

omit [DecidableEq α] in
theorem join_eq_nil {delimiter : α} {lists : List (List α)} : join delimiter lists = [] ↔ lists = [] ∨ lists = [[]] := by
  cases lists with
  | nil => exact iff_of_true rfl (.inl rfl)
  | cons items lists =>
    cases lists with
    | nil => simp [join]
    | cons next rest => simp [join]

omit [DecidableEq α] in
theorem join_cons {delimiter : α} (items : List α) {rest : List (List α)} (some_ : rest ≠ []) :
    join delimiter (items :: rest) = items ++ delimiter :: join delimiter rest := by
  cases rest with
  | nil => exact absurd rfl some_
  | cons next rest => rfl

omit [DecidableEq α] in
theorem join_concat {delimiter : α} {lists : List (List α)} (some_ : lists ≠ []) (last : List α) :
    join delimiter (lists ++ [last]) = join delimiter lists ++ delimiter :: last := by
  induction lists with
  | nil => exact absurd rfl some_
  | cons items lists ih =>
    by_cases none_ : lists = []
    · rw [none_]
      rfl
    · rw [List.cons_append, join_cons items (List.append_ne_nil_of_left_ne_nil none_ _), ih none_, join_cons items none_,
        List.append_assoc, List.cons_append]

/-- Every list is cut into pieces without the delimiter. -/
theorem exists_join (delimiter : α) (items : List α) :
    ∃ lists ≠ [], join delimiter lists = items ∧ ∀ piece ∈ lists, delimiter ∉ piece := by
  induction items with
  | nil => exact ⟨[[]], List.cons_ne_nil _ _, rfl, by simp⟩
  | cons item items ih =>
    obtain ⟨lists, some_, joined, without⟩ := ih
    by_cases here : item = delimiter
    · refine ⟨[] :: lists, List.cons_ne_nil _ _, ?_, ?_⟩
      · rw [join_cons [] some_, joined, here, List.nil_append]
      · rw [List.forall_mem_cons]
        exact ⟨List.not_mem_nil, without⟩
    · cases lists with
      | nil => exact absurd rfl some_
      | cons first rest =>
        rw [List.forall_mem_cons] at without
        refine ⟨(item :: first) :: rest, List.cons_ne_nil _ _, ?_, ?_⟩
        · cases rest with
          | nil => rw [← joined]; rfl
          | cons next rest => rw [← joined]; rfl
        · rw [List.forall_mem_cons, List.mem_cons, not_or]
          exact ⟨⟨Ne.symm here, without.1⟩, without.2⟩

omit [DecidableEq α] in
theorem notMem_join {delimiter other : α} (differs : other ≠ delimiter) {lists : List (List α)}
    (without : ∀ items ∈ lists, other ∉ items) : other ∉ join delimiter lists := by
  induction lists with
  | nil => exact List.not_mem_nil
  | cons items lists ih =>
    rw [List.forall_mem_cons] at without
    cases lists with
    | nil => exact without.1
    | cons next rest =>
      rw [join, List.mem_append, List.mem_cons]
      exact fun member => member.elim without.1 fun tail => tail.elim differs (ih without.2)

end Delimited

end OpalCpp

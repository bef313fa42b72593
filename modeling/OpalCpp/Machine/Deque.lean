import Mathlib.Data.List.Basic
import Mathlib.Data.List.Nodup

/-! # Searching and editing a double-ended queue

`findFrom` is `std::find_if` started at an offset. A successful search splits the queue at the
item found, and an edit at that index is an edit of the split; the lemmas here carry a proof from
an index to the split and back, and from a list of parties to the only one that holds something.
-/

namespace OpalCpp

variable {α β : Type*}

/-- The first index at or after the offset whose element satisfies the test. -/
def findFrom (offset : ℕ) (test : α → Bool) (items : List α) : Option ℕ :=
  ((items.drop offset).findIdx? test).map (· + offset)

/-- A successful search splits the items at the first one from the offset on that passes the test. -/
theorem findFrom_eq_some {offset index : ℕ} {test : α → Bool} {items : List α}
    (found : findFrom offset test items = some index) :
    ∃ before item after, items = before ++ item :: after ∧ before.length = index ∧
      offset ≤ index ∧ test item = true ∧ ∀ other ∈ before.drop offset, test other = false := by
  obtain ⟨position, search, rfl⟩ := Option.map_eq_some_iff.mp found
  obtain ⟨bound, passes, first⟩ := List.findIdx?_eq_some_iff_getElem.mp search
  rw [List.length_drop] at bound
  refine ⟨items.take (position + offset), items[position + offset], items.drop (position + offset + 1),
    ?_, ?_, Nat.le_add_left _ _, ?_, ?_⟩
  · rw [← List.drop_eq_getElem_cons (by omega), List.take_append_drop]
  · rw [List.length_take]; omega
  · rw [List.getElem_drop] at passes
    simpa only [Nat.add_comm] using passes
  · intro other member
    obtain ⟨place, small, rfl⟩ := List.mem_iff_getElem.mp member
    rw [List.length_drop, List.length_take] at small
    have earlier := first place (by omega)
    simpa only [List.getElem_drop, List.getElem_take, Bool.not_eq_true] using earlier

/-- The search finds the item at which such a split breaks. -/
theorem findFrom_split {offset : ℕ} {test : α → Bool} {before after : List α} {item : α}
    (inside : offset ≤ before.length) (passes : test item = true)
    (first : ∀ other ∈ before.drop offset, test other = false) :
    findFrom offset test (before ++ item :: after) = some before.length := by
  have none : (before.drop offset).findIdx? test = none := by
    simpa [List.findIdx?_eq_none_iff] using first
  rw [findFrom, List.drop_append_of_le_length inside, List.findIdx?_append, none]
  simp [List.findIdx?_cons, passes, inside]

theorem findFrom_eq_none {offset : ℕ} {test : α → Bool} {items : List α} :
    findFrom offset test items = none ↔ ∀ item ∈ items.drop offset, test item = false := by
  simp [findFrom, List.findIdx?_eq_none_iff]

theorem modify_split (before after : List α) (item : α) (edit : α → α) :
    (before ++ item :: after).modify before.length edit = before ++ edit item :: after := by
  induction before with
  | nil => rfl
  | cons head rest ih => simp only [List.cons_append, List.length_cons, List.modify_succ_cons, ih]

theorem eraseIdx_split (before after : List α) (item : α) :
    (before ++ item :: after).eraseIdx before.length = before ++ after := by
  rw [List.eraseIdx_append_of_length_le (Nat.le_refl _), Nat.sub_self, List.eraseIdx_cons_zero]

/-- An item found at an index splits the list there, and erasing the index drops it from the split. -/
theorem exists_split_of_getElem? {items : List α} {index : ℕ} {item : α}
    (present : items[index]? = some item) : ∃ before after, items = before ++ item :: after ∧
      before.length = index ∧ items.eraseIdx index = before ++ after := by
  obtain ⟨bound, read⟩ := List.getElem?_eq_some_iff.mp present
  refine ⟨items.take index, items.drop (index + 1), ?_, ?_, List.eraseIdx_eq_take_drop_succ ..⟩
  · rw [← read, ← List.drop_eq_getElem_cons bound, List.take_append_drop]
  · rw [List.length_take]; omega

/-- Setting one item changes what the list yields at that item's place only. -/
theorem filterMap_set (yield : α → Option β) {items : List α} {index : ℕ} {old : α}
    (present : items[index]? = some old) : ∃ before after,
      items.filterMap yield = before ++ (yield old).toList ++ after ∧
      ∀ new, (items.set index new).filterMap yield = before ++ (yield new).toList ++ after := by
  obtain ⟨bound, read⟩ := List.getElem?_eq_some_iff.mp present
  have single (item : α) (rest : List α) :
      (item :: rest).filterMap yield = (yield item).toList ++ rest.filterMap yield := by
    cases value : yield item <;> simp [value]
  refine ⟨(items.take index).filterMap yield, (items.drop (index + 1)).filterMap yield, ?_, fun new => ?_⟩
  · nth_rewrite 1 [← List.take_append_drop index items]
    rw [List.drop_eq_getElem_cons bound, read, List.filterMap_append, single, List.append_assoc]
  · rw [List.set_eq_take_append_cons_drop, if_pos bound, List.filterMap_append, single, List.append_assoc]

/-- Setting one item changes what the list unfolds to at that item's place only. -/
theorem flatMap_set (expand : α → List β) {items : List α} {index : ℕ} {old : α}
    (present : items[index]? = some old) : ∃ before after,
      items.flatMap expand = before ++ expand old ++ after ∧
      ∀ new, (items.set index new).flatMap expand = before ++ expand new ++ after := by
  obtain ⟨bound, read⟩ := List.getElem?_eq_some_iff.mp present
  refine ⟨(items.take index).flatMap expand, (items.drop (index + 1)).flatMap expand, ?_, fun new => ?_⟩
  · nth_rewrite 1 [← List.take_append_drop index items]
    rw [List.drop_eq_getElem_cons bound, read, List.flatMap_append, List.flatMap_cons, List.append_assoc]
  · rw [List.set_eq_take_append_cons_drop, if_pos bound, List.flatMap_append, List.flatMap_cons,
      List.append_assoc]

/-- When at most one member of a list yields anything, the list yields what that member does. -/
theorem filterMap_eq_of_only {items : List α} {item : α} {yield : α → Option β} {index : ℕ}
    (present : items[index]? = some item)
    (only : ∀ place other, place ≠ index → items[place]? = some other → yield other = none) :
    items.filterMap yield = (yield item).toList := by
  induction items generalizing index with
  | nil => cases present
  | cons head rest ih =>
    cases index with
    | zero =>
      have empty : rest.filterMap yield = [] := by
        rw [List.filterMap_eq_nil_iff]
        intro other member
        obtain ⟨place, read⟩ := List.mem_iff_getElem?.mp member
        exact only (place + 1) other (by omega) (by simpa only [List.getElem?_cons_succ] using read)
      obtain rfl : head = item := Option.some.inj present
      cases value : yield head with
      | none => simp only [List.filterMap_cons_none value, empty, Option.toList_none]
      | some result => simp only [List.filterMap_cons_some value, empty, Option.toList_some]
    | succ index =>
      have silent : yield head = none := only 0 head (by omega) rfl
      rw [List.filterMap_cons_none silent]
      apply ih (by simpa only [List.getElem?_cons_succ] using present)
      intro place other different read
      exact only (place + 1) other (by omega) (by simpa only [List.getElem?_cons_succ] using read)

end OpalCpp

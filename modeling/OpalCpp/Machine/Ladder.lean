import Mathlib.Algebra.Order.BigOperators.Group.List
import Mathlib.Data.List.Induction
import Mathlib.Data.List.Sort
import Mathlib.Order.Basic

/-! # Ladders of buckets

A ladder of ascending boundaries puts a value into the first bucket whose boundary is not below it. The
items are tallied one by one; the running totals of a histogram count those up to each boundary.
-/

namespace OpalCpp

namespace Ladder

theorem findIdx_congr {α : Type*} {p q : α → Bool} {items : List α} (same : ∀ item ∈ items, p item = q item) :
    items.findIdx p = items.findIdx q := by
  induction items with
  | nil => rfl
  | cons item items ih =>
    rw [List.findIdx_cons, List.findIdx_cons, same item List.mem_cons_self,
      ih fun other member => same other (List.mem_cons_of_mem _ member)]

section Bounds

variable {α : Type*} [LinearOrder α]

/-- The bucket of a value, or the number of the buckets. -/
def place (bounds : List α) (value : α) : ℕ := bounds.findIdx (value ≤ ·)

/-- The buckets up to a boundary hold what does not exceed it. -/
theorem place_le_iff {bounds : List α} (ascending : bounds.Pairwise (· < ·)) {i : ℕ} {bound : α}
    (at_ : bounds[i]? = some bound) (value : α) : place bounds value ≤ i ↔ value ≤ bound := by
  obtain ⟨inside, rfl⟩ := List.getElem?_eq_some_iff.mp at_
  constructor
  · intro early
    have found : place bounds value < bounds.length := lt_of_le_of_lt early inside
    have below : value ≤ bounds[place bounds value] := by
      exact of_decide_eq_true (List.findIdx_getElem (w := found))
    obtain same | before := Nat.eq_or_lt_of_le early
    · simpa only [same] using below
    · exact le_trans below (List.pairwise_iff_getElem.mp ascending _ _ found inside before).le
  · intro below
    by_contra late
    have passed := List.not_of_lt_findIdx (not_le.mp late)
    simp [below] at passed

end Bounds

/-- The running totals of the counts. -/
def cumulative (counts : List ℕ) : List ℕ := (counts.scanl (· + ·) 0).tail

section Tally

variable {β : Type*} (size : ℕ) (index : β → ℕ)

/-- The items of each bucket, counted one after the other. -/
def tally (items : List β) : List ℕ :=
  items.foldl (fun counts item => counts.modify (index item) (· + 1)) (List.replicate size 0)

theorem tally_concat (items : List β) (item : β) :
    tally size index (items ++ [item]) = (tally size index items).modify (index item) (· + 1) := by
  rw [tally, List.foldl_append]
  rfl

theorem length_tally (items : List β) : (tally size index items).length = size := by
  induction items using List.reverseRecOn with
  | nil => exact List.length_replicate
  | append_singleton items item ih => rw [tally_concat, List.length_modify, ih]

theorem tally_eq (items : List β) :
    tally size index items = (List.range size).map fun i => items.countP (index · = i) := by
  induction items using List.reverseRecOn with
  | nil => simp [tally]
  | append_singleton items item ih =>
    apply List.ext_getElem (by simp [length_tally])
    intro i inside _
    simp only [tally_concat, ih, List.getElem_modify, List.getElem_map, List.getElem_range, List.countP_append,
      List.countP_singleton, decide_eq_true_eq]
    split_ifs <;> rfl

theorem countP_lt_succ (items : List β) (i : ℕ) :
    items.countP (index · < i + 1) = items.countP (index · < i) + items.countP (index · = i) := by
  induction items with
  | nil => rfl
  | cons item items ih =>
    simp only [List.countP_cons, ih, decide_eq_true_eq]
    split_ifs <;> omega

/-- A running total counts the items of the buckets up to it. -/
theorem cumulative_tally (items : List β) :
    cumulative (tally size index items) = (List.range size).map fun i => items.countP (index · ≤ i) := by
  have totals : ∀ i ≤ size, ((tally size index items).take i).sum = items.countP (index · < i) := by
    intro i
    induction i with
    | zero => simp
    | succ i ih =>
      intro inside
      have at_ : i < (tally size index items).length := by rw [length_tally]; exact inside
      rw [List.sum_take_succ _ _ at_, ih (Nat.le_of_succ_le inside), countP_lt_succ]
      simp [tally_eq]
  apply List.ext_getElem
  · simp [cumulative, length_tally]
  · intro i inside _
    have below : i < size := by simpa [cumulative, length_tally] using inside
    have next := totals (i + 1) below
    rw [List.sum_eq_foldl] at next
    simp only [cumulative, List.getElem_tail, List.getElem_scanl, List.getElem_map, List.getElem_range]
    rw [next]
    exact List.countP_congr fun item _ => by simp only [decide_eq_true_eq, Nat.lt_succ_iff]

end Tally

end Ladder

end OpalCpp

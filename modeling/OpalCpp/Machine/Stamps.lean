import Mathlib.Data.Finset.Prod
import Mathlib.Data.Finset.Sort
import Mathlib.Data.List.Nodup
import Mathlib.Order.Basic

/-! # Marking with stamps

A set of items that is cleared by a new stamp: an item is in it when it carries the stamp of now. Where
the stamps never decrease, no item is marked twice with one stamp, and all the marks there can be are so
many for each stamp as there are items.
-/

namespace OpalCpp

namespace Stamps

variable {Stamp : Type*} [LinearOrder Stamp]

/-- Items that do not carry a stamp are marked with it, one after the other; no stamp in use is greater. -/
inductive Marks : List Stamp → List (Stamp × ℕ) → List Stamp → Prop
  | nil (seen : List Stamp) : Marks seen [] seen
  | cons {seen after : List Stamp} {stamp : Stamp} {item : ℕ} {marks : List (Stamp × ℕ)} : item < seen.length →
      (∀ value ∈ seen, value ≤ stamp) → seen[item]? ≠ some stamp → Marks (seen.set item stamp) marks after →
      Marks seen ((stamp, item) :: marks) after

variable {seen between after : List Stamp} {first later : List (Stamp × ℕ)}

theorem Marks.trans (early : Marks seen first between) (late : Marks between later after) :
    Marks seen (first ++ later) after := by
  induction early with
  | nil seen => exact late
  | cons inside bounded fresh _ ih => exact .cons inside bounded fresh (ih late)

theorem Marks.length (marks : Marks seen first after) : after.length = seen.length := by
  induction marks with
  | nil seen => rfl
  | cons _ _ _ _ ih => rw [ih, List.length_set]

/-- An item carries a smaller stamp than any that it will be marked with. -/
theorem Marks.lt (marks : Marks seen first after) {stamp value : Stamp} {item : ℕ} (marked : (stamp, item) ∈ first)
    (now : seen[item]? = some value) : value < stamp := by
  induction marks generalizing value with
  | nil seen => cases marked
  | @cons seen after stamp' item' marks inside bounded fresh _ ih =>
    have older : value ≤ stamp' := bounded value (List.mem_of_getElem? now)
    obtain same | marked := List.mem_cons.mp marked
    · obtain ⟨rfl, rfl⟩ := Prod.mk.inj same
      apply lt_of_le_of_ne older
      rintro rfl
      exact fresh now
    · rcases eq_or_ne item' item with rfl | other
      · exact lt_of_le_of_lt older (ih marked (List.getElem?_set_self inside))
      · apply ih marked
        rw [List.getElem?_set_ne other]
        exact now

/-- No item is marked twice with one stamp. -/
theorem Marks.nodup (marks : Marks seen first after) : first.Nodup := by
  induction marks with
  | nil seen => exact List.nodup_nil
  | cons inside _ _ rest ih =>
    rw [List.nodup_cons]
    refine ⟨?_, ih⟩
    intro again
    exact lt_irrefl _ (rest.lt again (List.getElem?_set_self inside))

theorem Marks.item_lt (marks : Marks seen first after) {stamp : Stamp} {item : ℕ} (marked : (stamp, item) ∈ first) :
    item < seen.length := by
  induction marks with
  | nil seen => cases marked
  | cons inside _ _ _ ih =>
    obtain same | marked := List.mem_cons.mp marked
    · obtain ⟨rfl, rfl⟩ := Prod.mk.inj same
      exact inside
    · have there := ih marked
      rwa [List.length_set] at there

/-- There are no more marks than stamps times items. -/
theorem Marks.count_le (marks : Marks seen first after) (stamps : Finset Stamp) (among : ∀ mark ∈ first, mark.1 ∈ stamps) :
    first.length ≤ stamps.card * seen.length := by
  have inside : first.toFinset ⊆ stamps ×ˢ Finset.range seen.length := by
    rintro ⟨stamp, item⟩ member
    rw [List.mem_toFinset] at member
    exact Finset.mk_mem_product (among _ member) (Finset.mem_range.mpr (marks.item_lt member))
  calc
    first.length = first.toFinset.card := (List.toFinset_card_of_nodup marks.nodup).symm
    _ ≤ (stamps ×ˢ Finset.range seen.length).card := Finset.card_le_card inside
    _ = stamps.card * seen.length := by rw [Finset.card_product, Finset.card_range]

end Stamps

end OpalCpp

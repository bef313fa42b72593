import OpalCpp.Model.Core.Document

/-! # Maps of documents

What `insert_or_assign` does to the members of a map.
-/

namespace OpalCpp

namespace DocumentMap

variable {key : Bytes} {value : Document} {map : DocumentMap}

theorem mem_insertOrAssign {member : Bytes × Document} (inside : member ∈ map.insertOrAssign key value) :
    member = (key, value) ∨ member ∈ map := by
  induction map with
  | nil => exact .inl (List.mem_singleton.mp inside)
  | cons head members ih =>
    obtain ⟨other, old⟩ := head
    rw [insertOrAssign] at inside
    split_ifs at inside
    · exact List.mem_cons.mp inside
    · obtain rfl | inside := List.mem_cons.mp inside
      · exact .inr List.mem_cons_self
      · exact (ih inside).imp_right (List.mem_cons_of_mem _)
    · exact (List.mem_cons.mp inside).imp_right (List.mem_cons_of_mem _)

theorem length_insertOrAssign_le : (map.insertOrAssign key value).length ≤ map.length + 1 := by
  induction map with
  | nil => exact Nat.le_refl _
  | cons head members ih =>
    obtain ⟨other, old⟩ := head
    rw [insertOrAssign]
    split_ifs
    · exact Nat.le_refl _
    · exact Nat.succ_le_succ ih
    · exact Nat.le_succ _

/-- The keys stay in order. -/
theorem sorted_insertOrAssign (sorted : (map.map Prod.fst).Pairwise (· < ·)) :
    ((map.insertOrAssign key value).map Prod.fst).Pairwise (· < ·) := by
  induction map with
  | nil => exact List.pairwise_singleton _ _
  | cons head members ih =>
    obtain ⟨other, old⟩ := head
    obtain ⟨first, later⟩ := List.pairwise_cons.mp sorted
    rw [insertOrAssign]
    split_ifs with before after
    · refine List.pairwise_cons.mpr ⟨fun next member => ?_, sorted⟩
      obtain rfl | member := List.mem_cons.mp member
      · exact before
      · exact List.lt_trans before (first next member)
    · refine List.pairwise_cons.mpr ⟨fun next member => ?_, ih later⟩
      obtain ⟨inserted, inside, rfl⟩ := List.mem_map.mp member
      obtain rfl | inside := mem_insertOrAssign inside
      · exact after
      · exact first _ (List.mem_map_of_mem inside)
    · obtain rfl : key = other := Std.le_antisymm (List.not_lt.mp after) (List.not_lt.mp before)
      exact sorted

/-- A key after all the others is inserted at the end. -/
theorem insertOrAssign_last {key : Bytes} {value : Document} {map : DocumentMap}
    (after : ∀ other ∈ map.map Prod.fst, other < key) :
    DocumentMap.insertOrAssign key value map = map ++ [(key, value)] := by
  induction map with
  | nil => rfl
  | cons member members ih =>
    obtain ⟨other, old⟩ := member
    have before := after other List.mem_cons_self
    rw [insertOrAssign, if_neg (List.lt_asymm before), if_pos before,
      ih fun other member => after other (List.mem_cons_of_mem _ member)]
    rfl

end DocumentMap

end OpalCpp

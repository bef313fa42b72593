import Mathlib.Order.Lattice
import Mathlib.Data.List.Induction
import Mathlib.Data.List.Perm.Basic
import Mathlib.Order.Basic

/-! # The best of the candidates

A scan over a list that keeps the best candidate it has seen. Where the comparison is that of keys in
a linear order, and no two candidates share a key, the order of the list does not matter.
-/

namespace OpalCpp

namespace Selection

variable {α κ : Type*}

/-- What is kept after one more item. -/
def step (candidate : α → Bool) (better : α → α → Bool) (best : Option α) (item : α) : Option α :=
  if candidate item then
    match best with
    | none => some item
    | some chosen => if better item chosen then some item else best
  else best

def select (candidate : α → Bool) (better : α → α → Bool) (items : List α) : Option α :=
  items.foldl (step candidate better) none

/-- Selecting among mapped items. -/
theorem select_map {β : Type*} (f : β → α) (candidate : α → Bool) (better : α → α → Bool) (items : List β) :
    select candidate better (items.map f) =
      (select (fun item => candidate (f item)) (fun item other => better (f item) (f other)) items).map f := by
  rw [select, select]
  suffices scan : ∀ best : Option β, (items.map f).foldl (step candidate better) (best.map f) =
      (items.foldl (step (fun item => candidate (f item)) fun item other => better (f item) (f other)) best).map f from
        scan none
  induction items with
  | nil => exact fun _ => rfl
  | cons item items ih =>
    intro best
    rw [List.map_cons, List.foldl_cons, List.foldl_cons, ← ih]
    congr 1
    cases best with
    | none =>
      simp only [step, Option.map_none]
      split_ifs <;> rfl
    | some chosen =>
      simp only [step, Option.map_some]
      split_ifs <;> rfl

/-- What is selected is an item. -/
theorem mem_of_select {candidate : α → Bool} {better : α → α → Bool} {items : List α} {best : α}
    (selected : select candidate better items = some best) : best ∈ items := by
  induction items using List.reverseRecOn generalizing best with
  | nil => cases selected
  | append_singleton items item ih =>
    rw [select, List.foldl_append, List.foldl_cons, List.foldl_nil, ← select] at selected
    have last : item ∈ items ++ [item] := List.mem_append_right _ (List.mem_singleton_self item)
    cases before : select candidate better items with
    | none =>
      rw [before] at selected
      simp only [step] at selected
      split_ifs at selected with kept
      cases selected
      exact last
    | some chosen =>
      rw [before] at selected
      simp only [step] at selected
      split_ifs at selected with kept ahead
      · cases selected
        exact last
      · cases selected
        exact List.mem_append_left _ (ih before)
      · cases selected
        exact List.mem_append_left _ (ih before)

variable [LinearOrder κ] {candidate : α → Bool} {better : α → α → Bool} {key : α → κ}

/-- The item is a candidate of the list, and no candidate is before it. -/
def Best (candidate : α → Bool) (key : α → κ) (items : List α) (item : α) : Prop :=
  item ∈ items ∧ candidate item = true ∧ ∀ other ∈ items, candidate other = true → key item ≤ key other

/-- The scan has kept the best of what it has seen, or has seen no candidate. -/
def Scanned (candidate : α → Bool) (key : α → κ) (seen : List α) : Option α → Prop
  | none => ∀ item ∈ seen, candidate item = false
  | some best => Best candidate key seen best

theorem Scanned.step (compares : ∀ item other, better item other = true ↔ key item < key other) {seen : List α}
    {best : Option α} (scanned : Scanned candidate key seen best) (item : α) :
    Scanned candidate key (seen ++ [item]) (step candidate better best item) := by
  cases accepted : candidate item with
  | false =>
    have kept_ : Selection.step candidate better best item = best := by simp [Selection.step, accepted]
    rw [kept_]
    cases best with
    | none =>
      intro other member
      obtain before | last := List.mem_append.mp member
      · exact scanned other before
      · rw [List.mem_singleton.mp last, accepted]
    | some chosen =>
      obtain ⟨member, kept, least⟩ := scanned
      refine ⟨List.mem_append_left _ member, kept, ?_⟩
      intro other member accepted'
      obtain before | last := List.mem_append.mp member
      · exact least other before accepted'
      · rw [List.mem_singleton.mp last, accepted] at accepted'
        cases accepted'
  | true =>
    have here : item ∈ seen ++ [item] := List.mem_append_right _ (List.mem_singleton_self item)
    cases best with
    | none =>
      have first : Selection.step candidate better none item = some item := by simp [Selection.step, accepted]
      rw [first]
      refine ⟨here, accepted, ?_⟩
      intro other member accepted'
      obtain before | last := List.mem_append.mp member
      · rw [scanned other before] at accepted'
        cases accepted'
      · rw [List.mem_singleton.mp last]
    | some chosen =>
      obtain ⟨member, kept, least⟩ := scanned
      have compared : Selection.step candidate better (some chosen) item =
          if key item < key chosen then some item else some chosen := by simp [Selection.step, accepted, compares]
      rw [compared]
      by_cases before : key item < key chosen
      · rw [if_pos before]
        refine ⟨here, accepted, ?_⟩
        intro other member accepted'
        obtain early | last := List.mem_append.mp member
        · exact le_of_lt (lt_of_lt_of_le before (least other early accepted'))
        · rw [List.mem_singleton.mp last]
      · rw [if_neg before]
        refine ⟨List.mem_append_left _ member, kept, ?_⟩
        intro other member accepted'
        obtain early | last := List.mem_append.mp member
        · exact least other early accepted'
        · rw [List.mem_singleton.mp last]
          exact not_lt.mp before

theorem scanned_select (compares : ∀ item other, better item other = true ↔ key item < key other) (items : List α) :
    Scanned candidate key items (select candidate better items) := by
  induction items using List.reverseRecOn with
  | nil => exact fun item member => absurd member List.not_mem_nil
  | append_singleton items item ih =>
    rw [select, List.foldl_append]
    exact ih.step compares item

/-- Nothing is selected when there is no candidate. -/
theorem select_eq_none (compares : ∀ item other, better item other = true ↔ key item < key other) {items : List α} :
    select candidate better items = none ↔ ∀ item ∈ items, candidate item = false := by
  have scanned : Scanned candidate key items _ := scanned_select compares items
  constructor
  · intro nothing
    rwa [nothing] at scanned
  · intro refused
    cases selected : select candidate better items with
    | none => rfl
    | some best =>
      rw [selected] at scanned
      have kept := scanned.2.1
      rw [refused best scanned.1] at kept
      cases kept

/-- The best candidate is selected, where no two share a key. -/
theorem select_eq_some (compares : ∀ item other, better item other = true ↔ key item < key other) {items : List α}
    (distinct : ∀ item ∈ items, ∀ other ∈ items, candidate item = true → candidate other = true →
      key item = key other → item = other) {best : α} :
    select candidate better items = some best ↔ Best candidate key items best := by
  have scanned : Scanned candidate key items _ := scanned_select compares items
  constructor
  · intro selected
    rwa [selected] at scanned
  · rintro ⟨member, kept, least⟩
    cases selected : select candidate better items with
    | none =>
      rw [selected] at scanned
      rw [scanned best member] at kept
      cases kept
    | some chosen =>
      rw [selected] at scanned
      obtain ⟨member', kept', least'⟩ := scanned
      rw [distinct chosen member' best member kept' kept
        (le_antisymm (least' best member kept) (least chosen member' kept'))]

/-- The order of the list does not matter. -/
theorem select_perm (compares : ∀ item other, better item other = true ↔ key item < key other) {items others : List α}
    (distinct : ∀ item ∈ items, ∀ other ∈ items, candidate item = true → candidate other = true →
      key item = key other → item = other) (perm : items.Perm others) :
    select candidate better items = select candidate better others := by
  have distinct' : ∀ item ∈ others, ∀ other ∈ others, candidate item = true → candidate other = true →
      key item = key other → item = other := by
    intro item member other member'
    exact distinct item (perm.mem_iff.mpr member) other (perm.mem_iff.mpr member')
  ext best
  rw [select_eq_some compares distinct, select_eq_some compares distinct', Best, Best]
  simp only [perm.mem_iff]

end Selection

end OpalCpp

import Mathlib.Data.Set.Basic
import Mathlib.Logic.Relation

/-! # Fragments of a transition system

A fragment is a region of a system's states with a way in and a way out, both indexed by data that
the fragment transforms: it computes a relation on the data when every related pair is joined by a
path from its entry to its exit, and every path that gets out of the region has gone through the
exit at a related value. Fragments compose like the programs they come from: in sequence, by a
choice at the head, in a loop, and as a number of optional copies. What a compiler emits for a
construct is then a fragment by one of the rules here.
-/

namespace OpalCpp

variable {State Data : Type*}

/-- A path with its number of steps. -/
inductive Path (step : State → State → Prop) : ℕ → State → State → Prop
  | nil (source : State) : Path step 0 source source
  | cons {length : ℕ} {source next target : State} (first : step source next)
      (rest : Path step length next target) : Path step (length + 1) source target

/-- The relation composed with itself a number of times. -/
def power (relation : Data → Data → Prop) : ℕ → Data → Data → Prop
  | 0 => Eq
  | count + 1 => Relation.Comp relation (power relation count)

namespace Path

variable {step : State → State → Prop} {source target : State}

/-- A path to somewhere else takes a first step. -/
theorem exists_first {length : ℕ} (path : Path step length source target) (moves : source ≠ target) :
    ∃ rest next, length = rest + 1 ∧ step source next ∧ Path step rest next target := by
  cases path with
  | nil => exact absurd rfl moves
  | cons first rest => exact ⟨_, _, rfl, first, rest⟩

theorem of_reflTransGen (reach : Relation.ReflTransGen step source target) :
    ∃ length, Path step length source target := by
  induction reach using Relation.ReflTransGen.head_induction_on with
  | refl => exact ⟨0, .nil target⟩
  | head first _ ih =>
    obtain ⟨length, rest⟩ := ih
    exact ⟨length + 1, .cons first rest⟩

/-- A state without successors is where every path from it ends. -/
theorem eq_of_stuck {length : ℕ} (path : Path step length source target)
    (stuck : ∀ next, ¬ step source next) : source = target := by
  cases path with
  | nil => rfl
  | cons first rest => exact absurd first (stuck _)

end Path

theorem power_add (relation : Data → Data → Prop) (first second : ℕ) {source middle target : Data}
    (early : power relation first source middle) (late : power relation second middle target) :
    power relation (first + second) source target := by
  induction first generalizing source with
  | zero =>
    obtain rfl : source = middle := early
    rwa [Nat.zero_add]
  | succ first ih =>
    obtain ⟨next, head, rest⟩ := early
    rw [Nat.succ_add]
    exact ⟨next, head, ih rest⟩

/-- A number of steps split into the first ones and the others. -/
theorem exists_of_power_add (relation : Data → Data → Prop) {first second : ℕ} {source target : Data}
    (whole : power relation (first + second) source target) :
    ∃ middle, power relation first source middle ∧ power relation second middle target := by
  induction first generalizing source with
  | zero =>
    rw [Nat.zero_add] at whole
    exact ⟨source, rfl, whole⟩
  | succ first ih =>
    rw [Nat.succ_add] at whole
    obtain ⟨next, head, rest⟩ := whole
    obtain ⟨middle, early, late⟩ := ih rest
    exact ⟨middle, ⟨next, head, early⟩, late⟩

/-- The fragment computes `relation` on the data. -/
structure Fragment (step : State → State → Prop) (inside : Set State) (entry exit : Data → State)
    (relation : Data → Data → Prop) : Prop where
  complete : ∀ source target, relation source target →
    Relation.ReflTransGen step (entry source) (exit target)
  sound : ∀ length source outside, Path step length (entry source) outside → outside ∉ inside →
    ∃ target rest, relation source target ∧ rest ≤ length ∧ Path step rest (exit target) outside

namespace Fragment

variable {step : State → State → Prop} {inside early late : Set State}
  {entry middle exit left right : Data → State} {relation first second : Data → Data → Prop}

/-- No code at all. -/
theorem skip (entry : Data → State) : Fragment step ∅ entry entry Eq where
  complete _ _ same := same ▸ .refl
  sound length source _ path _ := ⟨source, length, rfl, Nat.le_refl _, path⟩

theorem mono (fragment : Fragment step early entry exit relation) (within : early ⊆ inside) :
    Fragment step inside entry exit relation where
  complete := fragment.complete
  sound length source outside path escaped :=
    fragment.sound length source outside path fun member => escaped (within member)

theorem congr (fragment : Fragment step inside entry exit first)
    (same : ∀ source target, first source target ↔ second source target) :
    Fragment step inside entry exit second where
  complete source target related := fragment.complete source target ((same source target).mpr related)
  sound length source outside path escaped := by
    obtain ⟨target, rest, related, shorter, tail⟩ := fragment.sound length source outside path escaped
    exact ⟨target, rest, (same source target).mp related, shorter, tail⟩

/-- One instruction: its steps lead to the exit, at the related values. -/
theorem single (within : ∀ source, entry source ∈ inside)
    (steps : ∀ source next, step (entry source) next ↔ ∃ target, relation source target ∧ next = exit target) :
    Fragment step inside entry exit relation where
  complete source target related := .single ((steps source _).mpr ⟨target, related, rfl⟩)
  sound length source outside path escaped := by
    have moves : entry source ≠ outside := fun same => escaped (same ▸ within source)
    obtain ⟨rest, next, rfl, moved, tail⟩ := path.exists_first moves
    obtain ⟨target, related, rfl⟩ := (steps source next).mp moved
    exact ⟨target, rest, related, Nat.le_succ _, tail⟩

/-- One after the other. -/
theorem seq (before : Fragment step early entry middle first) (after : Fragment step late middle exit second) :
    Fragment step (early ∪ late) entry exit (Relation.Comp first second) where
  complete source target := by
    rintro ⟨between, head, tail⟩
    exact (before.complete source between head).trans (after.complete between target tail)
  sound length source outside path escaped := by
    obtain ⟨between, rest, head, shorter, path⟩ :=
      before.sound length source outside path fun member => escaped (.inl member)
    obtain ⟨target, rest', tail, shorter', path⟩ :=
      after.sound rest between outside path fun member => escaped (.inr member)
    exact ⟨target, rest', ⟨between, head, tail⟩, Nat.le_trans shorter' shorter, path⟩

/-- A head that goes on at either of two fragments with one exit. -/
theorem choice (within : ∀ source, entry source ∈ inside)
    (steps : ∀ source next, step (entry source) next ↔ next = left source ∨ next = right source)
    (one : Fragment step early left exit first) (other : Fragment step late right exit second)
    (oneWithin : early ⊆ inside) (otherWithin : late ⊆ inside) :
    Fragment step inside entry exit fun source target => first source target ∨ second source target where
  complete source target := by
    rintro (related | related)
    · exact .head ((steps source _).mpr (.inl rfl)) (one.complete source target related)
    · exact .head ((steps source _).mpr (.inr rfl)) (other.complete source target related)
  sound length source outside path escaped := by
    have moves : entry source ≠ outside := fun same => escaped (same ▸ within source)
    obtain ⟨rest, next, rfl, moved, tail⟩ := path.exists_first moves
    obtain rfl | rfl := (steps source next).mp moved
    · obtain ⟨target, rest', related, shorter, tail⟩ :=
        one.sound rest source outside tail fun member => escaped (oneWithin member)
      exact ⟨target, rest', .inl related, Nat.le_succ_of_le shorter, tail⟩
    · obtain ⟨target, rest', related, shorter, tail⟩ :=
        other.sound rest source outside tail fun member => escaped (otherWithin member)
      exact ⟨target, rest', .inr related, Nat.le_succ_of_le shorter, tail⟩

/-- A loop whose head leaves it or runs the body, which comes back to the head. -/
theorem loop (within : ∀ source, entry source ∈ inside) (backWithin : ∀ source, right source ∈ inside)
    (heads : ∀ source next, step (entry source) next ↔ next = left source ∨ next = exit source)
    (back : ∀ source next, step (right source) next ↔ next = entry source)
    (body : Fragment step early left right relation) (bodyWithin : early ⊆ inside) :
    Fragment step inside entry exit fun source target => ∃ count, power relation count source target where
  complete source target := by
    rintro ⟨count, related⟩
    induction count generalizing source with
    | zero =>
      obtain rfl : source = target := related
      exact .single ((heads source _).mpr (.inr rfl))
    | succ count ih =>
      obtain ⟨between, head, tail⟩ := related
      have round : Relation.ReflTransGen step (entry source) (entry between) :=
        .head ((heads source _).mpr (.inl rfl))
          ((body.complete source between head).tail ((back between _).mpr rfl))
      exact round.trans (ih between tail)
  sound length := by
    -- The rest of the path after one round is shorter, so the length carries the induction.
    induction length using Nat.strong_induction_on with
    | _ length ih =>
      intro source outside path escaped
      have moves : entry source ≠ outside := fun same => escaped (same ▸ within source)
      obtain ⟨rest, next, rfl, moved, tail⟩ := path.exists_first moves
      obtain rfl | rfl := (heads source next).mp moved
      · obtain ⟨between, rest', head, shorter, tail⟩ :=
          body.sound rest source outside tail fun member => escaped (bodyWithin member)
        have moves : right between ≠ outside := fun same => escaped (same ▸ backWithin between)
        obtain ⟨rest'', next, rfl, moved, tail⟩ := tail.exists_first moves
        obtain rfl := (back between next).mp moved
        obtain ⟨target, left, ⟨count, related⟩, shorter', tail⟩ :=
          ih rest'' (by omega) between outside tail escaped
        exact ⟨target, left, ⟨count + 1, between, head, related⟩, by omega, tail⟩
      · exact ⟨source, rest, ⟨0, rfl⟩, Nat.le_succ _, tail⟩

end Fragment

end OpalCpp

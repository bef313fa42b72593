import Mathlib.Data.Finset.Card
import Mathlib.Data.Fintype.Defs
import Mathlib.Data.List.Sort
import Mathlib.Logic.Relation

/-! # Cycles and components of directed graphs

A graph is a relation. Two vertices are in one component if each is reached from the other, and a vertex is
on a cycle if it is reached from itself by an edge at least.
-/

namespace OpalCpp

namespace Digraph

variable {α : Type*}

/-- Each is reached from the other. -/
def Mutual (next : α → α → Prop) (a b : α) : Prop := Relation.ReflTransGen next a b ∧ Relation.ReflTransGen next b a

def OnCycle (next : α → α → Prop) (a : α) : Prop := Relation.TransGen next a a

/-- No edge leaves the set. -/
def Closed (next : α → α → Prop) (set : α → Prop) : Prop := ∀ a b, set a → next a b → set b

variable {next : α → α → Prop} {set inside : α → Prop} {a b root : α}

theorem Mutual.symm (each : Mutual next a b) : Mutual next b a := ⟨each.2, each.1⟩

theorem Closed.reaches (closed : Closed next set) (start : set a) (reaches : Relation.ReflTransGen next a b) : set b := by
  induction reaches with
  | refl => exact start
  | tail _ edge ih => exact closed _ _ ih edge

/-- A cycle is a loop, or goes through another vertex. -/
theorem onCycle_iff : OnCycle next a ↔ next a a ∨ ∃ other, other ≠ a ∧ Mutual next a other := by
  constructor
  · intro cycle
    obtain ⟨other, edge, back⟩ := Relation.TransGen.head'_iff.mp cycle
    by_cases same : other = a
    · exact .inl (same ▸ edge)
    · exact .inr ⟨other, same, .single edge, back⟩
  · rintro (loop | ⟨other, differs, forth, back⟩)
    · exact .single loop
    · obtain rfl | step := Relation.reflTransGen_iff_eq_or_transGen.mp forth
      · exact absurd rfl differs
      · exact step.trans_left back

/-- What is reached from a vertex, reaches it, and has no edges but to itself and to a closed set apart from it,
is the component of the vertex. -/
theorem mutual_iff_of_closed (closed : Closed next set) (edges : ∀ a b, inside a → next a b → inside b ∨ set b)
    (apart : ∀ a, inside a → ¬ set a) (forth : ∀ a, inside a → Relation.ReflTransGen next root a)
    (back : ∀ a, inside a → Relation.ReflTransGen next a root) (member : inside a) : Mutual next a b ↔ inside b := by
  constructor
  · rintro ⟨reaches, returns⟩
    have around : Closed next fun c => inside c ∨ set c := by
      rintro c d (here | there) edge
      · exact edges c d here edge
      · exact .inr (closed c d there edge)
    obtain here | there := around.reaches (.inl member) reaches
    · exact here
    · exact absurd (closed.reaches there returns) (apart a member)
  · intro other
    exact ⟨(back a member).trans (forth b other), (back b other).trans (forth a member)⟩

/-- The vertices of a finite set without cycles in an order in which no edge leads to a later one or to itself. -/
theorem exists_order [DecidableEq α] (vertices : Finset α) (acyclic : ∀ a, ¬ Relation.TransGen next a a) :
    ∃ order : List α, order.Nodup ∧ (∀ a, a ∈ order ↔ a ∈ vertices) ∧ order.Pairwise (fun a b => ¬ next a b) ∧
      ∀ a ∈ order, ¬ next a a := by
  classical
  -- How many of the vertices a vertex leads to.
  let rank (a : α) : ℕ := (vertices.filter fun b => Relation.TransGen next a b).card
  have decreases : ∀ a b, b ∈ vertices → next a b → rank b < rank a := by
    intro a b member edge
    apply Finset.card_lt_card
    rw [Finset.ssubset_iff_of_subset]
    · refine ⟨b, Finset.mem_filter.mpr ⟨member, .single edge⟩, fun self => ?_⟩
      exact acyclic b (Finset.mem_filter.mp self).2
    · intro c reached
      obtain ⟨inside, reaches⟩ := Finset.mem_filter.mp reached
      exact Finset.mem_filter.mpr ⟨inside, .head edge reaches⟩
  let order := vertices.toList.insertionSort fun a b => rank a ≤ rank b
  have perm : order.Perm vertices.toList := List.perm_insertionSort _ _
  have mem (a : α) : a ∈ order ↔ a ∈ vertices := perm.mem_iff.trans Finset.mem_toList
  have total : Std.Total fun a b => rank a ≤ rank b := ⟨fun a b => le_total _ _⟩
  have trans : IsTrans α fun a b => rank a ≤ rank b := ⟨fun a b c => le_trans⟩
  have sorted : order.Pairwise fun a b => rank a ≤ rank b := List.pairwise_insertionSort _ _
  refine ⟨order, perm.nodup_iff.mpr vertices.nodup_toList, mem, ?_, fun a _ loop => acyclic a (.single loop)⟩
  refine sorted.imp_of_mem fun {a b} _ later ordered edge => ?_
  exact absurd (decreases a b ((mem b).mp later) edge) (not_lt.mpr ordered)

end Digraph

end OpalCpp

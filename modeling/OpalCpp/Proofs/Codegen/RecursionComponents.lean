import Mathlib.Algebra.GroupWithZero.Nat
import Mathlib.Algebra.Order.BigOperators.Group.Finset
import OpalCpp.Proofs.Codegen.ConstraintPaths
import OpalCpp.Proofs.Codegen.RecursionSearch

/-! # The components of the shapes

A shape that reaches nothing below itself closes a component, and the search closes all of them.
-/

namespace OpalCpp.Codegen.Components

open Relation OpalCpp.Digraph

variable {Id : Type} [DecidableEq Id] {neighbors : Id → List Id} {ids : Finset Id} {components : Components Id}
  {path : List (Id × ℕ)} {a b current : Id} {position : ℕ}

theorem popTo_eq {stack : List Id} (member : current ∈ stack) : ∃ front rest, stack = front ++ current :: rest ∧
    current ∉ front ∧ popTo current stack = some (front ++ [current], rest) := by
  induction stack with
  | nil => cases member
  | cons popped stack ih =>
    by_cases same : popped = current
    · subst same
      exact ⟨[], stack, rfl, List.not_mem_nil, by rw [popTo, if_pos rfl]; rfl⟩
    · obtain ⟨front, rest, rfl, notMem, found⟩ := ih ((List.mem_cons.mp member).resolve_left (Ne.symm same))
      refine ⟨popped :: front, rest, rfl, ?_, ?_⟩
      · exact fun inside => (List.mem_cons.mp inside).elim (fun equal => same equal.symm) notMem
      · rw [popTo, if_neg same, found]
        rfl

omit [DecidableEq Id] in
theorem sublist_of_cons {front rest tail : List Id} (notMem : current ∉ front)
    (sublist : (current :: tail).Sublist (front ++ current :: rest)) : tail.Sublist rest := by
  induction front with
  | nil => exact List.cons_sublist_cons.mp sublist
  | cons first front ih =>
    rw [List.mem_cons, not_or] at notMem
    cases sublist with
    | cons _ sublist => exact ih notMem.2 sublist
    | cons_cons _ _ => exact absurd rfl notMem.1

/-- The shapes at and above the one on top of the frames. -/
structure Segment (neighbors : Id → List Id) (current : Id) (components : Components Id) (members rest : List Id) :
    Prop where
  split : components.stack = members ++ rest
  nodup : components.stack.Nodup
  member : ∀ a ∈ components.stack, a ∈ members ↔ components.num current ≤ components.num a
  root : current ∈ members
  edges : ∀ a b, a ∈ members → Edge neighbors a b → b ∈ members ∨ (components.component b).isSome
  forth : ∀ a ∈ members, ReflTransGen (Edge neighbors) current a
  back : ∀ a ∈ members, ReflTransGen (Edge neighbors) a current

theorem Sound.segment (sound : Sound neighbors ids ((current, position) :: path) components)
    (full : (neighbors current).length ≤ position) (linked : components.low current = components.num current) :
    ∃ members rest, popTo current components.stack = some (members, rest) ∧ (path.map Prod.fst).Sublist rest ∧
      Segment neighbors current components members rest := by
  have top : current ∈ components.stack := sound.stack_of_frame List.mem_cons_self
  obtain ⟨front, rest, split, notMem, popped⟩ := popTo_eq top
  have frames := sound.frames
  rw [split, List.map_cons] at frames
  have sorted := sound.sorted
  rw [split, List.pairwise_append, List.pairwise_cons] at sorted
  have member : ∀ a ∈ components.stack, a ∈ front ++ [current] ↔ components.num current ≤ components.num a := by
    intro a onStack
    rw [split, List.mem_append, List.mem_cons] at onStack
    rw [List.mem_append, List.mem_singleton]
    obtain above | rfl | below := onStack
    · exact iff_of_true (.inl above) (sorted.2.2 a above current List.mem_cons_self).le
    · exact iff_of_true (.inr rfl) (le_refl _)
    · have less := sorted.2.1.1 a below
      refine iff_of_false ?_ (not_le.mpr less)
      rintro (above | rfl)
      · exact lt_asymm less (sorted.2.2 a above current List.mem_cons_self)
      · exact lt_irrefl _ less
  have inStack : ∀ a ∈ front ++ [current], a ∈ components.stack := by
    intro a inside
    rw [split, List.append_cons]
    exact List.mem_append_left _ inside
  -- All edges of the segment have been taken, and none leads below it.
  have edges :
      ∀ a b, a ∈ front ++ [current] → Edge neighbors a b → b ∈ front ++ [current] ∨ (components.component b).isSome := by
    intro a b inside edge
    have above := (member a (inStack a inside)).mp inside
    have taken : Taken neighbors ((current, position) :: path) a b := by
      refine ⟨edge, fun at_ frame => ?_⟩
      obtain ⟨rfl, rfl⟩ | below := (List.mem_cons.mp frame).imp_left Prod.mk.inj
      · rw [List.take_of_length_le full]
        exact edge
      · exact absurd above (not_le.mpr (sound.num_lt_top (List.mem_map_of_mem below)))
    have seen := sound.taken a b ((sound.seen a).mpr (.inl (inStack a inside))) taken
    obtain onStack | done := (sound.seen b).mp seen
    · obtain ⟨q, frame, higher, bound⟩ := sound.bounds current List.mem_cons_self a (inStack a inside) b onStack above taken
      have same : q = current :=
        sound.eq_of_num (sound.stack_of_frame frame) top (le_antisymm (sound.num_le_top frame) higher)
      rw [same, linked] at bound
      exact .inl ((member b onStack).mpr bound)
    · exact .inr done
  have back : ∀ a ∈ front ++ [current], ReflTransGen (Edge neighbors) a current := by
    intro a inside
    obtain ⟨p, frame, _, reaches⟩ := sound.returns a (inStack a inside)
    have around : Closed (Edge neighbors) fun b => b ∈ front ++ [current] ∨ (components.component b).isSome := by
      rintro b c (here | there) edge
      · exact edges b c here edge
      · exact .inr (sound.closed b c there edge)
    have onStack := sound.stack_of_frame frame
    obtain here | there := around.reaches (.inl inside) reaches
    · have same : p = current :=
        sound.eq_of_num onStack top (le_antisymm (sound.num_le_top frame) ((member p onStack).mp here))
      exact same ▸ reaches
    · rw [sound.apart p onStack] at there
      cases there
  refine ⟨front ++ [current], rest, popped, sublist_of_cons notMem frames, ?_⟩
  constructor
  case split => rw [split, List.append_cons]
  case nodup => exact sound.sorted.imp fun less same => absurd (same ▸ less) (lt_irrefl _)
  case member => exact member
  case root => exact List.mem_append_right _ (List.mem_singleton_self _)
  case edges => exact edges
  case forth =>
    intro a inside
    exact sound.leads current List.mem_cons_self a (inStack a inside) ((member a (inStack a inside)).mp inside)
  case back => exact back

namespace Segment

variable {members rest : List Id} (segment : Segment neighbors current components members rest)
include segment

omit [DecidableEq Id] in
theorem notMem_rest (inside : a ∈ members) : a ∉ rest := by
  have nodup := segment.nodup
  rw [segment.split, List.nodup_append] at nodup
  exact fun below => nodup.2.2 a inside a below rfl

omit [DecidableEq Id] in
theorem inStack (inside : a ∈ members) : a ∈ components.stack := by
  rw [segment.split]
  exact List.mem_append_left _ inside

omit [DecidableEq Id] in
theorem below (inside : a ∈ rest) : a ∈ components.stack ∧ components.num a < components.num current := by
  have onStack : a ∈ components.stack := by
    rw [segment.split]
    exact List.mem_append_right _ inside
  refine ⟨onStack, not_le.mp fun above => ?_⟩
  exact segment.notMem_rest ((segment.member a onStack).mpr above) inside

omit [DecidableEq Id] in
/-- The segment is the component of each of its shapes. -/
theorem mutual_iff (sound : Sound neighbors ids path components) (inside : a ∈ members) :
    Mutual (Edge neighbors) a b ↔ b ∈ members := by
  refine mutual_iff_of_closed sound.closed segment.edges (fun a inside => ?_) segment.forth segment.back inside
  rw [sound.apart a (segment.inStack inside)]
  exact Bool.false_ne_true

theorem onCycle_iff (sound : Sound neighbors ids path components) (inside : a ∈ members) :
    OnCycle (Edge neighbors) a ↔ 1 < members.length ∨ a ∈ neighbors a := by
  have nodup : members.Nodup := by
    have nodup := segment.nodup
    rw [segment.split, List.nodup_append] at nodup
    exact nodup.1
  rw [Digraph.onCycle_iff]
  constructor
  · rintro (loop | ⟨other, differs, each⟩)
    · exact .inr loop
    · have both : [a, other] ⊆ members :=
        List.cons_subset.mpr ⟨inside, by simpa using (segment.mutual_iff sound inside).mp each⟩
      have two : [a, other].Nodup := by simp [differs.symm]
      exact .inl ((two.subperm both).length_le)
  · rintro (several | loop)
    · obtain ⟨other, isMember, differs⟩ : ∃ other ∈ members, other ≠ a := by
        by_contra none_
        push Not at none_
        have few := (nodup.subperm fun b member => List.mem_singleton.mpr (none_ b member) : members.Subperm [a]).length_le
        exact absurd several (not_lt.mpr few)
      exact .inr ⟨other, differs, (segment.mutual_iff sound inside).mpr isMember⟩
    · exact .inl loop

end Segment

/-- What is popped with a shape that reaches nothing below itself is a component. -/
theorem Sound.close (sound : Sound neighbors ids ((current, position) :: path) components)
    (full : (neighbors current).length ≤ position) (linked : components.low current = components.num current) :
    ∃ closed, components.close neighbors current = some closed ∧ Sound neighbors ids path closed ∧
      closed.index = components.index := by
  obtain ⟨members, rest, popped, frames, segment⟩ := sound.segment full linked
  rw [Components.close, popped]
  refine ⟨_, rfl, ?_, rfl⟩
  have unassigned {a : Id} (inside : a ∈ members) : components.component a = none := sound.apart a (segment.inStack inside)
  have ofFrame {p : Id} (frame : p ∈ path.map Prod.fst) : p ∈ ((current, position) :: path).map Prod.fst :=
    List.mem_cons_of_mem _ frame
  have isSome_iff (a : Id) : (if a ∈ members then some components.componentCounter else components.component a).isSome ↔
      a ∈ members ∨ (components.component a).isSome := by
    split_ifs with inside
    · simp [inside]
    · simp [inside]
  constructor
  case seen =>
    intro a
    rw [isSome_iff, sound.seen a, segment.split, List.mem_append]
    tauto
  case apart =>
    intro a below
    have outside : a ∉ members := fun inside => segment.notMem_rest inside below
    exact (if_neg outside).trans (sound.apart a (segment.below below).1)
  case onStack =>
    intro a
    rw [Finset.mem_sdiff, List.mem_toFinset, sound.onStack a, segment.split, List.mem_append]
    constructor
    · rintro ⟨inside | below, outside⟩
      · exact absurd inside outside
      · exact below
    · exact fun below => ⟨.inr below, fun inside => segment.notMem_rest inside below⟩
  case known => exact fun a below => sound.known a (segment.below below).1
  case inside => exact sound.inside
  case sorted =>
    have sorted := sound.sorted
    rw [segment.split, List.pairwise_append] at sorted
    exact sorted.2.1
  case fresh => exact fun a below => sound.fresh a (segment.below below).1
  case frames => exact frames
  case positions => exact fun frame member => sound.positions frame (List.mem_cons_of_mem _ member)
  case leads => exact fun p frame a below => sound.leads p (ofFrame frame) a (segment.below below).1
  case returns =>
    intro a below
    obtain ⟨onStack, less⟩ := segment.below below
    obtain ⟨p, frame, le, reaches⟩ := sound.returns a onStack
    obtain rfl | frame := List.mem_cons.mp frame
    · exact absurd le (not_le.mpr less)
    · exact ⟨p, frame, le, reaches⟩
  case taken => exact fun a b seen edge => sound.taken a b seen (edge.of_pop full)
  case closed =>
    intro a b done edge
    rw [isSome_iff] at done ⊢
    obtain inside | done := done
    · exact segment.edges a b inside edge
    · exact .inr (sound.closed a b done edge)
  case lowest =>
    intro p frame
    obtain ⟨le, a, onStack, equal, reaches⟩ := sound.lowest p (ofFrame frame)
    refine ⟨le, a, ?_, equal, reaches⟩
    have less := sound.num_lt_top frame
    rw [segment.split, List.mem_append] at onStack
    obtain inside | below := onStack
    · have above := (segment.member a (segment.inStack inside)).mp inside
      omega
    · exact below
  case bounds =>
    intro p frame a source b target above edge
    obtain ⟨q, frame', higher, bound⟩ := sound.bounds p (ofFrame frame) a (segment.below source).1 b
      (segment.below target).1 above (edge.of_pop full)
    obtain rfl | frame' := List.mem_cons.mp frame'
    · have less := (segment.below target).2
      rw [linked] at bound
      omega
    · exact ⟨q, frame', higher, bound⟩
  case numbered =>
    intro a number assigned
    dsimp only at assigned ⊢
    split_ifs at assigned with inside
    · cases assigned
      exact Nat.lt_succ_self _
    · exact (sound.numbered a number assigned).trans (Nat.lt_succ_self _)
  case same =>
    -- A component that was closed before has another number.
    have other {a b : Id} (inside : a ∈ members) (outside : b ∉ members) (done : (components.component b).isSome) :
        some components.componentCounter ≠ components.component b ∧ ¬ Mutual (Edge neighbors) a b := by
      constructor
      · intro same
        exact lt_irrefl _ (sound.numbered b _ same.symm)
      · rw [segment.mutual_iff sound inside]
        exact outside
    intro a b done done'
    rw [isSome_iff] at done done'
    dsimp only
    by_cases inside : a ∈ members
    · rw [if_pos inside]
      by_cases inside' : b ∈ members
      · rw [if_pos inside']
        exact iff_of_true rfl ((segment.mutual_iff sound inside).mpr inside')
      · rw [if_neg inside']
        obtain ⟨differs, apart⟩ := other inside inside' (done'.resolve_left inside')
        exact iff_of_false differs apart
    · rw [if_neg inside]
      by_cases inside' : b ∈ members
      · rw [if_pos inside']
        obtain ⟨differs, apart⟩ := other inside' inside (done.resolve_left inside)
        exact iff_of_false differs.symm fun each => apart each.symm
      · rw [if_neg inside']
        exact sound.same a b (done.resolve_left inside) (done'.resolve_left inside')
  case cycles =>
    intro a
    rw [isSome_iff]
    by_cases inside : a ∈ members
    · have uncounted : a ∉ components.cyclic := by
        rw [sound.cycles a, unassigned inside]
        exact fun both => Bool.false_ne_true both.1
      rw [segment.onCycle_iff sound inside]
      dsimp only
      split_ifs with several
      · simp [inside, several]
      · simp [inside, several, uncounted]
    · have same : a ∈ (if 1 < members.length then components.cyclic ∪ members.toFinset
          else components.cyclic ∪ members.toFinset.filter fun only => only ∈ neighbors only) ↔ a ∈ components.cyclic := by
        split_ifs <;> simp [inside]
      rw [same, sound.cycles a]
      simp [inside]

/-- A frame ends with its component, or with its link handed to the frame below it. -/
theorem Sound.leave (sound : Sound neighbors ids ((current, position) :: path) components)
    (full : (neighbors current).length ≤ position) :
    ∃ next, components.leave neighbors current path = some next ∧ Sound neighbors ids path next ∧
      next.index = components.index := by
  have top : current ∈ components.stack := sound.stack_of_frame List.mem_cons_self
  obtain ⟨link, known⟩ := Option.isSome_iff_exists.mp (sound.known current top)
  obtain ⟨number, seen⟩ := Option.isSome_iff_exists.mp ((sound.seen current).mpr (.inl top))
  have isLow : components.low current = link := by rw [low, known]; rfl
  have isNum : components.num current = number := by rw [num, seen]; rfl
  -- The end of the frame after the link is handed down.
  have finish (handing : Components Id) (sound : Sound neighbors ids ((current, position) :: path) handing)
      (index : handing.index = components.index) (kept : handing.low current = link)
      (handed : ∀ parent at_ below, path = (parent, at_) :: below → handing.low parent ≤ handing.low current) :
      ∃ next, (do let index ← handing.index current
                  if link = index then handing.close neighbors current else some handing) = some next ∧
        Sound neighbors ids path next ∧ next.index = components.index := by
    have same : handing.num current = number := by rw [num, index, seen]; rfl
    rw [index, seen, Option.bind_eq_bind, Option.bind_some]
    split_ifs with closes
    · obtain ⟨closed, isClosed, sound', index'⟩ := sound.close full (by rw [kept, same, closes])
      exact ⟨closed, isClosed, sound', index'.trans index⟩
    · exact ⟨handing, rfl, sound.pop full (by rwa [kept, same]) handed, index⟩
  rw [Components.leave, known]
  cases path with
  | nil => exact finish components sound rfl isLow fun _ _ _ empty => absurd empty (List.cons_ne_nil _ _).symm
  | cons frame below =>
    obtain ⟨parent, at_⟩ := frame
    have isFrame : parent ∈ ((parent, at_) :: below).map Prod.fst := List.mem_cons_self
    have less := sound.num_lt_top isFrame
    have differs : current ≠ parent := fun same => lt_irrefl _ (same ▸ less)
    obtain ⟨_, lowest, member, equal, reaches⟩ := sound.lowest current List.mem_cons_self
    have down := sound.leads parent (List.mem_cons_of_mem _ isFrame) current top less.le
    have lowered := sound.withLow (List.mem_cons_of_mem _ isFrame) member (down.trans reaches)
    have onStack : parent ∈ components.stack := sound.stack_of_frame (List.mem_cons_of_mem _ isFrame)
    rw [equal, isLow] at lowered
    have handing := @lower_eq _ _ _ _ link (sound.known parent onStack)
    rw [Option.bind_eq_bind, Option.bind_some]
    dsimp only
    rw [handing]
    refine finish _ lowered rfl ?_ ?_
    · rw [low_withLow_of_ne differs, isLow]
    · rintro _ _ _ ⟨rfl⟩
      rw [low_withLow_self, low_withLow_of_ne differs, isLow]
      exact min_le_right _ _

/-! ## The loop -/

/-- The turns that the shapes not seen yet will take. -/
def unseen (neighbors : Id → List Id) (ids : Finset Id) (components : Components Id) : ℕ :=
  ∑ id ∈ ids.filter fun id => components.index id = none, ((neighbors id).length + 1)

/-- The turns that are left. -/
def weight (neighbors : Id → List Id) (ids : Finset Id) (path : List (Id × ℕ)) (components : Components Id) : ℕ :=
  components.unseen neighbors ids + (path.map fun frame => (neighbors frame.1).length + 1 - frame.2).sum

theorem unseen_enter (absent : components.index a = none) (inside : a ∈ ids) :
    (components.enter a).unseen neighbors ids + ((neighbors a).length + 1) = components.unseen neighbors ids := by
  have erased : (ids.filter fun id => (components.enter a).index id = none) =
      (ids.filter fun id => components.index id = none).erase a := by
    ext id
    rw [Finset.mem_erase, Finset.mem_filter, Finset.mem_filter, index_enter]
    split_ifs with same
    · simp [same]
    · simp [same]
  rw [unseen, erased, unseen]
  exact Finset.sum_erase_add _ _ (Finset.mem_filter.mpr ⟨inside, absent⟩)

omit [DecidableEq Id] in
theorem unseen_of_index {other : Components Id} (same : other.index = components.index) :
    other.unseen neighbors ids = components.unseen neighbors ids := by
  rw [unseen, same, unseen]

/-- A turn goes on, and there is less left to do. -/
theorem Sound.turn (within : ∀ a ∈ ids, ∀ b ∈ neighbors a, b ∈ ids)
    (sound : Sound neighbors ids ((current, position) :: path) components) :
    ∃ frames next, components.turn neighbors current position path = some (frames, next) ∧ Sound neighbors ids frames next ∧
      next.weight neighbors ids frames < components.weight neighbors ids ((current, position) :: path) ∧
      ∀ a, (components.index a).isSome → (next.index a).isSome := by
  have top : current ∈ components.stack := sound.stack_of_frame List.mem_cons_self
  have seen : (components.index current).isSome := (sound.seen current).mpr (.inl top)
  rw [Components.turn]
  cases edge : (neighbors current)[position]? with
  | some neighbor =>
    have room := (List.getElem?_eq_some_iff.mp edge).1
    have isEdge : Edge neighbors current neighbor := List.mem_of_getElem? edge
    dsimp only
    cases known : components.index neighbor with
    | none =>
      have inside := within current (sound.inside current seen) neighbor isEdge
      refine ⟨_, _, rfl, ?_, ?_, ?_⟩
      · refine sound.enter known inside rfl (fun frame member => ?_) (fun p frame => ?_) fun a b taken => ?_
        · obtain rfl | member := List.mem_cons.mp member
          · exact room
          · exact sound.positions frame (List.mem_cons_of_mem _ member)
        · exact (sound.leads p frame current top (sound.num_le_top frame)).tail isEdge
        · exact (taken.advance edge).imp_right And.right
      · have less := @unseen_enter _ _ neighbors _ _ _ known inside
        simp only [weight, List.map_cons, List.sum_cons]
        omega
      · intro a old
        rw [index_enter]
        split_ifs
        · rfl
        · exact old
    | some number =>
      have isSeen : (components.index neighbor).isSome := by rw [known]; rfl
      have same : components.num neighbor = number := by rw [num, known]; rfl
      have less (next : Components Id) (index : next.index = components.index) :
          next.weight neighbors ids ((current, position + 1) :: path) <
            components.weight neighbors ids ((current, position) :: path) := by
        simp only [weight, unseen_of_index index, List.map_cons, List.sum_cons]
        omega
      dsimp only
      split_ifs with onStack
      · have target := (sound.onStack neighbor).mp onStack
        rw [← same, lower_eq (sound.known current top)]
        have lowered := sound.withLow List.mem_cons_self target (.single isEdge)
        refine ⟨_, _, rfl, ?_, less _ rfl, fun a old => old⟩
        refine lowered.advance edge isSeen fun _ => ?_
        rw [low_withLow_self]
        exact min_le_right _ _
      · refine ⟨_, _, rfl, ?_, less _ rfl, fun a old => old⟩
        exact sound.advance edge isSeen fun target => absurd ((sound.onStack neighbor).mpr target) onStack
  | none =>
    have full : (neighbors current).length ≤ position := List.getElem?_eq_none_iff.mp edge
    have last : position ≤ (neighbors current).length := sound.positions _ List.mem_cons_self
    have less (next : Components Id) (index : next.index = components.index) :
        next.weight neighbors ids path < components.weight neighbors ids ((current, position) :: path) := by
      simp only [weight, unseen_of_index index, List.map_cons, List.sum_cons]
      omega
    obtain ⟨next, left, sound', index⟩ := sound.leave full
    refine ⟨path, next, by dsimp only; rw [left]; rfl, sound', less next index, fun a old => by rwa [index]⟩

/-- With a unit of fuel for every turn that is left, the loop gets to the end. -/
theorem Sound.loop (within : ∀ a ∈ ids, ∀ b ∈ neighbors a, b ∈ ids) (sound : Sound neighbors ids path components) (fuel : ℕ)
    (enough : components.weight neighbors ids path ≤ fuel) :
    ∃ done, Components.loop neighbors fuel path components = some done ∧ Sound neighbors ids [] done ∧
      ∀ a, (components.index a).isSome → (done.index a).isSome := by
  induction fuel generalizing path components with
  | zero =>
    cases path with
    | nil => exact ⟨components, rfl, sound, fun _ old => old⟩
    | cons frame path =>
      obtain ⟨current, position⟩ := frame
      obtain ⟨_, _, _, _, less, _⟩ := sound.turn within
      exact absurd (less.trans_le enough) (Nat.not_lt_zero _)
  | succ fuel ih =>
    cases path with
    | nil => exact ⟨components, rfl, sound, fun _ old => old⟩
    | cons frame path =>
      obtain ⟨current, position⟩ := frame
      obtain ⟨frames, next, turned, sound', less, kept⟩ := sound.turn within
      obtain ⟨done, looped, final, kept'⟩ := ih sound' (by omega)
      refine ⟨done, ?_, final, fun a old => kept' a (kept a old)⟩
      rw [Components.loop, turned]
      exact looped

omit [DecidableEq Id] in
/-- Without frames nothing is on the stack. -/
theorem Sound.component (sound : Sound neighbors ids [] components) (seen : (components.index a).isSome) :
    (components.component a).isSome := by
  obtain onStack | done := (sound.seen a).mp seen
  · obtain ⟨_, frame, _⟩ := sound.returns a onStack
    cases frame
  · exact done

end OpalCpp.Codegen.Components

namespace OpalCpp.Codegen

open Relation OpalCpp.Digraph Components

variable {Id : Type} [DecidableEq Id] {model : ServiceModel Id} {a b : Id}

omit [DecidableEq Id] in
theorem edge_neighbors (iteration : Iteration model) : Edge (neighbors model iteration.members) = Next model := by
  funext a b
  apply propext
  simp only [Edge, neighbors, List.mem_map, List.mem_filter, (iteration.each a).mem_iff, Next]
  constructor
  · rintro ⟨member, ⟨isMember, aggregate⟩, rfl⟩
    exact ⟨member, isMember, rfl, aggregate⟩
  · rintro ⟨member, isMember, rfl, aggregate⟩
    exact ⟨member, ⟨isMember, aggregate⟩, rfl⟩

omit [DecidableEq Id] in
theorem neighbors_within (iteration : Iteration model) :
    ∀ a ∈ model.ids, ∀ b ∈ neighbors model iteration.members a, b ∈ model.ids := by
  intro a inside b edge
  have next : Next model a b := by
    rw [← edge_neighbors iteration]
    exact edge
  obtain ⟨member, isMember, rfl, _⟩ := next
  exact model.closed a inside member isMember

/-- The pass ends, and has a component for every aggregate shape. -/
theorem exists_components (iteration : Iteration model) : ∃ components, computeComponents iteration = some components ∧
    Components.Sound (neighbors model iteration.members) model.ids [] components ∧
    ∀ a ∈ model.ids, (model.shape a).isAggregate = true → (components.component a).isSome := by
  have pass (starts : List Id) (inside : ∀ a ∈ starts, a ∈ model.ids) (components : Components Id)
      (sound : Components.Sound (neighbors model iteration.members) model.ids [] components) :
      ∃ done, starts.foldlM (fun components start =>
          if !(model.shape start).isAggregate || (components.index start).isSome then some components
          else (components.enter start).loop (neighbors model iteration.members)
            (∑ id ∈ model.ids, ((neighbors model iteration.members id).length + 1)) [(start, 0)]) components = some done ∧
        Components.Sound (neighbors model iteration.members) model.ids [] done ∧
        (∀ a, (components.index a).isSome → (done.index a).isSome) ∧
        ∀ a ∈ starts, (model.shape a).isAggregate = true → (done.index a).isSome := by
    induction starts generalizing components with
    | nil => exact ⟨components, rfl, sound, fun _ old => old, fun a member => nomatch member⟩
    | cons start starts ih =>
      rw [List.forall_mem_cons] at inside
      have round : ∃ next, (if !(model.shape start).isAggregate || (components.index start).isSome then some components
          else (components.enter start).loop (neighbors model iteration.members)
            (∑ id ∈ model.ids, ((neighbors model iteration.members id).length + 1)) [(start, 0)]) = some next ∧
          Components.Sound (neighbors model iteration.members) model.ids [] next ∧
          (∀ a, (components.index a).isSome → (next.index a).isSome) ∧
          ((model.shape start).isAggregate = true → (next.index start).isSome) := by
        split_ifs with skipped
        · refine ⟨components, rfl, sound, fun _ old => old, fun aggregate => ?_⟩
          simpa [aggregate] using skipped
        · have absent : components.index start = none := by
            rw [Bool.or_eq_true, not_or] at skipped
            exact Option.not_isSome_iff_eq_none.mp skipped.2
          have entered :
            Components.Sound (neighbors model iteration.members) model.ids [(start, 0)] (components.enter start) :=
            sound.enter absent inside.1 rfl (fun frame member => nomatch member) (fun p frame => nomatch frame)
              fun a b taken => .inl taken
          have enough : (components.enter start).weight (neighbors model iteration.members) model.ids [(start, 0)] ≤
              ∑ id ∈ model.ids, ((neighbors model iteration.members id).length + 1) := by
            have less := @unseen_enter _ _ (neighbors model iteration.members) _ _ _ absent inside.1
            have all : components.unseen (neighbors model iteration.members) model.ids ≤
                ∑ id ∈ model.ids, ((neighbors model iteration.members id).length + 1) :=
              Finset.sum_le_sum_of_subset (Finset.filter_subset _ _)
            simp only [weight, List.map_cons, List.map_nil, List.sum_cons, List.sum_nil]
            omega
          obtain ⟨done, looped, sound', kept⟩ := entered.loop (neighbors_within iteration) _ enough
          refine ⟨done, looped, sound', fun a old => kept a ?_, fun _ => kept start ?_⟩
          · rw [index_enter]
            split_ifs
            · rfl
            · exact old
          · rw [index_enter, if_pos rfl]
            rfl
      obtain ⟨next, started, sound', kept, covered⟩ := round
      obtain ⟨done, rest, final, kept', covered'⟩ := ih inside.2 next sound'
      refine ⟨done, ?_, final, fun a old => kept' a (kept a old), ?_⟩
      · rw [List.foldlM_cons, started]
        exact rest
      · rw [List.forall_mem_cons]
        exact ⟨fun aggregate => kept' start (covered aggregate), covered'⟩
  obtain ⟨done, finished, sound, _, covered⟩ := pass iteration.shapes (fun a member => (iteration.all a).mp member) {} .start
  refine ⟨done, finished, sound, fun a inside aggregate => ?_⟩
  exact sound.component (covered a ((iteration.all a).mpr inside) aggregate)

/-- The search is over, and every aggregate shape has a component. -/
structure Finished (iteration : Iteration model) (components : Components Id) : Prop where
  sound : Components.Sound (neighbors model iteration.members) model.ids [] components
  covered : ∀ a ∈ model.ids, (model.shape a).isAggregate = true → (components.component a).isSome

namespace Finished

variable {iteration : Iteration model} {components : Components Id} (finished : Finished iteration components)
include finished

omit [DecidableEq Id] in
theorem component (inside : a ∈ model.ids) (cycle : OnCycle (Next model) a) : (components.component a).isSome := by
  obtain ⟨_, _, next⟩ := TransGen.tail'_iff.mp cycle
  obtain ⟨_, _, _, aggregate⟩ := next
  exact finished.covered a inside aggregate

theorem inCycle_iff (inside : a ∈ model.ids) : components.inCycle a = true ↔ OnCycle (Next model) a := by
  rw [inCycle, decide_eq_true_eq, finished.sound.cycles a, edge_neighbors]
  exact ⟨And.right, fun cycle => ⟨finished.component inside cycle, cycle⟩⟩

theorem sameCycle_iff (inside : a ∈ model.ids) (inside' : b ∈ model.ids) : components.sameCycle a b = true ↔
    OnCycle (Next model) a ∧ OnCycle (Next model) b ∧ Reaches model a b ∧ Reaches model b a := by
  rw [sameCycle, Bool.and_eq_true, Bool.and_eq_true, finished.inCycle_iff inside, finished.inCycle_iff inside',
    decide_eq_true_eq, and_assoc]
  have same (cycle : OnCycle (Next model) a) (cycle' : OnCycle (Next model) b) :=
    finished.sound.same a b (finished.component inside cycle) (finished.component inside' cycle')
  rw [edge_neighbors] at same
  constructor
  · rintro ⟨cycle, cycle', equal⟩
    exact ⟨cycle, cycle', (same cycle cycle').mp equal⟩
  · rintro ⟨cycle, cycle', both⟩
    exact ⟨cycle, cycle', (same cycle cycle').mpr both⟩

end Finished

/-- In whatever order shapes and members come, a shape is on a cycle of the index if it is on one of the model,
and two are on the same cycle if each leads to the other. -/
theorem computeComponents_spec (iteration : Iteration model) :
    ∃ components, computeComponents iteration = some components ∧
      (∀ a ∈ model.ids, components.inCycle a = true ↔ OnCycle (Next model) a) ∧
      ∀ a ∈ model.ids, ∀ b ∈ model.ids, components.sameCycle a b = true ↔
        OnCycle (Next model) a ∧ OnCycle (Next model) b ∧ Reaches model a b ∧ Reaches model b a := by
  obtain ⟨components, computed, sound, covered⟩ := exists_components iteration
  have finished : Finished iteration components := ⟨sound, covered⟩
  exact ⟨components, computed, fun a inside => finished.inCycle_iff inside,
    fun a inside b inside' => finished.sameCycle_iff inside inside'⟩

end OpalCpp.Codegen

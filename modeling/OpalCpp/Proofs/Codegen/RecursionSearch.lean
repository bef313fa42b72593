import Mathlib.Data.List.Pairwise
import OpalCpp.Machine.Digraph
import OpalCpp.Model.Codegen.RecursionIndex

/-! # The search for components

What holds of the stack, the frames and the components in every turn of the search.
-/

namespace OpalCpp.Codegen.Components

open Relation OpalCpp.Digraph

variable {Id : Type} {neighbors : Id → List Id} {components : Components Id} {path : List (Id × ℕ)} {a b current : Id}

def Edge (neighbors : Id → List Id) (a b : Id) : Prop := b ∈ neighbors a

/-- The number of a shape that was seen. -/
def num (components : Components Id) (id : Id) : ℕ := (components.index id).getD 0

def low (components : Components Id) (id : Id) : ℕ := (components.lowLink id).getD 0

/-- The search has taken the edge: if its source has a frame, at an earlier position. -/
def Taken (neighbors : Id → List Id) (path : List (Id × ℕ)) (a b : Id) : Prop :=
  b ∈ neighbors a ∧ ∀ position, (a, position) ∈ path → b ∈ (neighbors a).take position

/-- The state of the search in front of a turn. -/
structure Sound (neighbors : Id → List Id) (ids : Finset Id) (path : List (Id × ℕ)) (components : Components Id) : Prop where
  /-- What was seen is on the stack or has a component, and not both. -/
  seen : ∀ a, (components.index a).isSome ↔ a ∈ components.stack ∨ (components.component a).isSome
  apart : ∀ a ∈ components.stack, components.component a = none
  onStack : ∀ a, a ∈ components.onStack ↔ a ∈ components.stack
  known : ∀ a ∈ components.stack, (components.lowLink a).isSome
  inside : ∀ a, (components.index a).isSome → a ∈ ids
  /-- The stack has the later shapes on top, and the frames are in its order. -/
  sorted : components.stack.Pairwise fun a b => components.num b < components.num a
  fresh : ∀ a ∈ components.stack, components.num a < components.counter
  frames : (path.map Prod.fst).Sublist components.stack
  positions : ∀ frame ∈ path, frame.2 ≤ (neighbors frame.1).length
  /-- A frame reaches what is above it, and everything reaches a frame below it. -/
  leads : ∀ p ∈ path.map Prod.fst, ∀ a ∈ components.stack, components.num p ≤ components.num a →
    ReflTransGen (Edge neighbors) p a
  returns : ∀ a ∈ components.stack, ∃ p ∈ path.map Prod.fst, components.num p ≤ components.num a ∧
    ReflTransGen (Edge neighbors) a p
  taken : ∀ a b, (components.index a).isSome → Taken neighbors path a b → (components.index b).isSome
  closed : Closed (Edge neighbors) fun a => (components.component a).isSome
  /-- The low link is the number of a shape that the frame reaches, -/
  lowest : ∀ p ∈ path.map Prod.fst, components.low p ≤ components.num p ∧
    ∃ a ∈ components.stack, components.num a = components.low p ∧ ReflTransGen (Edge neighbors) p a
  /-- and no edge from above a frame leads below all low links from there on. -/
  bounds : ∀ p ∈ path.map Prod.fst, ∀ a ∈ components.stack, ∀ b ∈ components.stack, components.num p ≤ components.num a →
    Taken neighbors path a b → ∃ q ∈ path.map Prod.fst,
      components.num p ≤ components.num q ∧ components.low q ≤ components.num b
  numbered : ∀ a number, components.component a = some number → number < components.componentCounter
  same : ∀ a b, (components.component a).isSome → (components.component b).isSome →
    (components.component a = components.component b ↔ Mutual (Edge neighbors) a b)
  cycles : ∀ a, a ∈ components.cyclic ↔ (components.component a).isSome ∧ OnCycle (Edge neighbors) a

variable {ids : Finset Id}

namespace Sound

theorem start : Sound neighbors ids [] ({} : Components Id) where
  seen _ := by simp
  apart _ member := nomatch member
  onStack _ := by simp
  known _ member := nomatch member
  inside _ absurd_ := nomatch absurd_
  sorted := List.Pairwise.nil
  fresh _ member := nomatch member
  frames := List.Sublist.slnil
  positions _ member := nomatch member
  leads _ member := nomatch member
  returns _ member := nomatch member
  taken _ _ absurd_ := nomatch absurd_
  closed _ _ absurd_ := nomatch absurd_
  lowest _ member := nomatch member
  bounds _ member := nomatch member
  numbered _ _ absurd_ := nomatch absurd_
  same _ _ absurd_ := nomatch absurd_
  cycles _ := by simp

theorem stack_of_frame (sound : Sound neighbors ids path components) (frame : a ∈ path.map Prod.fst) :
    a ∈ components.stack :=
  sound.frames.subset frame

/-- Numbers tell the shapes of the stack apart. -/
theorem eq_of_num (sound : Sound neighbors ids path components) (first : a ∈ components.stack)
    (second : b ∈ components.stack)
    (same : components.num a = components.num b) : a = b := by
  by_contra differ
  have apart : ∀ a ∈ components.stack, ∀ b ∈ components.stack, a ≠ b → components.num a ≠ components.num b := by
    have symm : Std.Symm fun a b => a ≠ b → components.num a ≠ components.num b :=
      ⟨fun a b ne differ => (ne differ.symm).symm⟩
    apply List.Pairwise.forall_of_forall
    · exact fun a _ ne => absurd rfl ne
    · exact sound.sorted.imp fun less _ => less.ne'
  exact apart a first b second differ same

/-- The frame on top has the greatest number of all frames. -/
theorem num_lt_top {position : ℕ} (sound : Sound neighbors ids ((current, position) :: path) components)
    (frame : a ∈ path.map Prod.fst) : components.num a < components.num current := by
  have ordered := sound.sorted.sublist sound.frames
  rw [List.map_cons, List.pairwise_cons] at ordered
  exact ordered.1 a frame

theorem num_le_top {position : ℕ} (sound : Sound neighbors ids ((current, position) :: path) components)
    (frame : a ∈ ((current, position) :: path).map Prod.fst) : components.num a ≤ components.num current := by
  obtain rfl | below := List.mem_cons.mp frame
  · exact le_refl _
  · exact (sound.num_lt_top below).le

end Sound

/-- An edge that is taken at the next position was taken before, or is the one of the position. -/
theorem Taken.advance {position : ℕ} {neighbor : Id} (next : (neighbors current)[position]? = some neighbor)
    (taken : Taken neighbors ((current, position + 1) :: path) a b) :
    Taken neighbors ((current, position) :: path) a b ∨ a = current ∧ b = neighbor := by
  obtain ⟨edge, taken⟩ := taken
  by_cases last : a = current ∧ b = neighbor
  · exact .inr last
  · refine .inl ⟨edge, fun at_ frame => ?_⟩
    obtain ⟨rfl, rfl⟩ | below := (List.mem_cons.mp frame).imp_left Prod.mk.inj
    · have earlier := taken (at_ + 1) List.mem_cons_self
      rw [List.take_add_one, next, List.mem_append] at earlier
      obtain earlier | final := earlier
      · exact earlier
      · exact absurd ⟨rfl, List.mem_singleton.mp final⟩ last
    · exact taken at_ (List.mem_cons_of_mem _ below)

/-- Without its frame, all edges of a shape are taken. -/
theorem Taken.of_pop {position : ℕ} (full : (neighbors current).length ≤ position) (taken : Taken neighbors path a b) :
    Taken neighbors ((current, position) :: path) a b := by
  refine ⟨taken.1, fun at_ frame => ?_⟩
  obtain ⟨rfl, rfl⟩ | below := (List.mem_cons.mp frame).imp_left Prod.mk.inj
  · rw [List.take_of_length_le full]
    exact taken.1
  · exact taken.2 at_ below

section Steps

variable [DecidableEq Id] {neighbor : Id} {position : ℕ}

/-! ## A shape that is seen for the first time -/

theorem index_enter (a : Id) :
    (components.enter neighbor).index a = if a = neighbor then some components.counter else components.index a :=
  Function.update_apply _ _ _ _

theorem num_enter_self : (components.enter neighbor).num neighbor = components.counter := by
  rw [num, index_enter, if_pos rfl, Option.getD_some]

theorem num_enter_of_ne (ne : a ≠ neighbor) : (components.enter neighbor).num a = components.num a := by
  rw [num, index_enter, if_neg ne, num]

theorem low_enter_self : (components.enter neighbor).low neighbor = components.counter := by
  simp [low, enter]

theorem low_enter_of_ne (ne : a ≠ neighbor) : (components.enter neighbor).low a = components.low a := by
  simp [low, enter, Function.update_of_ne ne]

/-- The shape gets the frame on top; what the frames below it have taken may now lead to it as well. -/
theorem Sound.enter {below : List (Id × ℕ)} (sound : Sound neighbors ids path components)
    (unseen : components.index neighbor = none) (inside : neighbor ∈ ids) (frames : below.map Prod.fst = path.map Prod.fst)
    (positions : ∀ frame ∈ below, frame.2 ≤ (neighbors frame.1).length)
    (leads : ∀ p ∈ path.map Prod.fst, ReflTransGen (Edge neighbors) p neighbor)
    (taken : ∀ a b, Taken neighbors below a b → Taken neighbors path a b ∨ b = neighbor) :
    Sound neighbors ids ((neighbor, 0) :: below) (components.enter neighbor) := by
  have isNew : neighbor ∉ components.stack ∧ components.component neighbor = none := by
    have either := (sound.seen neighbor).not
    rw [unseen] at either
    simpa using either
  have ne {a : Id} (old : a ∈ components.stack) : a ≠ neighbor := fun same => isNew.1 (same ▸ old)
  have frameOld {p : Id} (frame : p ∈ path.map Prod.fst) : p ∈ components.stack := sound.stack_of_frame frame
  -- Nothing is taken from the new shape, and what was taken before leads to what was seen.
  have untaken {a b : Id} (edge : Taken neighbors ((neighbor, 0) :: below) a b) :
      a ≠ neighbor ∧ Taken neighbors below a b := by
    constructor
    · rintro rfl
      exact nomatch edge.2 0 List.mem_cons_self
    · exact ⟨edge.1, fun at_ frame => edge.2 at_ (List.mem_cons_of_mem _ frame)⟩
  have old {a b : Id} (seen : (components.index a).isSome) (edge : Taken neighbors path a b) : b ≠ neighbor := by
    rintro rfl
    have absurd_ := sound.taken a b seen edge
    rw [unseen] at absurd_
    cases absurd_
  have numbers {a : Id} (member : a ∈ components.stack) : (components.enter neighbor).num a < components.counter := by
    rw [num_enter_of_ne (ne member)]
    exact sound.fresh a member
  constructor
  case seen =>
    intro a
    rw [index_enter]
    split_ifs with same
    · simp [Components.enter, same]
    · simp [Components.enter, same, sound.seen a]
  case apart =>
    intro a member
    obtain rfl | member := List.mem_cons.mp member
    · exact isNew.2
    · exact sound.apart a member
  case onStack =>
    intro a
    simp [Components.enter, sound.onStack a]
  case known =>
    intro a member
    obtain rfl | member := List.mem_cons.mp member
    · simp [Components.enter]
    · simp [Components.enter, Function.update_of_ne (ne member), sound.known a member]
  case inside =>
    intro a seen
    rw [index_enter] at seen
    split_ifs at seen with same
    · exact same ▸ inside
    · exact sound.inside a seen
  case sorted =>
    refine List.pairwise_cons.mpr ⟨fun a member => ?_, sound.sorted.imp_of_mem fun first second less => ?_⟩
    · rw [num_enter_self]
      exact numbers member
    · rwa [num_enter_of_ne (ne first), num_enter_of_ne (ne second)]
  case fresh =>
    intro a member
    obtain rfl | member := List.mem_cons.mp member
    · rw [num_enter_self]
      exact Nat.lt_succ_self _
    · exact (numbers member).trans (Nat.lt_succ_self _)
  case frames =>
    rw [List.map_cons, frames]
    exact sound.frames.cons_cons neighbor
  case positions =>
    intro frame member
    obtain rfl | member := List.mem_cons.mp member
    · exact Nat.zero_le _
    · exact positions frame member
  case leads =>
    intro p frame a isMember above
    rw [List.map_cons, frames, List.mem_cons] at frame
    obtain rfl | member := List.mem_cons.mp isMember
    · obtain rfl | frame := frame
      · exact .refl
      · exact leads p frame
    · obtain rfl | frame := frame
      · rw [num_enter_self] at above
        exact absurd (numbers member) (not_lt.mpr above)
      · rw [num_enter_of_ne (ne member), num_enter_of_ne (ne (frameOld frame))] at above
        exact sound.leads p frame a member above
  case returns =>
    intro a member
    rw [List.map_cons, frames]
    obtain rfl | member := List.mem_cons.mp member
    · exact ⟨a, List.mem_cons_self, le_refl _, .refl⟩
    · obtain ⟨p, frame, below_, reaches⟩ := sound.returns a member
      refine ⟨p, List.mem_cons_of_mem _ frame, ?_, reaches⟩
      rwa [num_enter_of_ne (ne member), num_enter_of_ne (ne (frameOld frame))]
  case taken =>
    intro a b seen edge
    obtain ⟨differs, edge⟩ := untaken edge
    rw [index_enter, if_neg differs] at seen
    rw [index_enter]
    split_ifs with same
    · rfl
    · obtain edge | new := taken a b edge
      · exact sound.taken a b seen edge
      · exact absurd new same
  case closed => exact sound.closed
  case lowest =>
    intro p frame
    rw [List.map_cons, frames, List.mem_cons] at frame
    obtain rfl | frame := frame
    · rw [num_enter_self, low_enter_self]
      exact ⟨le_refl _, p, List.mem_cons_self, num_enter_self, .refl⟩
    · obtain ⟨le, a, member, equal, reaches⟩ := sound.lowest p frame
      rw [num_enter_of_ne (ne (frameOld frame)), low_enter_of_ne (ne (frameOld frame))]
      exact ⟨le, a, List.mem_cons_of_mem _ member, by rwa [num_enter_of_ne (ne member)], reaches⟩
  case bounds =>
    intro p frame a isSource b isTarget above edge
    obtain ⟨differs, edge⟩ := untaken edge
    have source := (List.mem_cons.mp isSource).resolve_left differs
    rw [List.map_cons, frames, List.mem_cons] at frame
    rw [List.map_cons, frames]
    obtain rfl | frame := frame
    · rw [num_enter_self] at above
      exact absurd (numbers source) (not_lt.mpr above)
    obtain rfl | target := List.mem_cons.mp isTarget
    -- The new shape has the greatest number of all.
    · refine ⟨p, List.mem_cons_of_mem _ frame, le_refl _, ?_⟩
      rw [low_enter_of_ne (ne (frameOld frame)), num_enter_self]
      exact ((sound.lowest p frame).1.trans_lt (sound.fresh p (frameOld frame))).le
    · have edge := (taken a b edge).resolve_right (ne target)
      rw [num_enter_of_ne (ne source), num_enter_of_ne (ne (frameOld frame))] at above
      obtain ⟨q, isFrame, higher, bound⟩ := sound.bounds p frame a source b target above edge
      refine ⟨q, List.mem_cons_of_mem _ isFrame, ?_, ?_⟩
      · rwa [num_enter_of_ne (ne (frameOld frame)), num_enter_of_ne (ne (frameOld isFrame))]
      · rwa [low_enter_of_ne (ne (frameOld isFrame)), num_enter_of_ne (ne target)]
  case numbered => exact sound.numbered
  case same => exact sound.same
  case cycles => exact sound.cycles

/-! ## An edge to a shape that was seen -/

omit [DecidableEq Id] in
theorem Sound.advance (sound : Sound neighbors ids ((current, position) :: path) components)
    (next : (neighbors current)[position]? = some neighbor) (seen : (components.index neighbor).isSome)
    (bounded : neighbor ∈ components.stack → components.low current ≤ components.num neighbor) :
    Sound neighbors ids ((current, position + 1) :: path) components := by
  have keys : ((current, position + 1) :: path).map Prod.fst = ((current, position) :: path).map Prod.fst := rfl
  constructor
  case seen => exact sound.seen
  case apart => exact sound.apart
  case onStack => exact sound.onStack
  case known => exact sound.known
  case inside => exact sound.inside
  case sorted => exact sound.sorted
  case fresh => exact sound.fresh
  case frames => exact keys ▸ sound.frames
  case positions =>
    intro frame member
    obtain rfl | member := List.mem_cons.mp member
    · exact (List.getElem?_eq_some_iff.mp next).1
    · exact sound.positions frame (List.mem_cons_of_mem _ member)
  case leads => exact keys ▸ sound.leads
  case returns => exact keys ▸ sound.returns
  case taken =>
    intro a b seen' edge
    obtain edge | ⟨_, rfl⟩ := edge.advance next
    · exact sound.taken a b seen' edge
    · exact seen
  case closed => exact sound.closed
  case lowest => exact keys ▸ sound.lowest
  case bounds =>
    intro p frame a source b target above edge
    rw [keys] at frame ⊢
    obtain edge | ⟨rfl, rfl⟩ := edge.advance next
    · exact sound.bounds p frame a source b target above edge
    · exact ⟨a, List.mem_cons_self, above, bounded target⟩
  case numbered => exact sound.numbered
  case same => exact sound.same
  case cycles => exact sound.cycles

/-! ## A lower link -/

/-- The state after `lower`. -/
def withLow (components : Components Id) (shape : Id) (link : ℕ) : Components Id :=
  { components with lowLink := Function.update components.lowLink shape (some link) }

theorem lower_eq {bound : ℕ} (known : (components.lowLink a).isSome) :
    components.lower a bound = some (components.withLow a (min (components.low a) bound)) := by
  obtain ⟨link, found⟩ := Option.isSome_iff_exists.mp known
  rw [lower, found, low, found]
  rfl

theorem low_withLow_self (link : ℕ) : (components.withLow a link).low a = link := by
  simp [low, withLow]

theorem low_withLow_of_ne (ne : b ≠ a) (link : ℕ) : (components.withLow a link).low b = components.low b := by
  simp [low, withLow, Function.update_of_ne ne]

/-- The link of a frame may be lowered to the number of a shape that the frame reaches. -/
theorem Sound.withLow {frame : Id} (sound : Sound neighbors ids path components) (isFrame : frame ∈ path.map Prod.fst)
    (member : a ∈ components.stack) (reaches : ReflTransGen (Edge neighbors) frame a) :
    Sound neighbors ids path (components.withLow frame (min (components.low frame) (components.num a))) := by
  have le (p : Id) :
      (components.withLow frame (min (components.low frame) (components.num a))).low p ≤ components.low p := by
    by_cases same : p = frame
    · rw [same, low_withLow_self]
      exact min_le_left _ _
    · rw [low_withLow_of_ne same]
  constructor
  case seen => exact sound.seen
  case apart => exact sound.apart
  case onStack => exact sound.onStack
  case known =>
    intro b member
    by_cases same : b = frame
    · simp [Components.withLow, same]
    · simp [Components.withLow, Function.update_of_ne same, sound.known b member]
  case inside => exact sound.inside
  case sorted => exact sound.sorted
  case fresh => exact sound.fresh
  case frames => exact sound.frames
  case positions => exact sound.positions
  case leads => exact sound.leads
  case returns => exact sound.returns
  case taken => exact sound.taken
  case closed => exact sound.closed
  case lowest =>
    intro p frame'
    obtain ⟨below, b, member', equal, reaches'⟩ := sound.lowest p frame'
    refine ⟨(le p).trans below, ?_⟩
    by_cases same : p = frame
    · subst same
      rw [low_withLow_self]
      obtain link | link := min_choice (components.low p) (components.num a)
      · exact ⟨b, member', by rw [link]; exact equal, reaches'⟩
      · exact ⟨a, member, by rw [link]; rfl, reaches⟩
    · rw [low_withLow_of_ne same]
      exact ⟨b, member', equal, reaches'⟩
  case bounds =>
    intro p frame' a source b target above edge
    obtain ⟨q, isFrame', higher, bound⟩ := sound.bounds p frame' a source b target above edge
    exact ⟨q, isFrame', higher, (le q).trans bound⟩
  case numbered => exact sound.numbered
  case same => exact sound.same
  case cycles => exact sound.cycles

/-! ## The end of a frame -/

omit [DecidableEq Id] in
/-- A shape that reaches below itself stays on the stack, above the frame under it. -/
theorem Sound.pop (sound : Sound neighbors ids ((current, position) :: path) components)
    (full : (neighbors current).length ≤ position) (linked : components.low current ≠ components.num current)
    (handed : ∀ parent at_ below, path = (parent, at_) :: below → components.low parent ≤ components.low current) :
    Sound neighbors ids path components := by
  have below : components.low current < components.num current :=
    lt_of_le_of_ne (sound.lowest current List.mem_cons_self).1 linked
  constructor
  case seen => exact sound.seen
  case apart => exact sound.apart
  case onStack => exact sound.onStack
  case known => exact sound.known
  case inside => exact sound.inside
  case sorted => exact sound.sorted
  case fresh => exact sound.fresh
  case frames => exact (List.sublist_cons_self _ _).trans sound.frames
  case positions => exact fun frame member => sound.positions frame (List.mem_cons_of_mem _ member)
  case leads => exact fun p frame => sound.leads p (List.mem_cons_of_mem _ frame)
  case returns =>
    intro a member
    obtain ⟨p, frame, le, reaches⟩ := sound.returns a member
    obtain rfl | frame := List.mem_cons.mp frame
    -- The shape that is popped reaches a lower one, which reaches a frame below it.
    · obtain ⟨_, b, lower, equal, link⟩ := sound.lowest p List.mem_cons_self
      obtain ⟨q, frame', le', reaches'⟩ := sound.returns b lower
      have less : components.num q < components.num p := by omega
      have other : q ∈ path.map Prod.fst := by
        obtain rfl | other := List.mem_cons.mp frame'
        · exact absurd less (lt_irrefl _)
        · exact other
      exact ⟨q, other, by omega, reaches.trans (link.trans reaches')⟩
    · exact ⟨p, frame, le, reaches⟩
  case taken => exact fun a b seen edge => sound.taken a b seen (edge.of_pop full)
  case closed => exact sound.closed
  case lowest => exact fun p frame => sound.lowest p (List.mem_cons_of_mem _ frame)
  case bounds =>
    intro p frame a source b target above edge
    obtain ⟨q, frame', higher, bound⟩ :=
      sound.bounds p (List.mem_cons_of_mem _ frame) a source b target above (edge.of_pop full)
    obtain rfl | frame' := List.mem_cons.mp frame'
    · cases path with
      | nil => cases frame
      | cons parent path =>
        obtain ⟨parent, at_⟩ := parent
        have ordered := sound.sorted.sublist sound.frames
        rw [List.map_cons, List.map_cons, List.pairwise_cons, List.pairwise_cons] at ordered
        refine ⟨parent, List.mem_cons_self, ?_, (handed parent at_ path rfl).trans bound⟩
        obtain rfl | lower := List.mem_cons.mp frame
        · exact le_refl _
        · exact (ordered.2.1 p lower).le
    · exact ⟨q, frame', higher, bound⟩
  case numbered => exact sound.numbered
  case same => exact sound.same
  case cycles => exact sound.cycles

end Steps

end OpalCpp.Codegen.Components

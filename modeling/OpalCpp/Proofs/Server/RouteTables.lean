import Mathlib.Data.List.Pairwise
import OpalCpp.Proofs.Server.Patterns

/-! # Tables of routes

What a successful `Add` puts into a table and that a failed one changes nothing. A table built by
successful ones holds exactly the added routes by their methods, whatever their order; so the selected
entry and the answer to a miss do not depend on it.
-/

namespace OpalCpp.Server

open scoped Bytes
open Bytes (ascii)
open OrderedMap (tryEmplace find? modify Ordered)

section Tables

variable {Entry : Type*} {segments : Entry → List Segment} {routes : Routes Entry} {method pattern : Bytes}

/-- The entries of a method. -/
def bucket (routes : Routes Entry) (method : Bytes) : List Entry := (find? method routes).getD []

theorem bucket_tryEmplace (ordered : Ordered routes) (method other : Bytes) :
    bucket (tryEmplace method [] routes) other = bucket routes other := by
  by_cases same : other = method
  · rw [same, bucket, OrderedMap.find?_tryEmplace_self ordered, Option.getD_some, bucket]
  · rw [bucket, OrderedMap.find?_tryEmplace_of_ne same, bucket]

/-- What `Add` can do: nothing, or the new entry at the end of the bucket of its method. -/
theorem addRoute_cases (segments : Entry → List Segment) (method pattern : Bytes) (ordered : Ordered routes)
    (entry : List Segment → Entry) :
    (∃ error, addRoute segments routes method pattern entry = (routes, .error error) ∧
      ∀ parsed, parsePattern pattern = .ok parsed →
        ∃ existing ∈ bucket routes method, sameShape (segments existing) parsed = true) ∨
      ∃ parsed, parsePattern pattern = .ok parsed ∧
        (∀ existing ∈ bucket routes method, sameShape (segments existing) parsed = false) ∧
        addRoute segments routes method pattern entry =
          (modify method (· ++ [entry parsed]) (tryEmplace method [] routes), .ok ()) := by
  rw [addRoute]
  cases parsing : parsePattern pattern with
  | error error => exact .inl ⟨error, rfl, fun parsed other => by cases other⟩
  | ok parsed =>
    dsimp only
    rw [← bucket, bucket_tryEmplace ordered]
    by_cases conflict : ((bucket routes method).any fun existing => sameShape (segments existing) parsed) = true
    · obtain ⟨existing, member, same⟩ := List.any_eq_true.mp conflict
      have present : method ∈ routes.map Prod.fst := by
        rw [← OrderedMap.find?_isSome]
        by_contra absent
        rw [bucket, Option.not_isSome_iff_eq_none.mp absent] at member
        cases member
      left
      rw [if_pos conflict, OrderedMap.tryEmplace_of_mem ordered [] present]
      refine ⟨_, rfl, fun other same' => ?_⟩
      cases same'
      exact ⟨existing, member, same⟩
    · right
      rw [if_neg conflict]
      refine ⟨parsed, rfl, ?_, rfl⟩
      rw [Bool.not_eq_true, List.any_eq_false] at conflict
      exact fun existing member => Bool.eq_false_iff.mpr (conflict existing member)

theorem addRoute_of_error (ordered : Ordered routes) {entry : List Segment → Entry} {error : Error}
    (failed : (addRoute segments routes method pattern entry).2 = .error error) :
    (addRoute segments routes method pattern entry).1 = routes := by
  obtain ⟨_, refused, _⟩ | ⟨_, _, _, added⟩ := addRoute_cases segments method pattern ordered entry
  · rw [refused]
  · rw [added] at failed
    cases failed

theorem ordered_addRoute (ordered : Ordered routes) (method pattern : Bytes) (entry : List Segment → Entry) :
    Ordered (addRoute segments routes method pattern entry).1 := by
  obtain ⟨_, refused, _⟩ | ⟨_, _, _, added⟩ := addRoute_cases segments method pattern ordered entry
  · rw [refused]
    exact ordered
  · rw [added]
    dsimp only
    exact (ordered.tryEmplace method []).modify method _

/-! ## What a table holds -/

/-- A route to be added; its entry carries the parsed pattern. -/
structure Addition (segments : Entry → List Segment) where
  method : Bytes
  pattern : Bytes
  entry : List Segment → Entry
  carries : ∀ parsed, segments (entry parsed) = parsed

namespace Addition

def parsed (addition : Addition segments) : List Segment := (parsePattern addition.pattern).toOption.getD []

/-- The entry it makes. -/
def made (addition : Addition segments) : Entry := addition.entry addition.parsed

theorem segments_made (addition : Addition segments) : segments addition.made = addition.parsed :=
  addition.carries addition.parsed

/-- The two are not in conflict. -/
def Apart (addition other : Addition segments) : Prop :=
  addition.method = other.method → sameShape addition.parsed other.parsed = false

instance : Std.Symm (@Apart Entry segments) where
  symm addition other apart same := by
    have differ := apart same.symm
    by_contra shape
    rw [sameShape_symm (Bool.not_eq_false _ ▸ shape)] at differ
    cases differ

end Addition

/-- Every pattern is one, and no two of the routes are in conflict. -/
def Compatible (additions : List (Addition segments)) : Prop :=
  (∀ addition ∈ additions, ∃ parsed, parsePattern addition.pattern = .ok parsed) ∧
    additions.Pairwise Addition.Apart

theorem Compatible.perm {additions others : List (Addition segments)} (compatible : Compatible additions)
    (perm : additions.Perm others) : Compatible others :=
  ⟨fun addition member => compatible.1 addition (perm.mem_iff.mpr member),
    (perm.pairwise_iff fun apart => symm apart).mp compatible.2⟩

/-- The table has a bucket for every method that was added to, with its entries in order. -/
structure Holds (routes : Routes Entry) (additions : List (Addition segments)) : Prop where
  ordered : Ordered routes
  compatible : Compatible additions
  methods : ∀ method, method ∈ routes.map Prod.fst ↔ ∃ addition ∈ additions, addition.method = method
  buckets : ∀ method,
    bucket routes method = (additions.filter (·.method = method)).map Addition.made

theorem holds_nil : Holds ([] : Routes Entry) ([] : List (Addition segments)) where
  ordered := List.Pairwise.nil
  compatible := ⟨fun _ member => absurd member List.not_mem_nil, List.Pairwise.nil⟩
  methods _ := by simp
  buckets _ := rfl

theorem bucket_modify (method other : Bytes) (change : List Entry → List Entry) (present : method ∈ routes.map Prod.fst) :
    bucket (modify method change routes) other = if other = method then change (bucket routes method)
      else bucket routes other := by
  rw [bucket, OrderedMap.find?_modify, bucket, bucket]
  by_cases same : other = method
  · obtain ⟨entries, found⟩ := Option.isSome_iff_exists.mp (OrderedMap.find?_isSome.mpr present)
    simp [same, found]
  · simp [same]

/-- A route that is in conflict with none of those before it is added, and no other is. -/
theorem Holds.add {additions : List (Addition segments)} (holds : Holds routes additions) (addition : Addition segments) :
    (∃ error, addRoute segments routes addition.method addition.pattern addition.entry = (routes, .error error) ∧
      ¬ Compatible (additions ++ [addition])) ∨
    ∃ next, addRoute segments routes addition.method addition.pattern addition.entry = (next, .ok ()) ∧
      Holds next (additions ++ [addition]) := by
  obtain ⟨ordered, ⟨patterns, apart⟩, methods, buckets⟩ := holds
  have inBucket {existing : Entry} : existing ∈ bucket routes addition.method ↔
      ∃ other ∈ additions, other.method = addition.method ∧ other.made = existing := by
    simp [buckets, and_assoc]
  obtain ⟨error, refused, conflict⟩ | ⟨parsed, parsing, fresh, added⟩ := addRoute_cases segments addition.method
      addition.pattern ordered addition.entry
  · refine .inl ⟨error, refused, ?_⟩
    rintro ⟨patterns', apart'⟩
    obtain ⟨parsed, parsing⟩ := patterns' addition (List.mem_append_right _ (List.mem_singleton_self _))
    obtain ⟨existing, member, same⟩ := conflict parsed parsing
    obtain ⟨other, earlier, method, rfl⟩ := inBucket.mp member
    have differ := (List.pairwise_append.mp apart').2.2 other earlier addition (List.mem_singleton_self _) method
    rw [other.segments_made] at same
    have own : addition.parsed = parsed := by rw [Addition.parsed, parsing]; rfl
    rw [own, same] at differ
    cases differ
  · have own : addition.parsed = parsed := by rw [Addition.parsed, parsing]; rfl
    refine .inr ⟨_, added, (ordered.tryEmplace _ _).modify _ _, ⟨?_, ?_⟩, ?_, ?_⟩
    · rw [List.forall_mem_append, List.forall_mem_singleton]
      exact ⟨patterns, parsed, parsing⟩
    · rw [List.pairwise_append]
      refine ⟨apart, List.pairwise_singleton _ _, ?_⟩
      intro other earlier last isLast method
      obtain rfl := List.mem_singleton.mp isLast
      rw [own, ← other.segments_made]
      exact fresh _ (inBucket.mpr ⟨other, earlier, method, rfl⟩)
    · intro method
      rw [OrderedMap.keys_modify, OrderedMap.mem_keys_tryEmplace, methods]
      simp only [List.mem_append, List.mem_singleton]
      constructor
      · rintro (rfl | ⟨other, earlier, same⟩)
        · exact ⟨addition, .inr rfl, rfl⟩
        · exact ⟨other, .inl earlier, same⟩
      · rintro ⟨other, earlier | rfl, same⟩
        · exact .inr ⟨other, earlier, same⟩
        · exact .inl same.symm
    · intro method
      have present : addition.method ∈ (tryEmplace addition.method [] routes).map Prod.fst :=
        OrderedMap.mem_keys_tryEmplace.mpr (.inl rfl)
      rw [bucket_modify _ _ _ present, bucket_tryEmplace ordered, bucket_tryEmplace ordered, buckets, buckets,
        List.filter_append, List.map_append]
      by_cases same : method = addition.method
      · simp [same, Addition.made, own]
      · simp [same, Ne.symm same]

/-- The routes are added in order, each of them successfully. -/
def addRoutes (routes : Routes Entry) : List (Addition segments) → Outcome (Routes Entry)
  | [] => .ok routes
  | addition :: additions =>
    match addRoute segments routes addition.method addition.pattern addition.entry with
    | (_, .error error) => .error error
    | (next, .ok ()) => addRoutes next additions

theorem holds_addRoutes {done additions : List (Addition segments)} {result : Routes Entry} (holds : Holds routes done)
    (added : addRoutes routes additions = .ok result) : Holds result (done ++ additions) := by
  induction additions generalizing routes done with
  | nil =>
    cases added
    rwa [List.append_nil]
  | cons addition additions ih =>
    rw [addRoutes] at added
    obtain ⟨error, refused, _⟩ | ⟨next, accepted, holds'⟩ := holds.add addition
    · rw [refused] at added
      cases added
    · rw [accepted] at added
      have rest := ih holds' added
      rwa [List.append_assoc] at rest

theorem exists_addRoutes {done additions : List (Addition segments)} (holds : Holds routes done)
    (compatible : Compatible (done ++ additions)) : ∃ result, addRoutes routes additions = .ok result := by
  induction additions generalizing routes done with
  | nil => exact ⟨routes, rfl⟩
  | cons addition additions ih =>
    rw [List.append_cons] at compatible
    rw [addRoutes]
    obtain ⟨error, refused, conflict⟩ | ⟨next, accepted, holds'⟩ := holds.add addition
    · exact absurd ⟨fun other member => compatible.1 other (List.mem_append_left _ member),
        (List.pairwise_append.mp compatible.2).1⟩ conflict
    · rw [accepted]
      exact ih holds' compatible

/-! ## Selecting -/

/-- The entry matches the target. -/
def Matches (segments : Entry → List Segment) (target : List Bytes) (entry : Entry) : Bool :=
  (matchSegments (segments entry) target).isSome

/-- The entries of a method that match the target. -/
def matching (segments : Entry → List Segment) (routes : Routes Entry) (method : Bytes) (target : List Bytes) : List Entry :=
  (bucket routes method).filter (Matches segments target)

/-- One of the entries, that ranks above every other of them. -/
def TopRanked (segments : Entry → List Segment) (entries : List Entry) (best : Entry) : Prop :=
  best ∈ entries ∧ ∀ other ∈ entries, other ≠ best → moreSpecific (segments best) (segments other) = true

theorem findBest_eq (target : List Bytes) : findBest segments routes method target =
    Selection.select (Matches segments target) (fun route best => moreSpecific (segments route) (segments best))
      (bucket routes method) := by
  rw [findBest, bucket]
  cases find? method routes with
  | none => rfl
  | some entries => rfl

/-- Two entries of a bucket that match a target and rank alike are one. -/
theorem Holds.distinct {additions : List (Addition segments)} (holds : Holds routes additions) (method : Bytes)
    (target : List Bytes) : ∀ first ∈ bucket routes method, ∀ second ∈ bucket routes method,
      Matches segments target first = true → Matches segments target second = true →
      ranks (segments first) = ranks (segments second) → first = second := by
  obtain ⟨_, ⟨patterns, apart⟩, _, buckets⟩ := holds
  rw [buckets]
  intro first member second member' matched matched' same
  obtain ⟨one, inOne, rfl⟩ := List.mem_map.mp member
  obtain ⟨two, inTwo, rfl⟩ := List.mem_map.mp member'
  obtain ⟨inOne, methodOne⟩ := List.mem_filter.mp inOne
  obtain ⟨inTwo, methodTwo⟩ := List.mem_filter.mp inTwo
  rw [decide_eq_true_eq] at methodOne methodTwo
  have greedyLast (addition : Addition segments) (member : addition ∈ additions) : GreedyLast addition.parsed := by
    obtain ⟨parsed, parsing⟩ := patterns addition member
    have own : addition.parsed = parsed := by rw [Addition.parsed, parsing]; rfl
    rw [own]
    exact (parsePattern_facts parsing).1
  rw [Matches, one.segments_made] at matched
  rw [Matches, two.segments_made] at matched'
  rw [one.segments_made, two.segments_made] at same
  have shape := sameShape_of_matchSegments (greedyLast one inOne) (greedyLast two inTwo) matched matched' same
  by_contra differ
  have others : one ≠ two := fun equal => differ (by rw [equal])
  have conflict := apart.forall inOne inTwo others (methodOne.trans methodTwo.symm)
  rw [shape] at conflict
  cases conflict

theorem compares (segments : Entry → List Segment) (first second : Entry) :
    moreSpecific (segments first) (segments second) = true ↔ ranks (segments first) < ranks (segments second) :=
  moreSpecific_iff

/-- The selected entry is the one that ranks above the others. -/
theorem Holds.findBest_eq_some {additions : List (Addition segments)} (holds : Holds routes additions) {method : Bytes}
    {target : List Bytes} {best : Entry} :
    findBest segments routes method target = some best ↔
      TopRanked segments (matching segments routes method target) best := by
  rw [findBest_eq, Selection.select_eq_some (compares segments) (holds.distinct method target), Selection.Best, TopRanked,
    matching, List.mem_filter, and_assoc]
  refine and_congr_right fun member => and_congr_right fun matched => ?_
  simp only [List.mem_filter, and_imp]
  constructor
  · intro least other member' matched' differs
    refine moreSpecific_iff.mpr (lt_of_le_of_ne (least other member' matched') fun same => ?_)
    exact differs (holds.distinct method target other member' best member matched' matched same.symm)
  · intro above other member' matched'
    by_cases same : other = best
    · rw [same]
    · have ranked := above other member' matched' same
      rw [moreSpecific_iff] at ranked
      exact le_of_lt ranked

theorem findBest_eq_none {target : List Bytes} :
    findBest segments routes method target = none ↔ matching segments routes method target = [] := by
  rw [findBest_eq, Selection.select_eq_none (compares segments), matching, List.filter_eq_nil_iff]
  simp only [Bool.not_eq_true]

theorem TopRanked.unique {entries : List Entry} {best other : Entry} (top : TopRanked segments entries best)
    (top' : TopRanked segments entries other) : other = best := by
  by_contra differs
  have above := top.2 other top'.1 differs
  have below := top'.2 best top.1 (Ne.symm differs)
  rw [moreSpecific_iff] at above below
  exact lt_asymm above below

/-! ## The order of adding -/

section Order

variable {routes' : Routes Entry} {additions additions' : List (Addition segments)}

theorem Holds.bucket_perm (holds : Holds routes additions) (holds' : Holds routes' additions')
    (perm : additions.Perm additions') (method : Bytes) : (bucket routes method).Perm (bucket routes' method) := by
  rw [holds.buckets, holds'.buckets]
  exact (perm.filter _).map _

theorem Holds.findBest_perm (holds : Holds routes additions) (holds' : Holds routes' additions')
    (perm : additions.Perm additions') (method : Bytes) (target : List Bytes) :
    findBest segments routes method target = findBest segments routes' method target := by
  rw [findBest_eq, findBest_eq]
  exact Selection.select_perm (compares segments) (holds.distinct method target) (holds.bucket_perm holds' perm method)

/-- The buckets are gone through in the order of their methods. -/
theorem Holds.allowed_eq (holds : Holds routes additions) (method : Bytes) (target : List Bytes) :
    allowed segments routes method target = (routes.map Prod.fst).foldl (fun allow other =>
      if other = method then allow
      else if !(bucket routes other).any (Matches segments target) then allow
      else (if allow = [] then allow else allow ++ ascii ", ") ++ other) [] := by
  have whole := OrderedMap.Ordered.eq_map holds.ordered ([] : List Entry)
  rw [allowed]
  conv_lhs => rw [whole]
  rw [List.foldl_map]
  rfl

theorem Holds.missed_perm (holds : Holds routes additions) (holds' : Holds routes' additions')
    (perm : additions.Perm additions') (method : Bytes) (target : List Bytes) :
    missed segments routes method target = missed segments routes' method target := by
  have methods : routes.map Prod.fst = routes'.map Prod.fst := by
    apply holds.ordered.eq_of_mem_iff holds'.ordered
    intro other
    rw [holds.methods, holds'.methods]
    simp only [perm.mem_iff]
  have any (other : Bytes) : (bucket routes other).any (Matches segments target) =
      (bucket routes' other).any (Matches segments target) := (holds.bucket_perm holds' perm other).any_eq
  have allow : allowed segments routes method target = allowed segments routes' method target := by
    rw [holds.allowed_eq, holds'.allowed_eq, methods]
    simp only [any]
  rw [missed, missed, allow]

end Order

end Tables

end OpalCpp.Server

import Mathlib.Data.Finset.SDiff
import OpalCpp.Proofs.Codegen.ConstraintPaths

/-! # The search for constrained shapes

A shape whose visit is in progress counts as unconstrained when it is met again. The search is right
about a shape that leads to a constraint without going through the shapes its visit came through.
-/

namespace OpalCpp.Codegen

variable {Id : Type*} [DecidableEq Id] {model : ServiceModel Id} {members : Id → List (MemberShape Id)}

/-- The middle of a round: the visit of the target, if it has members itself. -/
theorem collectMember_eq (collect : Id → Search Id → Option (Bool × Search Id)) (flag : Bool) (search : Search Id)
    (member : MemberShape Id) : collectMember model collect (flag, search) member =
      (if (model.shape member.target).isAggregate then
        (collect member.target search).map fun below => (flag || memberHasConstraints model member || below.1, below.2)
      else some (flag || memberHasConstraints model member, search)).map fun result =>
        if (model.shape member.target).isCollection &&
            (model.shape member.target).members.any (memberHasConstraints model) then
          (true, { result.2 with constrained := insert member.target result.2.constrained })
        else result := by
  rw [collectMember]
  by_cases aggregate : (model.shape member.target).isAggregate = true
  · simp only [aggregate, if_true]
    cases collect member.target search with
    | none => rfl
    | some below =>
      simp only [Option.bind_eq_bind, Option.bind_some, Option.pure_def, Option.map_some]
      split_ifs <;> rfl
  · simp only [if_neg aggregate, Option.bind_eq_bind, Option.bind_some, Option.pure_def, Option.map_some]
    split_ifs <;> rfl

/-! ## What gets marked -/

section Marks

variable {path : List Id} {reached ok : Id → Prop} {search : Search Id}

/-- The shapes of the path have been visited, and whatever is marked may be. -/
structure Marks (path : List Id) (ok : Id → Prop) (search : Search Id) : Prop where
  visiting : ∀ shape ∈ path, shape ∈ search.visiting
  constrained : ∀ shape ∈ search.constrained, ok shape

/-- The loop over the members of the shape finds something, if the shapes below are marked when they may be. -/
def Finds (model : ServiceModel Id) (ok : Id → Prop) (shape : Id) : Prop :=
  Carries model shape ∨ ∃ other, Next model shape other ∧ ok other

/-- What a visit marks may be marked, of the shapes that it can reach and outside of the path. -/
structure Markable (model : ServiceModel Id) (path : List Id) (reached ok : Id → Prop) : Prop where
  next : ∀ shape other, reached shape → Next model shape other → reached other
  collection : ∀ shape, reached shape → CarryingCollection model shape → ok shape
  found : ∀ shape, reached shape → shape ∉ path → Finds model ok shape → ok shape

theorem Marks.mark (marks : Marks path ok search) {shape : Id} (may : ok shape) :
    Marks path ok { search with constrained := insert shape search.constrained } where
  visiting := marks.visiting
  constrained other member := by
    obtain rfl | before := Finset.mem_insert.mp member
    · exact may
    · exact marks.constrained other before

theorem Marks.enter (marks : Marks path ok search) (shape : Id) :
    Marks path ok { search with visiting := insert shape search.visiting } :=
  ⟨fun other member => Finset.mem_insert_of_mem (marks.visiting other member), marks.constrained⟩

theorem Markable.collectMember (markable : Markable model path reached ok)
    {collect : Id → Search Id → Option (Bool × Search Id)} {shape : Id} (isReached : reached shape)
    {member : MemberShape Id} (isMember : member ∈ (model.shape shape).members) {flag : Bool} {result : Bool × Search Id}
    (round : collectMember model collect (flag, search) member = some result)
    (stays : ¬ Next model shape member.target → Marks path ok search)
    (visits : ∀ below, Next model shape member.target → collect member.target search = some below →
      Marks path ok below.2 ∧ (below.1 = true → ok member.target)) :
    Marks path ok result.2 ∧ (result.1 = true → flag = true ∨ Finds model ok shape) := by
  rw [collectMember_eq, Option.map_eq_some_iff] at round
  obtain ⟨middle, visit, rfl⟩ := round
  have own (has : memberHasConstraints model member = true) : Finds model ok shape := .inl ⟨member, isMember, has⟩
  have middleMarks : Marks path ok middle.2 ∧ (middle.1 = true → flag = true ∨ Finds model ok shape) := by
    by_cases aggregate : (model.shape member.target).isAggregate = true
    · have next : Next model shape member.target := ⟨member, isMember, rfl, aggregate⟩
      rw [if_pos aggregate, Option.map_eq_some_iff] at visit
      obtain ⟨below, collected, rfl⟩ := visit
      obtain ⟨marks', may⟩ := visits below next collected
      refine ⟨marks', fun set_ => ?_⟩
      rw [Bool.or_eq_true, Bool.or_eq_true, or_assoc] at set_
      exact set_.imp_right fun here => here.elim own fun found => .inr ⟨_, next, may found⟩
    · rw [if_neg aggregate, Option.some.injEq] at visit
      subst visit
      refine ⟨stays fun next => aggregate next.choose_spec.2.2, fun set_ => ?_⟩
      rw [Bool.or_eq_true] at set_
      exact set_.imp_right own
  by_cases carrying : CarryingCollection model member.target
  · have next := carrying.next isMember
    have may := markable.collection _ (markable.next _ _ isReached next) carrying
    rw [if_pos (carryingCollection_iff.mp carrying)]
    exact ⟨middleMarks.1.mark may, fun _ => .inr (.inr ⟨_, next, may⟩)⟩
  · rw [if_neg fun both => carrying (carryingCollection_iff.mpr both)]
    exact middleMarks

theorem Markable.foldlM (markable : Markable model path reached ok)
    {collect : Id → Search Id → Option (Bool × Search Id)} {shape : Id} (isReached : reached shape)
    {rest : List (MemberShape Id)} (areMembers : ∀ member ∈ rest, member ∈ (model.shape shape).members) {flag : Bool}
    {result : Bool × Search Id} (rounds : rest.foldlM (Codegen.collectMember model collect) (flag, search) = some result)
    (marks : Marks path ok search)
    (visits : ∀ other later below, Next model shape other → Marks path ok later → collect other later = some below →
      Marks path ok below.2 ∧ (below.1 = true → ok other)) :
    Marks path ok result.2 ∧ (result.1 = true → flag = true ∨ Finds model ok shape) := by
  induction rest generalizing flag search with
  | nil =>
    rw [List.foldlM_nil, Option.pure_def, Option.some.injEq] at rounds
    subst rounds
    exact ⟨marks, .inl⟩
  | cons member rest ih =>
    rw [List.forall_mem_cons] at areMembers
    rw [List.foldlM_cons, Option.bind_eq_bind, Option.bind_eq_some_iff] at rounds
    obtain ⟨middle, round, rounds⟩ := rounds
    obtain ⟨marks', found⟩ := markable.collectMember isReached areMembers.1 round (fun _ => marks)
      fun below next => visits _ search below next marks
    obtain ⟨marks'', found'⟩ := ih areMembers.2 rounds marks'
    exact ⟨marks'', fun set_ => (found' set_).elim found .inr⟩

/-- What a visit marks may be marked, whatever it finds. -/
theorem Markable.collectConstrained (markable : Markable model path reached ok)
    (order : ∀ id, (members id).Perm (model.shape id).members) {fuel : ℕ} {shape : Id} (isReached : reached shape)
    {result : Bool × Search Id} (collected : collectConstrained model members fuel shape search = some result)
    (marks : Marks path ok search) : Marks path ok result.2 ∧ (result.1 = true → ok shape) := by
  induction fuel generalizing shape search result with
  | zero => cases collected
  | succ fuel ih =>
    rw [Codegen.collectConstrained] at collected
    split_ifs at collected with constrained visiting
    · cases collected
      exact ⟨marks, fun _ => marks.constrained shape constrained⟩
    · cases collected
      exact ⟨marks, fun set_ => nomatch (set_ : false = true)⟩
    · rw [Option.bind_eq_bind, Option.bind_eq_some_iff] at collected
      obtain ⟨⟨any, last⟩, rounds, returned⟩ := collected
      rw [Option.pure_def, Option.some.injEq] at returned
      subst returned
      obtain ⟨marks', found⟩ := markable.foldlM isReached (fun member isMember => (order shape).mem_iff.mp isMember) rounds
        (marks.enter shape) fun other later below next marks' collected =>
          ih (markable.next _ _ isReached next) collected marks'
      have may (set_ : any = true) : ok shape :=
        markable.found shape isReached (fun open_ => visiting (marks.visiting shape open_))
          ((found set_).resolve_left (by decide))
      cases any with
      | true => exact ⟨marks'.mark (may rfl), may⟩
      | false => exact ⟨marks', may⟩

end Marks

/-! ## What is found -/

variable {input : Id} {marked : Finset Id} {path : List Id} {search : Search Id}

/-- What holds while the shapes of the path are being visited, after shapes were marked for earlier
operations: whatever is marked needs to be, and of the visited shapes whatever needs to be is marked,
but for those of the path. -/
structure Sound (model : ServiceModel Id) (marked : Finset Id) (path : List Id) (search : Search Id) : Prop where
  kept : marked ⊆ search.constrained
  needs : ∀ shape ∈ search.constrained, Needs model shape
  new : ∀ shape ∈ search.constrained, shape ∈ marked ∨ shape ∈ search.visiting
  open_ : ∀ shape ∈ path, shape ∈ search.visiting
  known : search.visiting ⊆ model.ids
  done : ∀ shape ∈ search.visiting, shape ∉ path → Needs model shape → shape ∈ search.constrained
  closed : ∀ shape ∈ search.visiting, shape ∉ path → ∀ other, Next model shape other →
    other ∈ search.visiting ∨ other ∈ marked

/-- Nothing is taken back. -/
def Search.Grows (search later : Search Id) : Prop :=
  search.constrained ⊆ later.constrained ∧ search.visiting ⊆ later.visiting

omit [DecidableEq Id] in
theorem Search.Grows.trans {first second third : Search Id} (one : first.Grows second) (two : second.Grows third) :
    first.Grows third := ⟨one.1.trans two.1, one.2.trans two.2⟩

/-- What a visit of a shape gives: whether the shape leads to a constraint, unless its own visit is in
progress. -/
structure Visited (model : ServiceModel Id) (marked : Finset Id) (path : List Id) (shape : Id) (search : Search Id)
    (result : Bool × Search Id) : Prop where
  sound : Sound model marked path result.2
  grows : search.Grows result.2
  here : shape ∈ result.2.visiting ∨ shape ∈ marked
  needs : result.1 = true → Needs model shape
  otherwise : result.1 = false → shape ∈ path ∨ ¬ Needs model shape

/-- What the loop over the members gives after some of them, from a flag. -/
structure Looped (model : ServiceModel Id) (marked : Finset Id) (path : List Id) (shape : Id) (flag : Bool)
    (done : List (MemberShape Id)) (search : Search Id) (result : Bool × Search Id) : Prop where
  sound : Sound model marked path result.2
  grows : search.Grows result.2
  needs : result.1 = true → flag = true ∨ Needs model shape
  otherwise : result.1 = false → flag = false ∧ ∀ member ∈ done, memberHasConstraints model member = false ∧
    ¬ CarryingCollection model member.target ∧
    (Next model shape member.target → member.target ∈ path ∨ ¬ Needs model member.target)
  targets : ∀ member ∈ done, Next model shape member.target → member.target ∈ result.2.visiting ∨ member.target ∈ marked

theorem Sound.mark (sound : Sound model marked path search) {shape : Id} (needs : Needs model shape)
    (here : shape ∈ search.visiting ∨ shape ∈ marked) :
    Sound model marked path { search with constrained := insert shape search.constrained } := by
  obtain ⟨kept, needs', new, open_, known, done, closed⟩ := sound
  refine ⟨kept.trans (Finset.subset_insert _ _), ?_, ?_, open_, known, ?_, closed⟩
  · intro other member
    obtain rfl | before := Finset.mem_insert.mp member
    · exact needs
    · exact needs' other before
  · intro other member
    obtain rfl | before := Finset.mem_insert.mp member
    · exact here.symm
    · exact new other before
  · intro other visited notOpen needed
    exact Finset.mem_insert_of_mem (done other visited notOpen needed)

omit [DecidableEq Id] in
theorem Looped.nil (sound : Sound model marked path search) (shape : Id) (flag : Bool) :
    Looped model marked path shape flag [] search (flag, search) where
  sound := sound
  grows := ⟨subset_rfl, subset_rfl⟩
  needs := .inl
  otherwise clear_ := ⟨clear_, fun _ member => absurd member List.not_mem_nil⟩
  targets _ member := absurd member List.not_mem_nil

omit [DecidableEq Id] in
theorem Looped.cons {shape : Id} {flag : Bool} {member : MemberShape Id} {rest : List (MemberShape Id)}
    {middle result : Bool × Search Id} (first : Looped model marked path shape flag [member] search middle)
    (later : Looped model marked path shape middle.1 rest middle.2 result) :
    Looped model marked path shape flag (member :: rest) search result where
  sound := later.sound
  grows := first.grows.trans later.grows
  needs set_ := (later.needs set_).elim first.needs .inr
  otherwise clear_ := by
    obtain ⟨middleClear, others⟩ := later.otherwise clear_
    obtain ⟨flagClear, this⟩ := first.otherwise middleClear
    exact ⟨flagClear, List.forall_mem_cons.mpr ⟨this member (List.mem_singleton_self _), others⟩⟩
  targets := List.forall_mem_cons.mpr
    ⟨fun next => (first.targets member (List.mem_singleton_self _) next).imp_left fun visited => later.grows.2 visited,
      later.targets⟩

/-- One round of the loop, where the visit of the target gives what it should. -/
theorem Sound.collectMember {collect : Id → Search Id → Option (Bool × Search Id)} {shape : Id} (flag : Bool)
    {member : MemberShape Id} (sound : Sound model marked path search) (isMember : member ∈ (model.shape shape).members)
    (visits : Next model shape member.target →
      ∃ result, collect member.target search = some result ∧ Visited model marked path member.target search result) :
    ∃ result, collectMember model collect (flag, search) member = some result ∧
      Looped model marked path shape flag [member] search result := by
  -- The flag and the visit.
  have visit : ∃ result : Bool × Search Id, (if (model.shape member.target).isAggregate then
        (collect member.target search).map fun below => (flag || memberHasConstraints model member || below.1, below.2)
      else some (flag || memberHasConstraints model member, search)) = some result ∧
      Sound model marked path result.2 ∧ search.Grows result.2 ∧ (result.1 = true → flag = true ∨ Needs model shape) ∧
      (result.1 = false → flag = false ∧ memberHasConstraints model member = false ∧
        (Next model shape member.target → member.target ∈ path ∨ ¬ Needs model member.target)) ∧
      (Next model shape member.target → member.target ∈ result.2.visiting ∨ member.target ∈ marked) := by
    have own (has : memberHasConstraints model member = true) : Needs model shape :=
      Carries.needs ⟨member, isMember, has⟩
    by_cases aggregate : (model.shape member.target).isAggregate = true
    · have next : Next model shape member.target := ⟨member, isMember, rfl, aggregate⟩
      obtain ⟨below, collected, visited⟩ := visits next
      rw [if_pos aggregate, collected]
      refine ⟨_, rfl, visited.sound, visited.grows, ?_, ?_, fun _ => visited.here⟩
      · intro set_
        rw [Bool.or_eq_true, Bool.or_eq_true, or_assoc] at set_
        exact set_.imp_right fun here => here.elim own fun found => (visited.needs found).of_next next
      · intro clear_
        rw [Bool.or_eq_false_iff, Bool.or_eq_false_iff] at clear_
        exact ⟨clear_.1.1, clear_.1.2, fun _ => visited.otherwise clear_.2⟩
    · have notNext : ¬ Next model shape member.target := fun next => aggregate next.choose_spec.2.2
      rw [if_neg aggregate]
      refine ⟨_, rfl, sound, ⟨subset_rfl, subset_rfl⟩, ?_, ?_, fun next => absurd next notNext⟩
      · intro set_
        rw [Bool.or_eq_true] at set_
        exact set_.imp_right own
      · intro clear_
        rw [Bool.or_eq_false_iff] at clear_
        exact ⟨clear_.1, clear_.2, fun next => absurd next notNext⟩
  obtain ⟨middle, visited, sound', grows, needs, otherwise, targets⟩ := visit
  rw [collectMember_eq, visited, Option.map_some]
  refine ⟨_, rfl, ?_⟩
  by_cases carrying : CarryingCollection model member.target
  · rw [if_pos (carryingCollection_iff.mp carrying)]
    have next := carrying.next isMember
    exact {
      sound := sound'.mark carrying.2.needs (targets next)
      grows := ⟨grows.1.trans (Finset.subset_insert _ _), grows.2⟩
      needs := fun _ => .inr (carrying.2.needs.of_next next)
      otherwise := fun clear_ => by cases clear_
      targets := List.forall_mem_singleton.mpr targets }
  · rw [if_neg fun both => carrying (carryingCollection_iff.mpr both)]
    exact {
      sound := sound'
      grows := grows
      needs := needs
      otherwise := fun clear_ => by
        obtain ⟨flagClear, none_, target⟩ := otherwise clear_
        exact ⟨flagClear, List.forall_mem_singleton.mpr ⟨none_, carrying, target⟩⟩
      targets := List.forall_mem_singleton.mpr targets }

/-- The loop over members of the shape, where the visits of their targets give what they should. -/
theorem Sound.foldlM (collect : Id → Search Id → Option (Bool × Search Id)) {shape : Id} (rest : List (MemberShape Id))
    (areMembers : ∀ member ∈ rest, member ∈ (model.shape shape).members) (first : Search Id)
    (visits : ∀ later, first.Grows later → Sound model marked path later → ∀ other, Next model shape other →
      ∃ result, collect other later = some result ∧ Visited model marked path other later result)
    (flag : Bool) {search : Search Id} (grown : first.Grows search) (sound : Sound model marked path search) :
    ∃ result, rest.foldlM (Codegen.collectMember model collect) (flag, search) = some result ∧
      Looped model marked path shape flag rest search result := by
  induction rest generalizing flag search with
  | nil => exact ⟨_, rfl, Looped.nil sound shape flag⟩
  | cons member rest ih =>
    rw [List.forall_mem_cons] at areMembers
    obtain ⟨middle, round, looped⟩ := sound.collectMember flag areMembers.1 (visits search grown sound member.target)
    obtain ⟨result, rounds, later⟩ := ih areMembers.2 middle.1 (grown.trans looped.grows) looped.sound
    refine ⟨result, ?_, looped.cons later⟩
    rw [List.foldlM_cons, round]
    exact rounds

theorem Sound.enter {shape : Id} (sound : Sound model marked path search) (known : shape ∈ model.ids) :
    Sound model marked (shape :: path) { search with visiting := insert shape search.visiting } := by
  obtain ⟨kept, needs, new, open_, ids, done, closed⟩ := sound
  have before {other : Id} (visited : other ∈ insert shape search.visiting) (notOpen : other ∉ shape :: path) :
      other ∈ search.visiting ∧ other ∉ path := by
    rw [List.mem_cons, not_or] at notOpen
    exact ⟨(Finset.mem_insert.mp visited).resolve_left notOpen.1, notOpen.2⟩
  refine ⟨kept, needs, ?_, ?_, ?_, ?_, ?_⟩
  · exact fun other member => (new other member).imp_right (Finset.mem_insert_of_mem)
  · rw [List.forall_mem_cons]
    exact ⟨Finset.mem_insert_self _ _, fun other member => Finset.mem_insert_of_mem (open_ other member)⟩
  · exact Finset.insert_subset known ids
  · intro other visited notOpen
    exact done other (before visited notOpen).1 (before visited notOpen).2
  · intro other visited notOpen next isNext
    exact (closed other (before visited notOpen).1 (before visited notOpen).2 next isNext).imp_left Finset.mem_insert_of_mem

theorem Sound.leave {shape : Id} (sound : Sound model marked (shape :: path) search)
    (right : Needs model shape → shape ∈ search.constrained)
    (targets : ∀ other, Next model shape other → other ∈ search.visiting ∨ other ∈ marked) :
    Sound model marked path search := by
  obtain ⟨kept, needs, new, open_, ids, done, closed⟩ := sound
  refine ⟨kept, needs, new, fun other member => open_ other (List.mem_cons_of_mem _ member), ids, ?_, ?_⟩
  · intro other visited notOpen needed
    by_cases same : other = shape
    · exact same ▸ right (same ▸ needed)
    · exact done other visited (by rw [List.mem_cons, not_or]; exact ⟨same, notOpen⟩) needed
  · intro other visited notOpen
    by_cases same : other = shape
    · exact same ▸ targets
    · exact closed other visited (by rw [List.mem_cons, not_or]; exact ⟨same, notOpen⟩)

omit [DecidableEq Id] in
/-- A shape that the loop has found nothing for leads to no constraint, if it would lead to one without
going through the shapes of its path. -/
theorem not_needs_of_clear {shape : Id} {search : Search Id} {result : Bool × Search Id} {done : List (MemberShape Id)}
    (looped : Looped model marked (shape :: path) shape false done search result) (clear_ : result.1 = false)
    (all : ∀ member ∈ (model.shape shape).members, member ∈ done)
    (leads : Needs model shape → LeadsAvoiding model path shape) : ¬ Needs model shape := by
  intro needed
  obtain ⟨other, avoiding, shows_⟩ := leads needed
  have clear_ := (looped.otherwise clear_).2
  have reached : other = shape ∨ ¬ Needs model other := by
    clear shows_
    induction avoiding with
    | refl => exact .inl rfl
    | @tail middle last before step ih =>
      obtain ⟨next, notOpen⟩ := step
      obtain rfl | unneeded := ih
      · obtain ⟨member, isMember, rfl, _⟩ := id next
        obtain open_ | unneeded := (clear_ member (all member isMember)).2.2 next
        · exact .inl ((List.mem_cons.mp open_).resolve_right notOpen)
        · exact .inr unneeded
      · exact .inr fun needed => unneeded (needed.of_next next)
  obtain rfl | unneeded := reached
  · obtain ⟨member, isMember, has⟩ | ⟨member, isMember, carrying⟩ := shows_
    · rw [(clear_ member (all member isMember)).1] at has
      cases has
    · exact (clear_ member (all member isMember)).2.1 carrying
  · exact unneeded shows_.needs

/-- A visit is right, where every shape that leads to a constraint does so without going through the shapes
before it on any path from the input. -/
theorem Sound.collectConstrained (order : ∀ id, (members id).Perm (model.shape id).members)
    (condition : ∀ path shape, Trail model input path shape → Needs model shape → shape ∉ marked →
      LeadsAvoiding model path shape)
    {fuel : ℕ} {shape : Id} (enough : (model.ids \ search.visiting).card < fuel) (sound : Sound model marked path search)
    (known : shape ∈ model.ids) (trail : shape ∈ path ∨ Trail model input path shape) :
    ∃ result, collectConstrained model members fuel shape search = some result ∧
      Visited model marked path shape search result := by
  induction fuel generalizing shape path search with
  | zero => exact absurd enough (Nat.not_lt_zero _)
  | succ fuel ih =>
    rw [Codegen.collectConstrained]
    by_cases constrained : shape ∈ search.constrained
    · rw [if_pos constrained]
      exact ⟨_, rfl, {
        sound := sound
        grows := ⟨subset_rfl, subset_rfl⟩
        here := (sound.new shape constrained).symm
        needs := fun _ => sound.needs shape constrained
        otherwise := fun clear_ => nomatch (clear_ : true = false) }⟩
    rw [if_neg constrained]
    by_cases visiting : shape ∈ search.visiting
    · rw [if_pos visiting]
      exact ⟨_, rfl, {
        sound := sound
        grows := ⟨subset_rfl, subset_rfl⟩
        here := .inl visiting
        needs := fun set_ => nomatch (set_ : false = true)
        otherwise := fun _ => by
          by_cases open_ : shape ∈ path
          · exact .inl open_
          · exact .inr fun needed => constrained (sound.done shape visiting open_ needed) }⟩
    rw [if_neg visiting]
    have trail := trail.resolve_left fun open_ => visiting (sound.open_ shape open_)
    have fewer : (model.ids \ insert shape search.visiting).card < fuel := by
      have less := Finset.card_erase_lt_of_mem (Finset.mem_sdiff.mpr ⟨known, visiting⟩)
      rw [← Finset.sdiff_insert] at less
      omega
    obtain ⟨result, loop, looped⟩ := (sound.enter known).foldlM
      (Codegen.collectConstrained model members fuel) (members shape)
      (fun member isMember => (order shape).mem_iff.mp isMember)
      { search with visiting := insert shape search.visiting }
      (by
        intro later grows sound' other next
        have still : (model.ids \ later.visiting).card < fuel :=
          lt_of_le_of_lt (Finset.card_le_card (Finset.sdiff_subset_sdiff subset_rfl grows.2)) fewer
        obtain ⟨member, isMember, rfl, _⟩ := id next
        refine ih still sound' (model.closed shape known member isMember) ?_
        by_cases open_ : member.target ∈ shape :: path
        · exact .inl open_
        · exact .inr (trail.step next open_)) false ⟨subset_rfl, subset_rfl⟩
    have all : ∀ member ∈ (model.shape shape).members, member ∈ members shape :=
      fun member isMember => (order shape).mem_iff.mpr isMember
    have targets : ∀ other, Next model shape other → other ∈ result.2.visiting ∨ other ∈ marked := by
      intro other next
      obtain ⟨member, isMember, rfl, _⟩ := id next
      exact looped.targets member (all member isMember) next
    have here : shape ∈ result.2.visiting := looped.grows.2 (Finset.mem_insert_self _ _)
    have grows : search.Grows result.2 := ⟨looped.grows.1, (Finset.subset_insert _ _).trans looped.grows.2⟩
    rw [loop]
    refine ⟨_, rfl, ?_⟩
    cases found : result.1 with
    | true =>
      have needed : Needs model shape := (looped.needs found).resolve_left (by decide)
      rw [if_pos rfl]
      exact {
        sound := (looped.sound.mark needed (.inl here)).leave (fun _ => Finset.mem_insert_self _ _) targets
        grows := ⟨grows.1.trans (Finset.subset_insert _ _), grows.2⟩
        here := .inl here
        needs := fun _ => needed
        otherwise := fun clear_ => nomatch (clear_ : true = false) }
    | false =>
      have unneeded : ¬ Needs model shape := not_needs_of_clear looped found all
        fun needed => condition path shape trail needed fun before => constrained (sound.kept before)
      rw [if_neg (by decide)]
      exact {
        sound := looped.sound.leave (fun needed => absurd needed unneeded) targets
        grows := grows
        here := .inl here
        needs := fun set_ => nomatch (set_ : false = true)
        otherwise := fun _ => .inr unneeded }

end OpalCpp.Codegen

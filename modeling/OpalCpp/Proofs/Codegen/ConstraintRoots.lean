import OpalCpp.Proofs.Codegen.ConstraintInputs

/-! # The search is right about its inputs

A visit that finds nothing has found nothing anywhere below, so that the shapes it came through do not matter
where it began. Whether the input of an operation is validated does not depend on the operations beside it.
-/

namespace OpalCpp.Codegen

variable {Id : Type*} [DecidableEq Id] {model : ServiceModel Id} {members : Id → List (MemberShape Id)}
    {search later : Search Id}

/-! ## Visits that find nothing -/

/-- What has been visited since shows no constraint and leads only to what has been visited. -/
structure Quiet (model : ServiceModel Id) (search later : Search Id) : Prop where
  grows : search.visiting ⊆ later.visiting
  clear_ : ∀ shape ∈ later.visiting, shape ∉ search.visiting → ¬ Carries model shape
  closed : ∀ shape ∈ later.visiting, shape ∉ search.visiting → ∀ other, Next model shape other → other ∈ later.visiting

omit [DecidableEq Id] in
theorem Quiet.refl (search : Search Id) : Quiet model search search where
  grows := subset_rfl
  clear_ _ visited fresh := absurd visited fresh
  closed _ visited fresh := absurd visited fresh

omit [DecidableEq Id] in
theorem Quiet.trans {first second third : Search Id} (one : Quiet model first second) (two : Quiet model second third) :
    Quiet model first third where
  grows := one.grows.trans two.grows
  clear_ shape visited fresh := by
    by_cases before : shape ∈ second.visiting
    · exact one.clear_ shape before fresh
    · exact two.clear_ shape visited before
  closed shape visited fresh other next := by
    by_cases before : shape ∈ second.visiting
    · exact two.grows (one.closed shape before fresh other next)
    · exact two.closed shape visited before other next

theorem collectMember_false {collect : Id → Search Id → Option (Bool × Search Id)} {flag : Bool} {member : MemberShape Id}
    (round : collectMember model collect (flag, search) member = some (false, later)) :
    flag = false ∧ memberHasConstraints model member = false ∧
      (if (model.shape member.target).isAggregate then collect member.target search = some (false, later)
        else later = search) := by
  rw [collectMember_eq, Option.map_eq_some_iff] at round
  obtain ⟨middle, visit, returned⟩ := round
  split_ifs at returned with carrying
  · cases returned
  · subst returned
    split_ifs at visit ⊢ with aggregate
    · obtain ⟨below, collected, same⟩ := Option.map_eq_some_iff.mp visit
      obtain ⟨flags, rfl⟩ := Prod.mk.inj same
      rw [Bool.or_eq_false_iff, Bool.or_eq_false_iff] at flags
      exact ⟨flags.1.1, flags.1.2, by rw [collected, ← flags.2]⟩
    · obtain ⟨flags, rfl⟩ := Prod.mk.inj (Option.some.inj visit)
      rw [Bool.or_eq_false_iff] at flags
      exact ⟨flags.1, flags.2, rfl⟩

theorem foldlM_false {collect : Id → Search Id → Option (Bool × Search Id)} {rest : List (MemberShape Id)} {flag : Bool}
    (rounds : rest.foldlM (collectMember model collect) (flag, search) = some (false, later))
    (visits : ∀ other search later, collect other search = some (false, later) →
      Quiet model search later ∧ other ∈ later.visiting) :
    flag = false ∧ Quiet model search later ∧ ∀ member ∈ rest, memberHasConstraints model member = false ∧
      ((model.shape member.target).isAggregate = true → member.target ∈ later.visiting) := by
  induction rest generalizing flag search with
  | nil =>
    rw [List.foldlM_nil, Option.pure_def, Option.some.injEq, Prod.mk.injEq] at rounds
    obtain ⟨rfl, rfl⟩ := rounds
    exact ⟨rfl, .refl search, fun _ member => absurd member List.not_mem_nil⟩
  | cons member rest ih =>
    rw [List.foldlM_cons, Option.bind_eq_bind, Option.bind_eq_some_iff] at rounds
    obtain ⟨⟨any, middle⟩, round, rounds⟩ := rounds
    obtain ⟨rfl, quiet, others⟩ := ih rounds
    obtain ⟨rfl, bare, visit⟩ := collectMember_false round
    split_ifs at visit with aggregate
    · obtain ⟨before, visited⟩ := visits _ _ _ visit
      exact ⟨rfl, before.trans quiet, List.forall_mem_cons.mpr ⟨⟨bare, fun _ => quiet.grows visited⟩, others⟩⟩
    · subst visit
      exact ⟨rfl, quiet, List.forall_mem_cons.mpr ⟨⟨bare, fun here => absurd here aggregate⟩, others⟩⟩

theorem collectConstrained_false (order : ∀ id, (members id).Perm (model.shape id).members) {fuel : ℕ} {shape : Id}
    (collected : collectConstrained model members fuel shape search = some (false, later)) :
    Quiet model search later ∧ shape ∈ later.visiting := by
  induction fuel generalizing shape search later with
  | zero => cases collected
  | succ fuel ih =>
    rw [collectConstrained] at collected
    split_ifs at collected with constrained visiting
    · cases collected
    · cases collected
      exact ⟨.refl search, visiting⟩
    · rw [Option.bind_eq_bind, Option.bind_eq_some_iff] at collected
      obtain ⟨⟨any, last⟩, rounds, returned⟩ := collected
      rw [Option.pure_def, Option.some.injEq, Prod.mk.injEq] at returned
      obtain ⟨rfl, rfl⟩ := returned
      obtain ⟨_, quiet, each⟩ := foldlM_false rounds fun other search later => ih
      have here : shape ∈ last.visiting := quiet.grows (Finset.mem_insert_self shape search.visiting)
      refine ⟨⟨(Finset.subset_insert _ _).trans quiet.grows, ?_, ?_⟩, here⟩
      · intro other visited fresh
        by_cases same : other = shape
        · rintro ⟨member, isMember, has⟩
          rw [same] at isMember
          rw [(each member ((order shape).mem_iff.mpr isMember)).1] at has
          cases has
        · exact quiet.clear_ other visited fun before => (Finset.mem_insert.mp before).elim same fresh
      · intro other visited fresh next isNext
        by_cases same : other = shape
        · obtain ⟨member, isMember, rfl, aggregate⟩ := isNext
          rw [same] at isMember
          exact (each member ((order shape).mem_iff.mpr isMember)).2 aggregate
        · exact quiet.closed other visited (fun before => (Finset.mem_insert.mp before).elim same fresh) next isNext

/-- A visit with nothing visited before that finds nothing is of a shape that leads to no constraint. -/
theorem not_needs_of_collectConstrained (order : ∀ id, (members id).Perm (model.shape id).members) {fuel : ℕ} {input : Id}
    {marked : Finset Id} (collected : collectConstrained model members fuel input ⟨marked, ∅⟩ = some (false, later)) :
    ¬ Needs model input := by
  obtain ⟨quiet, here⟩ := collectConstrained_false order collected
  rintro ⟨other, reaches, carries⟩
  have visited : other ∈ later.visiting := by
    clear carries
    induction reaches with
    | refl => exact here
    | tail _ next ih => exact quiet.closed _ ih (Finset.notMem_empty _) _ next
  exact quiet.clear_ other visited (Finset.notMem_empty _) carries

/-- One that finds something is of a shape that is marked by then. -/
theorem mem_of_collectConstrained {fuel : ℕ} {shape : Id}
    (collected : collectConstrained model members fuel shape search = some (true, later)) : shape ∈ later.constrained := by
  cases fuel with
  | zero => cases collected
  | succ fuel =>
    rw [collectConstrained] at collected
    split_ifs at collected with constrained visiting
    · cases collected
      exact constrained
    · cases collected
    · rw [Option.bind_eq_bind, Option.bind_eq_some_iff] at collected
      obtain ⟨⟨any, last⟩, _, returned⟩ := collected
      rw [Option.pure_def, Option.some.injEq, Prod.mk.injEq] at returned
      obtain ⟨rfl, rfl⟩ := returned
      exact Finset.mem_insert_self shape _

/-! ## Visits end -/

theorem collectMember_ends {collect : Id → Search Id → Option (Bool × Search Id)} {member : MemberShape Id} (flag : Bool)
    (visits : ∃ result, collect member.target search = some result ∧ search.Grows result.2) :
    ∃ result, collectMember model collect (flag, search) member = some result ∧ search.Grows result.2 := by
  obtain ⟨below, collected, grows⟩ := visits
  rw [collectMember_eq, collected]
  split_ifs
  · exact ⟨_, rfl, grows.1.trans (Finset.subset_insert _ _), grows.2⟩
  · exact ⟨_, rfl, Finset.subset_insert _ _, subset_rfl⟩
  · exact ⟨_, rfl, grows⟩
  · exact ⟨_, rfl, subset_rfl, subset_rfl⟩

theorem foldlM_ends {collect : Id → Search Id → Option (Bool × Search Id)} {shape : Id} (rest : List (MemberShape Id))
    (areMembers : ∀ member ∈ rest, member ∈ (model.shape shape).members) (first : Search Id)
    (visits : ∀ member ∈ (model.shape shape).members, ∀ later, first.Grows later →
      ∃ result, collect member.target later = some result ∧ later.Grows result.2)
    (flag : Bool) (grown : first.Grows search) :
    ∃ result, rest.foldlM (collectMember model collect) (flag, search) = some result ∧ first.Grows result.2 := by
  induction rest generalizing flag search with
  | nil => exact ⟨_, rfl, grown⟩
  | cons member rest ih =>
    rw [List.forall_mem_cons] at areMembers
    obtain ⟨middle, round, grows⟩ := collectMember_ends flag (visits member areMembers.1 search grown)
    rw [List.foldlM_cons, round]
    exact ih areMembers.2 middle.1 (grown.trans grows)

theorem collectConstrained_ends (order : ∀ id, (members id).Perm (model.shape id).members) {fuel : ℕ} {shape : Id}
    (enough : (model.ids \ search.visiting).card < fuel) (known : shape ∈ model.ids) :
    ∃ result, collectConstrained model members fuel shape search = some result ∧ search.Grows result.2 := by
  induction fuel generalizing shape search with
  | zero => exact absurd enough (Nat.not_lt_zero _)
  | succ fuel ih =>
    rw [collectConstrained]
    split_ifs with constrained visiting
    · exact ⟨_, rfl, subset_rfl, subset_rfl⟩
    · exact ⟨_, rfl, subset_rfl, subset_rfl⟩
    · have fewer : (model.ids \ insert shape search.visiting).card < fuel := by
        have less := Finset.card_erase_lt_of_mem (Finset.mem_sdiff.mpr ⟨known, visiting⟩)
        rw [← Finset.sdiff_insert] at less
        omega
      have visits (member : MemberShape Id) (isMember : member ∈ (model.shape shape).members) (later : Search Id)
          (grown : Search.Grows { search with visiting := insert shape search.visiting } later) :
          ∃ result, collectConstrained model members fuel member.target later = some result ∧ later.Grows result.2 :=
        ih ((Finset.card_le_card (Finset.sdiff_subset_sdiff subset_rfl grown.2)).trans_lt fewer)
          (model.closed shape known member isMember)
      obtain ⟨result, rounds, grown⟩ :=
        foldlM_ends (members shape) (fun member isMember => (order shape).mem_iff.mp isMember)
        { search with visiting := insert shape search.visiting } visits false ⟨subset_rfl, subset_rfl⟩
      have entered : search.Grows result.2 := ⟨grown.1, (Finset.subset_insert shape search.visiting).trans grown.2⟩
      rw [rounds]
      refine ⟨_, rfl, ?_⟩
      dsimp only
      split_ifs
      · exact ⟨entered.1.trans (Finset.subset_insert _ _), entered.2⟩
      · exact entered

/-! ## The inputs -/

/-- The constructor's set is there, and holds of the inputs those that lead to a constraint. -/
theorem exists_collectInputs (order : ∀ id, (members id).Perm (model.shape id).members) {inputs : List Id}
    (known : ∀ input ∈ inputs, input ∈ model.ids) : ∃ constrained, collectInputs model members inputs = some constrained ∧
      (∀ shape ∈ constrained, Needs model shape) ∧ ∀ input ∈ inputs, Needs model input → input ∈ constrained := by
  induction inputs using List.reverseRecOn with
  | nil =>
    exact ⟨∅, rfl, fun shape member => absurd member (Finset.notMem_empty shape), fun _ member =>
      absurd member List.not_mem_nil⟩
  | append_singleton inputs input ih =>
    rw [List.forall_mem_append, List.forall_mem_singleton] at known
    obtain ⟨earlier, before, needed, marked⟩ := ih known.1
    have enough : (model.ids \ (∅ : Finset Id)).card < model.ids.card + 1 := by
      rw [Finset.sdiff_empty]
      exact Nat.lt_succ_self _
    obtain ⟨⟨any, later⟩, visit, grows⟩ := @collectConstrained_ends _ _ model members ⟨earlier, ∅⟩ order _ _ enough known.2
    have markable : Markable model [] (fun _ => True) (Needs model) := by
      refine ⟨fun _ _ _ _ => trivial, fun _ _ carrying => carrying.2.needs, fun shape _ _ finds => ?_⟩
      obtain carries | ⟨other, next, needs⟩ := finds
      · exact carries.needs
      · exact needs.of_next next
    have start : Marks [] (Needs model) ⟨earlier, ∅⟩ := ⟨fun _ member => absurd member List.not_mem_nil, needed⟩
    obtain ⟨marks, _⟩ := markable.collectConstrained order trivial visit start
    refine ⟨later.constrained, ?_, marks.constrained, ?_⟩
    · rw [collectInputs_concat, before, Option.bind_some, visit, Option.map_some]
    · rw [List.forall_mem_append, List.forall_mem_singleton]
      refine ⟨fun other member needs => grows.1 (marked other member needs), fun needs => ?_⟩
      cases any with
      | false => exact absurd needs (not_needs_of_collectConstrained order visit)
      | true => exact mem_of_collectConstrained visit

end OpalCpp.Codegen

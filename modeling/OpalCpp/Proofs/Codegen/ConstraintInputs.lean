import OpalCpp.Proofs.Codegen.ConstraintSearch

/-! # The inputs of the operations

The search over the inputs one after the other is right after each of them, whatever the order of members,
exactly if every shape leads to a constraint also without the shapes before it on the paths from its input.
-/

namespace OpalCpp.Codegen

variable {Id : Type*} [DecidableEq Id] (model : ServiceModel Id)

/-- After these inputs the shapes reached from them are marked if they lead to a constraint, and only
then, and the validator of every one with a constraint on its members is called from that of the input. -/
def Right (members : Id → List (MemberShape Id)) (inputs : List Id) : Prop :=
  ∃ constrained, collectInputs model members inputs = some constrained ∧
    ∀ input ∈ inputs, ∀ shape, Reaches model input shape → (shape ∈ constrained ↔ Needs model shape) ∧
      (Carries model shape → Calls model constrained input shape)

/-- On every simple path of members from an input, the shape at its end leads to a constraint without the
shapes before it if it leads to one at all, unless an earlier input reaches it. -/
def Unblocked (inputs : List Id) : Prop :=
  ∀ before input after, inputs = before ++ input :: after → ∀ path shape, Trail model input path shape →
    Needs model shape → (∀ earlier ∈ before, ¬ Reaches model earlier shape) → LeadsAvoiding model path shape

variable {model} {members : Id → List (MemberShape Id)} {inputs : List Id}

theorem collectInputs_concat (inputs : List Id) (input : Id) : collectInputs model members (inputs ++ [input]) =
    (collectInputs model members inputs).bind fun constrained =>
      (collectConstrained model members (model.ids.card + 1) input ⟨constrained, ∅⟩).map (·.2.constrained) := by
  rw [collectInputs, List.foldlM_append, Option.bind_eq_bind, ← collectInputs]
  congr 1
  funext constrained
  rw [List.foldlM_cons, Option.bind_eq_bind]
  cases collectConstrained model members (model.ids.card + 1) input ⟨constrained, ∅⟩ <;> rfl

/-- Only shapes that the inputs reach are marked. -/
theorem reached_of_collectInputs (order : ∀ id, (members id).Perm (model.shape id).members) {constrained : Finset Id}
    (collected : collectInputs model members inputs = some constrained) :
    ∀ shape ∈ constrained, ∃ input ∈ inputs, Reaches model input shape := by
  induction inputs using List.reverseRecOn generalizing constrained with
  | nil =>
    cases collected
    exact fun shape member => absurd member (Finset.notMem_empty shape)
  | append_singleton inputs input ih =>
    rw [collectInputs_concat, Option.bind_eq_some_iff] at collected
    obtain ⟨earlier, before, collected⟩ := collected
    obtain ⟨result, visit, rfl⟩ := Option.map_eq_some_iff.mp collected
    let reached (shape : Id) : Prop := ∃ other ∈ inputs ++ [input], Reaches model other shape
    have next (shape other : Id) (isReached : reached shape) (next : Next model shape other) : reached other := by
      obtain ⟨first, isInput, reaches⟩ := isReached
      exact ⟨first, isInput, reaches.tail next⟩
    have markable : Markable model [] reached reached :=
      ⟨next, fun _ isReached _ => isReached, fun _ isReached _ _ => isReached⟩
    have start : Marks [] reached ⟨earlier, ∅⟩ := by
      refine ⟨fun shape member => absurd member List.not_mem_nil, fun shape member => ?_⟩
      obtain ⟨first, isInput, reaches⟩ := ih before shape member
      exact ⟨first, List.mem_append_left _ isInput, reaches⟩
    exact (markable.collectConstrained order ⟨input, List.mem_append_right _ (List.mem_singleton_self input), .refl⟩ visit
      start).1.constrained

/-! ## Right where nothing is blocked -/

theorem collectInputs_of_unblocked (order : ∀ id, (members id).Perm (model.shape id).members)
    (known : ∀ input ∈ inputs, input ∈ model.ids) (unblocked : Unblocked model inputs) :
    ∃ constrained, collectInputs model members inputs = some constrained ∧
      ∀ shape, shape ∈ constrained ↔ Needs model shape ∧ ∃ input ∈ inputs, Reaches model input shape := by
  induction inputs using List.reverseRecOn with
  | nil => exact ⟨∅, rfl, fun shape => by simp⟩
  | append_singleton inputs input ih =>
    obtain ⟨earlier, before, exact_⟩ := ih (fun other isInput => known other (List.mem_append_left _ isInput))
      fun first middle after split => unblocked first middle (after ++ [input]) (by rw [split]; simp)
    have start : Sound model earlier [] ⟨earlier, ∅⟩ := {
      kept := subset_rfl
      needs := fun shape member => ((exact_ shape).mp member).1
      new := fun shape member => .inl member
      open_ := fun shape member => absurd member List.not_mem_nil
      known := Finset.empty_subset _
      done := fun shape member => absurd member (Finset.notMem_empty shape)
      closed := fun shape member => absurd member (Finset.notMem_empty shape) }
    have enough : (model.ids \ (∅ : Finset Id)).card < model.ids.card + 1 := by
      rw [Finset.sdiff_empty]
      exact Nat.lt_succ_self _
    obtain ⟨result, visit, visited⟩ := start.collectConstrained order
      (fun path shape trail needed unmarked => unblocked inputs input [] rfl path shape trail needed
        fun other isInput reaches => unmarked ((exact_ shape).mpr ⟨needed, other, isInput, reaches⟩))
      enough (known input (List.mem_append_right _ (List.mem_singleton_self input))) (.inr .start)
    have collected : collectInputs model members (inputs ++ [input]) = some result.2.constrained := by
      rw [collectInputs_concat, before, Option.bind_some, visit, Option.map_some]
    refine ⟨_, collected, fun shape => ⟨fun member => ?_, fun ⟨needed, first, isInput, reaches⟩ => ?_⟩⟩
    · exact ⟨visited.sound.needs shape member, reached_of_collectInputs order collected shape member⟩
    · -- Everything reached from the input is visited or was reached before.
      have seen (other : Id) (reaches : Reaches model input other) :
          other ∈ result.2.visiting ∨ ∃ first ∈ inputs, Reaches model first other := by
        have ofMarked {other : Id} (marked : other ∈ earlier) : ∃ first ∈ inputs, Reaches model first other :=
          ((exact_ other).mp marked).2
        induction reaches with
        | refl => exact visited.here.imp_right ofMarked
        | tail _ next ih =>
          obtain here | ⟨first, isInput, reaches⟩ := ih
          · exact (visited.sound.closed _ here List.not_mem_nil _ next).imp_right ofMarked
          · exact .inr ⟨first, isInput, reaches.tail next⟩
      have ofBefore (reached : ∃ first ∈ inputs, Reaches model first shape) : shape ∈ result.2.constrained :=
        visited.sound.kept ((exact_ shape).mpr ⟨needed, reached⟩)
      obtain isBefore | isLast := List.mem_append.mp isInput
      · exact ofBefore ⟨first, isBefore, reaches⟩
      · rw [List.mem_singleton.mp isLast] at reaches
        exact (seen shape reaches).elim (fun here => visited.sound.done shape here List.not_mem_nil needed) ofBefore

omit [DecidableEq Id] in
/-- The recursion gets to whatever is reached and leads to a constraint. -/
theorem Calls.of_reaches {constrained : Finset Id} {input : Id}
    (marked : ∀ shape, Reaches model input shape → Needs model shape → shape ∈ constrained) {shape : Id}
    (reaches : Reaches model input shape) (needed : Needs model shape) : Calls model constrained input shape := by
  induction reaches with
  | refl => exact .start (marked input .refl needed)
  | @tail middle last before next ih =>
    obtain ⟨member, isMember, rfl, aggregate⟩ := id next
    refine .recursion (ih (needed.of_next next)) ?_ (marked _ (before.tail next) needed)
    revert isMember
    rw [Shape.members, recursedMembers]
    cases kind : (model.shape middle).kind with
    | mapShape key value =>
      intro isMember
      obtain rfl | isValue := List.mem_cons.mp isMember
      · rw [model.stringKeys middle member value kind] at aggregate
        cases aggregate
      · exact isValue
    | _ => exact id

theorem right_of_unblocked (order : ∀ id, (members id).Perm (model.shape id).members)
    (known : ∀ input ∈ inputs, input ∈ model.ids) (unblocked : Unblocked model inputs) : Right model members inputs := by
  obtain ⟨constrained, collected, exact_⟩ := collectInputs_of_unblocked order known unblocked
  refine ⟨constrained, collected, fun input isInput shape reaches => ⟨?_, fun carries => ?_⟩⟩
  · exact (exact_ shape).trans ⟨And.left, fun needed => ⟨needed, input, isInput, reaches⟩⟩
  · exact Calls.of_reaches (fun other reaches needed => (exact_ other).mpr ⟨needed, input, isInput, reaches⟩) reaches
      carries.needs

/-! ## Wrong where something is blocked -/

section Blocked

variable {path : List Id} {input shape target : Id} {marked : Finset Id}

/-- Every shape of the path has the next one as the target of its first member. -/
def Follows (members : Id → List (MemberShape Id)) : List Id → Id → Prop
  | [], _ => True
  | shape :: path, other =>
    (∃ member rest, members shape = member :: rest ∧ member.target = other) ∧ Follows members path shape

theorem Follows.update {members : Id → List (MemberShape Id)} (follows : Follows members path target) (fresh : shape ∉ path)
    (list : List (MemberShape Id)) : Follows (Function.update members shape list) path target := by
  induction path generalizing target with
  | nil => exact follows
  | cons first path ih =>
    rw [List.mem_cons, not_or] at fresh
    obtain ⟨head, tail⟩ := follows
    refine ⟨?_, ih tail fresh.2⟩
    rw [Function.update_of_ne (Ne.symm fresh.1)]
    exact head

/-- Some order of members makes a visit go down a path first. -/
theorem Trail.exists_follows (trail : Trail model input path target) :
    ∃ members : Id → List (MemberShape Id),
      (∀ id, (members id).Perm (model.shape id).members) ∧ Follows members path target := by
  induction trail with
  | start => exact ⟨fun id => (model.shape id).members, fun id => .refl _, trivial⟩
  | @step path shape other before next fresh ih =>
    obtain ⟨members, order, follows⟩ := ih
    obtain ⟨member, isMember, isTarget, _⟩ := next
    obtain ⟨left, right, split⟩ := List.append_of_mem isMember
    refine ⟨Function.update members shape (member :: (left ++ right)), fun id => ?_, ?_, follows.update before.notMem _⟩
    · by_cases same : id = shape
      · subst same
        rw [Function.update_self, split]
        exact List.perm_middle.symm
      · rw [Function.update_of_ne same]
        exact order id
    · exact ⟨member, left ++ right, Function.update_self .., isTarget⟩

omit [DecidableEq Id] in
/-- A visited shape that is not marked and has no constraint on its members stays unmarked. -/
theorem markable_ne (unconstrained : ¬ Carries model target) :
    Markable model [target] (fun _ => True) (fun shape => shape ≠ target) where
  next _ _ _ _ := trivial
  collection _ _ carrying same := unconstrained (same ▸ carrying.2)
  found _ _ notOpen _ same := notOpen (List.mem_singleton.mpr same)

omit [DecidableEq Id] in
/-- Below a path, a shape is marked for a constraint that it leads to without the path, or as a list or map. -/
theorem markable_avoiding (path : List Id) : Markable model path (fun _ => True)
    fun shape => (shape ∉ path ∧ LeadsAvoiding model path shape) ∨ CarryingCollection model shape where
  next _ _ _ _ := trivial
  collection shape _ carrying := .inr carrying
  found shape _ notOpen found := by
    refine .inl ⟨notOpen, ?_⟩
    obtain carries | ⟨other, next, ⟨otherNotOpen, last, avoiding, shows_⟩ | carrying⟩ := found
    · exact ⟨shape, .refl, .inl carries⟩
    · exact ⟨last, .head ⟨next, otherNotOpen⟩ avoiding, shows_⟩
    · obtain ⟨member, isMember, rfl, _⟩ := next
      exact ⟨shape, .refl, .inr ⟨member, isMember, carrying⟩⟩

/-- The visit of the shape through the path leaves the target visited and unmarked. -/
def Misses (model : ServiceModel Id) (members : Id → List (MemberShape Id)) (marked : Finset Id) (target : Id)
    (path : List Id) (shape : Id) : Prop :=
  ∀ fuel result, collectConstrained model members fuel shape ⟨marked, path.toFinset⟩ = some result →
    Marks [target] (fun shape => shape ≠ target) result.2 ∧ (result.1 = true → shape ≠ target)

/-- The target itself, when it leads to a constraint through the path only. -/
theorem misses_target (order : ∀ id, (members id).Perm (model.shape id).members) (fresh : target ∉ path)
    (blocked : ¬ LeadsAvoiding model path target)
    (earlier : ∀ shape ∈ marked, shape ∉ path ∧ LeadsAvoiding model path shape ∧ shape ≠ target) :
    Misses model members marked target path target := by
  intro fuel result collected
  have unconstrained : ¬ Carries model target := fun carries => blocked ⟨target, .refl, .inl carries⟩
  cases fuel with
  | zero => cases collected
  | succ fuel =>
    rw [collectConstrained, if_neg fun member => (earlier target member).2.2 rfl,
      if_neg fun member => fresh (List.mem_toFinset.mp member), Option.bind_eq_bind, Option.bind_eq_some_iff] at collected
    obtain ⟨⟨any, last⟩, rounds, returned⟩ := collected
    rw [Option.pure_def, Option.some.injEq] at returned
    subst returned
    have areMembers : ∀ member ∈ members target, member ∈ (model.shape target).members :=
      fun member isMember => (order target).mem_iff.mp isMember
    have clear_ : any = false := by
      have found := ((markable_avoiding path).foldlM trivial areMembers rounds
        ⟨fun shape isOpen => Finset.mem_insert_of_mem (List.mem_toFinset.mpr isOpen),
          fun shape member => .inl ⟨(earlier shape member).1, (earlier shape member).2.1⟩⟩
        fun other later below _ marks collected =>
          (markable_avoiding path).collectConstrained order trivial collected marks).2
      refine Bool.eq_false_iff.mpr fun set_ => ?_
      have may := (markable_avoiding path).found target trivial fresh ((found set_).resolve_left (by decide))
      obtain ⟨_, leads⟩ | carrying := may
      · exact blocked leads
      · exact unconstrained carrying.2
    subst clear_
    refine ⟨?_, fun set_ => absurd set_ Bool.false_ne_true⟩
    exact ((markable_ne unconstrained).foldlM trivial areMembers rounds
      ⟨fun shape member => List.mem_singleton.mp member ▸ Finset.mem_insert_self _ _, fun shape member =>
        (earlier shape member).2.2⟩
      fun other later below _ marks collected =>
        (markable_ne unconstrained).collectConstrained order trivial collected marks).1

/-- A shape of the path, whose first member has the next one as its target. -/
theorem Misses.up (order : ∀ id, (members id).Perm (model.shape id).members) (unconstrained : ¬ Carries model target)
    {other : Id} (misses : Misses model members marked target (shape :: path) other)
    (first : ∃ member rest, members shape = member :: rest ∧ member.target = other) (next : Next model shape other)
    (fresh : shape ∉ path) (unmarked : shape ∉ marked) (ne : shape ≠ target) :
    Misses model members marked target path shape := by
  intro fuel result collected
  cases fuel with
  | zero => cases collected
  | succ fuel =>
    rw [collectConstrained, if_neg unmarked, if_neg fun member => fresh (List.mem_toFinset.mp member),
      Option.bind_eq_bind, Option.bind_eq_some_iff] at collected
    obtain ⟨⟨any, last⟩, rounds, returned⟩ := collected
    rw [Option.pure_def, Option.some.injEq] at returned
    subst returned
    have marks : Marks [target] (fun shape => shape ≠ target) last := by
      obtain ⟨member, rest, listed, rfl⟩ := first
      have areMembers : ∀ member ∈ members shape, member ∈ (model.shape shape).members :=
        fun member isMember => (order shape).mem_iff.mp isMember
      rw [listed, List.forall_mem_cons] at areMembers
      rw [listed, List.foldlM_cons, Option.bind_eq_bind, Option.bind_eq_some_iff] at rounds
      obtain ⟨middle, round, rounds⟩ := rounds
      have markable : Markable model [target] (fun _ => True) (fun shape => shape ≠ target) := markable_ne unconstrained
      have marks' := (markable.collectMember trivial areMembers.1 round (fun notNext => absurd next notNext)
        fun below _ visit => misses fuel below (by rwa [List.toFinset_cons])).1
      exact (markable.foldlM trivial areMembers.2 rounds marks'
        fun other later below _ marks collected => markable.collectConstrained order trivial collected marks).1
    cases any with
    | true => exact ⟨marks.mark ne, fun _ => ne⟩
    | false => exact ⟨marks, fun _ => ne⟩

theorem misses_of_trail (order : ∀ id, (members id).Perm (model.shape id).members) (unconstrained : ¬ Carries model target)
    (earlier : ∀ shape ∈ marked, ¬ Reaches model shape target) (trail : Trail model input path shape)
    (follows : Follows members path shape) (fresh : target ∉ path) (reaches : Reaches model shape target)
    (misses : Misses model members marked target path shape) : Misses model members marked target [] input := by
  induction trail with
  | start => exact misses
  | @step path shape other before next _ ih =>
    rw [List.mem_cons, not_or] at fresh
    have reaches' : Reaches model shape target := .head next reaches
    exact ih follows.2 fresh.2 reaches' (misses.up order unconstrained follows.1 next before.notMem
      (fun member => earlier shape member reaches') (Ne.symm fresh.1))

omit [DecidableEq Id] in
/-- What was marked for an earlier input has nothing to do with a path to a shape that it does not reach. -/
theorem Trail.avoiding (trail : Trail model input path target) (unreached : ¬ Reaches model shape target)
    (needed : Needs model shape) : shape ∉ path ∧ LeadsAvoiding model path shape ∧ shape ≠ target := by
  have onPath {other : Id} (isOpen : other ∈ path) : Reaches model other target := by
    clear unreached needed
    induction trail with
    | start => exact absurd isOpen List.not_mem_nil
    | step before next _ ih =>
      obtain rfl | isOpen := List.mem_cons.mp isOpen
      · exact .single next
      · exact (ih isOpen).tail next
  refine ⟨fun isOpen => unreached (onPath isOpen), ?_, fun same => unreached (same ▸ .refl)⟩
  obtain ⟨last, reaches, carries⟩ := needed
  refine ⟨last, ?_, .inl carries⟩
  induction reaches using Relation.ReflTransGen.head_induction_on with
  | refl => exact .refl
  | @head first second next reaches ih =>
    have unreached' : ¬ Reaches model second target := fun reaches => unreached (.head next reaches)
    exact .head ⟨next, fun isOpen => unreached' (onPath isOpen)⟩ (ih unreached')

/-- Where a path is blocked, an order of members that goes down the path first misses its end. -/
theorem unblocked_of_right
    (right : ∀ members : Id → List (MemberShape Id), (∀ id, (members id).Perm (model.shape id).members) →
      ∀ before, before <+: inputs → Right model members before) : Unblocked model inputs := by
  intro before input after split path target trail needed unreached
  by_contra blocked
  obtain ⟨members, order, follows⟩ := trail.exists_follows
  obtain ⟨marked, collected, isRight⟩ := right members order before ⟨input :: after, split.symm⟩
  obtain ⟨constrained, collected', isRight'⟩ := right members order (before ++ [input]) ⟨after, by rw [split]; simp⟩
  have earlier (shape : Id) (member : shape ∈ marked) :
      ¬ Reaches model shape target ∧ Needs model shape := by
    obtain ⟨first, isInput, reaches⟩ := reached_of_collectInputs order collected shape member
    exact ⟨fun reaches' => unreached first isInput (reaches.trans reaches'),
      (isRight first isInput shape reaches).1.mp member⟩
  have misses := misses_of_trail order (fun carries => blocked ⟨target, .refl, .inl carries⟩)
    (fun shape member => (earlier shape member).1) trail follows trail.notMem .refl
    (misses_target order trail.notMem blocked
      fun shape member => trail.avoiding (earlier shape member).1 (earlier shape member).2)
  rw [collectInputs_concat, collected, Option.bind_some, Option.map_eq_some_iff] at collected'
  obtain ⟨result, visit, rfl⟩ := collected'
  have isMarked :=
    ((isRight' input (List.mem_append_right _ (List.mem_singleton_self input)) target trail.reaches).1).mpr needed
  exact (misses _ _ visit).1.constrained target isMarked rfl

end Blocked

/-- The search is right after every operation, in any order of members, exactly if no path is blocked. -/
theorem collectInputs_right_iff (model : ServiceModel Id) (inputs : List { id // id ∈ model.ids }) :
    (∀ members : Id → List (MemberShape Id), (∀ id, (members id).Perm (model.shape id).members) →
      ∀ before, before <+: inputs.map Subtype.val → Right model members before) ↔
    Unblocked model (inputs.map Subtype.val) := by
  refine ⟨unblocked_of_right, fun unblocked members order before ⟨after, split⟩ => ?_⟩
  refine right_of_unblocked order (fun input isInput => ?_) fun first input rest split' => ?_
  · have isInput : input ∈ inputs.map Subtype.val := split ▸ List.mem_append_left _ isInput
    obtain ⟨known, _, rfl⟩ := List.mem_map.mp isInput
    exact known.2
  · exact unblocked first input (rest ++ after) (by rw [← split, split']; simp)

omit [DecidableEq Id] in
theorem stringKeys_of_no_map {shape : Id → Shape Id} (none_ : ∀ id, (shape id).isMapShape = false) (id : Id)
    (key value : MemberShape Id) (isMap : (shape id).kind = .mapShape key value) :
    (shape key.target).isAggregate = false := by
  have other := none_ id
  rw [Shape.isMapShape, isMap] at other
  cases other

/-- An input, a structure in it, a structure in that one, and a string. -/
inductive CyclicId where
  | input | outer | inner | text
deriving DecidableEq

/-- The outer structure has the inner one and a string with a length, and the inner one has the outer. -/
def cyclicModel : ServiceModel CyclicId where
  ids := {.input, .outer, .inner, .text}
  shape
    | .input => { kind := .structureShape [{ target := .outer }] }
    | .outer => { kind := .structureShape [{ target := .inner }, { target := .text, traits := { length := true } }] }
    | .inner => { kind := .structureShape [{ target := .outer }] }
    | .text => { kind := .simpleShape }
  closed := by decide
  stringKeys := stringKeys_of_no_map fun id => by cases id <;> rfl

/-- The inner structure is missed: it only leads to the length through the outer one. -/
theorem cyclicModel_not_right : ¬ Right cyclicModel (fun id => (cyclicModel.shape id).members) [.input] := by
  rintro ⟨constrained, collected, right⟩
  have marked : collectInputs cyclicModel (fun id => (cyclicModel.shape id).members) [.input] =
      some {.input, .outer} := by decide
  rw [marked, Option.some.injEq] at collected
  subst collected
  have enters : Next cyclicModel .input .outer := ⟨_, List.mem_cons_self, rfl, rfl⟩
  have there : Next cyclicModel .outer .inner := ⟨_, List.mem_cons_self, rfl, rfl⟩
  have back : Next cyclicModel .inner .outer := ⟨_, List.mem_cons_self, rfl, rfl⟩
  have carries : Carries cyclicModel .outer := ⟨_, List.mem_cons_of_mem _ List.mem_cons_self, rfl⟩
  have missed :=
    ((right .input (List.mem_singleton_self _) .inner (.tail (.single enters) there)).1).mpr (carries.needs.of_next back)
  exact absurd missed (by decide)

end OpalCpp.Codegen

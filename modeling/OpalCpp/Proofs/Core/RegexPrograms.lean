import OpalCpp.Proofs.Core.RegexSearch

/-! # Compiled programs are well formed

While a program is put together its arguments are no further than its end, where the next instruction will be: the
match that is added last is there for all of them. A jump that is open has the argument 0 until it is patched. What a
search then indexes with is in range, and its work lists are done before their fuel is.
-/

namespace OpalCpp.Regex

variable {re : Regex}

/-! ## Programs in the making -/

def Inst.isJump (inst : Inst) : Bool := inst matches .split _ | .jmp _

/-- The argument of an instruction is one of a program that ends here, or its end. -/
def Inst.Within (here classes : ℕ) : Inst → Prop
  | .split arg | .jmp arg => arg ≤ here
  | .cls arg => arg < classes
  | .byte _ | .assertion _ => True
  | .matched => False

theorem Inst.Within.mono {inst : Inst} {here classes later more : ℕ} (within : inst.Within here classes)
    (grows : here ≤ later)
    (classes_ : classes ≤ more) : inst.Within later more := by
  cases inst with
  | split arg => exact Nat.le_trans within grows
  | jmp arg => exact Nat.le_trans within grows
  | cls arg => exact Nat.lt_of_lt_of_le within classes_
  | byte byte => trivial
  | assertion kind => trivial
  | matched => exact within.elim

/-- A program that has no match yet, and no instruction with an argument beyond its end. -/
structure Inside (re : Regex) : Prop where
  size : re.here ≤ kMaxProgramSize
  within : ∀ inst ∈ re.program, inst.Within re.here re.classes.length

theorem inside_empty : Inside {} where
  size := Nat.zero_le _
  within _ member := absurd member List.not_mem_nil

theorem Inside.add {after : Regex} {inst : Inst} (inside : Inside re) (added : re.add inst = .ok after)
    (within : inst.Within re.here re.classes.length) : Inside after := by
  have room : ¬ kMaxProgramSize ≤ re.program.length := by
    intro full
    rw [Regex.add, if_pos full] at added
    cases added
  obtain rfl := add_spec added
  refine ⟨?_, fun other member => ?_⟩
  · rw [here_append]
    exact Nat.lt_of_not_le room
  · rw [here_append]
    obtain member | member := List.mem_append.mp member
    · exact (inside.within other member).mono (Nat.le_succ _) (Nat.le_refl _)
    · obtain rfl := List.mem_singleton.mp member
      exact within.mono (Nat.le_succ _) (Nat.le_refl _)

/-- The instructions there are jumps, whose targets are open. -/
def Jumps (re : Regex) (pcs : List ℕ) : Prop := ∀ pc ∈ pcs, ∃ inst, re.program[pc]? = some inst ∧ inst.isJump = true

theorem Jumps.kept {after : Regex} {pcs : List ℕ} (jumps : Jumps re pcs) (kept : Kept re after) : Jumps after pcs := by
  intro pc member
  obtain ⟨inst, present, jump⟩ := jumps pc member
  obtain ⟨bound, -⟩ := List.getElem?_eq_some_iff.mp present
  exact ⟨inst, (kept.program pc bound).trans present, jump⟩

theorem isJump_withArg (inst : Inst) (arg : ℕ) : (inst.withArg arg).isJump = inst.isJump := by
  cases inst <;> rfl

theorem Jumps.patch {pcs : List ℕ} (jumps : Jumps re pcs) (arg pc : ℕ) : Jumps (re.patch arg pc) pcs := by
  intro other member
  obtain ⟨inst, present, jump⟩ := jumps other member
  rw [patch_getElem?, present]
  split_ifs
  · exact ⟨inst.withArg arg, rfl, (isJump_withArg inst arg).trans jump⟩
  · exact ⟨inst, rfl, jump⟩

/-- A jump that is added is open, like those before it. -/
theorem Jumps.add {after : Regex} {pcs : List ℕ} {inst : Inst} (jumps : Jumps re pcs) (added : re.add inst = .ok after)
    (jump : inst.isJump = true) : Jumps after (pcs ++ [re.here]) := by
  obtain rfl := add_spec added
  intro pc member
  obtain member | member := List.mem_append.mp member
  · exact jumps.kept (kept_append re inst) pc member
  · obtain rfl := List.mem_singleton.mp member
    exact ⟨inst, getElem?_append_here re inst, jump⟩

theorem Inside.patch {arg pc : ℕ} (inside : Inside re) (jumps : Jumps re [pc]) (here : arg ≤ re.here) :
    Inside (re.patch arg pc) where
  size := by
    rw [here_patch]
    exact inside.size
  within inst member := by
    obtain ⟨index, present⟩ := List.mem_iff_getElem?.mp member
    rw [here_patch]
    rw [patch_getElem?] at present
    split_ifs at present with same
    · obtain ⟨jump, there, isJump⟩ := jumps index (List.mem_singleton.mpr same)
      rw [there] at present
      obtain rfl := Option.some.inj present
      cases jump with
      | split _ => exact here
      | jmp _ => exact here
      | _ => cases isJump
    · exact inside.within inst (List.mem_of_getElem? present)

theorem Inside.patchAll {pcs : List ℕ} (inside : Inside re) (jumps : Jumps re pcs) : Inside (re.patchAll pcs) := by
  suffices all : ∀ (pcs : List ℕ) (re : Regex) (arg : ℕ), Inside re → Jumps re pcs → arg ≤ re.here →
      Inside (pcs.foldl (Regex.patch · arg) re) from all pcs re re.here inside jumps (Nat.le_refl _)
  intro pcs
  induction pcs with
  | nil => exact fun _ _ inside _ _ => inside
  | cons pc pcs ih =>
    intro re arg inside jumps here
    obtain ⟨first, others⟩ := List.forall_mem_cons.mp jumps
    refine ih _ arg (inside.patch (List.forall_mem_singleton.mpr first) here) (Jumps.patch others arg pc) ?_
    rw [here_patch]
    exact here

/-! ## Emission -/

/-- What the compiler does to a program in the making leaves one, with all that was there. -/
def Adds (emission : Regex → Outcome Regex) : Prop :=
  ∀ re after, Inside re → emission re = .ok after → Inside after ∧ Kept re after

section Repetitions

variable {body : Regex → Outcome Regex} (adds : Adds body)

include adds

theorem emitTimes_inside (count : ℕ) {after : Regex} (inside : Inside re) (emitted : emitTimes body count re = .ok after) :
    Inside after := by
  induction count generalizing re with
  | zero =>
    cases emitted
    exact inside
  | succ count ih =>
    obtain ⟨next, first, rest⟩ := Outcome.bind_eq_ok.mp emitted
    exact ih (adds re next inside first).1 rest

theorem emitOptional_inside (count : ℕ) {after : Regex} {splits all : List ℕ} (inside : Inside re) (jumps : Jumps re splits)
    (emitted : emitOptional body count re splits = .ok (after, all)) : Inside after ∧ Jumps after all := by
  induction count generalizing re splits with
  | zero =>
    cases emitted
    exact ⟨inside, jumps⟩
  | succ count ih =>
    obtain ⟨added, split, emitted⟩ := Outcome.bind_eq_ok.mp emitted
    obtain ⟨next, copied, rest⟩ := Outcome.bind_eq_ok.mp emitted
    obtain ⟨inside', kept⟩ := adds added next (inside.add split (Nat.zero_le _)) copied
    exact ih inside' ((jumps.add split rfl).kept kept) rest

theorem emitLoop_inside {after : Regex} (inside : Inside re) (emitted : emitLoop body re = .ok after) : Inside after := by
  obtain ⟨added, split, emitted⟩ := Outcome.bind_eq_ok.mp emitted
  obtain ⟨next, copied, emitted⟩ := Outcome.bind_eq_ok.mp emitted
  obtain ⟨closed, jump, done⟩ := Outcome.bind_eq_ok.mp emitted
  cases done
  obtain ⟨inside', kept⟩ := adds added next (inside.add split (Nat.zero_le _)) copied
  have open_ : Jumps added [re.here] := Jumps.add (fun _ member => absurd member List.not_mem_nil) split rfl
  have grown : re.here ≤ next.here := by
    have first := kept.grows
    rw [add_spec split, here_append] at first
    exact Nat.le_of_succ_le first
  have back : Kept next closed := by
    rw [add_spec jump]
    exact kept_append next _
  exact (inside'.add jump grown).patch ((open_.kept kept).kept back) (Nat.le_refl _)

theorem emitRepeat_inside (min : ℕ) (max : Option ℕ) {after : Regex} (inside : Inside re)
    (emitted : emitRepeat min max body re = .ok after) : Inside after := by
  obtain ⟨next, copies, emitted⟩ := Outcome.bind_eq_ok.mp emitted
  have inside' := emitTimes_inside adds min inside copies
  cases max with
  | none => exact emitLoop_inside adds inside' emitted
  | some max =>
    obtain ⟨⟨last, splits⟩, optional, done⟩ := Outcome.bind_eq_ok.mp emitted
    cases done
    obtain ⟨inside'', jumps⟩ :=
      emitOptional_inside adds (max - min) inside' (fun _ member => absurd member List.not_mem_nil) optional
    exact inside''.patchAll jumps

end Repetitions

theorem Inside.addClass (inside : Inside re) (cls : ByteClass) : Inside (re.addClass cls).1 := by
  obtain ⟨kept, same, -⟩ := addClass_spec re cls
  have here : (re.addClass cls).1.here = re.here := congrArg List.length same
  refine ⟨?_, fun inst member => ?_⟩
  · rw [here]
    exact inside.size
  · rw [same] at member
    rw [here]
    exact (inside.within inst member).mono (Nat.le_refl _) kept.classes.length_le

theorem adds_emit {node : Node} (wellFormed : node.WellFormed)
    (emits : ∀ re after, Inside re → emit node re = .ok after → Inside after) : Adds (emit node) :=
  fun re after inside emitted => ⟨emits re after inside emitted, (emit_spec [] node wellFormed re after emitted).toKept⟩

mutual

theorem emit_inside : (node : Node) → node.WellFormed → ∀ re after, Inside re → emit node re = .ok after → Inside after
  | .empty, _, re, after, inside, emitted => by
    rw [emit] at emitted
    cases emitted
    exact inside
  | .byte _, _, _, _, inside, emitted => by
    rw [emit] at emitted
    exact inside.add emitted trivial
  | .cls cls, _, re, _, inside, emitted => by
    rw [emit] at emitted
    obtain ⟨-, -, present⟩ := addClass_spec re cls
    exact (inside.addClass cls).add emitted (List.getElem?_eq_some_iff.mp present).1
  | .assertion _, _, _, _, inside, emitted => by
    rw [emit] at emitted
    exact inside.add emitted trivial
  | .concat children, wellFormed, re, after, inside, emitted => by
    rw [emit] at emitted
    rw [Node.WellFormed] at wellFormed
    exact emitAll_inside children wellFormed re after inside emitted
  | .alt children, wellFormed, re, after, inside, emitted => by
    rw [emit] at emitted
    rw [Node.WellFormed] at wellFormed
    obtain ⟨⟨last, jumps⟩, branches, done⟩ := Outcome.bind_eq_ok.mp emitted
    cases done
    obtain ⟨inside', open_⟩ := emitAlternatives_inside children wellFormed.2 re last [] jumps inside
      (fun _ member => absurd member List.not_mem_nil) branches
    exact inside'.patchAll open_
  | .repetition min max body, wellFormed, re, after, inside, emitted => by
    rw [emit] at emitted
    rw [Node.WellFormed] at wellFormed
    exact emitRepeat_inside (adds_emit wellFormed.2 (emit_inside body wellFormed.2)) min max inside emitted

theorem emitAll_inside : (children : List Node) → allWellFormed children →
    ∀ re after, Inside re → emitAll children re = .ok after → Inside after
  | [], _, re, after, inside, emitted => by
    rw [emitAll] at emitted
    cases emitted
    exact inside
  | child :: children, wellFormed, re, after, inside, emitted => by
    rw [emitAll] at emitted
    rw [allWellFormed] at wellFormed
    obtain ⟨next, first, rest⟩ := Outcome.bind_eq_ok.mp emitted
    exact emitAll_inside children wellFormed.2 next after (emit_inside child wellFormed.1 re next inside first) rest

/-- The jumps to the end are open until the branches are done. -/
theorem emitAlternatives_inside : (children : List Node) → allWellFormed children → ∀ re after jumps all, Inside re →
    Jumps re jumps → emitAlternatives children re jumps = .ok (after, all) → Inside after ∧ Jumps after all
  | [], _, re, after, jumps, all, inside, open_, emitted => by
    rw [emitAlternatives] at emitted
    cases emitted
    exact ⟨inside, open_⟩
  | child :: children, wellFormed, re, after, jumps, all, inside, open_, emitted => by
    rw [allWellFormed] at wellFormed
    have adds := adds_emit wellFormed.1 (emit_inside child wellFormed.1)
    rw [emitAlternatives] at emitted
    split_ifs at emitted with last
    · obtain ⟨next, code, done⟩ := Outcome.bind_eq_ok.mp emitted
      cases done
      obtain ⟨inside', kept⟩ := adds re _ inside code
      exact ⟨inside', open_.kept kept⟩
    · obtain ⟨added, split, emitted⟩ := Outcome.bind_eq_ok.mp emitted
      obtain ⟨next, code, emitted⟩ := Outcome.bind_eq_ok.mp emitted
      obtain ⟨jumped, jump, emitted⟩ := Outcome.bind_eq_ok.mp emitted
      obtain ⟨inside', kept⟩ := adds added next (inside.add split (Nat.zero_le _)) code
      have skips : Jumps added [re.here] := Jumps.add (fun _ member => absurd member List.not_mem_nil) split rfl
      have first : Kept re added := by
        rw [add_spec split]
        exact kept_append re _
      have back : Kept next jumped := by
        rw [add_spec jump]
        exact kept_append next _
      have ends : Jumps jumped (jumps ++ [next.here]) := ((open_.kept first).kept kept).add jump rfl
      have patched := (inside'.add jump (Nat.zero_le _)).patch ((skips.kept kept).kept back) (Nat.le_refl _)
      exact emitAlternatives_inside children wellFormed.2 _ after _ all patched (ends.patch _ _) emitted

end

/-! ## Whole programs -/

/-- Every argument is an index of what it is for, whatever falls through has a successor, and the last instruction is
the only match. -/
structure WellFormed (re : Regex) : Prop where
  size : re.program.length ≤ kMaxProgramSize
  targets : ∀ pc arg : ℕ, re.program[pc]? = some (.jmp arg) ∨ re.program[pc]? = some (.split arg) → arg < re.program.length
  classes : ∀ pc arg : ℕ, re.program[pc]? = some (.cls arg) → arg < re.classes.length
  falls : ∀ (pc : ℕ) (inst : Inst), re.program[pc]? = some inst → inst ≠ .matched → pc + 1 < re.program.length
  last : ∀ pc : ℕ, re.program[pc]? = some .matched ↔ pc + 1 = re.program.length

theorem wellFormed_of_compiled {tree : Node} (wellFormed : tree.WellFormed) (compiled : compileTree tree = .ok re) :
    WellFormed re := by
  obtain ⟨body, emitted, closed⟩ := Outcome.bind_eq_ok.mp compiled
  have inside := emit_inside tree wellFormed {} body inside_empty emitted
  have room : ¬ kMaxProgramSize ≤ body.program.length := by
    intro full
    rw [Regex.add, if_pos full] at closed
    cases closed
  obtain rfl := add_spec closed
  have length : (body.program ++ [Inst.matched]).length = body.here + 1 := here_append body _
  have split {pc : ℕ} {inst : Inst} (present : (body.program ++ [Inst.matched])[pc]? = some inst) :
      (pc < body.here ∧ inst.Within body.here body.classes.length) ∨ (pc = body.here ∧ inst = .matched) := by
    obtain ⟨bound, -⟩ := List.getElem?_eq_some_iff.mp present
    rw [length] at bound
    rcases Nat.lt_succ_iff_lt_or_eq.mp bound with before | rfl
    · rw [List.getElem?_append_left before] at present
      exact .inl ⟨before, inside.within inst (List.mem_of_getElem? present)⟩
    · rw [getElem?_append_here] at present
      exact .inr ⟨rfl, (Option.some.inj present).symm⟩
  refine ⟨?_, ?_, ?_, ?_, ?_⟩
  · rw [length]
    exact Nat.lt_of_not_le room
  · intro pc arg present
    rw [length]
    rcases present with present | present
    · obtain ⟨-, within⟩ | ⟨-, same⟩ := split present
      · exact Nat.lt_succ_of_le within
      · cases same
    · obtain ⟨-, within⟩ | ⟨-, same⟩ := split present
      · exact Nat.lt_succ_of_le within
      · cases same
  · intro pc arg present
    obtain ⟨-, within⟩ | ⟨-, same⟩ := split present
    · exact within
    · cases same
  · intro pc inst present unmatched
    rw [length]
    obtain ⟨before, -⟩ | ⟨-, same⟩ := split present
    · exact Nat.succ_lt_succ before
    · exact absurd same unmatched
  · intro pc
    rw [length]
    constructor
    · intro present
      obtain ⟨-, within⟩ | ⟨rfl, -⟩ := split present
      · exact within.elim
      · rfl
    · intro same
      obtain rfl := Nat.succ.inj same
      exact getElem?_append_here body _

/-! ## Accesses -/

section Accesses

variable {text : List UInt8} {pos : ℕ} {stamp : UInt32}

theorem wordBefore?_eq (within : pos ≤ text.length) :
    wordBefore? text pos = some (decide (0 < pos) && text[pos - 1]?.any isWordByte) := by
  rw [wordBefore?]
  by_cases start : 0 < pos
  · rw [if_pos start, decide_eq_true start, List.getElem?_eq_getElem (by omega)]
    rfl
  · rw [if_neg start, decide_eq_false start]
    rfl

theorem wordAfter?_eq (text : List UInt8) (pos : ℕ) : wordAfter? text pos = some (text[pos]?.any isWordByte) := by
  rw [wordAfter?]
  split_ifs with inside
  · rw [List.getElem?_eq_getElem inside]
    rfl
  · rw [List.getElem?_eq_none (Nat.le_of_not_lt inside)]
    rfl

theorem Assert.holds?_eq (kind : Assert) (within : pos ≤ text.length) :
    kind.holds? text pos = some (kind.holds text pos) := by
  rw [Assert.holds?, wordBefore?_eq within, wordAfter?_eq]
  cases kind <;> rfl

/-- Stamps for all of the program, and threads at instructions that consume a byte. -/
structure Ready (re : Regex) (closure : Closure) : Prop where
  size : closure.seen.length = re.program.length
  listed : ∀ pc ∈ closure.list, pc ∈ threads re pc

theorem Ready.expanded {closure : Closure} (ready : Ready re closure) (stamp : UInt32) (pc : ℕ) :
    Ready re (expanded re closure stamp pc) where
  size := (List.length_set ..).trans ready.size
  listed thread member := by
    obtain member | member := List.mem_append.mp member
    · exact ready.listed thread member
    · rw [threads] at member
      split at member
      · next code =>
        obtain rfl := List.mem_singleton.mp member
        rw [threads, code]
        exact List.mem_cons_self
      · next code =>
        obtain rfl := List.mem_singleton.mp member
        rw [threads, code]
        exact List.mem_cons_self
      · cases member

variable (wellFormed : WellFormed re)

include wellFormed

/-- What an instruction pushes is in range. -/
theorem WellFormed.successors_lt {pc next : ℕ} (pushed : next ∈ successors re text pos pc) : next < re.program.length := by
  rw [successors] at pushed
  split at pushed
  · next arg code =>
    rw [List.mem_singleton.mp pushed]
    exact wellFormed.targets pc arg (.inl code)
  · next arg code =>
    obtain rfl | pushed := List.mem_cons.mp pushed
    · exact wellFormed.targets pc _ (.inr code)
    · rw [List.mem_singleton.mp pushed]
      exact wellFormed.falls pc _ code (by simp)
  · next kind code =>
    split_ifs at pushed
    · rw [List.mem_singleton.mp pushed]
      exact wellFormed.falls pc _ code (by simp)
    · cases pushed
  · cases pushed

omit wellFormed in
/-- One round of the checked loop over an instruction that is not marked yet and is no match. -/
theorem addThreadLoop?_expand {pc fuel : ℕ} {work : List ℕ} {closure : Closure} (ready : Ready re closure)
    (inside : pc < re.program.length) (within : pos ≤ text.length) (fresh : closure.seen[pc]? ≠ some stamp)
    (unmatched : re.program[pc]? ≠ some .matched) :
    addThreadLoop? re stamp text pos (fuel + 1) (pc :: work) closure =
      addThreadLoop? re stamp text pos fuel (successors re text pos pc ++ work) (expanded re closure stamp pc) := by
  obtain ⟨old, seen⟩ : ∃ old, closure.seen[pc]? = some old := ⟨_, List.getElem?_eq_getElem (ready.size ▸ inside)⟩
  have other : old ≠ stamp := fun same => fresh (seen.trans (congrArg some same))
  rw [addThreadLoop?, seen]
  simp only [Option.bind_eq_bind, Option.bind_some, if_neg other, successors, threads, expanded]
  cases code : re.program[pc]? with
  | none => exact absurd inside (Nat.not_lt_of_le (List.getElem?_eq_none_iff.mp code))
  | some inst =>
    cases inst with
    | matched => exact absurd code unmatched
    | assertion kind =>
      simp only [Option.bind_some, kind.holds?_eq within, List.append_nil]
      by_cases holds : kind.holds text pos <;> simp [holds]
    | _ => simp

/-- The checked loop does what the other one does, and leaves it ready for the next call. -/
theorem addThreadLoop?_eq (within : pos ≤ text.length) (fuel : ℕ) (work : List ℕ) (closure : Closure)
    (ready : Ready re closure)
    (inside : ∀ pc ∈ work, pc < re.program.length) (enough : 2 * unseen closure stamp + work.length ≤ fuel) :
    addThreadLoop? re stamp text pos fuel work closure = some (addThreadLoop re stamp text pos fuel work closure) ∧
      Ready re (addThreadLoop re stamp text pos fuel work closure) := by
  induction fuel generalizing work closure with
  | zero =>
    obtain rfl : work = [] := List.eq_nil_of_length_eq_zero (by omega)
    exact ⟨rfl, ready⟩
  | succ fuel ih =>
    cases work with
    | nil => exact ⟨rfl, ready⟩
    | cons pc work =>
      obtain ⟨first, others⟩ := List.forall_mem_cons.mp inside
      rw [List.length_cons] at enough
      have bound : pc < closure.seen.length := ready.size ▸ first
      by_cases marked : closure.seen[pc]? = some stamp
      · rw [addThreadLoop, if_pos marked, addThreadLoop?, marked, Option.bind_eq_bind, Option.bind_some, if_pos rfl]
        exact ih work closure ready others (by omega)
      by_cases found : re.program[pc]? = some .matched
      · have seen : closure.seen[pc]? = some closure.seen[pc] := List.getElem?_eq_getElem bound
        have other : closure.seen[pc] ≠ stamp := fun same => marked (seen.trans (congrArg some same))
        rw [addThreadLoop, if_neg marked, found, addThreadLoop?, seen, Option.bind_eq_bind, Option.bind_some, if_neg other,
          found]
        exact ⟨rfl, (List.length_set ..).trans ready.size, ready.listed⟩
      · have paid := unseen_expanded text pos ready.size marked
        rw [addThreadLoop_expand marked found, addThreadLoop?_expand ready first within marked found]
        apply ih _ _ (ready.expanded stamp pc)
        · intro next member
          obtain member | member := List.mem_append.mp member
          · exact wellFormed.successors_lt member
          · exact others next member
        · rw [List.length_append]
          omega

theorem addThread?_eq (within : pos ≤ text.length) {closure : Closure} (ready : Ready re closure) {pc : ℕ}
    (inside : pc < re.program.length) :
    re.addThread? closure stamp pc text pos = some (re.addThread closure stamp pc text pos) ∧
      Ready re (re.addThread closure stamp pc text pos) := by
  apply addThreadLoop?_eq wellFormed within _ _ _ ready (by simpa using inside)
  have few : unseen closure stamp ≤ closure.seen.length := List.countP_le_length
  have size := ready.size
  rw [List.length_singleton]
  omega

/-- A thread that is listed has its instruction, its class and its successor. -/
theorem consumes?_eq {pc : ℕ} (c : UInt8) (thread : pc ∈ threads re pc) :
    re.consumes? pc c = some (re.consumes pc c) ∧ pc + 1 < re.program.length := by
  rw [threads] at thread
  split at thread
  · next byte code =>
    rw [consumes?, consumes, code]
    exact ⟨rfl, wellFormed.falls pc _ code (by simp)⟩
  · next arg code =>
    have bound := wellFormed.classes pc arg code
    rw [consumes?, consumes, code]
    refine ⟨?_, wellFormed.falls pc _ code (by simp)⟩
    simp only [Option.bind_eq_bind, Option.bind_some, Inst.arg, List.getElem?_eq_getElem bound, Option.map_some,
      Option.any_some]
  · cases thread

theorem advance?_eq (inText : pos < text.length) (c : UInt8) (list : List ℕ) (next : Closure)
    (listed : ∀ pc ∈ list, pc ∈ threads re pc) (ready : Ready re next) :
    re.advance? text pos c list next = some (re.advance text pos c list next) ∧
      Ready re (re.advance text pos c list next) := by
  induction list generalizing next with
  | nil => exact ⟨rfl, ready⟩
  | cons pc rest ih =>
    obtain ⟨first, others⟩ := List.forall_mem_cons.mp listed
    obtain ⟨checked, follows⟩ := consumes?_eq wellFormed c first
    obtain ⟨called, ready'⟩ :=
      @addThread?_eq re text (pos + 1) (UInt32.ofNat pos + 2) wellFormed inText next ready (pc + 1) follows
    rw [advance?, checked, advance]
    simp only [Option.bind_eq_bind, Option.bind_some, called]
    by_cases consumed : re.consumes pc c = true
    · rw [if_pos consumed, if_pos consumed]
      split_ifs
      · exact ⟨rfl, ready'⟩
      · exact ih _ others ready'
    · rw [if_neg consumed, if_neg consumed]
      exact ih next others ready

theorem searchFrom?_eq (rest : List UInt8) (pos : ℕ) (current : Closure) (remains : text.drop pos = rest)
    (within : pos ≤ text.length) (start : 0 < re.program.length) (ready : Ready re current) :
    re.searchFrom? text rest pos current = some (re.searchFrom text rest pos current) := by
  induction rest generalizing pos current with
  | nil =>
    obtain ⟨called, -⟩ := @addThread?_eq re text pos (UInt32.ofNat pos + 1) wellFormed within current ready 0 start
    rw [searchFrom?, called, Option.bind_eq_bind, Option.bind_some, searchFrom]
    dsimp only
    split_ifs <;> rfl
  | cons c rest ih =>
    obtain ⟨inText, -, remains⟩ := of_drop_eq_cons remains
    obtain ⟨called, ready'⟩ := @addThread?_eq re text pos (UInt32.ofNat pos + 1) wellFormed within current ready 0 start
    rw [searchFrom?, called, Option.bind_eq_bind, Option.bind_some, searchFrom]
    dsimp only
    generalize re.addThread current (UInt32.ofNat pos + 1) 0 text pos = started at ready' ⊢
    obtain ⟨moved, ready''⟩ := advance?_eq wellFormed inText c started.list { started with list := [] } ready'.listed
      ⟨ready'.size, fun _ member => absurd member List.not_mem_nil⟩
    split_ifs with matched passed
    · rfl
    · rw [moved, Option.bind_some, if_pos passed]
    · rw [moved, Option.bind_some, if_neg passed]
      exact ih (pos + 1) _ remains inText ready''

end Accesses

/-- What `Compile` accepts becomes a program that is well formed; over every text a search of it has no access that is
out of range, and all of its work lists come to an end. -/
theorem compile_wellFormed {pattern : List UInt8} (accepted : compile pattern = .ok re) :
    WellFormed re ∧ ∀ text, re.search? text = some (re.searchCounting text) := by
  obtain ⟨tree, -, tree_, compiled⟩ := exists_tree accepted
  have wellFormed := wellFormed_of_compiled tree_ compiled
  refine ⟨wellFormed, fun text => ?_⟩
  rw [search?, searchCounting]
  split_ifs with empty
  · rfl
  · exact searchFrom?_eq wellFormed text 0 _ List.drop_zero (Nat.zero_le _)
      (List.length_pos_iff.mpr fun none_ => empty (List.isEmpty_iff.mpr none_))
      ⟨List.length_replicate, fun _ member => absurd member List.not_mem_nil⟩

/-- What `a|[b]*` compiles to. -/
def branchesProgram : Regex where
  program := [.split 3, .byte 0x61, .jmp 6, .split 6, .cls 0, .jmp 3, .matched]
  classes := [ByteClass.set 0 0x62]

theorem compile_wellFormed_branches :
    WellFormed branchesProgram ∧ ∀ text, branchesProgram.search? text = some (branchesProgram.searchCounting text) :=
  @compile_wellFormed branchesProgram [0x61, 0x7c, 0x5b, 0x62, 0x5d, 0x2a] rfl

end OpalCpp.Regex

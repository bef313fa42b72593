import OpalCpp.Model.Core.Regex

/-! # The compiler of regular expressions is correct

The code emitted for a tree is a fragment, in the sense of the fragment library, of every program it
ends up in, and computes the stretches of text the tree matches. Code is only ever appended, except
for the targets of jumps that are patched when they are known; a piece of code whose jumps to the
end are still open is a fragment of every program that has them patched.
-/

namespace OpalCpp.Regex

variable {text : List UInt8}

/-- The program counters from one on and below another, at any position. -/
def region (first last : ℕ) : Set (ℕ × ℕ) := {state | first ≤ state.1 ∧ state.1 < last}

theorem region_union {first middle last : ℕ} (below : first ≤ middle) (above : middle ≤ last) :
    region first middle ∪ region middle last ⊆ region first last := by
  rintro state (⟨lower, upper⟩ | ⟨lower, upper⟩)
  · exact ⟨lower, Nat.lt_of_lt_of_le upper above⟩
  · exact ⟨Nat.le_trans below lower, upper⟩

theorem region_mono {first last inner outer : ℕ} (below : first ≤ inner) (above : outer ≤ last) :
    region inner outer ⊆ region first last := fun _ member =>
  ⟨Nat.le_trans below member.1, Nat.lt_of_lt_of_le member.2 above⟩

/-- Code is only added: instructions and classes stay where they are. -/
structure Kept (before after : Regex) : Prop where
  grows : before.here ≤ after.here
  program : ∀ pc < before.here, after.program[pc]? = before.program[pc]?
  classes : before.classes <+: after.classes

theorem Kept.refl (re : Regex) : Kept re re := ⟨Nat.le_refl _, fun _ _ => rfl, List.prefix_rfl⟩

theorem Kept.trans {first second third : Regex} (early : Kept first second) (late : Kept second third) :
    Kept first third where
  grows := Nat.le_trans early.grows late.grows
  program pc inside :=
    (late.program pc (Nat.lt_of_lt_of_le inside early.grows)).trans (early.program pc inside)
  classes := early.classes.trans late.classes

/-- The final program has the code from `start` on as it is now. -/
structure Extends (final now : Regex) (start : ℕ) : Prop where
  program : ∀ pc, start ≤ pc → pc < now.here → final.program[pc]? = now.program[pc]?
  classes : now.classes <+: final.classes

/-- What is extended now has been extended before. -/
theorem Extends.of_kept {final before after : Regex} {start : ℕ} (extends_ : Extends final after start)
    (kept : Kept before after) : Extends final before start where
  program pc from_ inside := by
    rw [extends_.program pc from_ (Nat.lt_of_lt_of_le inside kept.grows), kept.program pc inside]
  classes := kept.classes.trans extends_.classes

theorem Extends.mono {final now : Regex} {start later : ℕ} (extends_ : Extends final now start)
    (after : start ≤ later) : Extends final now later where
  program pc from_ := extends_.program pc (Nat.le_trans after from_)
  classes := extends_.classes

/-- The code between two states of the compiler computes the relation, in every final program. -/
structure Emitted (text : List UInt8) (before after : Regex) (relation : ℕ → ℕ → Prop) : Prop
    extends Kept before after where
  unmatched : ∀ pc, before.here ≤ pc → after.program[pc]? ≠ some .matched
  fragment : ∀ final, Extends final after before.here →
    Fragment (Step final text) (region before.here after.here) (before.here, ·) (after.here, ·) relation

theorem Emitted.skip (re : Regex) : Emitted text re re Eq where
  toKept := .refl re
  unmatched pc outside := by rw [List.getElem?_eq_none outside]; simp
  fragment _ _ := (Fragment.skip _).mono (Set.empty_subset _)

/-- Code after code. -/
theorem Emitted.seq {first second third : Regex} {early late : ℕ → ℕ → Prop}
    (before : Emitted text first second early) (after : Emitted text second third late) :
    Emitted text first third (Relation.Comp early late) where
  toKept := before.toKept.trans after.toKept
  unmatched pc from_ := by
    by_cases inside : pc < second.here
    · rw [after.program pc inside]
      exact before.unmatched pc from_
    · exact after.unmatched pc (Nat.le_of_not_lt inside)
  fragment final extends_ := by
    have head := before.fragment final (extends_.of_kept after.toKept)
    have tail := after.fragment final (extends_.mono before.grows)
    exact (head.seq tail).mono (region_union before.grows after.grows)

theorem Emitted.congr {before after : Regex} {first second : ℕ → ℕ → Prop}
    (emitted : Emitted text before after first)
    (same : ∀ source target, first source target ↔ second source target) :
    Emitted text before after second where
  toKept := emitted.toKept
  unmatched := emitted.unmatched
  fragment final extends_ := (emitted.fragment final extends_).congr same

/-- `Add` appends its instruction. -/
theorem add_spec {re after : Regex} {inst : Inst} (added : re.add inst = .ok after) :
    after = { re with program := re.program ++ [inst] } := by
  rw [add] at added
  split_ifs at added
  exact (Except.ok.inj added).symm

theorem kept_append (re : Regex) (inst : Inst) : Kept re { re with program := re.program ++ [inst] } where
  grows := by simp [here]
  program pc inside := List.getElem?_append_left inside
  classes := List.prefix_rfl

@[simp] theorem here_append (re : Regex) (inst : Inst) :
    here { re with program := re.program ++ [inst] } = re.here + 1 := by
  simp [here]

/-- The instruction just added is where the code ended. -/
theorem getElem?_append_here (re : Regex) (inst : Inst) : (re.program ++ [inst])[re.here]? = some inst := by
  rw [here, List.getElem?_append_right (Nat.le_refl _), Nat.sub_self]
  rfl

/-- An instruction that is not a match adds none to the code. -/
theorem unmatched_append {re : Regex} {inst : Inst} {first : ℕ} (other : inst ≠ .matched)
    (before : ∀ pc, first ≤ pc → pc < re.here → re.program[pc]? ≠ some .matched) {pc : ℕ} (from_ : first ≤ pc) :
    (re.program ++ [inst])[pc]? ≠ some .matched := by
  obtain inside | rfl | outside := Nat.lt_trichotomy pc re.here
  · rw [List.getElem?_append_left inside]
    exact before pc from_ inside
  · rw [getElem?_append_here]
    exact fun same => other (Option.some.inj same)
  · rw [List.getElem?_eq_none]
    · simp
    · rw [List.length_append]
      exact outside

/-- One instruction whose steps lead to the next one, at the related positions. -/
theorem Emitted.single {re after : Regex} {inst : Inst} {relation : ℕ → ℕ → Prop}
    (added : re.add inst = .ok after) (unmatched : inst ≠ .matched)
    (steps : ∀ final, final.program[re.here]? = some inst → re.classes <+: final.classes →
      ∀ pos next, Step final text (re.here, pos) next ↔
        ∃ target, relation pos target ∧ next = (re.here + 1, target)) :
    Emitted text re after relation := by
  obtain rfl := add_spec added
  refine ⟨kept_append re inst, ?_, ?_⟩
  · intro pc from_
    exact unmatched_append unmatched (fun _ below above => absurd below (Nat.not_le.mpr above)) from_
  · intro final extends_
    have present : final.program[re.here]? = some inst := by
      rw [extends_.program re.here (Nat.le_refl _) (by simp), getElem?_append_here]
    rw [here_append]
    apply Fragment.single
    · exact fun pos => ⟨Nat.le_refl _, Nat.lt_succ_self _⟩
    · exact steps final present extends_.classes

theorem emitted_byte {re after : Regex} {byte : UInt8} (added : re.add (.byte byte) = .ok after) :
    Emitted text re after (Node.Matches text (.byte byte)) := by
  apply Emitted.single added (by simp)
  intro final present _ pos next
  simp only [Step, present, consumes, beq_iff_eq, Node.Matches]
  constructor
  · rintro ⟨c, read, rfl, rfl⟩
    exact ⟨pos + 1, ⟨read, rfl⟩, rfl⟩
  · rintro ⟨target, ⟨read, rfl⟩, rfl⟩
    exact ⟨byte, read, rfl, rfl⟩

theorem emitted_assertion {re after : Regex} {kind : Assert} (added : re.add (.assertion kind) = .ok after) :
    Emitted text re after (Node.Matches text (.assertion kind)) := by
  apply Emitted.single added (by simp)
  intro final present _ pos next
  simp only [Step, present, Node.Matches]
  constructor
  · rintro ⟨holds, rfl⟩
    exact ⟨pos, ⟨holds, rfl⟩, rfl⟩
  · rintro ⟨target, ⟨holds, rfl⟩, rfl⟩
    exact ⟨holds, rfl⟩

/-- The class is in the table under its number. -/
theorem addClass_spec (re : Regex) (cls : ByteClass) :
    Kept re (re.addClass cls).1 ∧ (re.addClass cls).1.program = re.program ∧
      (re.addClass cls).1.classes[(re.addClass cls).2]? = some cls := by
  rw [addClass]
  split
  · next index found =>
    obtain ⟨bound, same, _⟩ := List.findIdx?_eq_some_iff_getElem.mp found
    refine ⟨.refl re, rfl, ?_⟩
    rw [List.getElem?_eq_getElem bound]
    exact congrArg some (eq_of_beq same)
  · refine ⟨⟨Nat.le_refl _, fun _ _ => rfl, List.prefix_append _ _⟩, rfl, ?_⟩
    rw [List.getElem?_append_right (Nat.le_refl _), Nat.sub_self]
    rfl

theorem emitted_cls {re after : Regex} {cls : ByteClass}
    (added : (re.addClass cls).1.add (.cls (re.addClass cls).2) = .ok after) :
    Emitted text re after (Node.Matches text (.cls cls)) := by
  obtain ⟨kept, same, present⟩ := addClass_spec re cls
  have code : Emitted text (re.addClass cls).1 after (Node.Matches text (.cls cls)) := by
    apply Emitted.single added (by simp)
    intro final found classes pos next
    have member : final.classes[(re.addClass cls).2]? = some cls := by
      obtain ⟨more, whole⟩ := classes
      obtain ⟨bound, _⟩ := List.getElem?_eq_some_iff.mp present
      rw [← whole, List.getElem?_append_left bound, present]
    simp only [Step, found, consumes, member, Option.any_some, Node.Matches]
    constructor
    · rintro ⟨c, read, within, rfl⟩
      exact ⟨pos + 1, ⟨⟨c, read, within⟩, rfl⟩, rfl⟩
    · rintro ⟨target, ⟨⟨c, read, within⟩, rfl⟩, rfl⟩
      exact ⟨c, read, within, rfl⟩
  have start : (re.addClass cls).1.here = re.here := congrArg List.length same
  refine ⟨kept.trans code.toKept, ?_, ?_⟩
  · rw [← start]
    exact code.unmatched
  · rw [← start]
    exact code.fragment

/-! ## Jumps to the end of the code -/

theorem Inst.withArg_withArg (inst : Inst) (arg : ℕ) : (inst.withArg arg).withArg arg = inst.withArg arg := by
  cases inst <;> rfl

/-- An instruction with another target is as much of a match as it was. -/
theorem unmatched_withArg {code : Option Inst} {arg : ℕ} (unmatched : code ≠ some .matched) :
    code.map (·.withArg arg) ≠ some .matched := by
  cases code with
  | none => simp
  | some inst => cases inst <;> simp_all [Inst.withArg]

@[simp] theorem here_patch (re : Regex) (arg pc : ℕ) : (re.patch arg pc).here = re.here :=
  List.length_modify _ _ _

theorem patch_getElem? (re : Regex) (arg pc index : ℕ) :
    (re.patch arg pc).program[index]? =
      if index = pc then re.program[index]?.map (·.withArg arg) else re.program[index]? := by
  rw [patch, List.getElem?_modify]
  by_cases same : pc = index
  · subst same
    simp
  · simp [same, Ne.symm same]

/-- The patched program: the targets at these places, and everything else as it was. -/
theorem foldl_patch_getElem? (arg : ℕ) (pcs : List ℕ) (re : Regex) (index : ℕ) :
    (pcs.foldl (patch · arg) re).program[index]? =
      if index ∈ pcs then re.program[index]?.map (·.withArg arg) else re.program[index]? := by
  induction pcs generalizing re with
  | nil => simp
  | cons pc pcs ih =>
    rw [List.foldl_cons, ih, patch_getElem?]
    by_cases first : index = pc <;> by_cases later : index ∈ pcs <;>
      simp [first, later, Function.comp_def, Inst.withArg_withArg]

theorem foldl_patch_here (arg : ℕ) (pcs : List ℕ) (re : Regex) :
    (pcs.foldl (patch · arg) re).here = re.here := by
  induction pcs generalizing re with
  | nil => rfl
  | cons pc pcs ih => rw [List.foldl_cons, ih, here_patch]

theorem foldl_patch_classes (arg : ℕ) (pcs : List ℕ) (re : Regex) :
    (pcs.foldl (patch · arg) re).classes = re.classes := by
  induction pcs generalizing re with
  | nil => rfl
  | cons pc pcs ih => rw [List.foldl_cons, ih]; rfl

/-- The code computes the relation once the open jumps in it go to its end. -/
structure EmittedOpen (text : List UInt8) (before after : Regex) (open_ : List ℕ)
    (relation : ℕ → ℕ → Prop) : Prop extends Kept before after where
  unmatched : ∀ pc, before.here ≤ pc → after.program[pc]? ≠ some .matched
  inside : ∀ pc ∈ open_, before.here ≤ pc
  fragment : ∀ final : Regex, (∀ pc, before.here ≤ pc → pc < after.here → final.program[pc]? =
      if pc ∈ open_ then after.program[pc]?.map (·.withArg after.here) else after.program[pc]?) →
    after.classes <+: final.classes →
    Fragment (Step final text) (region before.here after.here) (before.here, ·) (after.here, ·) relation

/-- Closing the jumps. -/
theorem EmittedOpen.close {before after : Regex} {open_ : List ℕ} {relation : ℕ → ℕ → Prop}
    (emitted : EmittedOpen text before after open_ relation) :
    Emitted text before (after.patchAll open_) relation where
  grows := by
    rw [patchAll, foldl_patch_here]
    exact emitted.grows
  program pc outside := by
    rw [patchAll, foldl_patch_getElem?, if_neg, emitted.program pc outside]
    exact fun member => Nat.lt_irrefl _ (Nat.lt_of_lt_of_le outside (emitted.inside pc member))
  classes := by
    rw [patchAll, foldl_patch_classes]
    exact emitted.classes
  unmatched pc from_ := by
    rw [patchAll, foldl_patch_getElem?]
    have unmatched := emitted.unmatched pc from_
    split_ifs
    · exact unmatched_withArg unmatched
    · exact unmatched
  fragment final extends_ := by
    obtain ⟨program, classes⟩ := extends_
    rw [patchAll, foldl_patch_here] at program ⊢
    rw [patchAll, foldl_patch_classes] at classes
    apply emitted.fragment final _ classes
    intro pc from_ within
    rw [program pc from_ within, foldl_patch_getElem?]

/-- Patching a jump in the code that was added keeps what was there before. -/
theorem Kept.patch {before after : Regex} (kept : Kept before after) (arg : ℕ) {pc : ℕ}
    (added : before.here ≤ pc) : Kept before (after.patch arg pc) where
  grows := by
    rw [here_patch]
    exact kept.grows
  program index outside := by
    rw [patch_getElem?, if_neg, kept.program index outside]
    omega
  classes := kept.classes

/-- A jump, in the final program. -/
theorem fragment_jmp {final : Regex} {pc target : ℕ} (present : final.program[pc]? = some (.jmp target)) :
    Fragment (Step final text) (region pc (pc + 1)) (pc, ·) (target, ·) Eq := by
  apply Fragment.single
  · exact fun pos => ⟨Nat.le_refl _, Nat.lt_succ_self _⟩
  · intro pos next
    simp only [Step, present]
    constructor
    · rintro rfl
      exact ⟨pos, rfl, rfl⟩
    · rintro ⟨_, rfl, rfl⟩
      rfl

theorem step_split {final : Regex} {pc arg : ℕ} (present : final.program[pc]? = some (.split arg))
    (pos : ℕ) (next : ℕ × ℕ) :
    Step final text (pc, pos) next ↔ next = (pc + 1, pos) ∨ next = (arg, pos) := by
  simp only [Step, present]

/-- Code without open jumps. -/
theorem Emitted.toOpen {before after : Regex} {relation : ℕ → ℕ → Prop}
    (emitted : Emitted text before after relation) : EmittedOpen text before after [] relation where
  toKept := emitted.toKept
  unmatched := emitted.unmatched
  inside _ member := absurd member List.not_mem_nil
  fragment final program classes := by
    apply emitted.fragment final ⟨fun pc from_ within => ?_, classes⟩
    rw [program pc from_ within, if_neg List.not_mem_nil]

section Split

variable {re copied : Regex} {relation : ℕ → ℕ → Prop}
  (copy : Emitted text { re with program := re.program ++ [.split 0] } copied relation)

include copy

/-- The split in front of a copy stays there. -/
theorem Emitted.split_head : copied.program[re.here]? = some (.split 0) := by
  rw [copy.program re.here (by simp), getElem?_append_here]

theorem Emitted.unmatched_split {pc : ℕ} (from_ : re.here ≤ pc) : copied.program[pc]? ≠ some .matched := by
  obtain rfl | later := Nat.eq_or_lt_of_le from_
  · rw [copy.split_head]
    simp
  · apply copy.unmatched
    rw [here_append]
    exact later

end Split

/-- A branch that is not the last: a split over it, its code, and a jump to the end. -/
theorem EmittedOpen.branch {re added emitted jumped after : Regex} {open_ : List ℕ}
    {first second : ℕ → ℕ → Prop} (split : re.add (.split 0) = .ok added)
    (body : Emitted text added emitted first) (jump : emitted.add (.jmp 0) = .ok jumped)
    (rest : EmittedOpen text (jumped.patch jumped.here re.here) after open_ second) :
    EmittedOpen text re after (emitted.here :: open_)
      fun source target => first source target ∨ second source target := by
  obtain rfl := add_spec split
  obtain rfl := add_spec jump
  have start := body.grows
  have tail := rest.grows
  simp only [here_append, here_patch] at start tail
  have whole : Kept re { emitted with program := emitted.program ++ [.jmp 0] } :=
    ((kept_append re _).trans body.toKept).trans (kept_append emitted _)
  have later : ∀ pc ∈ open_, emitted.here + 1 ≤ pc := by
    simpa only [here_append, here_patch] using rest.inside
  -- What the rest of the emission leaves of the code up to the jump.
  have code (pc : ℕ) (inside : pc < emitted.here + 1) : after.program[pc]? =
      if pc = re.here then (emitted.program ++ [.jmp 0])[pc]?.map (·.withArg (emitted.here + 1))
      else (emitted.program ++ [.jmp 0])[pc]? := by
    rw [rest.program pc (by simpa using inside), patch_getElem?, here_append]
  refine ⟨(whole.patch _ (Nat.le_refl _)).trans rest.toKept, ?_, ?_, ?_⟩
  · intro pc from_
    by_cases inside : pc < emitted.here + 1
    · have unmatched : (emitted.program ++ [.jmp 0])[pc]? ≠ some .matched :=
        unmatched_append (by simp) (fun _ below _ => body.unmatched_split below) from_
      rw [code pc inside]
      split_ifs
      · exact unmatched_withArg unmatched
      · exact unmatched
    · exact rest.unmatched pc (by simpa using Nat.le_of_not_lt inside)
  · intro pc member
    obtain rfl | member := List.mem_cons.mp member
    · omega
    · have := later pc member
      omega
  · intro final program classes
    have closed : ∀ pc < emitted.here, pc ∉ emitted.here :: open_ := by
      rintro pc inside member
      obtain same | member := List.mem_cons.mp member
      · omega
      · have := later pc member
        omega
    have splitAt : final.program[re.here]? = some (.split (emitted.here + 1)) := by
      rw [program re.here (Nat.le_refl _) (by omega), if_neg (closed _ (by omega)), code re.here (by omega),
        if_pos rfl, List.getElem?_append_left (by omega : re.here < emitted.here), body.split_head]
      rfl
    have jumpAt : final.program[emitted.here]? = some (.jmp after.here) := by
      rw [program emitted.here (by omega) (by omega), if_pos List.mem_cons_self,
        code emitted.here (Nat.lt_succ_self _), if_neg (by omega), getElem?_append_here]
      rfl
    have inner : Extends final emitted (re.here + 1) := by
      refine ⟨fun pc from_ inside => ?_, ?_⟩
      · rw [program pc (by omega) (by omega), if_neg (closed pc inside), code pc (by omega), if_neg (by omega),
          List.getElem?_append_left inside]
      · exact List.IsPrefix.trans rest.classes classes
    have bodyCode := body.fragment final (by simpa only [here_append] using inner)
    have restCode := rest.fragment final (fun pc from_ inside => ?_) classes
    · simp only [here_append, here_patch] at bodyCode restCode
      have taken := (bodyCode.seq (fragment_jmp jumpAt)).mono
        (region_union (by omega) (Nat.le_succ emitted.here))
      have chosen : Fragment (Step final text) (region re.here after.here) (re.here, ·) (after.here, ·) _ :=
        Fragment.choice (fun pos => ⟨Nat.le_refl _, by omega⟩) (step_split splitAt) taken restCode
          (region_mono (by omega) (by omega)) (region_mono (by omega) (Nat.le_refl _))
      apply chosen.congr
      intro source target
      rw [Relation.comp_eq]
    · simp only [here_append, here_patch] at from_
      rw [program pc (by omega) inside]
      simp only [List.mem_cons, show pc ≠ emitted.here by omega, false_or]

/-! ## Repetitions -/

section Repetitions

variable {body : Regex → Outcome Regex} {relation : ℕ → ℕ → Prop}

theorem emitTimes_spec (spec : ∀ re after, body re = .ok after → Emitted text re after relation) (count : ℕ)
    {re after : Regex} (emitted : emitTimes body count re = .ok after) :
    Emitted text re after (power relation count) := by
  induction count generalizing re with
  | zero =>
    cases emitted
    exact .skip _
  | succ count ih =>
    obtain ⟨next, first, rest⟩ := Outcome.bind_eq_ok.mp emitted
    exact (spec re next first).seq (ih rest)

/-- At most `count + 1` times: not at all, or once and then at most `count` times. -/
theorem upTo_succ (relation : ℕ → ℕ → Prop) (count source target : ℕ) :
    (Relation.Comp relation (fun source target => ∃ times ≤ count, power relation times source target)
        source target ∨ source = target) ↔
      ∃ times ≤ count + 1, power relation times source target := by
  constructor
  · rintro (⟨middle, first, times, few, rest⟩ | rfl)
    · exact ⟨times + 1, Nat.succ_le_succ few, middle, first, rest⟩
    · exact ⟨0, Nat.zero_le _, rfl⟩
  · rintro ⟨times, few, related⟩
    cases times with
    | zero => exact .inr related
    | succ times =>
      obtain ⟨middle, first, rest⟩ := related
      exact .inl ⟨middle, first, times, Nat.le_of_succ_le_succ few, rest⟩

/-- One optional copy before the others: its split goes to the end of them all. -/
theorem EmittedOpen.optional {re added emitted after : Regex} {open_ : List ℕ} {count : ℕ}
    (split : re.add (.split 0) = .ok added) (copy : Emitted text added emitted relation)
    (rest : EmittedOpen text emitted after open_ fun source target =>
      ∃ times ≤ count, power relation times source target) :
    EmittedOpen text re after (re.here :: open_) fun source target =>
      ∃ times ≤ count + 1, power relation times source target := by
  obtain rfl := add_spec split
  have start := copy.grows
  have tail := rest.grows
  simp only [here_append] at start
  have whole : Kept re emitted := (kept_append re _).trans copy.toKept
  have later : ∀ pc ∈ open_, re.here + 1 ≤ pc := fun pc member =>
    Nat.le_trans start (rest.inside pc member)
  have head : after.program[re.here]? = some (.split 0) := by
    rw [rest.program re.here (by omega), copy.split_head]
  refine ⟨whole.trans rest.toKept, ?_, ?_, ?_⟩
  · intro pc from_
    by_cases inside : pc < emitted.here
    · rw [rest.program pc inside]
      exact copy.unmatched_split from_
    · exact rest.unmatched pc (Nat.le_of_not_lt inside)
  · intro pc member
    obtain rfl | member := List.mem_cons.mp member
    · exact Nat.le_refl _
    · exact Nat.le_of_succ_le (later pc member)
  · intro final program classes
    have splitAt : final.program[re.here]? = some (.split after.here) := by
      rw [program re.here (Nat.le_refl _) (by omega), if_pos List.mem_cons_self, head]
      rfl
    have inner : Extends final emitted (re.here + 1) := by
      refine ⟨fun pc from_ inside => ?_, rest.classes.trans classes⟩
      rw [program pc (by omega) (by omega), if_neg, rest.program pc inside]
      rintro member
      obtain same | member := List.mem_cons.mp member
      · omega
      · have := rest.inside _ member
        omega
    have copyCode := copy.fragment final (by simpa only [here_append] using inner)
    have restCode := rest.fragment final (fun pc from_ inside => ?_) classes
    · simp only [here_append] at copyCode
      have taken := (copyCode.seq restCode).mono (region_union start tail)
      have chosen : Fragment (Step final text) (region re.here after.here) (re.here, ·) (after.here, ·) _ :=
        Fragment.choice (fun pos => ⟨Nat.le_refl _, by omega⟩) (step_split splitAt) taken
          (Fragment.skip _) (region_mono (by omega) (Nat.le_refl _)) (Set.empty_subset _)
      exact chosen.congr (upTo_succ relation count)
    · rw [program pc (by omega) inside]
      simp only [List.mem_cons, show pc ≠ re.here by omega, false_or]

theorem emitOptional_spec (spec : ∀ re after, body re = .ok after → Emitted text re after relation)
    (count : ℕ) {re after : Regex} {splits all : List ℕ}
    (emitted : emitOptional body count re splits = .ok (after, all)) :
    ∃ open_, all = splits ++ open_ ∧
      EmittedOpen text re after open_ fun source target =>
        ∃ times ≤ count, power relation times source target := by
  induction count generalizing re splits with
  | zero =>
    cases emitted
    refine ⟨[], (List.append_nil _).symm, ((Emitted.skip _).congr fun source target => ?_).toOpen⟩
    constructor
    · rintro rfl
      exact ⟨0, Nat.le_refl _, rfl⟩
    · rintro ⟨times, few, related⟩
      obtain rfl := Nat.le_zero.mp few
      exact related
  | succ count ih =>
    obtain ⟨added, split, emitted⟩ := Outcome.bind_eq_ok.mp emitted
    obtain ⟨next, copied, rest⟩ := Outcome.bind_eq_ok.mp emitted
    obtain ⟨open_, rfl, code⟩ := ih rest
    refine ⟨re.here :: open_, by rw [List.append_assoc]; rfl, ?_⟩
    exact EmittedOpen.optional split (spec added next copied) code

/-- The looping copy of an unbounded repetition. -/
theorem emitLoop_spec (spec : ∀ re after, body re = .ok after → Emitted text re after relation)
    {re after : Regex} (emitted : emitLoop body re = .ok after) :
    Emitted text re after fun source target => ∃ times, power relation times source target := by
  obtain ⟨added, split, emitted⟩ := Outcome.bind_eq_ok.mp emitted
  obtain ⟨next, copied, emitted⟩ := Outcome.bind_eq_ok.mp emitted
  obtain ⟨closed, jump, done⟩ := Outcome.bind_eq_ok.mp emitted
  have copy := spec added next copied
  obtain rfl := add_spec split
  obtain rfl := add_spec jump
  cases done
  have start := copy.grows
  simp only [here_append] at start
  have whole : Kept re { next with program := next.program ++ [.jmp re.here] } :=
    ((kept_append re _).trans copy.toKept).trans (kept_append next _)
  have code (pc : ℕ) : (patch { next with program := next.program ++ [.jmp re.here] } (next.here + 1)
        re.here).program[pc]? =
      if pc = re.here then some (.split (next.here + 1)) else (next.program ++ [.jmp re.here])[pc]? := by
    rw [patch_getElem?]
    split_ifs with head
    · rw [head, List.getElem?_append_left (by omega : re.here < next.here), copy.split_head]
      rfl
    · rfl
  rw [here_append]
  refine ⟨whole.patch _ (Nat.le_refl _), ?_, ?_⟩
  · intro pc from_
    rw [code pc]
    split_ifs
    · simp
    · exact unmatched_append (by simp) (fun _ below _ => copy.unmatched_split below) from_
  · intro final extends_
    obtain ⟨program, classes⟩ := extends_
    simp only [here_patch, here_append] at program ⊢
    have splitAt : final.program[re.here]? = some (.split (next.here + 1)) := by
      rw [program re.here (Nat.le_refl _) (by omega), code, if_pos rfl]
    have jumpAt : final.program[next.here]? = some (.jmp re.here) := by
      rw [program next.here (by omega) (by omega), code, if_neg (by omega), getElem?_append_here]
    have inner : Extends final next (re.here + 1) := by
      refine ⟨fun pc from_ inside => ?_, classes⟩
      rw [program pc (by omega) (by omega), code, if_neg (by omega), List.getElem?_append_left inside]
    have copyCode := copy.fragment final (by simpa only [here_append] using inner)
    simp only [here_append] at copyCode
    have back (pos : ℕ) (state : ℕ × ℕ) :
        Step final text (next.here, pos) state ↔ state = (re.here, pos) := by
      simp only [Step, jumpAt]
    have entered (pos : ℕ) : (re.here, pos) ∈ region re.here (next.here + 1) := ⟨Nat.le_refl _, by omega⟩
    have returns (pos : ℕ) : (next.here, pos) ∈ region re.here (next.here + 1) :=
      ⟨by omega, Nat.lt_succ_self _⟩
    exact Fragment.loop entered returns (step_split splitAt) back copyCode
      (region_mono (Nat.le_succ _) (Nat.le_succ _))

/-- The number of times a bounded repetition runs: the copies that must, and some that may. -/
theorem bounded_repetition {min max : ℕ} (ordered : min ≤ max) (source target : ℕ) :
    Relation.Comp (power relation min)
        (fun source target => ∃ times ≤ max - min, power relation times source target) source target ↔
      ∃ count, min ≤ count ∧ (∀ bound ∈ some max, count ≤ bound) ∧ power relation count source target := by
  constructor
  · rintro ⟨middle, early, times, few, late⟩
    refine ⟨min + times, Nat.le_add_right _ _, ?_, power_add relation _ _ early late⟩
    rintro bound member
    obtain rfl := Option.some.inj member
    omega
  · rintro ⟨count, enough, bounded, related⟩
    have few := bounded max rfl
    obtain ⟨times, rfl⟩ := Nat.exists_eq_add_of_le enough
    obtain ⟨middle, early, late⟩ := exists_of_power_add relation related
    exact ⟨middle, early, times, by omega, late⟩

/-- An unbounded repetition: the copies that must, and the loop. -/
theorem unbounded_repetition {min : ℕ} (source target : ℕ) :
    Relation.Comp (power relation min) (fun source target => ∃ times, power relation times source target)
        source target ↔
      ∃ count, min ≤ count ∧ (∀ bound ∈ (none : Option ℕ), count ≤ bound) ∧
        power relation count source target := by
  constructor
  · rintro ⟨middle, early, times, late⟩
    exact ⟨min + times, Nat.le_add_right _ _, by simp, power_add relation _ _ early late⟩
  · rintro ⟨count, enough, _, related⟩
    obtain ⟨times, rfl⟩ := Nat.exists_eq_add_of_le enough
    obtain ⟨middle, early, late⟩ := exists_of_power_add relation related
    exact ⟨middle, early, times, late⟩

theorem emitRepeat_spec (spec : ∀ re after, body re = .ok after → Emitted text re after relation)
    {min : ℕ} {max : Option ℕ} (ordered : ∀ bound ∈ max, min ≤ bound) {re after : Regex}
    (emitted : emitRepeat min max body re = .ok after) :
    Emitted text re after fun source target =>
      ∃ count, min ≤ count ∧ (∀ bound ∈ max, count ≤ bound) ∧ power relation count source target := by
  obtain ⟨next, copies, emitted⟩ := Outcome.bind_eq_ok.mp emitted
  have must := emitTimes_spec spec min copies
  cases max with
  | none => exact (must.seq (emitLoop_spec spec emitted)).congr unbounded_repetition
  | some max =>
    obtain ⟨⟨last, splits⟩, optional, done⟩ := Outcome.bind_eq_ok.mp emitted
    obtain ⟨open_, rfl, code⟩ := emitOptional_spec spec (max - min) optional
    cases done
    exact (must.seq code.close).congr (bounded_repetition (ordered max rfl))

end Repetitions

/-! ## Whole trees -/

mutual

/-- What the compiler emits for a tree computes what the tree matches. -/
theorem emit_spec (text : List UInt8) : (node : Node) → node.WellFormed → ∀ re after,
    emit node re = .ok after → Emitted text re after (node.Matches text)
  | .empty, _, re, after, emitted => by
    rw [emit] at emitted
    cases emitted
    rw [Node.Matches]
    exact .skip _
  | .byte _, _, _, _, emitted => emitted_byte (by rwa [emit] at emitted)
  | .cls _, _, _, _, emitted => emitted_cls (by rwa [emit] at emitted)
  | .assertion _, _, _, _, emitted => emitted_assertion (by rwa [emit] at emitted)
  | .concat children, wellFormed, re, after, emitted => by
    rw [emit] at emitted
    rw [Node.WellFormed] at wellFormed
    rw [Node.Matches]
    exact emitAll_spec text children wellFormed re after emitted
  | .alt children, wellFormed, re, after, emitted => by
    rw [emit] at emitted
    rw [Node.WellFormed] at wellFormed
    rw [Node.Matches]
    obtain ⟨⟨last, jumps⟩, branches, done⟩ := Outcome.bind_eq_ok.mp emitted
    cases done
    obtain ⟨open_, same, code⟩ :=
      emitAlternatives_spec text children wellFormed.1 wellFormed.2 re last [] jumps branches
    rw [same]
    exact code.close
  | .repetition min max body, wellFormed, re, after, emitted => by
    rw [emit] at emitted
    rw [Node.WellFormed] at wellFormed
    rw [Node.Matches]
    exact emitRepeat_spec (emit_spec text body wellFormed.2) wellFormed.1 emitted

theorem emitAll_spec (text : List UInt8) : (children : List Node) → allWellFormed children →
    ∀ re after, emitAll children re = .ok after → Emitted text re after (matchesAll text children)
  | [], _, re, after, emitted => by
    rw [emitAll] at emitted
    cases emitted
    rw [matchesAll]
    exact .skip _
  | child :: children, wellFormed, re, after, emitted => by
    rw [emitAll] at emitted
    rw [allWellFormed] at wellFormed
    rw [matchesAll]
    obtain ⟨next, first, rest⟩ := Outcome.bind_eq_ok.mp emitted
    exact (emit_spec text child wellFormed.1 re next first).seq
      (emitAll_spec text children wellFormed.2 next after rest)

theorem emitAlternatives_spec (text : List UInt8) : (children : List Node) → children ≠ [] →
    allWellFormed children → ∀ re after jumps all,
      emitAlternatives children re jumps = .ok (after, all) →
        ∃ open_, all = jumps ++ open_ ∧ EmittedOpen text re after open_ (matchesAny text children)
  | [], some_, _, _, _, _, _, _ => absurd rfl some_
  | [child], _, wellFormed, re, after, jumps, all, emitted => by
    rw [emitAlternatives, if_pos List.isEmpty_nil] at emitted
    rw [allWellFormed] at wellFormed
    obtain ⟨last, code, done⟩ := Outcome.bind_eq_ok.mp emitted
    cases done
    refine ⟨[], (List.append_nil _).symm, ?_⟩
    apply ((emit_spec text child wellFormed.1 re after code).congr _).toOpen
    intro source target
    simp only [matchesAny, or_false]
  | child :: other :: children, _, wellFormed, re, after, jumps, all, emitted => by
    rw [emitAlternatives, if_neg (by simp)] at emitted
    rw [allWellFormed] at wellFormed
    obtain ⟨added, split, emitted⟩ := Outcome.bind_eq_ok.mp emitted
    obtain ⟨last, code, emitted⟩ := Outcome.bind_eq_ok.mp emitted
    obtain ⟨jumped, jump, emitted⟩ := Outcome.bind_eq_ok.mp emitted
    obtain ⟨open_, rfl, rest⟩ :=
      emitAlternatives_spec text (other :: children) (by simp) wellFormed.2 _ _ _ _ emitted
    refine ⟨last.here :: open_, by rw [List.append_assoc]; rfl, ?_⟩
    rw [matchesAny]
    exact EmittedOpen.branch split (emit_spec text child wellFormed.1 added last code) jump rest

end

/-- A compiled program ends in its only match, and everything before it computes the tree. -/
theorem compileTree_spec {tree : Node} {re : Regex} (wellFormed : tree.WellFormed)
    (compiled : compileTree tree = .ok re) (text : List UInt8) :
    ∃ size, re.program.length = size + 1 ∧
      (∀ pc, re.program[pc]? = some .matched ↔ pc = size) ∧
      Fragment (Step re text) (region 0 size) (0, ·) (size, ·) (tree.Matches text) := by
  obtain ⟨body, emitted, closed⟩ := Outcome.bind_eq_ok.mp compiled
  have code := emit_spec text tree wellFormed {} body emitted
  obtain rfl := add_spec closed
  refine ⟨body.here, by simp [here], fun pc => ⟨fun found => ?_, ?_⟩, ?_⟩
  · by_contra other
    by_cases inside : pc < body.here
    · rw [List.getElem?_append_left inside] at found
      exact code.unmatched pc (Nat.zero_le _) found
    · rw [List.getElem?_eq_none] at found
      · cases found
      · simp only [here, List.length_append, List.length_singleton] at other inside ⊢
        omega
  · rintro rfl
    exact getElem?_append_here body _
  · apply code.fragment
    refine ⟨fun pc _ inside => ?_, List.prefix_rfl⟩
    exact List.getElem?_append_left inside

end OpalCpp.Regex

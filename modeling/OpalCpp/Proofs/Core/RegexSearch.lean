import OpalCpp.Proofs.Core.Bytes
import OpalCpp.Proofs.Core.RegexCompiler
import OpalCpp.Proofs.Core.RegexParser

/-! # The virtual machine of regular expressions

`AddThread` marks the instructions reached without reading a byte, and `Search` keeps the threads of
all the starts at once. Sound for every text: what is marked or listed is reached by a thread that
started somewhere, and a match is reported only at a position whose stamp is not zero, the value
that says "never seen". Complete as long as no stamp has come round: what is marked is closed under
the steps of a thread but for the work list, so nothing is lost by not expanding it again.
-/

namespace OpalCpp.Regex

variable {re : Regex} {text : List UInt8} {pos : ℕ} {stamp : UInt32}

/-! ## One instruction of the closure -/

/-- What an instruction pushes on the work list. -/
def successors (re : Regex) (text : List UInt8) (pos pc : ℕ) : List ℕ :=
  match re.program[pc]? with
  | some (.jmp arg) => [arg]
  | some (.split arg) => [arg, pc + 1]
  | some (.assertion kind) => if kind.holds text pos then [pc + 1] else []
  | _ => []

/-- What an instruction adds to the list of threads. -/
def threads (re : Regex) (pc : ℕ) : List ℕ :=
  match re.program[pc]? with
  | some (.byte _) | some (.cls _) => [pc]
  | _ => []

theorem mem_successors {pc next : ℕ} :
    next ∈ successors re text pos pc ↔ Step re text (pc, pos) (next, pos) := by
  simp only [successors, Step]
  cases re.program[pc]? with
  | none => simp
  | some inst =>
    cases inst with
    | assertion kind => by_cases holds : kind.holds text pos <;> simp [holds]
    | split arg => simp [or_comm]
    | _ => simp

theorem length_successors (re : Regex) (text : List UInt8) (pos pc : ℕ) : (successors re text pos pc).length ≤ 2 := by
  rw [successors]
  split
  · simp
  · simp
  · split_ifs <;> simp
  · simp

/-- A step that reads a byte is one of a listed thread. -/
theorem step_reads {pc next : ℕ} (step : Step re text (pc, pos) (next, pos + 1)) :
    pc ∈ threads re pc ∧ ∃ c, text[pos]? = some c ∧ re.consumes pc c = true ∧ next = pc + 1 := by
  simp only [threads, Step] at step ⊢
  cases code : re.program[pc]? with
  | none => simp [code] at step
  | some inst => cases inst <;> simp_all

theorem step_consumes {pc : ℕ} {c : UInt8} (read : text[pos]? = some c)
    (consumed : re.consumes pc c = true) : Step re text (pc, pos) (pc + 1, pos + 1) := by
  simp only [consumes, Step] at consumed ⊢
  cases code : re.program[pc]? with
  | none => simp [code] at consumed
  | some inst => cases inst <;> simp_all

/-- A step stays at its position or reads the byte there. -/
theorem step_position {source next : ℕ × ℕ} (step : Step re text source next) :
    next.2 = source.2 ∨ next.2 = source.2 + 1 := by
  rw [Step] at step
  split at step
  · exact .inl (by rw [step])
  · obtain rfl | rfl := step
    · exact .inl rfl
    · exact .inl rfl
  · exact .inl (by rw [step.2])
  · obtain ⟨_, _, _, rfl⟩ := step
    exact .inr rfl
  · obtain ⟨_, _, _, rfl⟩ := step
    exact .inr rfl
  · exact step.elim
  · exact step.elim

theorem reach_position {source target : ℕ × ℕ} (reach : Relation.ReflTransGen (Step re text) source target) :
    source.2 ≤ target.2 := by
  induction reach with
  | refl => exact Nat.le_refl _
  | tail _ step ih =>
    obtain same | read := step_position step
    · omega
    · omega

/-- One round of the loop over an instruction that is not marked yet and is no match. -/
theorem addThreadLoop_expand {pc fuel : ℕ} {work : List ℕ} {closure : Closure}
    (fresh : closure.seen[pc]? ≠ some stamp) (unmatched : re.program[pc]? ≠ some .matched) :
    addThreadLoop re stamp text pos (fuel + 1) (pc :: work) closure =
      addThreadLoop re stamp text pos fuel (successors re text pos pc ++ work)
        { closure with
          seen := closure.seen.set pc stamp, steps := closure.steps + 1
          list := closure.list ++ threads re pc } := by
  rw [addThreadLoop, if_neg fresh]
  simp only [successors, threads]
  cases code : re.program[pc]? with
  | none => simp
  | some inst =>
    cases inst with
    | matched => exact absurd code unmatched
    | assertion kind => by_cases holds : kind.holds text pos <;> simp [holds]
    | _ => simp

theorem addThreadLoop_matched {pc fuel : ℕ} {work : List ℕ} {closure : Closure}
    (fresh : closure.seen[pc]? ≠ some stamp) (found : re.program[pc]? = some .matched) :
    (addThreadLoop re stamp text pos (fuel + 1) (pc :: work) closure).matched = true := by
  rw [addThreadLoop, if_neg fresh, found]

/-- The stamp of a position, as the loop over the bytes computes it for the one after its own. -/
theorem stamp_succ (pos : ℕ) : UInt32.ofNat (pos + 1) + 1 = UInt32.ofNat pos + 2 := by
  rw [UInt32.ofNat_add, UInt32.add_assoc]
  rfl

/-! ## Soundness -/

/-- A thread that started somewhere has come to the instruction at the position. -/
def Reached (re : Regex) (text : List UInt8) (pos pc : ℕ) : Prop :=
  ∃ start, Relation.ReflTransGen (Step re text) (0, start) (pc, pos)

theorem Reached.step {pc next target : ℕ} (reached : Reached re text pos pc)
    (step : Step re text (pc, pos) (next, target)) : Reached re text target next := by
  obtain ⟨start, reach⟩ := reached
  exact ⟨start, reach.tail step⟩

/-- The threads listed have come from somewhere, and the match has not been expanded. -/
structure Sound (re : Regex) (text : List UInt8) (pos size : ℕ) (closure : Closure) : Prop where
  unmatched : closure.matched = false
  listed : ∀ pc ∈ closure.list, Reached re text pos pc
  unseen : closure.seen[size]? = some 0

/-- A match is reported where a thread has come to it, at a stamp other than zero. -/
def SoundAfter (re : Regex) (text : List UInt8) (pos size : ℕ) (stamp : UInt32) (closure : Closure) : Prop :=
  closure.matched = true ∧ stamp ≠ 0 ∧ Reached re text pos size ∨ Sound re text pos size closure

theorem SoundAfter.reached {size : ℕ} {closure : Closure} (after : SoundAfter re text pos size stamp closure)
    (found : closure.matched = true) : stamp ≠ 0 ∧ Reached re text pos size := by
  obtain ⟨_, counted, reached⟩ | sound := after
  · exact ⟨counted, reached⟩
  · rw [sound.unmatched] at found
    cases found

theorem SoundAfter.sound {size : ℕ} {closure : Closure} (after : SoundAfter re text pos size stamp closure)
    (unmatched : closure.matched ≠ true) : Sound re text pos size closure :=
  after.resolve_left fun found => unmatched found.1

section Sound

variable {size : ℕ} (last : ∀ pc, re.program[pc]? = some .matched ↔ pc = size)

include last

theorem addThreadLoop_sound (fuel : ℕ) (work : List ℕ) (closure : Closure)
    (pushed : ∀ pc ∈ work, Reached re text pos pc) (sound : Sound re text pos size closure) :
    SoundAfter re text pos size stamp (addThreadLoop re stamp text pos fuel work closure) := by
  induction fuel generalizing work closure with
  | zero => exact .inr sound
  | succ fuel ih =>
    cases work with
    | nil => exact .inr sound
    | cons pc work =>
      have here := pushed pc List.mem_cons_self
      have others : ∀ pc ∈ work, Reached re text pos pc := fun pc member =>
        pushed pc (List.mem_cons_of_mem _ member)
      by_cases fresh : closure.seen[pc]? = some stamp
      · rw [addThreadLoop, if_pos fresh]
        exact ih work closure others sound
      by_cases found : re.program[pc]? = some .matched
      · obtain rfl := (last pc).mp found
        refine .inl ⟨addThreadLoop_matched fresh found, ?_, here⟩
        rintro rfl
        exact fresh sound.unseen
      · rw [addThreadLoop_expand fresh found]
        apply ih
        · intro next member
          obtain member | member := List.mem_append.mp member
          · exact here.step (mem_successors.mp member)
          · exact others next member
        · refine ⟨sound.unmatched, fun thread member => ?_, ?_⟩
          · obtain member | member := List.mem_append.mp member
            · exact sound.listed thread member
            · rw [threads] at member
              split at member
              · rwa [List.mem_singleton.mp member]
              · rwa [List.mem_singleton.mp member]
              · cases member
          · rw [List.getElem?_set_ne]
            · exact sound.unseen
            · rintro rfl
              exact found ((last pc).mpr rfl)

theorem advance_sound {c : UInt8} (read : text[pos]? = some c) (list : List ℕ) (next : Closure)
    (listed : ∀ pc ∈ list, Reached re text pos pc) (sound : Sound re text (pos + 1) size next) :
    SoundAfter re text (pos + 1) size (UInt32.ofNat pos + 2) (re.advance text pos c list next) := by
  induction list generalizing next with
  | nil => exact .inr sound
  | cons pc rest ih =>
    have others : ∀ pc ∈ rest, Reached re text pos pc := fun pc member =>
      listed pc (List.mem_cons_of_mem _ member)
    by_cases consumed : re.consumes pc c = true
    · have moved := (listed pc List.mem_cons_self).step (step_consumes read consumed)
      have after : SoundAfter re text (pos + 1) size (UInt32.ofNat pos + 2)
          (re.addThread next (UInt32.ofNat pos + 2) (pc + 1) text (pos + 1)) :=
        addThreadLoop_sound last _ _ _ (by simpa using moved) sound
      simp only [advance, consumed, if_true]
      split_ifs with matched
      · exact after
      · apply ih _ others
        exact after.resolve_left fun found => matched found.1
    · rw [advance, if_neg consumed]
      exact ih next others sound

theorem searchFrom_sound (rest : List UInt8) (pos : ℕ) (current : Closure) (remains : text.drop pos = rest)
    (within : pos ≤ text.length) (sound : Sound re text pos size current)
    (found : (re.searchFrom text rest pos current).1 = true) :
    ∃ last ≤ text.length, UInt32.ofNat last + 1 ≠ 0 ∧ Reached re text last size := by
  induction rest generalizing pos current with
  | nil =>
    have started : SoundAfter re text pos size (UInt32.ofNat pos + 1)
        (re.addThread current (UInt32.ofNat pos + 1) 0 text pos) :=
      addThreadLoop_sound last _ _ _ (by simpa using ⟨pos, .refl⟩) sound
    simp only [searchFrom] at found
    split_ifs at found with matched
    exact ⟨pos, within, started.reached matched⟩
  | cons c rest ih =>
    have started : SoundAfter re text pos size (UInt32.ofNat pos + 1)
        (re.addThread current (UInt32.ofNat pos + 1) 0 text pos) :=
      addThreadLoop_sound last _ _ _ (by simpa using ⟨pos, .refl⟩) sound
    obtain ⟨inside, read, remains⟩ := of_drop_eq_cons remains
    by_cases matched : (re.addThread current (UInt32.ofNat pos + 1) 0 text pos).matched = true
    · exact ⟨pos, within, started.reached matched⟩
    simp only [searchFrom, if_neg matched] at found
    have sound := started.sound matched
    have stepped := advance_sound last read _ { re.addThread current (UInt32.ofNat pos + 1) 0 text pos with list := [] }
      sound.listed ⟨sound.unmatched, fun _ member => absurd member List.not_mem_nil, sound.unseen⟩
    split_ifs at found with passed
    · refine ⟨pos + 1, inside, ?_⟩
      rw [stamp_succ]
      exact stepped.reached passed
    · exact ih (pos + 1) _ remains inside (stepped.sound passed) found

end Sound

/-! ## Completeness -/

/-- The instruction has been expanded at this stamp; nothing is known outside the program. -/
def Marked (closure : Closure) (stamp : UInt32) (pc : ℕ) : Prop :=
  pc < closure.seen.length → closure.seen[pc]? = some stamp

/-- The top of the work list need not wait once it is marked. -/
theorem marked_or_waiting {closure : Closure} {pc other : ℕ} {work : List ℕ} (top : Marked closure stamp pc)
    (known : Marked closure stamp other ∨ other ∈ pc :: work) :
    Marked closure stamp other ∨ other ∈ work := by
  obtain marked | waiting := known
  · exact .inl marked
  · obtain rfl | waiting := List.mem_cons.mp waiting
    · exact .inl top
    · exact .inr waiting

/-- What is marked is closed under the steps of a thread, but for the work list. -/
structure Closed (re : Regex) (text : List UInt8) (pos : ℕ) (stamp : UInt32) (work : List ℕ)
    (closure : Closure) : Prop where
  size : closure.seen.length = re.program.length
  bounded : ∀ value ∈ closure.seen, value.toNat ≤ stamp.toNat
  unmatched : ∀ pc : ℕ, closure.seen[pc]? = some stamp → re.program[pc]? ≠ some .matched
  listed : ∀ pc : ℕ, closure.seen[pc]? = some stamp → threads re pc ⊆ closure.list
  followed : ∀ pc : ℕ, closure.seen[pc]? = some stamp → ∀ next ∈ successors re text pos pc,
    Marked closure stamp next ∨ next ∈ work

/-- The entries that do not have the stamp. -/
def unseen (closure : Closure) (stamp : UInt32) : ℕ := closure.seen.countP (· != stamp)

/-- The instruction marked, and its threads listed. -/
def expanded (re : Regex) (closure : Closure) (stamp : UInt32) (pc : ℕ) : Closure :=
  { closure with
    seen := closure.seen.set pc stamp, steps := closure.steps + 1, list := closure.list ++ threads re pc }

theorem marked_expanded_self (closure : Closure) (pc : ℕ) :
    Marked (expanded re closure stamp pc) stamp pc := fun inside => by
  rw [expanded, List.length_set] at inside
  exact List.getElem?_set_self inside

theorem Marked.expanded {closure : Closure} {pc : ℕ} (marked : Marked closure stamp pc) (other : ℕ) :
    Marked (expanded re closure stamp other) stamp pc := fun inside => by
  by_cases same : other = pc
  · subst same
    exact marked_expanded_self closure _ inside
  · rw [Regex.expanded, List.length_set] at inside
    rw [Regex.expanded, List.getElem?_set_ne same]
    exact marked inside

/-- Only the instruction itself is newly marked. -/
theorem of_seen_expanded {closure : Closure} {pc other : ℕ}
    (seen : (expanded re closure stamp pc).seen[other]? = some stamp) :
    other = pc ∨ closure.seen[other]? = some stamp := by
  by_cases same : pc = other
  · exact .inl same.symm
  · rw [expanded, List.getElem?_set_ne same] at seen
    exact .inr seen

theorem Closed.expanded {pc : ℕ} {work : List ℕ} {closure : Closure}
    (closed : Closed re text pos stamp (pc :: work) closure) (unmatched : re.program[pc]? ≠ some .matched) :
    Closed re text pos stamp (successors re text pos pc ++ work) (expanded re closure stamp pc) where
  size := by
    rw [Regex.expanded, List.length_set]
    exact closed.size
  bounded value member := by
    obtain member | rfl := List.mem_or_eq_of_mem_set member
    · exact closed.bounded value member
    · exact Nat.le_refl _
  unmatched other seen := by
    obtain rfl | seen := of_seen_expanded seen
    · exact unmatched
    · exact closed.unmatched other seen
  listed other seen := by
    obtain rfl | seen := of_seen_expanded seen
    · exact List.subset_append_right _ _
    · exact List.subset_append_of_subset_left _ (closed.listed other seen)
  followed other seen next member := by
    obtain rfl | seen := of_seen_expanded seen
    · exact .inr (List.mem_append_left _ member)
    · obtain marked | waiting := marked_or_waiting (marked_expanded_self closure pc)
        ((closed.followed other seen next member).imp_left fun marked => marked.expanded pc)
      · exact .inl marked
      · exact .inr (List.mem_append_right _ waiting)

/-- The fuel pays for every entry that is not marked yet, twice, and for the work list. -/
theorem unseen_expanded (text : List UInt8) (pos : ℕ) {pc : ℕ} {closure : Closure}
    (size : closure.seen.length = re.program.length) (fresh : closure.seen[pc]? ≠ some stamp) :
    2 * unseen (expanded re closure stamp pc) stamp + (successors re text pos pc).length ≤
      2 * unseen closure stamp := by
  by_cases inside : pc < closure.seen.length
  · have few := length_successors re text pos pc
    have other : closure.seen[pc] ≠ stamp := fun same => fresh (by rw [List.getElem?_eq_getElem inside, same])
    have counted : 0 < closure.seen.countP (· != stamp) :=
      List.countP_pos_iff.mpr ⟨_, List.getElem_mem inside, by simpa using other⟩
    simp only [unseen, expanded, List.countP_set inside, bne_self_eq_false, bne_iff_ne, ne_eq, other,
      not_false_eq_true, if_true, Bool.false_eq_true, if_false]
    omega
  · have none_ : successors re text pos pc = [] := by
      rw [successors, List.getElem?_eq_none (by omega)]
    rw [none_, expanded, unseen, unseen, List.set_eq_of_length_le (by omega)]
    exact Nat.le_refl _

/-- With enough fuel the loop comes to a match or leaves a closed set with all of its work marked. -/
theorem addThreadLoop_closed (fuel : ℕ) (work : List ℕ) (closure : Closure)
    (closed : Closed re text pos stamp work closure) (enough : 2 * unseen closure stamp + work.length ≤ fuel) :
    (addThreadLoop re stamp text pos fuel work closure).matched = true ∨
      Closed re text pos stamp [] (addThreadLoop re stamp text pos fuel work closure) ∧
        ∀ pc, Marked closure stamp pc ∨ pc ∈ work →
          Marked (addThreadLoop re stamp text pos fuel work closure) stamp pc := by
  induction fuel generalizing work closure with
  | zero =>
    obtain rfl : work = [] := List.eq_nil_of_length_eq_zero (by omega)
    exact .inr ⟨closed, fun pc known => known.resolve_right List.not_mem_nil⟩
  | succ fuel ih =>
    cases work with
    | nil => exact .inr ⟨closed, fun pc known => known.resolve_right List.not_mem_nil⟩
    | cons pc work =>
      rw [List.length_cons] at enough
      by_cases fresh : closure.seen[pc]? = some stamp
      · have dropped : Closed re text pos stamp work closure := by
          refine ⟨closed.size, closed.bounded, closed.unmatched, closed.listed, ?_⟩
          intro other seen next member
          exact marked_or_waiting (fun _ => fresh) (closed.followed other seen next member)
        rw [addThreadLoop, if_pos fresh]
        obtain found | ⟨closed, kept⟩ := ih work closure dropped (by omega)
        · exact .inl found
        · exact .inr ⟨closed, fun other known => kept other (marked_or_waiting (fun _ => fresh) known)⟩
      by_cases found : re.program[pc]? = some .matched
      · exact .inl (addThreadLoop_matched fresh found)
      · have paid := unseen_expanded text pos closed.size fresh
        rw [addThreadLoop_expand fresh found]
        obtain found | ⟨closed, kept⟩ := ih _ _ (closed.expanded found) (by
          rw [List.length_append]
          omega)
        · exact .inl found
        · refine .inr ⟨closed, fun other known => kept other ?_⟩
          obtain marked | waiting := marked_or_waiting (marked_expanded_self closure pc)
            (known.imp_left fun marked => marked.expanded pc)
          · exact .inl marked
          · exact .inr (List.mem_append_right _ waiting)

/-- `AddThread` on a closed set: a match, or a closed set with the new instruction in it. -/
theorem addThread_closed {closure : Closure} (closed : Closed re text pos stamp [] closure) (pc : ℕ) :
    (re.addThread closure stamp pc text pos).matched = true ∨
      Closed re text pos stamp [] (re.addThread closure stamp pc text pos) ∧
        Marked (re.addThread closure stamp pc text pos) stamp pc ∧
        ∀ other, Marked closure stamp other → Marked (re.addThread closure stamp pc text pos) stamp other := by
  have waiting : Closed re text pos stamp [pc] closure := by
    refine ⟨closed.size, closed.bounded, closed.unmatched, closed.listed, ?_⟩
    intro other seen next member
    exact .inl ((closed.followed other seen next member).resolve_right List.not_mem_nil)
  have few : unseen closure stamp ≤ re.program.length := by
    rw [← closed.size]
    exact List.countP_le_length
  obtain found | ⟨closed, kept⟩ := addThreadLoop_closed (2 * re.program.length + 2) [pc] closure waiting (by
    rw [List.length_singleton]
    omega)
  · exact .inl found
  · exact .inr ⟨closed, kept pc (.inr List.mem_cons_self), fun other marked => kept other (.inl marked)⟩

/-- A thread at a marked instruction steps to a marked one. -/
theorem Closed.step {closure : Closure} {pc next : ℕ} (closed : Closed re text pos stamp [] closure)
    (marked : Marked closure stamp pc) (step : Step re text (pc, pos) (next, pos)) :
    Marked closure stamp next := by
  by_cases inside : pc < closure.seen.length
  · exact (closed.followed pc (marked inside) next (mem_successors.mpr step)).resolve_right List.not_mem_nil
  · have outside : re.program[pc]? = none := List.getElem?_eq_none (by rw [← closed.size]; omega)
    simp only [Step, outside] at step

theorem Closed.of_unused {closure : Closure} (size : closure.seen.length = re.program.length)
    (bounded : ∀ value ∈ closure.seen, value.toNat < stamp.toNat) : Closed re text pos stamp [] closure := by
  have unused (pc : ℕ) : closure.seen[pc]? ≠ some stamp := fun seen =>
    Nat.lt_irrefl _ (bounded stamp (List.mem_of_getElem? seen))
  refine ⟨size, fun value member => Nat.le_of_lt (bounded value member), ?_, ?_, ?_⟩
  · exact fun pc seen => absurd seen (unused pc)
  · exact fun pc seen => absurd seen (unused pc)
  · exact fun pc seen => absurd seen (unused pc)

/-- Every stamp in use is older than a later one, so nothing is marked with that. -/
theorem Closed.fresh {closure : Closure} {later : UInt32} (closed : Closed re text pos stamp [] closure)
    (newer : stamp.toNat < later.toNat) (target : ℕ) :
    Closed re text target later [] { closure with list := [] } := by
  apply Closed.of_unused
  · exact closed.size
  · intro value member
    exact Nat.lt_of_le_of_lt (closed.bounded value member) newer

theorem advance_closed (c : UInt8) (list : List ℕ) (next : Closure)
    (closed : Closed re text (pos + 1) (UInt32.ofNat pos + 2) [] next) :
    (re.advance text pos c list next).matched = true ∨
      Closed re text (pos + 1) (UInt32.ofNat pos + 2) [] (re.advance text pos c list next) ∧
        (∀ pc, Marked next (UInt32.ofNat pos + 2) pc →
          Marked (re.advance text pos c list next) (UInt32.ofNat pos + 2) pc) ∧
        ∀ pc ∈ list, re.consumes pc c = true →
          Marked (re.advance text pos c list next) (UInt32.ofNat pos + 2) (pc + 1) := by
  induction list generalizing next with
  | nil => exact .inr ⟨closed, fun _ marked => marked, fun _ member => absurd member List.not_mem_nil⟩
  | cons pc rest ih =>
    by_cases consumed : re.consumes pc c = true
    · simp only [advance, consumed, if_true]
      obtain found | ⟨closed, new, kept⟩ := addThread_closed closed (pc + 1)
      · rw [if_pos found]
        exact .inl found
      split_ifs with found
      · exact .inl found
      obtain found | ⟨closed, kept', moved⟩ := ih _ closed
      · exact .inl found
      refine .inr ⟨closed, fun other marked => kept' other (kept other marked), ?_⟩
      intro other member consumes
      obtain rfl | member := List.mem_cons.mp member
      · exact kept' _ new
      · exact moved other member consumes
    · rw [advance, if_neg consumed]
      obtain found | ⟨closed, kept, moved⟩ := ih next closed
      · exact .inl found
      refine .inr ⟨closed, kept, ?_⟩
      intro other member consumes
      obtain rfl | member := List.mem_cons.mp member
      · exact absurd consumes consumed
      · exact moved other member consumes

/-- Every thread that started before and is at the position is marked. -/
def Covers (re : Regex) (text : List UInt8) (pos : ℕ) (stamp : UInt32) (closure : Closure) (bound : ℕ) : Prop :=
  ∀ start < bound, ∀ pc, Relation.ReflTransGen (Step re text) (0, start) (pc, pos) → Marked closure stamp pc

/-- A start at the position itself adds what it reaches there. -/
theorem Covers.start {before closure : Closure} (covers : Covers re text pos stamp before pos)
    (kept : ∀ pc, Marked before stamp pc → Marked closure stamp pc)
    (closed : Closed re text pos stamp [] closure) (first : Marked closure stamp 0) :
    Covers re text pos stamp closure (pos + 1) := by
  intro start early pc reach
  by_cases earlier : start < pos
  · exact kept pc (covers start earlier pc reach)
  obtain rfl : start = pos := by omega
  -- A thread that has read nothing has only taken steps at the position.
  have marked : ∀ state : ℕ × ℕ, Relation.ReflTransGen (Step re text) (0, start) state →
      state.2 = start → Marked closure stamp state.1 := by
    intro state reach
    induction reach with
    | refl => exact fun _ => first
    | @tail middle state reach step ih =>
      intro same
      have below := reach_position reach
      have here : middle.2 = start := by
        obtain stay | read := step_position step
        · omega
        · omega
      apply closed.step (ih here)
      rw [← here]
      nth_rewrite 2 [here]
      rw [← same]
      exact step
  exact marked (pc, start) reach rfl

/-- The threads over a byte: every one of them is listed, and those that read it are marked next. -/
theorem Covers.advance {current next : Closure} {later : UInt32} {c : UInt8} (read : text[pos]? = some c)
    (covers : Covers re text pos stamp current (pos + 1)) (closed : Closed re text pos stamp [] current)
    (closedNext : Closed re text (pos + 1) later [] next)
    (moved : ∀ pc ∈ current.list, re.consumes pc c = true → Marked next later (pc + 1)) :
    Covers re text (pos + 1) later next (pos + 1) := by
  intro start early pc reach
  have marked : ∀ state : ℕ × ℕ, Relation.ReflTransGen (Step re text) (0, start) state →
      state.2 = pos + 1 → Marked next later state.1 := by
    intro state reach
    induction reach with
    | refl => exact fun same => absurd same (by simp only; omega)
    | @tail middle state prior step ih =>
      obtain ⟨before, at_⟩ := middle
      obtain ⟨after, target⟩ := state
      rintro rfl
      obtain rfl | same := step_position step
      · exact closedNext.step (ih rfl) step
      obtain rfl : at_ = pos := by simpa using same.symm
      obtain ⟨listed, c', read', consumed, rfl⟩ := step_reads step
      obtain rfl : c = c' := Option.some.inj (read.symm.trans read')
      apply moved before _ consumed
      have inside : before < current.seen.length := by
        rw [closed.size]
        apply Nat.lt_of_not_le
        intro outside
        simp [threads, List.getElem?_eq_none outside] at listed
      exact closed.listed before (covers start early before prior inside) listed
  exact marked (pc, pos + 1) reach rfl

theorem Covers.no_match {closure : Closure} {size : ℕ} (closed : Closed re text pos stamp [] closure)
    (covers : Covers re text pos stamp closure (pos + 1)) (last : re.program[size]? = some .matched) :
    ¬ Reached re text pos size := by
  rintro ⟨start, reach⟩
  have inside : size < closure.seen.length := by
    rw [closed.size]
    exact (List.getElem?_eq_some_iff.mp last).1
  have early := reach_position reach
  exact closed.unmatched size (covers start (Nat.lt_succ_of_le early) size reach inside) last

theorem toNat_stamp (small : pos + 1 < 2 ^ 32) : (UInt32.ofNat pos + 1).toNat = pos + 1 := by
  have one : (1 : UInt32).toNat = 1 := rfl
  rw [UInt32.toNat_add, UInt32.toNat_ofNat', one]
  omega

theorem searchFrom_complete {size : ℕ} (last : re.program[size]? = some .matched) (rest : List UInt8) (pos : ℕ)
    (current : Closure) (remains : text.drop pos = rest) (small : pos + 1 < 2 ^ 32)
    (closed : Closed re text pos (UInt32.ofNat pos + 1) [] current)
    (covers : Covers re text pos (UInt32.ofNat pos + 1) current pos)
    (missed : (re.searchFrom text rest pos current).1 = false) (target : ℕ) (from_ : pos ≤ target)
    (within : target ≤ text.length) (unwrapped : target + 1 < 2 ^ 32) : ¬ Reached re text target size := by
  induction rest generalizing pos current with
  | nil =>
    have ended : target = pos := by
      have := List.drop_eq_nil_iff.mp remains
      omega
    subst ended
    simp only [searchFrom] at missed
    split_ifs at missed with found
    obtain ⟨closed, first, kept⟩ := (addThread_closed closed 0).resolve_left found
    exact Covers.no_match closed (covers.start kept closed first) last
  | cons c rest ih =>
    obtain ⟨inside, read, remains⟩ := of_drop_eq_cons remains
    by_cases found : (re.addThread current (UInt32.ofNat pos + 1) 0 text pos).matched = true
    · simp [searchFrom, found] at missed
    simp only [searchFrom, if_neg found] at missed
    obtain ⟨closed, first, kept⟩ := (addThread_closed closed 0).resolve_left found
    have covers := covers.start kept closed first
    obtain rfl | later := Nat.eq_or_lt_of_le from_
    · exact Covers.no_match closed covers last
    have newer : (UInt32.ofNat pos + 1).toNat < (UInt32.ofNat pos + 2).toNat := by
      rw [← stamp_succ, toNat_stamp small, toNat_stamp (by omega)]
      exact Nat.lt_succ_self _
    split_ifs at missed with matched
    obtain ⟨closedNext, _, moved⟩ :=
      (advance_closed c _ _ (closed.fresh newer (pos + 1))).resolve_left matched
    have coversNext := covers.advance read closed closedNext moved
    rw [← stamp_succ] at closedNext coversNext
    exact ih (pos + 1) _ remains (by omega) closedNext coversNext missed later

/-! ## Search against the tree -/

section Compiled

variable {tree : Node} (wellFormed : tree.WellFormed) (compiled : compileTree tree = .ok re)

include wellFormed compiled

/-- A thread has come to the match exactly where the tree matches from somewhere. -/
theorem reached_iff_matches (text : List UInt8) :
    ∃ size, re.program.length = size + 1 ∧ (∀ pc, re.program[pc]? = some .matched ↔ pc = size) ∧
      ∀ target, Reached re text target size ↔ ∃ start ≤ target, tree.Matches text start target := by
  obtain ⟨size, length, last, fragment⟩ := compileTree_spec wellFormed compiled text
  refine ⟨size, length, last, fun target => ⟨?_, ?_⟩⟩
  · rintro ⟨start, reach⟩
    obtain ⟨steps, path⟩ := Path.of_reflTransGen reach
    obtain ⟨middle, rest, matched, _, path⟩ := fragment.sound steps start (size, target) path
      fun inside => Nat.lt_irrefl _ inside.2
    have stuck (next : ℕ × ℕ) : ¬ Step re text (size, middle) next := by
      simp only [Step, (last size).mpr rfl]
      exact not_false
    obtain rfl : middle = target := congrArg Prod.snd (path.eq_of_stuck stuck)
    exact ⟨start, reach_position reach, matched⟩
  · rintro ⟨start, _, matched⟩
    exact ⟨start, fragment.complete start target matched⟩

/-- What `Search` reports is a match, and it does not end where the stamps come to zero. -/
theorem search_sound {text : List UInt8} (found : re.search text = true) :
    ∃ start target, start ≤ target ∧ target ≤ text.length ∧ (target + 1) % 2 ^ 32 ≠ 0 ∧
      tree.Matches text start target := by
  obtain ⟨size, length, last, reached⟩ := reached_iff_matches wellFormed compiled text
  rw [search, searchCounting, if_neg (by rw [List.isEmpty_iff_length_eq_zero]; omega)] at found
  have initial : Sound re text 0 size { seen := List.replicate re.program.length 0 } := by
    refine ⟨rfl, fun _ member => absurd member List.not_mem_nil, ?_⟩
    rw [List.getElem?_replicate_of_lt (by omega)]
  obtain ⟨target, within, counted, reach⟩ :=
    searchFrom_sound last text 0 _ List.drop_zero (Nat.zero_le _) initial found
  obtain ⟨start, ordered, matched⟩ := (reached target).mp reach
  refine ⟨start, target, ordered, within, fun wrapped => counted ?_, matched⟩
  have one : (1 : UInt32).toNat = 1 := rfl
  apply UInt32.toNat.inj
  rw [UInt32.toNat_add, UInt32.toNat_ofNat', one, Nat.mod_add_mod, wrapped]
  rfl

/-- A match that ends before the stamps come round is found. -/
theorem search_complete {text : List UInt8} {start target : ℕ} (ordered : start ≤ target)
    (within : target ≤ text.length) (small : target + 1 < 2 ^ 32) (matched : tree.Matches text start target) :
    re.search text = true := by
  obtain ⟨size, length, last, reached⟩ := reached_iff_matches wellFormed compiled text
  rw [search, searchCounting, if_neg (by rw [List.isEmpty_iff_length_eq_zero]; omega)]
  apply Bool.eq_true_of_not_eq_false
  intro missed
  have initial : Closed re text 0 (UInt32.ofNat 0 + 1) [] { seen := List.replicate re.program.length 0 } := by
    apply Closed.of_unused List.length_replicate
    intro value member
    rw [List.eq_of_mem_replicate member]
    decide
  exact searchFrom_complete ((last size).mpr rfl) text 0 _ List.drop_zero (by omega) initial
    (fun start early => absurd early (Nat.not_lt_zero start)) missed target (Nat.zero_le _) within small
    ((reached target).mpr ⟨start, ordered, matched⟩)

end Compiled

/-- A stretch of the text matches. -/
def MatchesSomewhere (tree : Node) (text : List UInt8) : Prop :=
  ∃ first last, first ≤ last ∧ last ≤ text.length ∧ tree.Matches text first last

/-- No stretch of the text matches, or one does that ends while the stamps still count up. -/
def StampsSuffice (tree : Node) (text : List UInt8) : Prop :=
  MatchesSomewhere tree text →
    ∃ first last, first ≤ last ∧ last ≤ text.length ∧ last + 1 < 2 ^ 32 ∧ tree.Matches text first last

/-- An accepted pattern has a tree, which is compiled. -/
theorem exists_tree {pattern : List UInt8} {re : Regex} (accepted : compile pattern = .ok re) :
    ∃ tree, parse pattern = .ok tree ∧ tree.WellFormed ∧ compileTree tree = .ok re := by
  obtain ⟨tree, parsed, compiled⟩ := Outcome.bind_eq_ok.mp accepted
  exact ⟨tree, parsed, wellFormed_of_parse parsed, compiled⟩

/-- `Search` is exact as long as the stamps suffice, and on a text of fewer than 2^32 bytes only then. -/
theorem search_exact_iff {pattern : List UInt8} {re : Regex} (accepted : compile pattern = .ok re) :
    ∃ tree, parse pattern = .ok tree ∧ ∀ text,
      (StampsSuffice tree text → (re.search text = true ↔ MatchesSomewhere tree text)) ∧
      (text.length < 2 ^ 32 → (re.search text = true ↔ MatchesSomewhere tree text) →
        StampsSuffice tree text) := by
  obtain ⟨tree, parsed, wellFormed, compiled⟩ := exists_tree accepted
  refine ⟨tree, parsed, fun text => ⟨fun suffice => ⟨fun found => ?_, fun somewhere => ?_⟩, ?_⟩⟩
  · obtain ⟨first, last, ordered, within, _, matched⟩ := search_sound wellFormed compiled found
    exact ⟨first, last, ordered, within, matched⟩
  · obtain ⟨first, last, ordered, within, small, matched⟩ := suffice somewhere
    exact search_complete wellFormed compiled ordered within small matched
  · intro short exact_ somewhere
    obtain ⟨first, last, ordered, within, counted, matched⟩ :=
      search_sound wellFormed compiled (exact_.mpr somewhere)
    exact ⟨first, last, ordered, within, by omega, matched⟩

/-- The pattern of one letter is found in a text that has it. -/
theorem search_exact_iff_letter :
    ∃ tree, parse [0x61] = .ok tree ∧ ∀ text,
      (StampsSuffice tree text →
        (search ⟨[.byte 0x61, .matched], []⟩ text = true ↔ MatchesSomewhere tree text)) ∧
      (text.length < 2 ^ 32 →
        (search ⟨[.byte 0x61, .matched], []⟩ text = true ↔ MatchesSomewhere tree text) →
          StampsSuffice tree text) :=
  search_exact_iff rfl

/-- The end of the text is missed where its stamp is zero. -/
theorem end_missed {text : List UInt8} (wraps : (text.length + 1) % 2 ^ 32 = 0) :
    search ⟨[.assertion .inputEnd, .matched], []⟩ text = false := by
  apply Bool.eq_false_of_not_eq_true
  intro found
  have wellFormed : (Node.assertion .inputEnd).WellFormed := by simp [Node.WellFormed]
  obtain ⟨first, last, _, _, counted, matched⟩ := search_sound wellFormed rfl found
  simp only [Node.Matches, Assert.holds, beq_iff_eq] at matched
  obtain ⟨rfl, rfl⟩ := matched
  exact counted wraps

/-- A text of 2^32 - 1 bytes: the pattern matches at its end, and `Search` does not find it. -/
theorem search_misses_end :
    compile [0x24] = .ok ⟨[.assertion .inputEnd, .matched], []⟩ ∧
      parse [0x24] = .ok (.assertion .inputEnd) ∧
      ¬ (search ⟨[.assertion .inputEnd, .matched], []⟩ (List.replicate (2 ^ 32 - 1) 0x78) = true ↔
        MatchesSomewhere (.assertion .inputEnd) (List.replicate (2 ^ 32 - 1) 0x78)) := by
  refine ⟨rfl, rfl, fun exact_ => ?_⟩
  have missed : search ⟨[.assertion .inputEnd, .matched], []⟩ (List.replicate (2 ^ 32 - 1) 0x78) = false := by
    apply end_missed
    rw [List.length_replicate]
    decide
  have somewhere : MatchesSomewhere (.assertion .inputEnd) (List.replicate (2 ^ 32 - 1) 0x78) := by
    refine ⟨2 ^ 32 - 1, 2 ^ 32 - 1, Nat.le_refl _, ?_, ?_⟩
    · rw [List.length_replicate]
    · simp only [Node.Matches, Assert.holds, List.length_replicate, beq_self_eq_true, and_self]
  rw [exact_.mpr somewhere] at missed
  cases missed

end OpalCpp.Regex

import Mathlib.Order.Interval.Finset.Nat
import OpalCpp.Machine.Stamps
import OpalCpp.Proofs.Core.RegexSearch

/-! # The work of a search

A search is a sequence of calls of `AddThread`, each with the instructions that it expands. Their stamps
never decrease, so that the marks make one sequence over both lists of threads, in which no instruction
comes twice with one stamp: there are as many stamps as positions, and the steps are counted by the marks.
-/

namespace OpalCpp.Regex

variable {re : Regex} {text : List UInt8} {pos : ℕ} {stamp : UInt32}

/-! ## The calls of a search -/

/-- The loop of `AddThread` from a work list to its end or to a match, with the instructions it expands. -/
inductive Runs (re : Regex) (stamp : UInt32) (text : List UInt8) (pos : ℕ) : List ℕ → Closure → List ℕ → Closure → Prop
  | done (closure : Closure) : Runs re stamp text pos [] closure [] closure
  | skip {pc : ℕ} {work expansions : List ℕ} {closure after : Closure} : closure.seen[pc]? = some stamp →
      Runs re stamp text pos work closure expansions after → Runs re stamp text pos (pc :: work) closure expansions after
  | found {pc : ℕ} {work : List ℕ} {closure : Closure} : closure.seen[pc]? ≠ some stamp → re.program[pc]? = some .matched →
      Runs re stamp text pos (pc :: work) closure [pc]
        { closure with seen := closure.seen.set pc stamp, steps := closure.steps + 1, matched := true }
  | expand {pc : ℕ} {work expansions : List ℕ} {closure after : Closure} : closure.seen[pc]? ≠ some stamp →
      re.program[pc]? ≠ some .matched →
      Runs re stamp text pos (successors re text pos pc ++ work) (expanded re closure stamp pc) expansions after →
      Runs re stamp text pos (pc :: work) closure (pc :: expansions) after

/-- The instructions that the loop expands, in order. -/
def expansions (re : Regex) (stamp : UInt32) (text : List UInt8) (pos : ℕ) : ℕ → List ℕ → Closure → List ℕ
  | 0, _, _ => []
  | _, [], _ => []
  | fuel + 1, pc :: work, closure =>
    if closure.seen[pc]? = some stamp then expansions re stamp text pos fuel work closure
    else if re.program[pc]? = some .matched then [pc]
    else pc :: expansions re stamp text pos fuel (successors re text pos pc ++ work) (expanded re closure stamp pc)

/-- A call of `AddThread`; the list of threads it adds to is that of its closures. -/
structure Added where
  stamp : UInt32
  pc : ℕ
  pos : ℕ
  before : Closure
  expansions : List ℕ
  after : Closure

/-- The instructions it expands, with its stamp. -/
def Added.marks (added : Added) : List (ℕ × ℕ) := added.expansions.map fun pc => (added.stamp.toNat, pc)

def added (re : Regex) (closure : Closure) (stamp : UInt32) (pc : ℕ) (text : List UInt8) (pos : ℕ) : Added where
  stamp := stamp
  pc := pc
  pos := pos
  before := closure
  expansions := expansions re stamp text pos (2 * re.program.length + 2) [pc] closure
  after := re.addThread closure stamp pc text pos

/-- The calls of `advance`. -/
def advanceCalls (re : Regex) (text : List UInt8) (pos : ℕ) (c : UInt8) : List ℕ → Closure → List Added
  | [], _ => []
  | pc :: rest, next =>
    if re.consumes pc c then
      let after := re.addThread next (UInt32.ofNat pos + 2) (pc + 1) text (pos + 1)
      added re next (UInt32.ofNat pos + 2) (pc + 1) text (pos + 1) ::
        if after.matched then [] else advanceCalls re text pos c rest after
    else advanceCalls re text pos c rest next

/-- The calls of `searchFrom`. -/
def searchCalls (re : Regex) (text : List UInt8) : List UInt8 → ℕ → Closure → List Added
  | rest, pos, current =>
    let started := re.addThread current (UInt32.ofNat pos + 1) 0 text pos
    added re current (UInt32.ofNat pos + 1) 0 text pos ::
      if started.matched then []
      else
        match rest with
        | [] => []
        | c :: rest =>
          let next := re.advance text pos c started.list { started with list := [] }
          advanceCalls re text pos c started.list { started with list := [] } ++
            if next.matched then [] else searchCalls re text rest (pos + 1) next

/-- The calls of `Search`. -/
def calls (re : Regex) (text : List UInt8) : List Added :=
  if re.program.isEmpty then [] else searchCalls re text text 0 { seen := List.replicate re.program.length 0 }

theorem length_expanded (closure : Closure) (pc : ℕ) : (expanded re closure stamp pc).seen.length = closure.seen.length :=
  List.length_set

/-- With the fuel it has, the loop runs to its end. -/
theorem runs_expansions (fuel : ℕ) (work : List ℕ) (closure : Closure) (size : closure.seen.length = re.program.length)
    (enough : 2 * unseen closure stamp + work.length ≤ fuel) :
    Runs re stamp text pos work closure (expansions re stamp text pos fuel work closure)
      (addThreadLoop re stamp text pos fuel work closure) := by
  induction fuel generalizing work closure with
  | zero =>
    obtain rfl : work = [] := List.eq_nil_of_length_eq_zero (by omega)
    exact .done closure
  | succ fuel ih =>
    cases work with
    | nil => exact .done closure
    | cons pc work =>
      rw [List.length_cons] at enough
      by_cases marked : closure.seen[pc]? = some stamp
      · rw [addThreadLoop, if_pos marked, expansions, if_pos marked]
        exact .skip marked (ih work closure size (by omega))
      by_cases found : re.program[pc]? = some .matched
      · rw [addThreadLoop, if_neg marked, expansions, if_neg marked, if_pos found, found]
        exact .found marked found
      · have paid := unseen_expanded text pos size marked
        rw [addThreadLoop_expand marked found, expansions, if_neg marked, if_neg found]
        apply Runs.expand marked found
        apply ih
        · exact (length_expanded closure pc).trans size
        · rw [List.length_append]
          omega

theorem runs_added (closure : Closure) (pc : ℕ) (size : closure.seen.length = re.program.length) :
    Runs re stamp text pos [pc] closure (added re closure stamp pc text pos).expansions
      (re.addThread closure stamp pc text pos) := by
  apply runs_expansions _ _ _ size
  have few : unseen closure stamp ≤ closure.seen.length := List.countP_le_length
  rw [List.length_singleton]
  omega

/-! ## One call -/

/-- The threads in the list are distinct, have been marked, and come from the start of the program. -/
structure Linear (re : Regex) (text : List UInt8) (pos : ℕ) (stamp : UInt32) (closure : Closure) : Prop where
  size : closure.seen.length = re.program.length
  bounded : ∀ value ∈ closure.seen, value.toNat ≤ stamp.toNat
  distinct : closure.list.Nodup
  marked : ∀ pc ∈ closure.list, closure.seen[pc]? = some stamp
  reached : ∀ pc ∈ closure.list, Reached re text pos pc

theorem threads_subset (re : Regex) (pc : ℕ) : threads re pc ⊆ [pc] := by
  intro thread member
  rw [threads] at member
  split at member
  · exact member
  · exact member
  · cases member

theorem nodup_threads (re : Regex) (pc : ℕ) : (threads re pc).Nodup := by
  rw [threads]
  split
  · exact List.nodup_singleton pc
  · exact List.nodup_singleton pc
  · exact List.nodup_nil

theorem Linear.expanded {closure : Closure} {pc : ℕ} (linear : Linear re text pos stamp closure)
    (fresh : closure.seen[pc]? ≠ some stamp) (inside : pc < re.program.length) (here : Reached re text pos pc) :
    Linear re text pos stamp (expanded re closure stamp pc) where
  size := (length_expanded closure pc).trans linear.size
  bounded value member := by
    obtain member | rfl := List.mem_or_eq_of_mem_set member
    · exact linear.bounded value member
    · exact Nat.le_refl _
  distinct := by
    apply List.Nodup.append linear.distinct (nodup_threads re pc)
    intro thread before now
    obtain rfl := List.mem_singleton.mp (threads_subset re pc now)
    exact fresh (linear.marked thread before)
  marked thread member := by
    rcases eq_or_ne pc thread with rfl | other
    · exact List.getElem?_set_self (by rw [linear.size]; exact inside)
    · obtain member | member := List.mem_append.mp member
      · rw [Regex.expanded, List.getElem?_set_ne other]
        exact linear.marked thread member
      · exact absurd (List.mem_singleton.mp (threads_subset re pc member)).symm other
  reached thread member := by
    obtain member | member := List.mem_append.mp member
    · exact linear.reached thread member
    · obtain rfl := List.mem_singleton.mp (threads_subset re pc member)
      exact here

/-- With the stamp of the next position the list is empty. -/
theorem Linear.next {closure : Closure} {later : UInt32} (linear : Linear re text pos stamp closure)
    (newer : stamp.toNat < later.toNat) : Linear re text (pos + 1) later { closure with list := [] } where
  size := linear.size
  bounded value member := (linear.bounded value member).trans newer.le
  distinct := .nil
  marked _ member := absurd member List.not_mem_nil
  reached _ member := absurd member List.not_mem_nil

/-- Stamps as numbers, of which the marks are made. -/
def stamps (closure : Closure) : List ℕ := closure.seen.map UInt32.toNat

theorem stamps_expanded (closure : Closure) (pc : ℕ) :
    stamps (expanded re closure stamp pc) = (stamps closure).set pc stamp.toNat :=
  List.map_set

theorem Linear.stamps_le {closure : Closure} (linear : Linear re text pos stamp closure) :
    ∀ value ∈ stamps closure, value ≤ stamp.toNat := by
  intro value member
  obtain ⟨entry, here, rfl⟩ := List.mem_map.mp member
  exact linear.bounded entry here

theorem stamps_ne {closure : Closure} {pc : ℕ} (fresh : closure.seen[pc]? ≠ some stamp) :
    (stamps closure)[pc]? ≠ some stamp.toNat := by
  intro same
  rw [stamps, List.getElem?_map, Option.map_eq_some_iff] at same
  obtain ⟨value, here, equal⟩ := same
  rw [UInt32.toNat.inj equal] at here
  exact fresh here

section InRange

variable (inRange : ∀ pos pc, Reached re text pos pc → pc < re.program.length)

include inRange

/-- What the loop does with a list of distinct threads: it marks what it expands, and counts it. -/
theorem Runs.spec {work expansions : List ℕ} {closure after : Closure}
    (runs : Runs re stamp text pos work closure expansions after)
    (linear : Linear re text pos stamp closure) (pushed : ∀ pc ∈ work, Reached re text pos pc) :
    Linear re text pos stamp after ∧
      Stamps.Marks (stamps closure) (expansions.map fun pc => (stamp.toNat, pc)) (stamps after) ∧
      after.steps = closure.steps + expansions.length := by
  induction runs with
  | done closure => exact ⟨linear, .nil _, rfl⟩
  | skip marked _ ih => exact ih linear fun pc member => pushed pc (List.mem_cons_of_mem _ member)
  | @found pc work closure fresh found =>
    have here := pushed pc List.mem_cons_self
    have inside := inRange pos pc here
    have none_ : threads re pc = [] := by rw [threads, found]
    have after := linear.expanded fresh inside here
    rw [Regex.expanded, none_, List.append_nil] at after
    refine ⟨⟨after.size, after.bounded, after.distinct, after.marked, after.reached⟩, ?_, rfl⟩
    apply Stamps.Marks.cons _ linear.stamps_le (stamps_ne fresh)
    · unfold stamps
      rw [← List.map_set]
      exact .nil _
    · rw [stamps, List.length_map, linear.size]
      exact inside
  | @expand pc work expansions closure after fresh found _ ih =>
    have here := pushed pc List.mem_cons_self
    have inside := inRange pos pc here
    obtain ⟨linear', marks, steps⟩ := ih (linear.expanded fresh inside here) (by
      intro next member
      obtain member | member := List.mem_append.mp member
      · exact here.step (mem_successors.mp member)
      · exact pushed next (List.mem_cons_of_mem _ member))
    refine ⟨linear', ?_, ?_⟩
    · rw [stamps_expanded] at marks
      apply Stamps.Marks.cons _ linear.stamps_le (stamps_ne fresh) marks
      rw [stamps, List.length_map, linear.size]
      exact inside
    · have one : (Regex.expanded re closure stamp pc).steps = closure.steps + 1 := rfl
      rw [steps, one, List.length_cons]
      omega

end InRange

/-! ## The calls in sequence -/

/-- What is true of a sequence of calls between two closures, with the stamps between two bounds. -/
structure Logged (re : Regex) (text : List UInt8) (before after : Closure) (low high : ℕ) (log : List Added) : Prop where
  complete : ∀ call ∈ log, Runs re call.stamp text call.pos [call.pc] call.before call.expansions call.after
  distinct : ∀ call ∈ log, call.after.list.Nodup
  within : ∀ call ∈ log, low ≤ call.stamp.toNat ∧ call.stamp.toNat ≤ high
  ordered : log.Pairwise fun first second => first.stamp.toNat ≤ second.stamp.toNat
  marks : Stamps.Marks (stamps before) (log.flatMap Added.marks) (stamps after)
  steps : after.steps = before.steps + (log.flatMap Added.marks).length

theorem Logged.nil (re : Regex) (text : List UInt8) (closure : Closure) (low high : ℕ) :
    Logged re text closure closure low high [] where
  complete _ member := absurd member List.not_mem_nil
  distinct _ member := absurd member List.not_mem_nil
  within _ member := absurd member List.not_mem_nil
  ordered := .nil
  marks := .nil _
  steps := rfl

theorem Logged.append {before between after : Closure} {low middle high : ℕ} {log more : List Added} (below : low ≤ middle)
    (above : middle ≤ high) (first : Logged re text before between low middle log)
    (second : Logged re text between after middle high more) :
    Logged re text before after low high (log ++ more) where
  complete call member := (List.mem_append.mp member).elim (first.complete call) (second.complete call)
  distinct call member := (List.mem_append.mp member).elim (first.distinct call) (second.distinct call)
  within call member := by
    obtain member | member := List.mem_append.mp member
    · have inside := first.within call member
      omega
    · have inside := second.within call member
      omega
  ordered := by
    refine List.pairwise_append.mpr ⟨first.ordered, second.ordered, ?_⟩
    intro early member late member'
    exact (first.within early member).2.trans (second.within late member').1
  marks := by
    rw [List.flatMap_append]
    exact first.marks.trans second.marks
  steps := by
    rw [List.flatMap_append, List.length_append, second.steps, first.steps, Nat.add_assoc]

/-- The lists of threads may change between the calls. -/
theorem Logged.of_list {before after : Closure} {low high : ℕ} {log : List Added} {list : List ℕ}
    (logged : Logged re text { before with list := list } after low high log) : Logged re text before after low high log :=
  ⟨logged.complete, logged.distinct, logged.within, logged.ordered, logged.marks, logged.steps⟩

theorem Logged.mono {before after : Closure} {low high higher : ℕ} {log : List Added}
    (logged : Logged re text before after low high log) (above : high ≤ higher) :
    Logged re text before after low higher log where
  complete := logged.complete
  distinct := logged.distinct
  within call member := (logged.within call member).imp_right fun below => below.trans above
  ordered := logged.ordered
  marks := logged.marks
  steps := logged.steps

section InRange

variable (inRange : ∀ pos pc, Reached re text pos pc → pc < re.program.length)

include inRange

theorem logged_added {closure : Closure} {pc : ℕ} (linear : Linear re text pos stamp closure)
    (here : Reached re text pos pc) :
    Linear re text pos stamp (re.addThread closure stamp pc text pos) ∧
      Logged re text closure (re.addThread closure stamp pc text pos) stamp.toNat stamp.toNat
        [added re closure stamp pc text pos] := by
  have runs : Runs re stamp text pos [pc] closure _ _ := runs_added closure pc linear.size
  obtain ⟨linear', marks, steps⟩ := runs.spec inRange linear (by simpa using here)
  refine ⟨linear', ?_⟩
  have flat : [added re closure stamp pc text pos].flatMap Added.marks = (added re closure stamp pc text pos).marks :=
    List.flatMap_singleton _ _
  constructor
  · intro call member
    obtain rfl := List.mem_singleton.mp member
    exact runs
  · intro call member
    obtain rfl := List.mem_singleton.mp member
    exact linear'.distinct
  · intro call member
    obtain rfl := List.mem_singleton.mp member
    exact ⟨Nat.le_refl _, Nat.le_refl _⟩
  · exact List.pairwise_singleton _ _
  · rw [flat]
    exact marks
  · rw [flat, Added.marks, List.length_map]
    exact steps

/-- The calls over one byte: all have the stamp of the next position. -/
theorem logged_advance {c : UInt8} (read : text[pos]? = some c) (list : List ℕ) (next : Closure)
    (listed : ∀ pc ∈ list, Reached re text pos pc) (linear : Linear re text (pos + 1) (UInt32.ofNat pos + 2) next) :
    Linear re text (pos + 1) (UInt32.ofNat pos + 2) (re.advance text pos c list next) ∧
      Logged re text next (re.advance text pos c list next) (UInt32.ofNat pos + 2).toNat (UInt32.ofNat pos + 2).toNat
        (advanceCalls re text pos c list next) := by
  induction list generalizing next with
  | nil => exact ⟨linear, .nil ..⟩
  | cons pc rest ih =>
    have others : ∀ pc ∈ rest, Reached re text pos pc := fun pc member => listed pc (List.mem_cons_of_mem _ member)
    by_cases consumed : re.consumes pc c = true
    · have moved := (listed pc List.mem_cons_self).step (step_consumes read consumed)
      obtain ⟨linear', call⟩ := logged_added inRange linear moved
      rw [advance, if_pos consumed, advanceCalls, if_pos consumed]
      dsimp only
      split_ifs with matched
      · exact ⟨linear', call⟩
      · obtain ⟨linear'', more⟩ := ih _ others linear'
        exact ⟨linear'', call.append (Nat.le_refl _) (Nat.le_refl _) more⟩
    · rw [advance, if_neg consumed, advanceCalls, if_neg consumed]
      exact ih next others linear

/-- The calls from a position on, with the stamps from its own to that of the end. -/
theorem logged_search (short : text.length + 2 < 2 ^ 32) (rest : List UInt8) (pos : ℕ) (current : Closure)
    (remains : text.drop pos = rest) (within : pos ≤ text.length)
    (linear : Linear re text pos (UInt32.ofNat pos + 1) current) :
    ∃ after, Logged re text current after (pos + 1) (text.length + 1) (searchCalls re text rest pos current) ∧
      (re.searchFrom text rest pos current).2 = after.steps := by
  induction rest generalizing pos current with
  | nil =>
    obtain ⟨_, call⟩ := logged_added inRange linear ⟨pos, .refl⟩
    rw [toNat_stamp (by omega)] at call
    refine ⟨re.addThread current (UInt32.ofNat pos + 1) 0 text pos, ?_, ?_⟩
    · rw [searchCalls, ite_self]
      exact call.mono (by omega)
    · rw [searchFrom]
      split_ifs <;> rfl
  | cons c rest ih =>
    obtain ⟨inside, read, remains⟩ := of_drop_eq_cons remains
    obtain ⟨linear', call⟩ := logged_added inRange linear ⟨pos, .refl⟩
    rw [toNat_stamp (by omega)] at call
    rw [searchFrom, searchCalls]
    dsimp only
    generalize re.addThread current (UInt32.ofNat pos + 1) 0 text pos = started at linear' call ⊢
    by_cases matched : started.matched = true
    · rw [if_pos matched, if_pos matched]
      exact ⟨started, call.mono (by omega), rfl⟩
    rw [if_neg matched, if_neg matched]
    obtain ⟨linear'', moved⟩ := logged_advance inRange read started.list { started with list := [] } linear'.reached
      (linear'.next (by rw [← stamp_succ, toNat_stamp (by omega), toNat_stamp (by omega)]; omega))
    generalize re.advance text pos c started.list { started with list := [] } = next at linear'' moved ⊢
    rw [← stamp_succ, toNat_stamp (by omega)] at moved
    rw [← stamp_succ] at linear''
    have both := (call.mono (Nat.le_succ _)).append (Nat.le_succ _) (Nat.le_refl _) moved.of_list
    by_cases passed : next.matched = true
    · rw [if_pos passed, if_pos passed, List.append_nil]
      exact ⟨next, both.mono (by omega), rfl⟩
    · rw [if_neg passed, if_neg passed]
      obtain ⟨after, others, steps⟩ := ih (pos + 1) next remains inside linear''
      exact ⟨after, both.append (by omega) (by omega) others, steps⟩

end InRange

/-! ## Compiled programs -/

/-- No thread leaves a compiled program. -/
theorem inRange_of_compiled {tree : Node} (wellFormed : tree.WellFormed) (compiled : compileTree tree = .ok re)
    (text : List UInt8) :
    ∀ pos pc, Reached re text pos pc → pc < re.program.length := by
  obtain ⟨size, length, last, fragment⟩ := compileTree_spec wellFormed compiled text
  rintro pos pc ⟨start, reach⟩
  rcases Nat.lt_or_ge pc size with inside | outside
  · omega
  · obtain ⟨steps, path⟩ := Path.of_reflTransGen reach
    obtain ⟨middle, rest, _, _, path⟩ :=
      fragment.sound steps start (pc, pos) path fun inside => Nat.not_lt.mpr outside inside.2
    have stuck (next : ℕ × ℕ) : ¬ Step re text (size, middle) next := by
      simp only [Step, (last size).mpr rfl]
      exact not_false
    obtain rfl : size = pc := congrArg Prod.fst (path.eq_of_stuck stuck)
    omega

/-- A search calls `AddThread` with stamps that never decrease; each call runs to its end. No instruction is
expanded twice with one stamp, no list of threads has one twice, and the steps, which are the expansions, are
no more than the instructions of the program for each position. -/
theorem search_linear {pattern : List UInt8} {re : Regex} (accepted : compile pattern = .ok re) (text : List UInt8)
    (short : text.length < 2 ^ 32 - 2) :
    (∀ call ∈ calls re text, Runs re call.stamp text call.pos [call.pc] call.before call.expansions call.after) ∧
    (calls re text).Pairwise (fun first second => first.stamp.toNat ≤ second.stamp.toNat) ∧
    ((calls re text).flatMap Added.marks).Nodup ∧
    (∀ call ∈ calls re text, call.after.list.Nodup) ∧
    (re.searchCounting text).2 = ((calls re text).flatMap Added.marks).length ∧
    (re.searchCounting text).2 ≤ re.program.length * (text.length + 1) := by
  obtain ⟨tree, parsed, wellFormed, compiled⟩ := exists_tree accepted
  obtain ⟨size, length, _⟩ := compileTree_spec wellFormed compiled text
  have nonempty : ¬ re.program.isEmpty = true := by
    rw [List.isEmpty_iff_length_eq_zero]
    omega
  have start : Linear re text 0 (UInt32.ofNat 0 + 1) { seen := List.replicate re.program.length 0 } := by
    refine ⟨List.length_replicate, ?_, .nil, fun _ member => absurd member List.not_mem_nil,
      fun _ member => absurd member List.not_mem_nil⟩
    intro value member
    rw [List.eq_of_mem_replicate member]
    exact Nat.zero_le _
  obtain ⟨after, logged, steps⟩ := logged_search (inRange_of_compiled wellFormed compiled text) (by omega) text 0 _
    List.drop_zero (Nat.zero_le _) start
  rw [calls, searchCounting, if_neg nonempty, if_neg nonempty]
  have counted : (re.searchFrom text text 0 { seen := List.replicate re.program.length 0 }).2 =
      ((searchCalls re text text 0 { seen := List.replicate re.program.length 0 }).flatMap Added.marks).length := by
    rw [steps, logged.steps]
    exact Nat.zero_add _
  refine ⟨logged.complete, logged.ordered, logged.marks.nodup, logged.distinct, counted, ?_⟩
  have bound := logged.marks.count_le (Finset.Icc 1 (text.length + 1)) (by
    intro mark member
    obtain ⟨call, inside, marked⟩ := List.mem_flatMap.mp member
    obtain ⟨pc, _, rfl⟩ := List.mem_map.mp marked
    exact Finset.mem_Icc.mpr (logged.within call inside))
  rw [counted]
  rwa [Nat.card_Icc, stamps, List.length_map, List.length_replicate, Nat.add_sub_cancel, Nat.mul_comm] at bound

/-- The pattern of one letter over a text of two. -/
theorem search_linear_letter :
    (∀ call ∈ calls ⟨[.byte 0x61, .matched], []⟩ [0x62, 0x63],
      Runs ⟨[.byte 0x61, .matched], []⟩ call.stamp [0x62, 0x63] call.pos [call.pc] call.before call.expansions call.after) ∧
    (calls ⟨[.byte 0x61, .matched], []⟩ [0x62, 0x63]).Pairwise (fun first second => first.stamp.toNat ≤ second.stamp.toNat) ∧
    ((calls ⟨[.byte 0x61, .matched], []⟩ [0x62, 0x63]).flatMap Added.marks).Nodup ∧
    (∀ call ∈ calls ⟨[.byte 0x61, .matched], []⟩ [0x62, 0x63], call.after.list.Nodup) ∧
    (searchCounting ⟨[.byte 0x61, .matched], []⟩ [0x62, 0x63]).2 =
      ((calls ⟨[.byte 0x61, .matched], []⟩ [0x62, 0x63]).flatMap Added.marks).length ∧
    (searchCounting ⟨[.byte 0x61, .matched], []⟩ [0x62, 0x63]).2 ≤ 2 * (2 + 1) := by
  have accepted : compile [0x61] = .ok ⟨[.byte 0x61, .matched], []⟩ := rfl
  exact search_linear accepted [0x62, 0x63] (by decide)

end OpalCpp.Regex

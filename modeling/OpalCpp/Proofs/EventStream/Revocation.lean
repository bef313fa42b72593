import OpalCpp.Model.EventStream.SharedSession

/-! # Revoking a borrowed socket

The pins are counted exactly, each is released once, and that of a `SendAsync` before the
application hears of it, in every run. What `End` promises is that the borrow may die when it
returns. A `SendAsync` keeps its pin only until its completion runs, and the socket may run the
completion before the call that was given it has returned: then nothing holds `End` back while that
call is still inside the socket. Runs in which `End` does not return in such a moment are exactly
those in which the promise is kept.
-/

namespace OpalCpp.EventStream

/-- The states a call on a borrowed socket can be in. -/
inductive HandleCall.Sound : HandleCall → Prop
  | blocking (op : HandleOp) (stage : Stage) (sync : op ≠ .sendAsync) (running : stage ≠ .finished) :
      Sound { op, hold := { socket := true }, stage }
  | done (op : HandleOp) (sync : op ≠ .sendAsync) :
      Sound { op, hold := { socket := true }, stage := .finished, drops := 1 }
  | issuing : Sound { op := .sendAsync, hold := { socket := true } }
  | pending (stage : Stage) (issued : stage = .inside ∨ stage = .finished) :
      Sound { op := .sendAsync, hold := { socket := true }, stage, completion := .outstanding }
  | completed (stage : Stage) (issued : stage = .inside ∨ stage = .finished) (completion : Completion)
      (ran : completion = .released ∨ completion = .called) :
      Sound { op := .sendAsync, hold := { socket := true }, stage, completion, drops := 1 }

/-- The pin of the call has been acquired and not released. -/
def HandleCall.pinned (call : HandleCall) : Bool := call.drops == 0

/-- The completion of the call has run and the call has not returned from the socket. -/
def HandleCall.overtaken (call : HandleCall) : Bool :=
  call.stage = .inside && (call.completion = .released || call.completion = .called)

namespace Revocation

variable {state target : Revocation} {label : RevocationLabel}

/-- `End` does not return with a call still inside the socket whose completion has run. -/
def awaited (state : Revocation) (label : RevocationLabel) : Bool :=
  !(label = .drained && state.calls.any HandleCall.overtaken)

/-- What one step of a call does to the count. -/
inductive Moved (view : SharedSessionState) (before : HandleCall) : SharedSessionState → HandleCall → Prop
  | kept (after : HandleCall) (sound : after.Sound) (drops : after.drops = before.drops)
      (later : before.stage = .acquired ∨ (after.stage ≠ .acquired ∧
        (after.stage = .inside → before.stage = .inside) ∧
        (after.completion = .outstanding → before.completion = .outstanding))) :
      Moved view before view after
  | released (after : HandleCall) (sound : after.Sound) (pinned : before.drops = 0) (dropped : after.drops = 1) :
      Moved view before view.releasePin after

/-- A step of a call keeps it sound and releases its pin at most once. -/
theorem moved_of_sound {view after : SharedSessionState} {before call : HandleCall} (sound : before.Sound)
    (moves : enter view before = some (after, call) ∨ leave view before = some (after, call) ∨
      release view before = some (after, call) ∨ complete view before = some (after, call) ∨
      callback view before = some (after, call)) : Moved view before after call := by
  cases sound with
  | blocking op stage sync running =>
    obtain moves | moves | moves | moves | moves := moves <;>
      simp only [enter, leave, release, complete, callback, reduceCtorEq, ↓reduceIte, sync,
        Option.ite_none_right_eq_some, Option.some.injEq, Prod.mk.injEq] at moves
    · obtain ⟨rfl, rfl, rfl⟩ := moves
      exact .kept _ (.blocking op .inside sync (by decide)) rfl (.inl rfl)
    · obtain ⟨rfl, rfl, rfl⟩ := moves
      exact .kept _ (.blocking op .returned sync (by decide)) rfl (.inr ⟨by simp, by simp, by simp⟩)
    · obtain ⟨rfl, rfl, rfl⟩ := moves
      exact .released _ (.done op sync) rfl rfl
  | done op sync =>
    obtain moves | moves | moves | moves | moves := moves <;> cases moves
  | issuing =>
    obtain moves | moves | moves | moves | moves := moves <;> cases moves
    exact .kept _ (.pending .inside (.inl rfl)) rfl (.inl rfl)
  | pending stage issued =>
    obtain moves | moves | moves | moves | moves := moves
    · obtain rfl | rfl := issued <;> cases moves
    · obtain rfl | rfl := issued <;> cases moves
      exact .kept _ (.pending .finished (.inr rfl)) rfl (.inr ⟨by simp, by simp, by simp⟩)
    · obtain rfl | rfl := issued <;> cases moves
    · cases moves
      exact .released _ (.completed stage issued .released (.inl rfl)) rfl rfl
    · cases moves
  | completed stage issued completion ran =>
    obtain moves | moves | moves | moves | moves := moves
    · obtain rfl | rfl := issued <;> cases moves
    · obtain rfl | rfl := issued <;> cases moves
      exact .kept _ (.completed .finished (.inr rfl) completion ran) rfl (.inr ⟨by simp, by simp, by simp⟩)
    · obtain rfl | rfl := issued <;> cases moves
    · obtain rfl | rfl := ran <;> cases moves
    · obtain rfl | rfl := ran <;> cases moves
      refine .kept _ (.completed stage issued .called (.inr rfl)) rfl ?_
      obtain rfl | rfl := issued
      · exact .inr ⟨by simp, by simp, by simp⟩
      · exact .inr ⟨by simp, by simp, by simp⟩

/-- The steps of the machine. -/
inductive Step (state : Revocation) : RevocationLabel → Revocation → Prop
  /-- A call that gets no socket. -/
  | missed (op : HandleOp) (moved encodes : Bool) : Step state (.call op moved encodes) state
  | acquired (op : HandleOp) (moved encodes : Bool) (live : state.view.socket = true)
      (borrowed : state.view.owner = false) :
      Step state (.call op moved encodes)
        { state with
          view := { state.view with active := state.view.active + 1 }
          calls := state.calls ++ [{ op, hold := { socket := true } }] }
  /-- A call takes a step of its own. -/
  | moved (label : RevocationLabel) (index : ℕ) (before after : HandleCall) (view : SharedSessionState)
      (other : label ≠ .drained) (found : state.calls[index]? = some before)
      (moves : before.Sound → Moved state.view before view after) :
      Step state label { state with view, calls := state.calls.set index after }
  | revoke (idle : state.ending = .idle) :
      Step state .revoke
        { state with view := { state.view with socket := false }, ending := .revoked }
  | close (revoked : state.ending = .revoked) : Step state .close { state with ending := .closing }
  | closed (closing : state.ending = .closing) : Step state .closed { state with ending := .waiting }
  | drained (waiting : state.ending = .waiting) (none : state.view.active = 0) :
      Step state .drained { state with ending := .returned }

theorem move_spec {index : ℕ} {moves : HandleCall → Option (SharedSessionState × HandleCall)}
    (moved : state.move index moves = some target) :
    ∃ before view after, state.calls[index]? = some before ∧ moves before = some (view, after) ∧
      target = { state with view, calls := state.calls.set index after } := by
  simp only [move] at moved
  split at moved
  · cases moved
  · next before found =>
    obtain ⟨⟨view, after⟩, stepped, rfl⟩ := Option.map_eq_some_iff.mp moved
    exact ⟨before, view, after, found, stepped, rfl⟩

theorem step_spec (borrowed : state.view.owner = false) (moved : machine.step state label = some target) :
    Step state label target := by
  cases label with
  | call op wasMoved encodes =>
    simp only [machine, step] at moved
    by_cases survives : op.survives = true
    · rw [if_neg (by simp [survives])] at moved
      by_cases skipped : (wasMoved || (op.encodesFirst && !encodes)) = true
      · rw [if_pos skipped] at moved
        cases moved
        exact .missed op wasMoved encodes
      · rw [if_neg skipped] at moved
        cases live : state.view.socket with
        | true =>
          have held : state.view.acquire =
              ({ state.view with active := state.view.active + 1 }, { socket := true }) := by
            simp [SharedSessionState.acquire, live, borrowed]
          rw [held] at moved
          cases moved
          exact .acquired op wasMoved encodes live borrowed
        | false =>
          have missed : state.view.acquire = (state.view, {}) := by
            simp [SharedSessionState.acquire, live]
          rw [missed] at moved
          cases moved
          exact .missed op wasMoved encodes
    · rw [if_pos (by simpa using survives)] at moved
      cases moved
  | enter index =>
    obtain ⟨before, view, after, found, stepped, rfl⟩ := move_spec moved
    exact .moved _ index before after view (by simp) found fun sound => moved_of_sound sound (.inl stepped)
  | leave index =>
    obtain ⟨before, view, after, found, stepped, rfl⟩ := move_spec moved
    exact .moved _ index before after view (by simp) found fun sound =>
      moved_of_sound sound (.inr (.inl stepped))
  | release index =>
    obtain ⟨before, view, after, found, stepped, rfl⟩ := move_spec moved
    exact .moved _ index before after view (by simp) found fun sound =>
      moved_of_sound sound (.inr (.inr (.inl stepped)))
  | complete index =>
    obtain ⟨before, view, after, found, stepped, rfl⟩ := move_spec moved
    exact .moved _ index before after view (by simp) found fun sound =>
      moved_of_sound sound (.inr (.inr (.inr (.inl stepped))))
  | callback index =>
    obtain ⟨before, view, after, found, stepped, rfl⟩ := move_spec moved
    exact .moved _ index before after view (by simp) found fun sound =>
      moved_of_sound sound (.inr (.inr (.inr (.inr stepped))))
  | revoke =>
    simp only [machine, step, Option.ite_none_right_eq_some, Option.some.injEq] at moved
    obtain ⟨idle, rfl⟩ := moved
    exact .revoke idle
  | close =>
    simp only [machine, step, Option.ite_none_right_eq_some, Option.some.injEq] at moved
    obtain ⟨revoked, rfl⟩ := moved
    exact .close revoked
  | closed =>
    simp only [machine, step, Option.ite_none_right_eq_some, Option.some.injEq] at moved
    obtain ⟨closing, rfl⟩ := moved
    exact .closed closing
  | drained =>
    simp only [machine, step, Option.ite_none_right_eq_some, Option.some.injEq] at moved
    obtain ⟨⟨waiting, none⟩, rfl⟩ := moved
    exact .drained waiting none

/-- What holds of the pins in every run; the last clause needs `End` not to overtake a call. -/
structure Pins (state : Revocation) : Prop where
  borrowed : state.view.owner = false
  sound : ∀ call ∈ state.calls, call.Sound
  counted : state.view.active = (state.calls.countP HandleCall.pinned : ℤ)
  revoked : state.ending ≠ .idle → state.view.socket = false
  quiet : state.ending = .returned → ∀ call ∈ state.calls, call.pinned = false ∧ call.stage ≠ .inside

/-- The pins counted after one call has moved. -/
theorem countP_set {calls : List HandleCall} {index : ℕ} {before : HandleCall}
    (found : calls[index]? = some before) (after : HandleCall) :
    (calls.set index after).countP HandleCall.pinned + (if before.pinned then 1 else 0) =
      calls.countP HandleCall.pinned + if after.pinned then 1 else 0 := by
  obtain ⟨bound, read⟩ := List.getElem?_eq_some_iff.mp found
  have present : before.pinned = true → 0 < calls.countP HandleCall.pinned := fun pinned =>
    List.countP_pos_iff.mpr ⟨before, read ▸ List.getElem_mem bound, pinned⟩
  rw [List.countP_set bound, read]
  split_ifs with pinned
  all_goals first | have := present pinned; omega | omega

theorem Pins.moved (pins : state.Pins) {index : ℕ} {before after : HandleCall} {view : SharedSessionState}
    (found : state.calls[index]? = some before) (moves : Moved state.view before view after) :
    Pins { state with view, calls := state.calls.set index after } := by
  have present : before ∈ state.calls := List.mem_of_getElem? found
  have count := countP_set found after
  cases moves with
  | kept _ sound drops later =>
    have same : after.pinned = before.pinned := by rw [HandleCall.pinned, drops]; rfl
    refine ⟨pins.borrowed, ?_, ?_, pins.revoked, ?_⟩
    · intro call member
      obtain old | rfl := List.mem_or_eq_of_mem_set member
      · exact pins.sound call old
      · exact sound
    · rw [same] at count
      rw [pins.counted]
      exact congrArg _ (Nat.add_right_cancel count).symm
    · intro returned call member
      obtain ⟨unpinned, outside⟩ := pins.quiet returned before present
      obtain old | rfl := List.mem_or_eq_of_mem_set member
      · exact pins.quiet returned call old
      · refine ⟨same.trans unpinned, ?_⟩
        obtain fresh | ⟨_, inside, _⟩ := later
        · have held : before.pinned = true := by
            obtain sound := pins.sound before present
            cases sound with
            | blocking | issuing => rfl
            | done => cases fresh
            | pending stage issued => rfl
            | completed stage issued completion ran => obtain rfl | rfl := issued <;> cases fresh
          rw [unpinned] at held
          cases held
        · exact fun within => outside (inside within)
  | released _ sound pinned dropped =>
    have held : before.pinned = true := by simp [HandleCall.pinned, pinned]
    have free : after.pinned = false := by simp [HandleCall.pinned, dropped]
    refine ⟨pins.borrowed, ?_, ?_, pins.revoked, ?_⟩
    · intro call member
      obtain old | rfl := List.mem_or_eq_of_mem_set member
      · exact pins.sound call old
      · exact sound
    · simp only [held, free, ↓reduceIte, Bool.false_eq_true] at count
      have counted := pins.counted
      simp only [SharedSessionState.releasePin]
      omega
    · intro returned
      obtain ⟨unpinned, _⟩ := pins.quiet returned before present
      rw [held] at unpinned
      cases unpinned

/-- When `End` returns, every call has been released; one still inside the socket was overtaken. -/
theorem Pins.drained (pins : state.Pins) (none : state.view.active = 0)
    (awaited : state.calls.any HandleCall.overtaken = false) :
    ∀ call ∈ state.calls, call.pinned = false ∧ call.stage ≠ .inside := by
  intro call member
  have counted := pins.counted
  rw [none] at counted
  have unpinned : call.pinned = false := by
    have zero : state.calls.countP HandleCall.pinned = 0 := by omega
    simpa using List.countP_eq_zero.mp zero call member
  refine ⟨unpinned, fun inside => ?_⟩
  have ahead := List.any_eq_false.mp awaited call member
  have sound := pins.sound call member
  cases sound with
  | blocking | issuing | pending => cases unpinned
  | done => cases inside
  | completed stage issued completion ran =>
    apply ahead
    simp only at inside
    simpa [HandleCall.overtaken, inside] using ran

theorem Step.pins (step : Step state label target) (pins : state.Pins)
    (met : state.awaited label = true) : target.Pins := by
  cases step with
  | missed op moved encodes => exact pins
  | acquired op moved encodes live borrowed =>
    have running : state.ending = .idle := by
      by_contra ending
      rw [pins.revoked ending] at live
      cases live
    refine ⟨borrowed, ?_, ?_, pins.revoked, ?_⟩
    · intro call member
      obtain old | new := List.mem_append.mp member
      · exact pins.sound call old
      · obtain rfl := List.mem_singleton.mp new
        by_cases async : op = .sendAsync
        · subst async
          exact .issuing
        · exact .blocking op .acquired async (by decide)
    · have counted := pins.counted
      have pinned : HandleCall.pinned { op, hold := { socket := true } } = true := rfl
      simp only [List.countP_append, List.countP_singleton, pinned, ↓reduceIte]
      omega
    · intro returned
      rw [running] at returned
      cases returned
  | moved _ index before after view other found moves =>
    exact pins.moved found (moves (pins.sound before (List.mem_of_getElem? found)))
  | revoke idle =>
    refine ⟨pins.borrowed, pins.sound, pins.counted, fun _ => rfl, ?_⟩
    intro returned
    cases returned
  | close revoked =>
    refine ⟨pins.borrowed, pins.sound, pins.counted, fun _ => pins.revoked (by simp [revoked]), ?_⟩
    intro returned
    cases returned
  | closed closing =>
    refine ⟨pins.borrowed, pins.sound, pins.counted, fun _ => pins.revoked (by simp [closing]), ?_⟩
    intro returned
    cases returned
  | drained waiting none =>
    refine ⟨pins.borrowed, pins.sound, pins.counted, fun _ => pins.revoked (by simp [waiting]), ?_⟩
    intro _
    exact pins.drained none (by simpa [awaited] using met)

/-- What revocation is to keep: the count is that of the pins held and so not negative, a pin is
released at most once, the pin of a `SendAsync` once its completion runs and before the application
hears of it, and after `End` no call is inside the socket, no completion is outstanding on it and
no call can reach it. -/
structure Safe (state : Revocation) : Prop where
  counted : state.view.active = (state.calls.countP HandleCall.pinned : ℤ)
  nonneg : 0 ≤ state.view.active
  once : ∀ call ∈ state.calls, call.drops ≤ 1
  completed : ∀ call ∈ state.calls, call.op = .sendAsync →
    (call.drops = 1 ↔ call.completion = .released ∨ call.completion = .called)
  ended : state.ending = .returned → state.view.socket = false ∧
    (∀ call ∈ state.calls, call.stage ≠ .inside ∧ call.completion ≠ .outstanding) ∧
    ∀ index, machine.step state (.enter index) = none

theorem Pins.safe (pins : state.Pins) : state.Safe where
  counted := pins.counted
  nonneg := by rw [pins.counted]; exact Int.natCast_nonneg _
  once call member := by cases pins.sound call member <;> simp
  completed call member async := by
    cases pins.sound call member with
    | blocking op stage sync running => exact absurd async sync
    | done op sync => exact absurd async sync
    | issuing | pending => simp
    | completed stage issued completion ran => simpa using ran
  ended returned := by
    refine ⟨pins.revoked (by simp [returned]), ?_, ?_⟩
    · intro call member
      obtain ⟨unpinned, outside⟩ := pins.quiet returned call member
      refine ⟨outside, fun outstanding => ?_⟩
      cases pins.sound call member with
      | blocking | done | issuing => cases outstanding
      | pending => cases unpinned
      | completed stage issued completion ran => obtain rfl | rfl := ran <;> cases outstanding
    · intro index
      simp only [machine, step, move]
      split
      · rfl
      · next call found =>
        obtain ⟨unpinned, _⟩ := pins.quiet returned call (List.mem_of_getElem? found)
        have notFresh : call.stage ≠ .acquired := by
          intro fresh
          cases pins.sound call (List.mem_of_getElem? found) with
          | blocking | issuing | pending => cases unpinned
          | done => cases fresh
          | completed stage issued completion ran => obtain rfl | rfl := issued <;> cases fresh
        rw [enter, if_neg notFresh]
        rfl

/-- In a run every promise of revocation is kept in every state passed, exactly when `End` never
returns while a `SendAsync` whose completion has run is still inside the socket. -/
theorem revocation_safe_iff {labels : List RevocationLabel} (reached : machine.run {} labels = some state) :
    machine.Throughout Safe {} labels ↔
      machine.Along (fun source label => source.awaited label = true) {} labels := by
  apply machine.throughout_iff_along Pins
  · intro source label next pins met moved
    exact (step_spec pins.borrowed moved).pins pins met
  · intro source pins
    exact pins.safe
  · intro source label next pins moved safe
    have step := step_spec pins.borrowed moved
    cases step with
    | drained waiting none =>
      have outside := (safe.ended rfl).2.1
      simp only [awaited, decide_true, Bool.true_and, Bool.not_eq_true', List.any_eq_false]
      intro call member overtaken
      simp only [HandleCall.overtaken, Bool.and_eq_true, decide_eq_true_eq] at overtaken
      exact (outside call member).1 overtaken.1
    | missed | acquired | revoke | close | closed => rfl
    | moved _ index before after view other found moves => simp [awaited, other]
  · exact ⟨rfl, fun _ member => absurd member List.not_mem_nil, rfl, fun ending => absurd rfl ending,
      fun returned => by cases returned⟩
  · exact reached

/-- Two sends and a kick race with the teardown; one of the sends is completed by the close. -/
def racing : List RevocationLabel :=
  [.call .sendAsync false true, .enter 0, .leave 0, .call .send false true, .enter 1, .revoke,
    .call (.kick {}) false true, .close, .complete 0, .leave 1, .callback 0, .closed, .release 1, .drained,
    .call .sendAsync false true]

theorem revocation_safe_iff_racing :
    ∃ state, machine.run {} racing = some state ∧
      (state.ending = .returned ∧ state.calls.length = 2) ∧ machine.Throughout Safe {} racing := by
  refine ⟨_, (Option.some_get (by decide)).symm, by decide, ?_⟩
  have awaited : machine.Along (fun source label => source.awaited label = true) {} racing := by decide
  exact (revocation_safe_iff (Option.some_get (by decide)).symm).mpr awaited

/-- The socket refuses a send inline. Its completion drops the pin, the teardown on another thread
runs to its end, and the call is still inside the socket that may now die. -/
theorem inline_completion_overtaken :
    ∃ state, machine.run {} [.call .sendAsync false true, .enter 0, .complete 0, .revoke, .close, .closed,
        .drained] = some state ∧
      state.ending = .returned ∧ (∃ call ∈ state.calls, call.stage = .inside) ∧ ¬ state.Safe := by
  refine ⟨_, (Option.some_get (by decide)).symm, by decide, by decide, ?_⟩
  intro safe
  exact ((safe.ended (by decide)).2.1 _ List.mem_cons_self).1 (by decide)

end Revocation

end OpalCpp.EventStream

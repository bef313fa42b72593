import OpalCpp.Machine.Deque
import OpalCpp.Proofs.Http.PairSlots

/-! # The in-memory pair is a reliable channel

In each direction what has been handed out and what is queued make up what has been accepted. A
receive is told the clean end only of an empty queue of a closed session, so by then everything
accepted has been handed out. A callback is owed by exactly one place from the call it is passed to
until it is called: a slot of the session or the stack of a thread. A deadline completes a park
only under the generation it was armed with.
-/

namespace OpalCpp.Http

open Function (update)

variable {Message Frame : Type*}

namespace PairState

variable {pair : PairState Message} {top : Activation Message} {held : Held Message}

@[simp] theorem onSide_self {Value : Type*} (side : Side) (value : Value) : onSide side value side = [value] :=
  if_pos rfl

@[simp] theorem onSide_other {Value : Type*} (side : Side) (value : Value) :
    onSide side value side.other = [] :=
  if_neg side.other_ne

@[simp] theorem onSide_of_other {Value : Type*} (side : Side) (value : Value) :
    onSide side.other value side = [] :=
  if_neg side.other_ne.symm

/-- What a hold hands out and leaves in a queue is what was in the queue and what it accepts. -/
theorem Holds.flow (holds : pair.Holds top held) (slots : pair.Slots) (direction : Side) :
    held.handed direction ++ held.pair.queues direction =
      pair.queues direction ++ held.accepted direction := by
  cases holds with
  | unmoved _ receivers senders frames owed unarmed => simp [recount]
  | delivered _ senders side message receiver own owed room parked =>
    have empty : pair.queues side = [] := by
      simpa using (slots.parkedReceive side.other (by rw [parked]; rfl)).1
    obtain rfl | rfl := side.eq_or_eq_other direction
    · simp [sent, recount, empty]
    · simp [sent, recount]
  | queued _ senders side message own owed room unparked =>
    obtain rfl | rfl := side.eq_or_eq_other direction <;> simp [sent, recount]
  | sendParked side message callback isOpen full unparked => simp
  | sendRefused side message callback error why => simp [refuse]
  | receiveRefused side timeout callback why => simp [refuse]
  | popped _ receivers side message rest own owed queue kept =>
    obtain rfl | rfl := side.eq_or_eq_other direction
    · simp [received, recount]
    · simp [received, recount, queue]
  | absorbed _ receivers side message rest own owed queue parked waiting space =>
    obtain rfl | rfl := side.eq_or_eq_other direction
    · simp [received, recount]
    · simp [received, recount, queue]
  | ended _ receivers side frames owed unarmed empty closed => simp [recount]
  | receiveParked side timeout callback unparked empty isOpen => simp
  | closing side why => simp [finishEnd, endSession]
  | expired _ side generation callback completed error bounds parked current => simp

/-- A closed session stays closed and accepts nothing. -/
theorem Holds.closed (holds : pair.Holds top held) (slots : pair.Slots) (closed : pair.closed = true) :
    held.pair.closed = true ∧ ∀ direction, held.accepted direction = [] := by
  cases holds with
  | delivered _ senders side message receiver own owed room parked => simp [room.isOpen] at closed
  | queued _ senders side message own owed room unparked => simp [room.isOpen] at closed
  | absorbed _ receivers side message rest own owed queue parked waiting space =>
    have unparked := (slots.closed closed side.other).2
    rw [waiting] at unparked
    cases unparked
  | closing side why => exact ⟨rfl, fun _ => rfl⟩
  | unmoved _ receivers senders frames owed unarmed => exact ⟨closed, fun _ => rfl⟩
  | sendParked side message callback isOpen full unparked => exact ⟨closed, fun _ => rfl⟩
  | sendRefused side message callback error why => exact ⟨closed, fun _ => rfl⟩
  | receiveRefused side timeout callback why => exact ⟨closed, fun _ => rfl⟩
  | popped _ receivers side message rest own owed queue kept => exact ⟨closed, fun _ => rfl⟩
  | ended _ receivers side frames owed unarmed empty closed' => exact ⟨closed, fun _ => rfl⟩
  | receiveParked side timeout callback unparked empty isOpen => exact ⟨closed, fun _ => rfl⟩
  | expired _ side generation callback completed error bounds parked current =>
    exact ⟨closed, fun _ => rfl⟩

/-- The clean end is told of an empty queue of a session that is closed by then. -/
theorem Holds.ended_empty (holds : pair.Holds top held) (slots : pair.Slots) {side : Side}
    (told : held.ended side = true) : held.pair.closed = true ∧ held.pair.queues side.other = [] := by
  cases holds with
  | ended _ receivers other frames owed unarmed empty closed =>
    obtain rfl : side = other := of_decide_eq_true told
    exact ⟨closed, empty⟩
  | closing other why => exact ⟨rfl, (slots.parkedReceive side told).1⟩
  | unmoved _ receivers senders frames owed unarmed => cases told
  | delivered _ senders other message receiver own owed room parked => cases told
  | queued _ senders other message own owed room unparked => cases told
  | absorbed _ receivers other message rest own owed queue parked waiting space => cases told
  | sendParked other message callback isOpen full unparked => cases told
  | sendRefused other message callback error why => cases told
  | receiveRefused other timeout callback why => cases told
  | popped _ receivers other message rest own owed queue kept => cases told
  | receiveParked other timeout callback unparked empty isOpen => cases told
  | expired _ other generation callback completed error bounds parked current => cases told

/-- The callbacks parked by one end. -/
def parkedOn (pair : PairState Message) (side : Side) : List ℕ :=
  (pair.pendingReceive side).toList ++ (pair.pendingSend side).toList.map PendingSend.callback

def parked (pair : PairState Message) : List ℕ := pair.parkedOn .first ++ pair.parkedOn .second

theorem count_parked (pair : PairState Message) (side : Side) (callback : ℕ) :
    pair.parked.count callback =
      (pair.parkedOn side).count callback + (pair.parkedOn side.other).count callback := by
  cases side <;> simp only [parked, Side.other, List.count_append]
  omega

theorem fire_fst (waiters : TerminalWaiters) :
    ((fire waiters : List (ℕ × Report Message)).map Prod.fst) =
      waiters.send.toList ++ waiters.receive.toList := by
  simp [fire, Function.comp_def]

/-- A callback a hold finds parked or owed by the thread is afterwards parked, owed or called. -/
theorem Holds.balance (holds : pair.Holds top held) (callback : ℕ) :
    held.pair.parked.count callback + (held.frames.flatMap Activation.callbacks).count callback +
        (held.invoked.map Prod.fst).count callback =
      pair.parked.count callback + top.callbacks.count callback := by
  cases holds with
  | unmoved _ receivers senders frames owed unarmed =>
    rw [owed]
    rfl
  | ended _ receivers side frames owed unarmed empty closed =>
    rw [owed]
    rfl
  | delivered _ senders side message receiver own owed room parked =>
    rw [count_parked pair side.other, count_parked _ side.other]
    simp [sent, recount, parkedOn, parked, ← owed, List.count_cons]
    omega
  | queued _ senders side message own owed room unparked =>
    simp [sent, recount, PairState.parked, parkedOn, ← owed]
  | sendParked side message number isOpen full unparked =>
    rw [count_parked pair side, count_parked _ side]
    simp [parkedOn, unparked, List.count_append]
    omega
  | sendRefused side message number error why => simp [refuse, Activation.callbacks]
  | receiveRefused side timeout number why => simp [refuse, Activation.callbacks]
  | popped _ receivers side message rest own owed queue kept =>
    simp [received, recount, PairState.parked, parkedOn, ← owed]
  | absorbed _ receivers side message rest own owed queue parked waiting space =>
    rw [count_parked pair side.other, count_parked _ side.other]
    simp [received, recount, parkedOn, waiting, ← owed, List.count_cons]
    omega
  | receiveParked side timeout number unparked empty isOpen =>
    rw [count_parked pair side, count_parked _ side]
    cases timeout <;> simp [parkedOn, unparked, List.count_cons, Activation.callbacks] <;> omega
  | closing side why =>
    simp [finishEnd, endSession, fire_fst, waiters, PairState.parked, parkedOn, Activation.callbacks,
      Option.toList_map]
    omega
  | expired _ side generation number completed error bounds parked current =>
    rw [count_parked pair side, count_parked _ side, Activation.callbacks_of_bounds bounds]
    simp [parkedOn, parked, List.count_cons]
    omega

/-- A hold parks a receive of an end at most once, under the next generation. -/
theorem Holds.generation (holds : pair.Holds top held) (side : Side) :
    held.pair.receiveParkGeneration side =
      pair.receiveParkGeneration side + UInt64.ofNat (held.parks side) := by
  cases holds with
  | receiveParked other timeout callback unparked empty isOpen =>
    obtain rfl | rfl := other.eq_or_eq_other side
    · simp
    · simp [other.other_ne]
  | unmoved | delivered | queued | sendParked | sendRefused | receiveRefused | popped | absorbed
  | ended | closing | expired => exact (UInt64.add_zero _).symm

/-- A receive that is parked after a hold was parked before it, or by it. -/
theorem Holds.waiting (holds : pair.Holds top held) {side : Side} {callback : ℕ}
    (waiting : held.pair.pendingReceive side = some callback) :
    pair.pendingReceive side = some callback ∨ held.parks side = 1 := by
  cases holds with
  | receiveParked other timeout number unparked empty isOpen =>
    obtain rfl | rfl := other.eq_or_eq_other side
    · exact .inr (if_pos rfl)
    · exact .inl (by simpa using waiting)
  | delivered _ senders other message receiver own owed room parked =>
    obtain rfl | rfl := other.eq_or_eq_other side
    · exact .inl (by simpa [sent, recount] using waiting)
    · simp [sent] at waiting
  | expired _ other generation number completed error bounds parked current =>
    obtain rfl | rfl := other.eq_or_eq_other side
    · simp at waiting
    · exact .inl (by simpa using waiting)
  | closing other why => cases waiting
  | unmoved | queued | sendParked | sendRefused | receiveRefused | popped | absorbed | ended =>
    exact .inl waiting

/-- A deadline a hold leaves to be armed is for the park it has just made. -/
theorem Holds.armed (holds : pair.Holds top held) {frame : Activation Message}
    (member : frame ∈ held.frames) {side : Side} {generation : UInt64} {callback : ℕ}
    (bounds : frame.bounds = some (side, generation, callback)) :
    generation = held.pair.receiveParkGeneration side ∧
      held.pair.pendingReceive side = some callback := by
  cases holds with
  | receiveParked other timeout number unparked empty isOpen =>
    cases timeout with
    | none => cases member
    | some budget =>
      obtain rfl := List.mem_singleton.mp member
      cases bounds
      simp
  | unmoved _ receivers senders frames owed unarmed => rw [unarmed frame member] at bounds; cases bounds
  | ended _ receivers other frames owed unarmed empty closed =>
    rw [unarmed frame member] at bounds
    cases bounds
  | sendParked => cases member
  | sendRefused | receiveRefused =>
    obtain rfl | rfl := List.mem_pair.mp member <;> cases bounds
  | delivered | queued | popped | absorbed | closing | expired =>
    obtain rfl := List.mem_singleton.mp member
    cases bounds

/-- What a hold records as expired bears the generation of the park it completed. -/
theorem Holds.expiry (holds : pair.Holds top held) {expiry : Expiry} (member : expiry ∈ held.expiries) :
    ∃ side, top.bounds = some (side, expiry.generation, expiry.callback) ∧
      pair.pendingReceive side = some expiry.completed ∧
      pair.receiveParkGeneration side = expiry.generation ∧
      expiry.parkGeneration = expiry.generation := by
  cases holds with
  | expired _ side generation callback completed error bounds parked current =>
    obtain rfl := List.mem_singleton.mp member
    exact ⟨side, bounds, parked, current, current⟩
  | unmoved | delivered | queued | sendParked | sendRefused | receiveRefused | popped | absorbed
  | ended | receiveParked | closing => cases member

end PairState

namespace PairThreads

open PairState

variable {encodeMessage : Message → Outcome Frame} {state target : PairThreads Message}
  {label : PairLabel Message}

/-- What has been handed out and what is queued make up what has been accepted, and an end is
told of an end only with nothing left. -/
structure Flow (state : PairThreads Message) : Prop where
  slots : state.pair.Slots
  conserved : ∀ direction, state.handed direction ++ state.pair.queues direction = state.accepted direction
  ended : ∀ side, state.ended side = true → state.pair.closed = true ∧ state.pair.queues side.other = []

theorem Flow.apply (flow : state.Flow) {top : Activation Message} {held : Held Message}
    (holds : state.pair.Holds top held) (thread : ℕ) (rest : List (Activation Message)) :
    (state.apply thread rest held).Flow where
  slots := flow.slots.holds holds
  conserved direction := by
    change (state.handed direction ++ held.handed direction) ++ held.pair.queues direction =
      state.accepted direction ++ held.accepted direction
    rw [List.append_assoc, holds.flow flow.slots, ← List.append_assoc, flow.conserved]
  ended side told := by
    change (state.ended side || held.ended side) = true at told
    obtain told | told := Bool.or_eq_true_iff.mp told
    · obtain ⟨closed, empty⟩ := flow.ended side told
      obtain ⟨stays, nothing⟩ := holds.closed flow.slots closed
      have balance := holds.flow flow.slots side.other
      rw [empty, nothing] at balance
      exact ⟨stays, (List.append_eq_nil_iff.mp balance).2⟩
    · exact holds.ended_empty flow.slots told

theorem Step.flow (step : Step encodeMessage state label target) (flow : state.Flow) : target.Flow := by
  cases step with
  | hold _ thread top rest held free found holds kind => exact flow.apply holds thread rest
  | spawn | call | armed | unarmed | invoke | leave | release =>
    exact ⟨flow.slots, flow.conserved, flow.ended⟩

theorem flow_of_run {labels : List (PairLabel Message)}
    (reached : (machine encodeMessage).run {} labels = some state) : state.Flow :=
  (machine encodeMessage).invariant_of_run Flow (fun _ _ _ flow moved => (step_spec moved).flow flow)
    ⟨Slots.initial, fun _ => rfl, fun _ told => (Bool.false_ne_true told).elim⟩ reached

/-- The callbacks the threads have taken over and not called yet. -/
def owed (state : PairThreads Message) : List ℕ :=
  state.threads.flatMap (List.flatMap Activation.callbacks)

/-- Each callback passed in is parked, owed by a thread, or called: one of the three, and once. -/
def Ledger (state : PairThreads Message) : Prop :=
  ∀ callback, state.pair.parked.count callback + state.owed.count callback +
    (state.invoked.map Prod.fst).count callback = if callback < state.passed then 1 else 0

/-- One thread's stack changes what is owed by what the stack owes. -/
theorem owed_set {threads : List (List (Activation Message))} {thread : ℕ}
    {stack : List (Activation Message)} (found : threads[thread]? = some stack)
    (next : List (Activation Message)) (callback : ℕ) :
    ((threads.set thread next).flatMap (List.flatMap Activation.callbacks)).count callback +
        (stack.flatMap Activation.callbacks).count callback =
      (threads.flatMap (List.flatMap Activation.callbacks)).count callback +
        (next.flatMap Activation.callbacks).count callback := by
  obtain ⟨before, after, whole, set⟩ := flatMap_set (List.flatMap Activation.callbacks) found
  rw [whole, set next]
  simp only [List.count_append]
  omega

/-- A call owes the callback it is passed, the next one. -/
theorem count_enter (encodeMessage : Message → Outcome Frame) (call : PairCall Message) (callback passed : ℕ) :
    ((call.enter encodeMessage passed).flatMap Activation.callbacks).count callback =
      if call.passes ∧ passed = callback then 1 else 0 := by
  cases call with
  | send side message =>
    simp only [PairCall.enter]
    split <;> simp [PairCall.passes, Activation.callbacks]
  | sendAsync side message =>
    simp only [PairCall.enter]
    split <;> simp [PairCall.passes, List.count_singleton]
  | receiveAsync side timeout => simp [PairCall.enter, PairCall.passes, List.count_singleton]
  | receive | close | kick | peerCloseReason => simp [PairCall.enter, PairCall.passes, Activation.callbacks]

theorem Step.ledger (step : Step encodeMessage state label target) (ledger : state.Ledger) :
    target.Ledger := by
  intro callback
  have before := ledger callback
  simp only [owed] at before ⊢
  cases step with
  | spawn => simpa using before
  | call thread call stack found application survives =>
    have moved := owed_set found (call.enter encodeMessage state.passed ++ stack) callback
    have entered := count_enter encodeMessage call callback state.passed
    rw [List.flatMap_append, List.count_append, entered] at moved
    cases passes : call.passes with
    | false =>
      simp only [passes, Bool.false_eq_true, false_and, ↓reduceIte] at moved
      simp only [cond_false]
      omega
    | true =>
      simp only [passes, true_and] at moved
      simp only [cond_true]
      split_ifs at before moved ⊢ <;> omega
  | hold _ thread top rest held free found holds kind =>
    have moved := owed_set found (held.frames ++ rest) callback
    have balance := holds.balance callback
    rw [List.flatMap_append, List.count_append, List.flatMap_cons, List.count_append] at moved
    refine Eq.trans ?_ before
    simp only [PairThreads.apply, List.map_append, List.count_append]
    omega
  | armed thread side generation number rest found =>
    have moved := owed_set found rest callback
    simp only [List.flatMap_cons, Activation.callbacks, List.nil_append] at moved
    simp only [List.flatMap_append, List.count_append, List.flatMap_cons, List.flatMap_nil,
      Activation.callbacks, List.nil_append, List.count_nil]
    omega
  | unarmed thread side generation number rest found =>
    have moved := owed_set found (.locking (.takeBack side generation number) :: rest) callback
    simp only [List.flatMap_cons, Activation.callbacks, List.nil_append] at moved
    simp only
    omega
  | invoke thread call calls rest found =>
    have moved := owed_set found (.callback :: .firing calls :: rest) callback
    simp only [List.flatMap_cons, Activation.callbacks, List.nil_append, List.map_cons,
      List.count_append, List.count_cons] at moved
    simp only [List.map_append, List.count_append, List.map_cons, List.map_nil, List.count_cons,
      List.count_nil]
    omega
  | leave thread top rest returns found =>
    have moved := owed_set found rest callback
    have quiet : top.callbacks = [] := by obtain rfl | rfl := returns <;> rfl
    rw [List.flatMap_cons, quiet, List.nil_append] at moved
    simp only
    omega
  | release thread rest found =>
    have moved := owed_set found rest callback
    rw [List.flatMap_cons, Activation.callbacks, List.nil_append] at moved
    · simp only
      omega
    all_goals simp

theorem ledger_of_run {labels : List (PairLabel Message)}
    (reached : (machine encodeMessage).run {} labels = some state) : state.Ledger :=
  (machine encodeMessage).invariant_of_run Ledger
    (fun _ _ _ ledger moved => (step_spec moved).ledger ledger) (fun _ => rfl) reached

/-- The deadline was armed for one of the parks this end has made; if that is the latest, nothing
else is parked there now. -/
def ArmedFor (state : PairThreads Message) (side : Side) (generation : UInt64) (callback : ℕ) : Prop :=
  ∃ park ≤ state.parks side, generation = UInt64.ofNat park ∧
    (park = state.parks side → ∀ waiting, state.pair.pendingReceive side = some waiting → waiting = callback)

/-- Generations count the parks of an end modulo `2 ^ 64`, and every deadline bears that of its park. -/
structure Watch (state : PairThreads Message) : Prop where
  counted : ∀ side, state.pair.receiveParkGeneration side = UInt64.ofNat (state.parks side)
  armed : ∀ stack ∈ state.threads, ∀ frame ∈ stack, ∀ side generation callback,
    frame.bounds = some (side, generation, callback) → state.ArmedFor side generation callback
  expired : ∀ expiry ∈ state.expiries, expiry.parkGeneration = expiry.generation ∧
    ((∀ side, state.parks side < 2 ^ 64) → expiry.completed = expiry.callback)

theorem ofNat_inj_of_lt {first second : ℕ} (same : UInt64.ofNat first = UInt64.ofNat second)
    (ordered : first ≤ second) (small : second < 2 ^ 64) : first = second := by
  have congruent : first % 2 ^ 64 = second % 2 ^ 64 := by
    simpa using congrArg UInt64.toNat same
  rwa [Nat.mod_eq_of_lt (by omega), Nat.mod_eq_of_lt small] at congruent

/-- A deadline stays armed for its park through a hold: a park made meanwhile is a later one. -/
theorem ArmedFor.apply {top : Activation Message} {held : Held Message} {side : Side}
    {generation : UInt64} {callback : ℕ} (armed : state.ArmedFor side generation callback)
    (holds : state.pair.Holds top held) (thread : ℕ) (rest : List (Activation Message)) :
    (state.apply thread rest held).ArmedFor side generation callback := by
  obtain ⟨park, made, same, latest⟩ := armed
  refine ⟨park, Nat.le_add_right_of_le made, same, ?_⟩
  intro current waiting parked
  change park = state.parks side + held.parks side at current
  have unchanged : held.parks side = 0 := by omega
  obtain before | now := holds.waiting parked
  · exact latest (by omega) waiting before
  · omega

theorem Watch.apply (watch : state.Watch) {thread : ℕ} {top : Activation Message}
    {rest : List (Activation Message)} {held : Held Message}
    (found : state.threads[thread]? = some (top :: rest)) (holds : state.pair.Holds top held) :
    (state.apply thread rest held).Watch := by
  have present : top :: rest ∈ state.threads := List.mem_of_getElem? found
  have counted (side : Side) : held.pair.receiveParkGeneration side =
      UInt64.ofNat (state.parks side + held.parks side) := by
    rw [holds.generation side, watch.counted side, UInt64.ofNat_add]
  refine ⟨counted, ?_, ?_⟩
  · intro stack member frame inside side generation callback bounds
    obtain old | rfl := List.mem_or_eq_of_mem_set member
    · exact (watch.armed stack old frame inside side generation callback bounds).apply holds thread rest
    obtain new | old := List.mem_append.mp inside
    · obtain ⟨same, parked⟩ := holds.armed new bounds
      refine ⟨state.parks side + held.parks side, Nat.le_refl _, same.trans (counted side), ?_⟩
      intro _ waiting found
      exact Option.some.inj (found.symm.trans parked)
    · have armed := watch.armed (top :: rest) present frame (List.mem_cons_of_mem _ old) side
        generation callback bounds
      exact armed.apply holds thread rest
  · intro expiry member
    obtain old | new := List.mem_append.mp member
    · obtain ⟨same, right⟩ := watch.expired expiry old
      refine ⟨same, fun small => right fun side => ?_⟩
      have := small side
      change state.parks side + held.parks side < 2 ^ 64 at this
      omega
    · obtain ⟨side, bounds, parked, current, same⟩ := holds.expiry new
      refine ⟨same, fun small => ?_⟩
      obtain ⟨park, made, armedAt, latest⟩ :=
        watch.armed (top :: rest) present top List.mem_cons_self side _ _ bounds
      have bound := small side
      change state.parks side + held.parks side < 2 ^ 64 at bound
      rw [watch.counted side, armedAt] at current
      exact latest (ofNat_inj_of_lt current.symm made (by omega)) _ parked

/-- A step outside the lock that puts no new deadline on a stack keeps the watch. -/
theorem Watch.of_threads (watch : state.Watch) (threads : List (List (Activation Message)))
    (passed : ℕ) (invoked : List (ℕ × Report Message)) (owner : Option ℕ)
    (armed : ∀ stack ∈ threads, ∀ frame ∈ stack, ∀ park, frame.bounds = some park →
      ∃ old ∈ state.threads, ∃ other ∈ old, other.bounds = some park) :
    { state with threads, passed, invoked, owner }.Watch where
  counted := watch.counted
  armed := by
    intro stack member frame inside side generation callback bounds
    obtain ⟨old, present, other, within, same⟩ := armed stack member frame inside _ bounds
    exact watch.armed old present other within side generation callback same
  expired := watch.expired

/-- The deadlines on the stacks after one stack has changed, when the new one brings none. -/
theorem bounds_of_set {threads : List (List (Activation Message))} {thread : ℕ}
    {stack next : List (Activation Message)} (found : threads[thread]? = some stack)
    (kept : ∀ frame ∈ next, ∀ park, frame.bounds = some park →
      ∃ other ∈ stack, other.bounds = some park) :
    ∀ some_ ∈ threads.set thread next, ∀ frame ∈ some_, ∀ park, frame.bounds = some park →
      ∃ old ∈ threads, ∃ other ∈ old, other.bounds = some park := by
  intro some_ member frame inside park bounds
  obtain old | rfl := List.mem_or_eq_of_mem_set member
  · exact ⟨some_, old, frame, inside, bounds⟩
  · exact ⟨stack, List.mem_of_getElem? found, kept frame inside park bounds⟩

theorem bounds_of_enter {call : PairCall Message} {passed : ℕ} {frame : Activation Message}
    (member : frame ∈ call.enter encodeMessage passed) : frame.bounds = none := by
  cases call with
  | send side message =>
    simp only [PairCall.enter] at member
    split at member
    · cases member
    · rw [List.mem_singleton.mp member]; rfl
  | sendAsync side message =>
    simp only [PairCall.enter] at member
    split at member <;> rw [List.mem_singleton.mp member] <;> rfl
  | receive | receiveAsync | close | kick | peerCloseReason => rw [List.mem_singleton.mp member]; rfl

theorem Step.watch (step : Step encodeMessage state label target) (watch : state.Watch) :
    target.Watch := by
  cases step with
  | hold _ thread top rest held free found holds kind => exact watch.apply found holds
  | spawn =>
    apply watch.of_threads
    intro stack member frame inside park bounds
    obtain old | new := List.mem_append.mp member
    · exact ⟨stack, old, frame, inside, bounds⟩
    · obtain rfl := List.mem_singleton.mp new
      cases inside
  | call thread call stack found application survives =>
    apply watch.of_threads
    apply bounds_of_set found
    intro frame inside park bounds
    obtain new | old := List.mem_append.mp inside
    · rw [bounds_of_enter new] at bounds
      cases bounds
    · exact ⟨frame, old, bounds⟩
  | armed thread side generation callback rest found =>
    apply watch.of_threads
    intro stack member frame inside park bounds
    obtain old | new := List.mem_append.mp member
    · apply bounds_of_set found _ stack old frame inside park bounds
      intro other within park bounds
      exact ⟨other, List.mem_cons_of_mem _ within, bounds⟩
    · obtain rfl := List.mem_singleton.mp new
      obtain rfl := List.mem_singleton.mp inside
      exact ⟨_, List.mem_of_getElem? found, _, List.mem_cons_self, bounds⟩
  | unarmed thread side generation callback rest found =>
    apply watch.of_threads
    apply bounds_of_set found
    intro frame inside park bounds
    obtain rfl | old := List.mem_cons.mp inside
    · exact ⟨_, List.mem_cons_self, bounds⟩
    · exact ⟨frame, List.mem_cons_of_mem _ old, bounds⟩
  | invoke thread call calls rest found =>
    apply watch.of_threads
    apply bounds_of_set found
    intro frame inside park bounds
    simp only [List.mem_cons] at inside
    obtain rfl | rfl | old := inside
    · cases bounds
    · cases bounds
    · exact ⟨frame, List.mem_cons_of_mem _ old, bounds⟩
  | leave thread top rest returns found =>
    apply watch.of_threads
    apply bounds_of_set found
    intro frame inside park bounds
    exact ⟨frame, List.mem_cons_of_mem _ inside, bounds⟩
  | release thread rest found =>
    apply watch.of_threads
    apply bounds_of_set found
    intro frame inside park bounds
    exact ⟨frame, List.mem_cons_of_mem _ inside, bounds⟩

theorem watch_of_run {labels : List (PairLabel Message)}
    (reached : (machine encodeMessage).run {} labels = some state) : state.Watch :=
  (machine encodeMessage).invariant_of_run Watch
    (fun _ _ _ watch moved => (step_spec moved).watch watch)
    ⟨fun _ => rfl, fun _ member => absurd member List.not_mem_nil,
      fun _ member => absurd member List.not_mem_nil⟩ reached

/-- The thread is in no call: it runs application code at the bottom of its stack, or it is a
watchdog asleep. -/
def atRest : List (Activation Message) → Bool
  | [] => true
  | [.watchdog ..] => true
  | _ => false

theorem owed_of_atRest (quiet : ∀ stack ∈ state.threads, atRest stack = true) : state.owed = [] := by
  rw [owed, List.flatMap_eq_nil_iff]
  intro stack member
  have rests := quiet stack member
  unfold atRest at rests
  split at rests
  · rfl
  · rfl
  · cases rests

/-- In a closed session nothing is parked. -/
theorem parked_of_closed {pair : PairState Message} (slots : pair.Slots) (closed : pair.closed = true) :
    pair.parked = [] := by
  have first := slots.closed closed .first
  have second := slots.closed closed .second
  simp [PairState.parked, parkedOn, first.1, first.2, second.1, second.2]

/-- A receive of a closed session takes the front of the queue, whatever its deadline. -/
theorem finishReceive_closed {pair : PairState Message} (slots : pair.Slots) (closed : pair.closed = true)
    {side : Side} {message : Message} {rest : List Message}
    (queue : pair.queues side.other = message :: rest) :
    ((pair.countReceiver side).finishReceive side true).handed = onSide side.other message ∧
      ((pair.countReceiver side).finishReceive side true).pair.queues side.other = rest := by
  have unparked := (slots.closed closed side.other).2
  simp only [finishReceive, receiveAfterWait, countReceiver, Bool.not_true, Bool.false_eq_true, ↓reduceIte,
    queue, takeFront, absorbPeerPendingSendLocked, unparked, received, Function.update_self, and_self]

/-- The messages left at a close can be received. -/
theorem drains (slots : state.pair.Slots) (closed : state.pair.closed = true) (free : state.owner = none)
    {thread : ℕ} (idle : state.threads[thread]? = some []) {side : Side} {message : Message}
    {rest : List Message} (queue : state.pair.queues side.other = message :: rest) (timeout : Option ℤ) :
    ∃ next, (machine encodeMessage).run state [.call thread (.receive side timeout), .acquire thread] =
        some next ∧
      next.handed side.other = state.handed side.other ++ [message] ∧
      next.pair.queues side.other = rest := by
  obtain ⟨bound, _⟩ := List.getElem?_eq_some_iff.mp idle
  obtain ⟨handed, left⟩ := finishReceive_closed slots closed queue
  let called := { state with
    threads := state.threads.set thread [.locking (.receive side timeout.isSome)] }
  have call : (machine encodeMessage).step state (.call thread (.receive side timeout)) = some called := by
    simp only [machine, step, idle]
    rfl
  have arrived : (state.pair.countReceiver side).arrived side = true := by
    simp [PairState.arrived, countReceiver, closed]
  have acquire : (machine encodeMessage).step called (.acquire thread) = some (called.apply thread []
      ((state.pair.countReceiver side).finishReceive side true)) := by
    have found : called.threads[thread]? = some [.locking (.receive side timeout.isSome)] :=
      List.getElem?_set_self bound
    simp only [machine, step, show called.owner = none from free, found]
    exact congrArg (Option.map _) (if_pos arrived)
  refine ⟨called.apply thread [] ((state.pair.countReceiver side).finishReceive side true), ?_, ?_, left⟩
  · rw [Machine.run, call, Option.bind_some, Machine.run, acquire]
    rfl
  · change state.handed side.other ++ _ = _
    rw [handed, onSide_self]

/-- In every state of every run: in each direction the messages handed out and then the queue are
the messages accepted; an end is told of the clean end with everything accepted for it handed out,
and until then a receive of the closed session gets the next message; when the session is closed
and every call has returned, each callback passed in has been called once; and a deadline completes
a park of its own generation only, which is the park it was armed for as long as generations have
not wrapped around. -/
theorem pair_channel {labels : List (PairLabel Message)}
    (reached : (machine encodeMessage).run {} labels = some state) :
    (∀ direction, state.handed direction ++ state.pair.queues direction = state.accepted direction) ∧
    (∀ side, state.ended side = true →
      state.pair.closed = true ∧ state.handed side.other = state.accepted side.other) ∧
    (∀ side thread message rest timeout, state.pair.closed = true → state.owner = none →
      state.threads[thread]? = some [] → state.pair.queues side.other = message :: rest →
      ∃ next, (machine encodeMessage).run state
          [.call thread (.receive side timeout), .acquire thread] = some next ∧
        next.handed side.other = state.handed side.other ++ [message] ∧
        next.pair.queues side.other = rest) ∧
    (state.pair.closed = true → (∀ stack ∈ state.threads, atRest stack = true) →
      ∀ callback, (state.invoked.map Prod.fst).count callback =
        if callback < state.passed then 1 else 0) ∧
    (∀ expiry ∈ state.expiries, expiry.parkGeneration = expiry.generation ∧
      ((∀ side, state.parks side < 2 ^ 64) → expiry.completed = expiry.callback)) := by
  have flow := flow_of_run reached
  refine ⟨flow.conserved, ?_, ?_, ?_, (watch_of_run reached).expired⟩
  · intro side told
    obtain ⟨closed, empty⟩ := flow.ended side told
    have conserved := flow.conserved side.other
    rw [empty, List.append_nil] at conserved
    exact ⟨closed, conserved⟩
  · intro side thread message rest timeout closed free idle queue
    exact drains flow.slots closed free idle queue timeout
  · intro closed quiet callback
    have ledger := ledger_of_run reached callback
    rw [owed_of_atRest quiet, parked_of_closed flow.slots closed, List.count_nil] at ledger
    omega

/-- The first end fills the queue and parks a ninth send, whose place the second end frees. Its
timed receive on the other queue times out, a later one is still parked when the first end closes,
and what was queued is received after that. -/
def volley : List (PairLabel ℕ) :=
  let sends := (List.range 9).flatMap fun message =>
    [PairLabel.call 0 (.sendAsync .first message), .acquire 0] ++
      if message < 8 then [.invoke 0, .leave 0, .leave 0] else []
  PairLabel.spawn :: .spawn :: sends ++
    [PairLabel.call 1 (.receive .second none), .acquire 1, .invoke 1, .leave 1, .leave 1,
      .call 0 (.receiveAsync .first (some 50)), .acquire 0, .arm 0 true,
      .expire 2, .invoke 2, .leave 2, .leave 2,
      .call 0 (.receiveAsync .first (some 50)), .acquire 0, .arm 0 true,
      .call 0 (.close .first), .acquire 0, .invoke 0, .leave 0, .leave 0, .expire 3,
      .call 1 (.receive .second none), .acquire 1, .leave 1]

theorem pair_channel_volley :
    ∃ state, (machine Codec.plain.encodeMessage).run {} volley = some state ∧
      (state.handed .first = [0, 1] ∧ state.passed = 11 ∧
        state.expiries = [⟨1, 9, 1, 9⟩] ∧ state.ended .first = true) ∧
      state.pair.queues .first = [2, 3, 4, 5, 6, 7, 8] ∧
      state.handed .first ++ state.pair.queues .first = state.accepted .first ∧
      ∀ callback < 11, (state.invoked.map Prod.fst).count callback = 1 := by
  refine ⟨_, (Option.some_get (by decide)).symm, by decide, by decide, ?_⟩
  obtain ⟨conserved, _, _, once, _⟩ :=
    @pair_channel _ _ Codec.plain.encodeMessage _ volley (Option.some_get (by decide)).symm
  refine ⟨conserved .first, fun callback small => ?_⟩
  rw [once (by decide) (by decide) callback]
  exact if_pos small

end PairThreads

end OpalCpp.Http

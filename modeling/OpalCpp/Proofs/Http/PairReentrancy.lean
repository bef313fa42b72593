import OpalCpp.Proofs.Http.PairSteps

/-! # Callbacks of the in-memory pair and its lock

Completions are to fire after the lock is released, so that a callback may call into the pair
again. Two methods break this: `SendAsync` and `ReceiveAsyncWithin` call a refusal from inside the
scope of their lock, and a callback that calls any method of either end then waits for a mutex its
own thread owns. A run is free of this exactly when no such refusal happens in it.
-/

namespace OpalCpp.Http

variable {Message Frame : Type*}

namespace PairState

variable {pair : PairState Message}

/-- `SendAsync` is going to refuse: the session is closed, or a send of its end is outstanding. -/
def refusesSend (pair : PairState Message) (side : Side) : Bool :=
  pair.closed || (pair.pendingSend side).isSome || 0 < pair.blockedSenders side

/-- `ReceiveAsync` is going to refuse: a receive of its end is outstanding. -/
def refusesReceive (pair : PairState Message) (side : Side) : Bool :=
  (pair.pendingReceive side).isSome || 0 < pair.blockedReceivers side

theorem finishSendAsync_refused {side : Side} (refuses : pair.refusesSend side = true)
    (message : Message) (callback : ℕ) :
    ∃ report, pair.finishSendAsync side message callback = pair.refuse callback report := by
  rw [finishSendAsync, sendAsync]
  by_cases closed : pair.closed = true
  · rw [if_pos closed]
    exact ⟨_, rfl⟩
  · have busy : ((pair.pendingSend side).isSome || 0 < pair.blockedSenders side) = true := by
      simpa [refusesSend, closed] using refuses
    rw [if_neg closed, if_pos busy]
    exact ⟨_, rfl⟩

theorem finishReceiveAsync_refused {side : Side} (refuses : pair.refusesReceive side = true)
    (timeout : Option ℤ) (callback : ℕ) :
    ∃ report, pair.finishReceiveAsync side timeout callback = pair.refuse callback report := by
  rw [refusesReceive] at refuses
  rw [finishReceiveAsync, receiveAsync, if_pos refuses]
  exact ⟨_, rfl⟩

end PairState

namespace PairThreads

open PairState

variable {encodeMessage : Message → Outcome Frame} {state target : PairThreads Message}
  {label : PairLabel Message}

/-- The step is a hold that refuses. -/
def refuses (state : PairThreads Message) : PairLabel Message → Bool
  | .acquire thread =>
    match state.threads[thread]? with
    | some (.locking (.sendAsync side _ _) :: _) => state.pair.refusesSend side
    | some (.locking (.receiveAsync side _ _) :: _) => state.pair.refusesReceive side
    | _ => false
  | _ => false

/-- No thread runs a callback while it owns the state mutex, and none waits for a mutex of its own. -/
structure Unlocked (state : PairThreads Message) : Prop where
  callback : ∀ thread stack, state.threads[thread]? = some stack → .callback ∈ stack →
    state.owner ≠ some thread
  locking : ∀ thread hold rest, state.threads[thread]? = some (.locking hold :: rest) →
    state.owner ≠ some thread

theorem Unlocked.of_free (free : state.owner = none) : state.Unlocked where
  callback _ _ _ _ owned := nomatch free.symm.trans owned
  locking _ _ _ _ owned := nomatch free.symm.trans owned

/-- Of all the holds only the refusals keep the lock. -/
theorem keeps_of_refusal {thread : ℕ} {top : Activation Message} {rest : List (Activation Message)}
    {held : Held Message} (found : state.threads[thread]? = some (top :: rest))
    (holds : state.pair.Holds top held) (keeps : held.keeps = true) :
    state.refuses (.acquire thread) = true := by
  cases holds with
  | sendRefused side message callback error why =>
    simp only [refuses, found, refusesSend, Bool.or_eq_true, decide_eq_true_eq]
    obtain closed | parked | blocked := why
    · exact .inl (.inl closed)
    · exact .inl (.inr parked)
    · exact .inr blocked
  | receiveRefused side timeout callback why =>
    simp only [refuses, found, refusesReceive, Bool.or_eq_true, decide_eq_true_eq]
    exact why
  | unmoved | delivered | queued | sendParked | popped | absorbed | ended | receiveParked | closing
  | expired => cases keeps

/-- Asynchronous methods take the lock only by acquiring it: no deadline wakes them. -/
theorem expire_keeps {pair : PairState Message} {top : Activation Message} {held : Held Message}
    (expired : pair.expire top = some held) : held.keeps = false := by
  have holds := expire_spec expired
  cases holds with
  | sendRefused | receiveRefused => cases expired
  | unmoved | delivered | queued | sendParked | popped | absorbed | ended | receiveParked | closing
  | expired => rfl

/-- A step that is no refusal leaves a free lock free. -/
theorem Step.free (step : Step encodeMessage state label target) (free : state.owner = none)
    (accepted : state.refuses label = false) : target.owner = none := by
  cases step with
  | hold _ thread top rest held _ found holds kind =>
    have released : held.keeps = false := by
      obtain ⟨rfl, _⟩ | ⟨rfl, expired⟩ := kind
      · by_contra keeps
        have refusal := keeps_of_refusal found holds (Bool.not_eq_false _ |>.mp keeps)
        rw [accepted] at refusal
        cases refusal
      · exact expire_keeps expired
    change (bif held.keeps then some thread else none) = none
    rw [released]
    rfl
  | release thread rest found => rfl
  | spawn | call | armed | unarmed | invoke | leave => exact free

/-- A refusal calls its callback with the lock held. -/
theorem refusal_visible (moved : (machine encodeMessage).step state label = some target)
    (unlocked : target.Unlocked) : state.refuses label = false := by
  by_contra refuses
  rw [Bool.not_eq_false] at refuses
  cases label with
  | acquire thread =>
    cases step_spec moved with
    | hold _ _ top rest held free found holds kind =>
      obtain ⟨same, acquired⟩ | ⟨other, _⟩ := kind
      · obtain rfl : thread = _ := PairLabel.acquire.inj same
        have called : ∃ callback report, held = state.pair.refuse callback report := by
          simp only [PairThreads.refuses, found] at refuses
          split at refuses
          · next side message callback _ split =>
            cases split
            obtain ⟨report, same⟩ := finishSendAsync_refused refuses message callback
            exact ⟨callback, report, (Option.some.inj acquired).symm.trans same⟩
          · next side timeout callback _ split =>
            cases split
            obtain ⟨report, same⟩ := finishReceiveAsync_refused refuses timeout callback
            exact ⟨callback, report, (Option.some.inj acquired).symm.trans same⟩
          · cases refuses
        obtain ⟨callback, report, rfl⟩ := called
        obtain ⟨bound, _⟩ := List.getElem?_eq_some_iff.mp found
        exact unlocked.callback thread _ (List.getElem?_set_self bound) List.mem_cons_self rfl
      · cases other
  | spawn | call | expire | arm | invoke | leave => cases refuses

/-- In a run no thread calls a callback with the state mutex held, nor waits for a mutex it owns,
exactly when no `SendAsync` of the run takes the lock of a closed session or behind an outstanding
send of its end, and no `ReceiveAsync` takes it behind an outstanding receive of its end. -/
theorem callbacks_unlocked_iff {labels : List (PairLabel Message)}
    (reached : (machine encodeMessage).run {} labels = some state) :
    (machine encodeMessage).Throughout Unlocked {} labels ↔
      (machine encodeMessage).Along (fun source label => source.refuses label = false) {} labels := by
  apply (machine encodeMessage).throughout_iff_along (fun source => source.owner = none)
  · intro source label next free accepted moved
    exact (step_spec moved).free free accepted
  · intro source free
    exact .of_free free
  · intro source label next free moved unlocked
    exact refusal_visible moved unlocked
  · rfl
  · exact reached

/-- The completion of a send calls the close of the peer, and a receive that was parked answers
with a send of its own: re-entrant callbacks that meet no refusal. -/
def reentrant : List (PairLabel ℕ) :=
  [.spawn, .call 0 (.receiveAsync .second none), .acquire 0, .call 0 (.sendAsync .first 7), .acquire 0,
    .invoke 0, .call 0 (.sendAsync .second 8), .acquire 0, .invoke 0, .leave 0, .leave 0, .leave 0,
    .invoke 0, .call 0 (.close .second), .acquire 0, .leave 0, .leave 0, .leave 0]

theorem callbacks_unlocked_iff_reentrant :
    ∃ state, (machine Codec.plain.encodeMessage).run {} reentrant = some state ∧
      (state.pair.closed = true ∧ state.handed .first = [7] ∧ state.accepted .second = [8]) ∧
      (machine Codec.plain.encodeMessage).Throughout Unlocked {} reentrant := by
  refine ⟨_, (Option.some_get (by decide)).symm, by decide, ?_⟩
  have accepted : (machine Codec.plain.encodeMessage).Along
      (fun source label => source.refuses label = false) {} reentrant := by decide
  exact (callbacks_unlocked_iff (Option.some_get (by decide)).symm).mpr accepted

/-- A send on a closed session is refused under the lock; its callback closes the session, as one
that polices a stream does, and the thread waits for its own mutex. -/
theorem refused_send_deadlocks :
    ∃ labels state, (machine Codec.plain.encodeMessage).run {} labels = some state ∧
      state.owner = some 0 ∧
      state.threads[0]? = some [.locking (.endSession .first {}), .callback, .refusing] ∧
      (machine Codec.plain.encodeMessage).step state (.acquire 0) = none ∧ ¬ state.Unlocked := by
  refine ⟨[.spawn, .call 0 (.close .first), .acquire 0, .leave 0, .call 0 (.sendAsync .first 7),
    .acquire 0, .call 0 (.close .first)], _, (Option.some_get (by decide)).symm, by decide, by decide, ?_, ?_⟩
  · rfl
  · intro unlocked
    exact unlocked.locking 0 (.endSession .first {}) [.callback, .refusing] (by decide) (by decide)

end PairThreads

end OpalCpp.Http

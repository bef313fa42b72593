import OpalCpp.Model.Server.SessionDelivery
import OpalCpp.Proofs.Server.Placement

/-! # Every step of the delivery machine, case by case

`Step` lists what one step can do: its guards and its whole effect, one constructor for each path
through the critical section it runs. The invariants of the entry are proved from this list and
never unfold the step function again.
-/

namespace OpalCpp.Server.Delivery

variable {Handle Tx : Type*}

/-- The step relation with all guards and effects spelled out. -/
inductive Step (options : Options) (state : Delivery Handle Tx) :
    DeliveryLabel Handle Tx → Delivery Handle Tx → Prop
  | refused {event : Tx} {delivery : DeliveryClass} :
      Step options state (.enqueue event delivery) { state with enqueues := state.enqueues + 1 }
  | placed {event : Tx} {delivery : DeliveryClass} {queue : List (Queued (Stamped Tx))}
      (edit : Entry.Placed options.queueCapacity state.entry.inFlight
        (state.offered options event delivery) delivery state.entry.queue queue)
      (taking : (state.entry.detached = true ∧ options.queueWhileDetached = true) ∨
        (state.entry.detached = false ∧ state.entry.stopping = false ∧
          (state.entry.asyncMode = true → state.entry.delivering = true))) :
      Step options state (.enqueue event delivery)
        { state with
          entry := { state.entry with queue }
          enqueues := state.enqueues + 1
          accepted := state.accepted ++ [state.offered options event delivery] }
  | claimed {event : Tx} {delivery : DeliveryClass} {front : Queued (Stamped Tx)}
      {rest : List (Queued (Stamped Tx))}
      (edit : Entry.Placed options.queueCapacity state.entry.inFlight
        (state.offered options event delivery) delivery state.entry.queue (front :: rest))
      (attached : state.entry.detached = false) (running : state.entry.stopping = false)
      (async : state.entry.asyncMode = true) (idle : state.entry.delivering = false) :
      Step options state (.enqueue event delivery)
        { state with
          entry := { state.entry with queue := front :: rest, delivering := true }
          enqueues := state.enqueues + 1
          accepted := state.accepted ++ [state.offered options event delivery]
          chain := state.chain ++ [claimOp state.epoch front.event] }
  | submit {index : ℕ} {op : ChainOp Tx} (present : state.chain[index]? = some op)
      (unsent : op.sent = false) :
      Step options state (.submit index)
        { state with
          chain := state.chain.set index { op with sent := true }
          handed := state.handed ++ [⟨op.event, state.entry.handle, op.epoch, state.epoch⟩] }
  | advanced {index : ℕ} {op : ChainOp Tx} {front : Queued (Stamped Tx)}
      {rest : List (Queued (Stamped Tx))} (present : state.chain[index]? = some op)
      (sent : op.sent = true) (next : state.entry.queue.tail = front :: rest)
      (running : state.entry.stopping = false) :
      Step options state (.complete index (.ok ()))
        { state with
          entry := { state.entry with queue := front :: rest, delivering := true }
          settled := state.settled ++ [(op.event, true)]
          chain := state.chain.eraseIdx index ++ [claimOp state.epoch front.event] }
  | drained {index : ℕ} {op : ChainOp Tx} (present : state.chain[index]? = some op)
      (sent : op.sent = true) (finished : state.entry.queue.tail = [] ∨ state.entry.stopping = true) :
      Step options state (.complete index (.ok ()))
        { state with
          entry := { state.entry with queue := state.entry.queue.tail, delivering := false }
          settled := state.settled ++ [(op.event, true)]
          chain := state.chain.eraseIdx index }
  | fallback {index : ℕ} {op : ChainOp Tx} {error : Error} (present : state.chain[index]? = some op)
      (sent : op.sent = true) (refusal : error.kind = .validation)
      (running : state.entry.stopping = false) (alone : state.entry.writer = none) :
      Step options state (.complete index (.error error))
        { state with
          entry := { state.entry with
            delivering := false, asyncMode := false, writer := some state.threads.length }
          chain := state.chain.eraseIdx index
          threads := state.threads ++ [.waiting] }
  | parked {index : ℕ} {op : ChainOp Tx} {error : Error} (present : state.chain[index]? = some op)
      (sent : op.sent = true) (refusal : error.kind = .validation)
      (finished : state.entry.stopping = true ∨ state.entry.writer ≠ none) :
      Step options state (.complete index (.error error))
        { state with
          entry := { state.entry with delivering := false }
          chain := state.chain.eraseIdx index }
  | broken {index : ℕ} {op : ChainOp Tx} {error : Error} (present : state.chain[index]? = some op)
      (sent : op.sent = true) (failure : error.kind ≠ .validation) :
      Step options state (.complete index (.error error))
        { state with
          entry := { state.entry with
            stopping := true
            queue := if state.entry.detached then state.entry.queue else []
            delivering := false }
          chain := state.chain.eraseIdx index }
  | writerLeave {thread : ℕ} (present : state.threads[thread]? = some .waiting)
      (stopping : state.entry.stopping = true) :
      Step options state (.writerTake thread)
        { state with threads := state.threads.set thread .exiting }
  | writerPop {thread : ℕ} {front : Queued (Stamped Tx)} {rest : List (Queued (Stamped Tx))}
      (present : state.threads[thread]? = some .waiting) (running : state.entry.stopping = false)
      (queue : state.entry.queue = front :: rest) :
      Step options state (.writerTake thread)
        { state with
          entry := { state.entry with queue := rest }
          threads := state.threads.set thread (.popped front.event state.epoch) }
  | writerSend {thread taken : ℕ} {event : Stamped Tx}
      (present : state.threads[thread]? = some (.popped event taken)) :
      Step options state (.writerSend thread)
        { state with
          threads := state.threads.set thread (.sending event taken)
          handed := state.handed ++ [⟨event, state.entry.handle, taken, state.epoch⟩] }
  | writerReturn {thread taken : ℕ} {event : Stamped Tx} {sent : Outcome Unit}
      (present : state.threads[thread]? = some (.sending event taken)) :
      Step options state (.writerReturn thread sent)
        { state with
          threads := state.threads.set thread (if sent.isOk then .waiting else .failed)
          settled := state.settled ++ [(event, sent.isOk)] }
  | writerFailed {thread : ℕ} (present : state.threads[thread]? = some .failed) :
      Step options state (.writerFailed thread)
        { state with
          entry := state.entry.writerFailed
          chain := if state.entry.detached then state.chain else state.markCleared
          threads := state.threads.set thread .exiting }
  | writerDone {thread : ℕ} (present : state.threads[thread]? = some .exiting) :
      Step options state (.writerDone thread)
        { state with
          entry := { state.entry with done := true }
          threads := state.threads.set thread .exited }
  | detach {now : ℕ} (registered : state.registered = true) (unlocked : state.resuming = none)
      (grace : options.gracePeriod ≠ 0) (attached : state.entry.detached = false) :
      Step options state (.detach now)
        { state with
          entry := state.entry.detach options now
          chain := if options.queueWhileDetached then state.chain else state.markCleared }
  | resume {handle : Handle} {supportsAsync : Bool} {now : ℕ} (registered : state.registered = true)
      (unlocked : state.resuming = none) (grace : options.gracePeriod ≠ 0)
      (detached : state.entry.detached = true) (early : now < state.entry.deadline) :
      Step options state (.resume handle supportsAsync now)
        { state with resuming := some (handle, options.asyncDelivery && supportsAsync) }
  | resumeWriter {handle : Handle} (waiting : state.resuming = some (handle, false))
      (quiet : state.entry.quiescent = true) :
      Step options state .resumeFinish
        { state with
          entry := { state.entry with
            handle, detached := false, stopping := false, done := false, asyncMode := false
            writer := some state.threads.length }
          earlier := state.earlier ++ [state.entry.handle]
          resuming := none
          threads := state.threads ++ [.waiting] }
  | resumeChain {handle : Handle} {front : Queued (Stamped Tx)} {rest : List (Queued (Stamped Tx))}
      (waiting : state.resuming = some (handle, true)) (quiet : state.entry.quiescent = true)
      (queue : state.entry.queue = front :: rest) :
      Step options state .resumeFinish
        { state with
          entry := { state.entry with
            handle, detached := false, stopping := false, done := false, asyncMode := true
            writer := none, delivering := true }
          earlier := state.earlier ++ [state.entry.handle]
          resuming := none
          chain := state.chain ++ [claimOp (state.epoch + 1) front.event] }
  | resumeIdle {handle : Handle} (waiting : state.resuming = some (handle, true))
      (quiet : state.entry.quiescent = true) (queue : state.entry.queue = []) :
      Step options state .resumeFinish
        { state with
          entry := { state.entry with
            handle, detached := false, stopping := false, done := false, asyncMode := true
            writer := none, delivering := false }
          earlier := state.earlier ++ [state.entry.handle]
          resuming := none }
  | remove (registered : state.registered = true) (unlocked : state.resuming = none) :
      Step options state .remove { state.stopped with registered := false }
  | expire {now : WithTop ℕ} (registered : state.registered = true) (unlocked : state.resuming = none)
      (detached : state.entry.detached = true) (late : (state.entry.deadline : WithTop ℕ) ≤ now) :
      Step options state (.expire now) { state with registered := false }
  | unregister (registered : state.registered = true) (unlocked : state.resuming = none) :
      Step options state .unregister { state with registered := false }
  | requestStop (gone : state.registered = false) : Step options state .requestStop state.stopped
  | join {thread : ℕ} (gone : state.registered = false) (joinable : state.entry.writer = some thread)
      (done : state.entry.done = true) :
      Step options state .join { state with entry := { state.entry with writer := none } }

theorem reachable_iff (state : Delivery Handle Tx) :
    state.reachable = true ↔ state.registered = true ∧ state.resuming = none := by
  simp [reachable, Option.isNone_iff_eq_none]

private theorem enqueue_step (options : Options) (state : Delivery Handle Tx) (event : Tx)
    (delivery : DeliveryClass) :
    Step options state (.enqueue event delivery) (state.enqueue options event delivery) := by
  have cases := Entry.enqueue_cases options state.entry (state.offered options event delivery) delivery
  simp only [enqueue]
  generalize state.entry.enqueue options (state.offered options event delivery) delivery = result at cases ⊢
  obtain ⟨entry, outcome⟩ := result
  cases cases with
  | refused silent =>
    cases outcome with
    | refused => exact .refused
    | full => exact .refused
    | queued claimed => cases silent
  | placed edit taking =>
    simpa only [Option.toList_none, List.map_nil, List.append_nil] using Step.placed edit taking
  | claimed edit attached running async idle => exact .claimed edit attached running async idle

/-- A completion that reports success either claims the next front or leaves the chain idle. -/
private theorem complete_ok_step {options : Options} {state target : Delivery Handle Tx} {index : ℕ}
    {op : ChainOp Tx} (present : state.chain[index]? = some op) (issued : op.sent = true)
    (run : state.complete index (.ok ()) = some target) :
    Step options state (.complete index (.ok ())) target := by
  simp only [complete, present, issued, ↓reduceIte, Entry.complete, Except.isOk, Except.toBool] at run
  by_cases finished : state.entry.queue.tail = [] ∨ state.entry.stopping = true
  · have claim : ({ state.entry with queue := state.entry.queue.tail } : Entry Handle _).claimLocked =
        ({ state.entry with queue := state.entry.queue.tail, delivering := false }, none) := by
      unfold Entry.claimLocked
      rcases finished with empty | stopping
      · simp only [empty]
      · cases state.entry.queue.tail <;> simp only [stopping, ↓reduceIte]
    rw [claim] at run
    cases run
    exact .drained present issued finished
  · obtain ⟨more, running⟩ := not_or.mp finished
    rw [Bool.not_eq_true] at running
    obtain ⟨front, rest, next⟩ := List.exists_cons_of_ne_nil more
    have claim : ({ state.entry with queue := state.entry.queue.tail } : Entry Handle _).claimLocked =
        ({ state.entry with queue := front :: rest, delivering := true }, some front.event) := by
      simp only [Entry.claimLocked, next, running, Bool.false_eq_true, ↓reduceIte]
    rw [claim] at run
    cases run
    exact .advanced present issued next running

/-- A completion that reports an error falls back, goes idle, or ends the delivery. -/
private theorem complete_error_step {options : Options} {state target : Delivery Handle Tx} {index : ℕ}
    {error : Error} {op : ChainOp Tx} (present : state.chain[index]? = some op) (issued : op.sent = true)
    (run : state.complete index (.error error) = some target) :
    Step options state (.complete index (.error error)) target := by
  simp only [complete, present, issued, ↓reduceIte, Entry.complete, Except.isOk, Except.toBool,
    Bool.false_eq_true] at run
  by_cases refusal : error.kind = .validation
  · rw [if_pos refusal] at run
    by_cases spawns : (!state.entry.stopping && state.entry.writer.isNone) = true
    · rw [if_pos spawns] at run
      simp only [Bool.and_eq_true, Bool.not_eq_true', Option.isNone_iff_eq_none] at spawns
      cases run
      exact .fallback present issued refusal spawns.1 spawns.2
    · rw [if_neg spawns] at run
      cases run
      refine .parked present issued refusal ?_
      by_contra neither
      obtain ⟨running, alone⟩ := not_or.mp neither
      rw [Bool.not_eq_true] at running
      exact spawns (by simp only [running, not_not.mp alone, Bool.not_false, Option.isNone_none, Bool.and_self])
  · rw [if_neg refusal] at run
    cases run
    exact .broken present issued refusal

private theorem complete_step {options : Options} {state target : Delivery Handle Tx} {index : ℕ}
    {sent : Outcome Unit} (run : state.complete index sent = some target) :
    Step options state (.complete index sent) target := by
  cases present : state.chain[index]? with
  | none => simp only [complete, present, reduceCtorEq] at run
  | some op =>
    by_cases issued : op.sent = true
    · rcases sent with error | ⟨⟩
      · exact complete_error_step present issued run
      · exact complete_ok_step present issued run
    · simp only [complete, present, issued, Bool.false_eq_true, ↓reduceIte, reduceCtorEq] at run

private theorem writerTake_step {options : Options} {state target : Delivery Handle Tx} {thread : ℕ}
    (run : state.writerTake thread = some target) : Step options state (.writerTake thread) target := by
  unfold writerTake at run
  split at run
  · next present =>
    by_cases stopping : state.entry.stopping = true
    · simp only [Entry.writerRunnable, Entry.writerTake, stopping, Bool.true_or, ↓reduceIte,
        Option.some.injEq] at run
      subst run
      exact .writerLeave present stopping
    · rw [Bool.not_eq_true] at stopping
      cases queue : state.entry.queue with
      | nil => simp [Entry.writerRunnable, stopping, queue] at run
      | cons front rest =>
        simp only [Entry.writerRunnable, Entry.writerTake, stopping, queue, List.isEmpty_cons,
          Bool.not_false, Bool.or_true, Bool.false_eq_true, ↓reduceIte, Option.some.injEq] at run
        subst run
        have step : Step options state _ _ := .writerPop present stopping queue
        simpa only [stopping] using step
  · cases run

private theorem resumeFinish_step {options : Options} {state target : Delivery Handle Tx}
    (run : state.resumeFinish = some target) : Step options state .resumeFinish target := by
  unfold resumeFinish at run
  split at run
  · next handle asyncMode waiting =>
    split at run
    · next quiet =>
      cases asyncMode with
      | false =>
        simp only [Entry.resumeSwap, Bool.false_eq_true, ↓reduceIte, Option.toList_none, List.map_nil,
          List.append_nil, Option.some.injEq] at run
        subst run
        exact .resumeWriter waiting quiet
      | true =>
        cases queue : state.entry.queue with
        | nil =>
          simp only [Entry.resumeSwap, Entry.claimLocked, queue, ↓reduceIte, Option.toList_none,
            List.map_nil, List.append_nil, Option.some.injEq] at run
          subst run
          have step : Step options state _ _ := .resumeIdle waiting quiet queue
          simpa only [queue] using step
        | cons front rest =>
          simp only [Entry.resumeSwap, Entry.claimLocked, queue, Bool.false_eq_true, ↓reduceIte,
            Option.toList_some, List.map_cons, List.map_nil, List.length_append, List.length_cons,
            List.length_nil, Nat.zero_add, Option.some.injEq] at run
          subst run
          have step : Step options state _ _ := .resumeChain waiting quiet queue
          simpa only [queue, epoch] using step
    · cases run
  · cases run

/-- The step function does nothing that `Step` does not list. -/
theorem step_cases {options : Options} {state target : Delivery Handle Tx}
    {label : DeliveryLabel Handle Tx} (run : step options state label = some target) :
    Step options state label target := by
  cases label with
  | enqueue event delivery =>
    cases run
    exact enqueue_step options state event delivery
  | submit index =>
    simp only [step, submit] at run
    split at run
    · next op present =>
      split at run
      · cases run
      · next unsent =>
        cases run
        exact .submit present (by simpa using unsent)
    · cases run
  | complete index sent => exact complete_step run
  | writerTake thread => exact writerTake_step run
  | writerSend thread =>
    simp only [step, writerSend] at run
    split at run
    · next event taken present => cases run; exact .writerSend present
    · cases run
  | writerReturn thread sent =>
    simp only [step, writerReturn] at run
    split at run
    · next event taken present => cases run; exact .writerReturn present
    · cases run
  | writerFailed thread =>
    simp only [step, writerFailed] at run
    split at run
    · next present => cases run; exact .writerFailed present
    · cases run
  | writerDone thread =>
    simp only [step, writerDone] at run
    split at run
    · next present => cases run; exact .writerDone present
    · cases run
  | detach now =>
    simp only [step, detach] at run
    split at run
    · next guards =>
      simp only [Bool.and_eq_true, reachable_iff, bne_iff_ne, Bool.not_eq_true'] at guards
      cases run
      exact .detach guards.1.1.1 guards.1.1.2 guards.1.2 guards.2
    · cases run
  | resume handle supportsAsync now =>
    simp only [step, resume] at run
    split at run
    · next guards =>
      simp only [Entry.resumable, Bool.and_eq_true, reachable_iff, bne_iff_ne, decide_eq_true_eq] at guards
      cases run
      exact .resume guards.1.1 guards.1.2 guards.2.1.1 guards.2.1.2 guards.2.2
    · cases run
  | resumeFinish => exact resumeFinish_step run
  | remove =>
    simp only [step, remove] at run
    split at run
    · next guards =>
      rw [reachable_iff] at guards
      cases run
      exact .remove guards.1 guards.2
    · cases run
  | expire now =>
    simp only [step, expire] at run
    split at run
    · next guards =>
      simp only [Entry.expired, Bool.and_eq_true, reachable_iff, decide_eq_true_eq] at guards
      cases run
      exact .expire guards.1.1 guards.1.2 guards.2.1 guards.2.2
    · cases run
  | unregister =>
    simp only [step, unregister] at run
    split at run
    · next guards =>
      rw [reachable_iff] at guards
      cases run
      exact .unregister guards.1 guards.2
    · cases run
  | requestStop =>
    simp only [step, requestStop] at run
    split at run
    · cases run
    · next gone => cases run; exact .requestStop (by simpa using gone)
  | join =>
    simp only [step, join] at run
    split at run
    · next guards =>
      simp only [Bool.and_eq_true, Bool.not_eq_true', Option.isSome_iff_exists] at guards
      obtain ⟨⟨gone, thread, joinable⟩, done⟩ := guards
      cases run
      exact .join gone joinable done
    · cases run

end OpalCpp.Server.Delivery

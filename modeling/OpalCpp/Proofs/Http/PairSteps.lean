import OpalCpp.Model.Http.PairThreads

/-! # What the holds and the steps of the pair can do

`PairState.Holds` lists the outcomes of a hold of the state mutex, with what the code has checked
on the way and with the counts of blocked callers left open, as only the refusals read them.
`PairThreads.Step` lists the steps of the threads around it. The invariants of the pair are proved
over these two and do not look into the methods again.
-/

namespace OpalCpp.Http

open Function (update)

variable {Message Frame : Type*}

@[simp] theorem Side.other_other (side : Side) : side.other.other = side := by cases side <;> rfl

theorem Side.other_ne (side : Side) : side.other ≠ side := by cases side <;> simp [Side.other]

theorem Side.eq_or_eq_other (side other : Side) : other = side ∨ other = side.other := by
  cases side <;> cases other <;> simp [Side.other]

@[simp] theorem update_other {Value : Type*} (values : Side → Value) (side : Side) (value : Value) :
    update values side value side.other = values side.other :=
  Function.update_of_ne side.other_ne value values

@[simp] theorem update_of_other {Value : Type*} (values : Side → Value) (side : Side) (value : Value) :
    update values side.other value side = values side :=
  Function.update_of_ne side.other_ne.symm value values

namespace Activation

/-- The callbacks an activation has taken over and not called yet. -/
def callbacks : Activation Message → List ℕ
  | .locking (.sendAsync _ _ number) => [number]
  | .locking (.receiveAsync _ _ number) => [number]
  | .firing calls => calls.map Prod.fst
  | _ => []

/-- The park an activation may still complete by its deadline: its end, its generation and the
callback that was parked. -/
def bounds : Activation Message → Option (Side × UInt64 × ℕ)
  | .arming side generation number => some (side, generation, number)
  | .watchdog side generation number => some (side, generation, number)
  | .locking (.takeBack side generation number) => some (side, generation, number)
  | _ => none

@[simp] theorem callbacks_firing (calls : List (ℕ × Report Message)) :
    (Activation.firing calls).callbacks = calls.map Prod.fst := rfl

@[simp] theorem callbacks_sendAsync (side : Side) (message : Message) (number : ℕ) :
    (Activation.locking (.sendAsync side message number)).callbacks = [number] := rfl

@[simp] theorem callbacks_receiveAsync (side : Side) (timeout : Option ℤ) (number : ℕ) :
    (Activation.locking (.receiveAsync side timeout number) : Activation Message).callbacks = [number] := rfl

/-- A deadline owes no callback: it is parked. -/
theorem callbacks_of_bounds {activation : Activation Message} {park : Side × UInt64 × ℕ}
    (bounds : activation.bounds = some park) : activation.callbacks = [] := by
  cases activation with
  | locking hold => cases hold <;> first | rfl | cases bounds
  | firing calls => cases bounds
  | arming | watchdog | sending | receiving | callback | refusing => rfl

end Activation

namespace PairState

/-- The same session with other counts of blocked callers. -/
def recount (pair : PairState Message) (receivers senders : Side → ℕ) : PairState Message :=
  { pair with blockedReceivers := receivers, blockedSenders := senders }

/-- A send of `message` may go on: the session is open, the queue has room, no send is parked. -/
structure Room (pair : PairState Message) (side : Side) : Prop where
  isOpen : pair.closed = false
  length_lt : (pair.queues side).length < kQueueDepth
  unparked : pair.pendingSend side = none

/-- The outcomes of a hold. -/
inductive Holds (pair : PairState Message) : Activation Message → Held Message → Prop
  /-- Nothing but the counts has changed; the callbacks owed are still owed. -/
  | unmoved (top : Activation Message) (receivers senders : Side → ℕ) (frames : List (Activation Message))
      (owed : frames.flatMap Activation.callbacks = top.callbacks)
      (unarmed : ∀ frame ∈ frames, frame.bounds = none) :
      Holds pair top { pair := pair.recount receivers senders, frames }
  /-- A send hands its message to the peer's parked receive. -/
  | delivered (top : Activation Message) (senders : Side → ℕ) (side : Side) (message : Message)
      (receiver : ℕ) (own : List (ℕ × Report Message)) (owed : own.map Prod.fst = top.callbacks)
      (room : pair.Room side) (parked : pair.pendingReceive side.other = some receiver) :
      Holds pair top (sent side message own
        { pair.recount pair.blockedReceivers senders with
          pendingReceive := update pair.pendingReceive side.other none } (some receiver))
  | queued (top : Activation Message) (senders : Side → ℕ) (side : Side) (message : Message)
      (own : List (ℕ × Report Message)) (owed : own.map Prod.fst = top.callbacks)
      (room : pair.Room side) (unparked : pair.pendingReceive side.other = none) :
      Holds pair top (sent side message own
        { pair.recount pair.blockedReceivers senders with
          queues := update pair.queues side (pair.queues side ++ [message]) } none)
  | sendParked (side : Side) (message : Message) (callback : ℕ) (isOpen : pair.closed = false)
      (full : kQueueDepth ≤ (pair.queues side).length) (unparked : pair.pendingSend side = none) :
      Holds pair (.locking (.sendAsync side message callback))
        { pair := { pair with
            pendingSend := update pair.pendingSend side (some { message, callback }) } }
  | sendRefused (side : Side) (message : Message) (callback : ℕ) (error : Error)
      (why : pair.closed = true ∨ (pair.pendingSend side).isSome ∨ 0 < pair.blockedSenders side) :
      Holds pair (.locking (.sendAsync side message callback))
        (refuse pair callback (.sent (.error error)))
  | receiveRefused (side : Side) (timeout : Option ℤ) (callback : ℕ)
      (why : (pair.pendingReceive side).isSome ∨ 0 < pair.blockedReceivers side) :
      Holds pair (.locking (.receiveAsync side timeout callback))
        (refuse pair callback (.received (.failed receiveOutstanding)))
  /-- A receive pops the front of its queue and no parked send takes the place. -/
  | popped (top : Activation Message) (receivers : Side → ℕ) (side : Side) (message : Message)
      (rest : List Message) (own : List (ℕ × Report Message)) (owed : own.map Prod.fst = top.callbacks)
      (queue : pair.queues side.other = message :: rest)
      (kept : pair.pendingSend side.other = none ∨ kQueueDepth ≤ rest.length) :
      Holds pair top (received side message own
        { pair.recount receivers pair.blockedSenders with
          queues := update pair.queues side.other rest } none)
  /-- A receive pops the front of its queue and the peer's parked send takes the place. -/
  | absorbed (top : Activation Message) (receivers : Side → ℕ) (side : Side) (message : Message)
      (rest : List Message) (own : List (ℕ × Report Message)) (owed : own.map Prod.fst = top.callbacks)
      (queue : pair.queues side.other = message :: rest) (parked : PendingSend Message)
      (waiting : pair.pendingSend side.other = some parked) (space : rest.length < kQueueDepth) :
      Holds pair top (received side message own
        { pair.recount receivers pair.blockedSenders with
          queues := update pair.queues side.other (rest ++ [parked.message])
          pendingSend := update pair.pendingSend side.other none } (some parked))
  /-- A receive is told the clean end. -/
  | ended (top : Activation Message) (receivers : Side → ℕ) (side : Side)
      (frames : List (Activation Message)) (owed : frames.flatMap Activation.callbacks = top.callbacks)
      (unarmed : ∀ frame ∈ frames, frame.bounds = none)
      (empty : pair.queues side.other = []) (closed : pair.closed = true) :
      Holds pair top
        { pair := pair.recount receivers pair.blockedSenders, frames, ended := (· = side) }
  | receiveParked (side : Side) (timeout : Option ℤ) (callback : ℕ)
      (unparked : pair.pendingReceive side = none) (empty : pair.queues side.other = [])
      (isOpen : pair.closed = false) :
      Holds pair (.locking (.receiveAsync side timeout callback))
        { pair := { pair with
            pendingReceive := update pair.pendingReceive side (some callback)
            receiveParkGeneration :=
              update pair.receiveParkGeneration side (pair.receiveParkGeneration side + 1) }
          parks := fun other => if other = side then 1 else 0
          frames :=
            if timeout.isSome then [.arming side (pair.receiveParkGeneration side + 1) callback] else [] }
  | closing (side : Side) (why : CloseReason) :
      Holds pair (.locking (.endSession side why)) (pair.finishEnd side why)
  | expired (top : Activation Message) (side : Side) (generation : UInt64) (callback completed : ℕ)
      (error : Error) (bounds : top.bounds = some (side, generation, callback))
      (parked : pair.pendingReceive side = some completed)
      (current : pair.receiveParkGeneration side = generation) :
      Holds pair top
        { pair := { pair with pendingReceive := update pair.pendingReceive side none }
          frames := [.firing [(completed, .received (.failed error))]]
          expiries := [⟨generation, callback, pair.receiveParkGeneration side, completed⟩] }

/-- A hold that leaves the pair alone and has no callback to call. -/
theorem Holds.passed {pair : PairState Message} {top : Activation Message} (quiet : top.callbacks = [])
    (receivers senders : Side → ℕ) : Holds pair top { pair := pair.recount receivers senders } := by
  apply Holds.unmoved top receivers senders []
  · rw [quiet, List.flatMap_nil]
  · simp

/-- The end of both sends. -/
theorem accept_spec {pair : PairState Message} (top : Activation Message) {side : Side}
    (room : pair.Room side) (senders : Side → ℕ) (message : Message) (own : List (ℕ × Report Message))
    (owed : own.map Prod.fst = top.callbacks) :
    ∃ after deliver, (pair.recount pair.blockedReceivers senders).accept side message =
        (after, .accepted deliver) ∧ Holds pair top (sent side message own after deliver) := by
  cases parked : pair.pendingReceive side.other with
  | none =>
    refine ⟨_, none, ?_, .queued top senders side message own owed room parked⟩
    simp only [accept, put, takePeerReceiverLocked, recount, parked]
  | some receiver =>
    refine ⟨_, some receiver, ?_, .delivered top senders side message receiver own owed room parked⟩
    simp only [accept, put, takePeerReceiverLocked, recount, parked]

/-- The end of both receives that find a message. -/
theorem takeFront_spec {pair : PairState Message} (top : Activation Message) {side : Side}
    {message : Message} {rest : List Message} (queue : pair.queues side.other = message :: rest)
    (receivers : Side → ℕ) (own : List (ℕ × Report Message)) (owed : own.map Prod.fst = top.callbacks) :
    ∃ after absorbed, (pair.recount receivers pair.blockedSenders).takeFront side message rest =
        (after, .message message absorbed) ∧ Holds pair top (received side message own after absorbed) := by
  cases waiting : pair.pendingSend side.other with
  | none =>
    refine ⟨_, none, ?_, .popped top receivers side message rest own owed queue (.inl waiting)⟩
    simp only [takeFront, absorbPeerPendingSendLocked, recount, waiting]
  | some parked =>
    by_cases full : kQueueDepth ≤ rest.length
    · refine ⟨_, none, ?_, .popped top receivers side message rest own owed queue (.inr full)⟩
      simp only [takeFront, absorbPeerPendingSendLocked, recount, waiting, Function.update_self, full,
        ↓reduceIte]
    · refine ⟨_, some parked, ?_,
        .absorbed top receivers side message rest own owed queue parked waiting (Nat.lt_of_not_le full)⟩
      simp only [takeFront, absorbPeerPendingSendLocked, recount, waiting, Function.update_self, full,
        ↓reduceIte, Function.update_idem]

theorem sendAfterWait_closed (pair : PairState Message) (closed : pair.closed = true) (side : Side)
    (message : Message) :
    pair.sendAfterWait side message =
      (pair.recount pair.blockedReceivers
        (update pair.blockedSenders side (pair.blockedSenders side - 1)), .refused sessionClosed) :=
  if_pos closed

theorem sendAfterWait_open (pair : PairState Message) (isOpen : pair.closed = false) (side : Side)
    (message : Message) :
    pair.sendAfterWait side message =
      (pair.recount pair.blockedReceivers
        (update pair.blockedSenders side (pair.blockedSenders side - 1))).accept side message :=
  if_neg (Bool.eq_false_iff.mp isOpen)

/-- The wait of `Send` ends in a closed session or with room for the message. -/
theorem sendTurn_iff (pair : PairState Message) (side : Side) :
    pair.sendTurn side = true ↔ pair.closed = true ∨ pair.Room side := by
  cases closed : pair.closed with
  | true => simp [sendTurn, closed]
  | false =>
    simp only [sendTurn, closed, Bool.or_false, Bool.and_eq_true, decide_eq_true_eq, Option.isNone_iff_eq_none,
      Bool.false_eq_true, false_or]
    exact ⟨fun ⟨length_lt, unparked⟩ => ⟨closed, length_lt, unparked⟩,
      fun room => ⟨room.length_lt, room.unparked⟩⟩

/-- `Send` once its wait is over. -/
theorem finishSend_spec (pair : PairState Message) {top : Activation Message} {side : Side}
    (quiet : top.callbacks = []) (turn : pair.sendTurn side = true) (senders : Side → ℕ)
    (message : Message) :
    Holds pair top ((pair.recount pair.blockedReceivers senders).finishSend side message) := by
  rw [finishSend]
  obtain closed | room := (pair.sendTurn_iff side).mp turn
  · rw [sendAfterWait_closed (pair.recount pair.blockedReceivers senders) closed]
    exact .passed quiet _ _
  · obtain ⟨after, deliver, accepted, holds⟩ := accept_spec top room
      (update senders side (senders side - 1)) message [] quiet.symm
    rw [(sendAfterWait_open (pair.recount pair.blockedReceivers senders) room.isOpen
      side message).trans accepted]
    exact holds

/-- The lock hold of `SendAsync`. -/
theorem finishSendAsync_spec (pair : PairState Message) (side : Side) (message : Message) (callback : ℕ) :
    Holds pair (.locking (.sendAsync side message callback))
      (pair.finishSendAsync side message callback) := by
  rw [finishSendAsync, sendAsync]
  split_ifs with closed busy full
  · exact .sendRefused side message callback _ (.inl closed)
  · simp only [Bool.or_eq_true, decide_eq_true_eq] at busy
    exact .sendRefused side message callback _ (.inr busy)
  · simp only [Bool.or_eq_true, not_or, Bool.not_eq_true, Option.isSome_eq_false_iff,
      Option.isNone_iff_eq_none] at busy
    exact .sendParked side message callback (Bool.eq_false_iff.mpr closed) full busy.1
  · simp only [Bool.or_eq_true, not_or, Bool.not_eq_true, Option.isSome_eq_false_iff,
      Option.isNone_iff_eq_none] at busy
    have room : pair.Room side := ⟨Bool.eq_false_iff.mpr closed, Nat.lt_of_not_le full, busy.1⟩
    obtain ⟨after, deliver, accepted, holds⟩ := accept_spec
      (.locking (.sendAsync side message callback)) room pair.blockedSenders message
      [(callback, .sent (.ok ()))] rfl
    rw [show pair.accept side message = (after, .accepted deliver) from accepted]
    exact holds

/-- A blocking receive that ends by its deadline takes nothing. -/
theorem finishReceive_timedOut {pair : PairState Message} {top : Activation Message}
    (quiet : top.callbacks = []) (side : Side) : Holds pair top (pair.finishReceive side false) :=
  .passed quiet _ _

/-- `Receive` once its wait is over. -/
theorem finishReceive_spec (pair : PairState Message) {top : Activation Message} {side : Side}
    (quiet : top.callbacks = []) (turn : pair.arrived side = true) (receivers : Side → ℕ) :
    Holds pair top ((pair.recount receivers pair.blockedSenders).finishReceive side true) := by
  rw [finishReceive, receiveAfterWait]
  simp only [Bool.not_true, Bool.false_eq_true, ↓reduceIte]
  cases queue : pair.queues side.other with
  | nil =>
    have closed : pair.closed = true := by simpa [arrived, queue] using turn
    rw [show (pair.recount receivers pair.blockedSenders).queues side.other = [] from queue]
    apply Holds.ended top _ side []
    · rw [quiet, List.flatMap_nil]
    · simp
    · exact queue
    · exact closed
  | cons message rest =>
    rw [show (pair.recount receivers pair.blockedSenders).queues side.other = message :: rest from queue]
    obtain ⟨after, absorbed, taken, holds⟩ := takeFront_spec top queue
      (update receivers side (receivers side - 1)) [] quiet.symm
    have taken : PairState.takeFront { pair.recount receivers pair.blockedSenders with
        blockedReceivers := update receivers side (receivers side - 1) } side message rest =
      (after, .message message absorbed) := taken
    simp only [recount] at taken ⊢
    rw [taken]
    exact holds

/-- The lock hold of `ReceiveAsyncWithin`. -/
theorem finishReceiveAsync_spec (pair : PairState Message) (side : Side) (timeout : Option ℤ)
    (callback : ℕ) :
    Holds pair (.locking (.receiveAsync side timeout callback))
      (pair.finishReceiveAsync side timeout callback) := by
  rw [finishReceiveAsync, receiveAsync]
  by_cases busy : ((pair.pendingReceive side).isSome || 0 < pair.blockedReceivers side) = true
  · rw [if_pos busy]
    simp only [Bool.or_eq_true, decide_eq_true_eq] at busy
    exact .receiveRefused side timeout callback busy
  rw [if_neg busy]
  simp only [Bool.or_eq_true, not_or, Bool.not_eq_true, Option.isSome_eq_false_iff,
    Option.isNone_iff_eq_none] at busy
  cases queue : pair.queues side.other with
  | cons message rest =>
    obtain ⟨after, absorbed, taken, holds⟩ := takeFront_spec
      (.locking (.receiveAsync side timeout callback)) queue pair.blockedReceivers
      [(callback, .received (.message message))] rfl
    simp only
    rw [show pair.takeFront side message rest = (after, .message message absorbed) from taken]
    exact holds
  | nil =>
    simp only
    by_cases closed : pair.closed = true
    · rw [if_pos closed]
      apply Holds.ended _ pair.blockedReceivers side [.firing [(callback, .received .ended)]]
      · rfl
      · intro frame member
        rw [List.mem_singleton.mp member]
        rfl
      · exact queue
      · exact closed
    rw [if_neg closed]
    by_cases zero : timeout.any (· ≤ 0) = true
    · rw [if_pos zero]
      apply Holds.unmoved _ pair.blockedReceivers pair.blockedSenders
        [.firing [(callback, .received (.failed deadlinePassed))]]
      · rfl
      · intro frame member
        rw [List.mem_singleton.mp member]
        rfl
    · rw [if_neg zero]
      exact .receiveParked side timeout callback busy.1 queue (Bool.eq_false_iff.mpr closed)

/-- A watchdog at its deadline, or a park no watchdog could be spawned for. -/
theorem finishPark_spec {pair : PairState Message} {top : Activation Message} {side : Side}
    {generation : UInt64} {callback : ℕ} (bounds : top.bounds = some (side, generation, callback))
    (quiet : top.callbacks = []) (error : Error) :
    Holds pair top (pair.finishPark side generation callback error) := by
  rw [finishPark, takeParked]
  cases parked : pair.pendingReceive side with
  | none =>
    simp only [Option.isNone_none, Bool.true_or, ↓reduceIte]
    exact .passed quiet pair.blockedReceivers pair.blockedSenders
  | some completed =>
    by_cases current : pair.receiveParkGeneration side = generation
    · simp only [Option.isNone_some, Bool.false_or, bne_iff_ne, current, ne_eq, not_true_eq_false, ↓reduceIte]
      have holds : pair.Holds top _ := .expired top side generation callback completed error bounds parked current
      rw [current] at holds
      exact holds
    · simp only [Option.isNone_some, Bool.false_or, bne_iff_ne, ne_eq, current, not_false_eq_true, ↓reduceIte]
      exact .passed quiet pair.blockedReceivers pair.blockedSenders

/-- A thread that goes to sleep keeps what it owes: nothing. -/
theorem Holds.asleep {pair : PairState Message} {top : Activation Message} (quiet : top.callbacks = [])
    (receivers senders : Side → ℕ) {frame : Activation Message} (owes : frame.callbacks = [])
    (unarmed : frame.bounds = none) :
    Holds pair top { pair := pair.recount receivers senders, frames := [frame] } := by
  apply Holds.unmoved top receivers senders [frame]
  · rw [quiet, List.flatMap_singleton, owes]
  · intro other member
    rw [List.mem_singleton.mp member, unarmed]

/-- Every hold of a thread that gets the lock is one of the outcomes. -/
theorem acquire_spec {pair : PairState Message} {top : Activation Message} {held : Held Message}
    (acquired : pair.acquire top = some held) : Holds pair top held := by
  cases top with
  | locking hold =>
    cases hold with
    | send side message =>
      simp only [acquire] at acquired
      split_ifs at acquired with turn <;> cases acquired
      · exact finishSend_spec pair rfl turn _ message
      · exact .asleep rfl pair.blockedReceivers _ rfl rfl
    | sendAsync side message callback => cases acquired; exact pair.finishSendAsync_spec side message callback
    | receive side timed =>
      simp only [acquire] at acquired
      split_ifs at acquired with turn <;> cases acquired
      · exact finishReceive_spec pair rfl turn _
      · exact .asleep rfl _ pair.blockedSenders rfl rfl
    | receiveAsync side timeout callback =>
      cases acquired
      exact pair.finishReceiveAsync_spec side timeout callback
    | endSession side why => cases acquired; exact .closing side why
    | peerCloseReason side => cases acquired; exact .passed rfl pair.blockedReceivers pair.blockedSenders
    | takeBack side generation callback =>
      cases acquired
      exact finishPark_spec rfl rfl _
  | sending side message =>
    simp only [acquire] at acquired
    split_ifs at acquired with turn
    cases acquired
    exact finishSend_spec pair rfl turn pair.blockedSenders message
  | receiving side timed =>
    simp only [acquire] at acquired
    split_ifs at acquired with turn
    cases acquired
    exact finishReceive_spec pair rfl turn pair.blockedReceivers
  | arming side generation callback => cases acquired
  | watchdog side generation callback => cases acquired
  | firing calls => cases acquired
  | callback => cases acquired
  | refusing => cases acquired

/-- Every hold of a thread whose deadline has passed is one of the outcomes. -/
theorem expire_spec {pair : PairState Message} {top : Activation Message} {held : Held Message}
    (expired : pair.expire top = some held) : Holds pair top held := by
  cases top with
  | receiving side timed =>
    cases timed with
    | false => cases expired
    | true =>
      simp only [expire] at expired
      split_ifs at expired
      cases expired
      exact finishReceive_timedOut rfl side
  | watchdog side generation callback =>
    cases expired
    exact finishPark_spec rfl rfl _
  | locking hold => cases expired
  | sending side message => cases expired
  | arming side generation callback => cases expired
  | firing calls => cases expired
  | callback => cases expired
  | refusing => cases expired

end PairState

namespace PairThreads

/-- The steps of the pair under its threads. -/
inductive Step (encodeMessage : Message → Outcome Frame) (state : PairThreads Message) :
    PairLabel Message → PairThreads Message → Prop
  | spawn : Step encodeMessage state .spawn { state with threads := state.threads ++ [[]] }
  | call (thread : ℕ) (call : PairCall Message) (stack : List (Activation Message))
      (found : state.threads[thread]? = some stack) (application : inApplication stack = true)
      (survives : call.survives = true) :
      Step encodeMessage state (.call thread call)
        { state with
          threads := state.threads.set thread (call.enter encodeMessage state.passed ++ stack)
          passed := bif call.passes then state.passed + 1 else state.passed }
  | hold (label : PairLabel Message) (thread : ℕ) (top : Activation Message)
      (rest : List (Activation Message)) (held : Held Message) (free : state.owner = none)
      (found : state.threads[thread]? = some (top :: rest)) (holds : state.pair.Holds top held)
      (kind : (label = .acquire thread ∧ state.pair.acquire top = some held) ∨
        (label = .expire thread ∧ state.pair.expire top = some held)) :
      Step encodeMessage state label (state.apply thread rest held)
  | armed (thread : ℕ) (side : Side) (generation : UInt64) (callback : ℕ)
      (rest : List (Activation Message))
      (found : state.threads[thread]? = some (.arming side generation callback :: rest)) :
      Step encodeMessage state (.arm thread true)
        { state with threads := state.threads.set thread rest ++ [[.watchdog side generation callback]] }
  | unarmed (thread : ℕ) (side : Side) (generation : UInt64) (callback : ℕ)
      (rest : List (Activation Message))
      (found : state.threads[thread]? = some (.arming side generation callback :: rest)) :
      Step encodeMessage state (.arm thread false)
        { state with
          threads := state.threads.set thread (.locking (.takeBack side generation callback) :: rest) }
  | invoke (thread : ℕ) (call : ℕ × Report Message) (calls : List (ℕ × Report Message))
      (rest : List (Activation Message))
      (found : state.threads[thread]? = some (.firing (call :: calls) :: rest)) :
      Step encodeMessage state (.invoke thread)
        { state with
          threads := state.threads.set thread (.callback :: .firing calls :: rest)
          invoked := state.invoked ++ [call] }
  | leave (thread : ℕ) (top : Activation Message) (rest : List (Activation Message))
      (returns : top = .callback ∨ top = .firing [])
      (found : state.threads[thread]? = some (top :: rest)) :
      Step encodeMessage state (.leave thread) { state with threads := state.threads.set thread rest }
  | release (thread : ℕ) (rest : List (Activation Message))
      (found : state.threads[thread]? = some (.refusing :: rest)) :
      Step encodeMessage state (.leave thread)
        { state with threads := state.threads.set thread rest, owner := none }

theorem step_spec {encodeMessage : Message → Outcome Frame} {state target : PairThreads Message}
    {label : PairLabel Message} (moved : (machine encodeMessage).step state label = some target) :
    Step encodeMessage state label target := by
  cases label with
  | spawn => cases moved; exact .spawn
  | call thread call =>
    simp only [machine, step] at moved
    split at moved
    · next stack found =>
      split_ifs at moved with allowed
      cases moved
      rw [Bool.and_eq_true] at allowed
      exact .call thread call stack found allowed.1 allowed.2
    · cases moved
  | acquire thread =>
    simp only [machine, step] at moved
    split at moved
    · next top rest free found =>
      obtain ⟨held, acquired, rfl⟩ := Option.map_eq_some_iff.mp moved
      exact .hold _ thread top rest held free found (PairState.acquire_spec acquired) (.inl ⟨rfl, acquired⟩)
    · cases moved
  | expire thread =>
    simp only [machine, step] at moved
    split at moved
    · next top rest free found =>
      obtain ⟨held, expired, rfl⟩ := Option.map_eq_some_iff.mp moved
      exact .hold _ thread top rest held free found (PairState.expire_spec expired) (.inr ⟨rfl, expired⟩)
    · cases moved
  | arm thread spawns =>
    simp only [machine, step, arm] at moved
    split at moved
    · next side generation callback rest found =>
      cases spawns with
      | true => cases moved; exact .armed thread side generation callback rest found
      | false => cases moved; exact .unarmed thread side generation callback rest found
    · cases moved
  | invoke thread =>
    simp only [machine, step, invoke] at moved
    split at moved
    · next call calls rest found => cases moved; exact .invoke thread call calls rest found
    · cases moved
  | leave thread =>
    simp only [machine, step, leave] at moved
    split at moved
    · next rest found => cases moved; exact .leave thread _ rest (.inl rfl) found
    · next rest found => cases moved; exact .leave thread _ rest (.inr rfl) found
    · next rest found => cases moved; exact .release thread rest found
    · cases moved

end PairThreads

end OpalCpp.Http

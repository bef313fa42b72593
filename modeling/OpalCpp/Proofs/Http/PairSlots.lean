import OpalCpp.Proofs.Http.PairSteps

/-! # The slots of the in-memory pair

A parked receive means an empty queue and a parked send a full one, in an open session. Every
hold of the lock keeps this, so it holds in every state of every run, whoever calls what on
either end and whenever a watchdog fires.
-/

namespace OpalCpp.Http

open Function (update)

variable {Message Frame : Type*}

namespace PairState

/-- The slot invariant. -/
structure Slots (pair : PairState Message) : Prop where
  bounded : ∀ side, (pair.queues side).length ≤ kQueueDepth
  parkedReceive : ∀ side, (pair.pendingReceive side).isSome →
    pair.queues side.other = [] ∧ pair.closed = false
  parkedSend : ∀ side, (pair.pendingSend side).isSome →
    (pair.queues side).length = kQueueDepth ∧ pair.closed = false
  closed : pair.closed = true → ∀ side, pair.pendingReceive side = none ∧ pair.pendingSend side = none

namespace Slots

variable {pair : PairState Message}

theorem initial : Slots ({} : PairState Message) where
  bounded _ := Nat.zero_le _
  parkedReceive _ parked := nomatch parked
  parkedSend _ parked := nomatch parked
  closed closed := nomatch closed

/-- In an open session the last clause says nothing. -/
theorem of_open (isOpen : pair.closed = false)
    (bounded : ∀ side, (pair.queues side).length ≤ kQueueDepth)
    (parkedReceive : ∀ side, (pair.pendingReceive side).isSome → pair.queues side.other = [])
    (parkedSend : ∀ side, (pair.pendingSend side).isSome → (pair.queues side).length = kQueueDepth) :
    pair.Slots where
  bounded
  parkedReceive side parked := ⟨parkedReceive side parked, isOpen⟩
  parkedSend side parked := ⟨parkedSend side parked, isOpen⟩
  closed closed := absurd closed (Bool.eq_false_iff.mp isOpen)

theorem recount (slots : pair.Slots) (receivers senders : Side → ℕ) :
    (pair.recount receivers senders).Slots :=
  ⟨slots.bounded, slots.parkedReceive, slots.parkedSend, slots.closed⟩

/-- A parked receive is taken: handed a message, or timed out. -/
theorem unpark (slots : pair.Slots) (side : Side) :
    { pair with pendingReceive := update pair.pendingReceive side none }.Slots where
  bounded := slots.bounded
  parkedReceive other parked := by
    obtain rfl | rfl := side.eq_or_eq_other other
    · simp at parked
    · exact slots.parkedReceive _ (by simpa using parked)
  parkedSend := slots.parkedSend
  closed closed other := by
    obtain rfl | rfl := side.eq_or_eq_other other
    · simpa using (slots.closed closed other).2
    · simpa using slots.closed closed side.other

/-- A message is queued: there is room, and the peer has no receive parked. -/
theorem queue (slots : pair.Slots) {side : Side} (room : pair.Room side)
    (unparked : pair.pendingReceive side.other = none) (message : Message) :
    { pair with queues := update pair.queues side (pair.queues side ++ [message]) }.Slots := by
  apply of_open
  · exact room.isOpen
  · intro other
    obtain rfl | rfl := side.eq_or_eq_other other
    · have := room.length_lt
      simp only [Function.update_self, List.length_append, List.length_singleton]
      omega
    · simpa using slots.bounded side.other
  · intro other parked
    obtain rfl | rfl := side.eq_or_eq_other other
    · simpa using (slots.parkedReceive other parked).1
    · simp [unparked] at parked
  · intro other parked
    obtain rfl | rfl := side.eq_or_eq_other other
    · simp [room.unparked] at parked
    · simpa using (slots.parkedSend _ parked).1

/-- A send is parked: the queue is full. -/
theorem parkSend (slots : pair.Slots) {side : Side} (isOpen : pair.closed = false)
    (full : kQueueDepth ≤ (pair.queues side).length) (parked : PendingSend Message) :
    { pair with pendingSend := update pair.pendingSend side (some parked) }.Slots := by
  apply of_open
  · exact isOpen
  · exact slots.bounded
  · intro other waiting
    exact (slots.parkedReceive other waiting).1
  · intro other waiting
    obtain rfl | rfl := side.eq_or_eq_other other
    · exact Nat.le_antisymm (slots.bounded other) full
    · exact (slots.parkedSend side.other (by simpa using waiting)).1

/-- A receive is parked: the queue it reads is empty. -/
theorem parkReceive (slots : pair.Slots) {side : Side} (isOpen : pair.closed = false)
    (empty : pair.queues side.other = []) (callback : ℕ) (generations : Side → UInt64) :
    { pair with
      pendingReceive := update pair.pendingReceive side (some callback)
      receiveParkGeneration := generations }.Slots := by
  apply of_open
  · exact isOpen
  · exact slots.bounded
  · intro other waiting
    obtain rfl | rfl := side.eq_or_eq_other other
    · exact empty
    · exact (slots.parkedReceive side.other (by simpa using waiting)).1
  · intro other waiting
    exact (slots.parkedSend other waiting).1

/-- A receive takes the front of its queue. Nobody has a receive parked on that queue. -/
theorem unparked_of_cons (slots : pair.Slots) {side : Side} {message : Message} {rest : List Message}
    (queue : pair.queues side.other = message :: rest) : pair.pendingReceive side = none := by
  cases parked : pair.pendingReceive side with
  | none => rfl
  | some callback =>
    have empty := (slots.parkedReceive side (by rw [parked]; rfl)).1
    rw [queue] at empty
    cases empty

/-- A message is popped and no parked send takes its place: there is none. -/
theorem pop (slots : pair.Slots) {side : Side} {message : Message} {rest : List Message}
    (queue : pair.queues side.other = message :: rest)
    (kept : pair.pendingSend side.other = none ∨ kQueueDepth ≤ rest.length) :
    { pair with queues := update pair.queues side.other rest }.Slots := by
  have bound := slots.bounded side.other
  rw [queue, List.length_cons] at bound
  have unparked : pair.pendingSend side.other = none := by
    obtain unparked | full := kept
    · exact unparked
    · omega
  constructor
  · intro other
    obtain rfl | rfl := side.eq_or_eq_other other
    · simpa using slots.bounded other
    · simp only [Function.update_self]
      omega
  · intro other parked
    obtain rfl | rfl := side.eq_or_eq_other other
    · simp [slots.unparked_of_cons queue] at parked
    · simpa using slots.parkedReceive side.other parked
  · intro other parked
    obtain rfl | rfl := side.eq_or_eq_other other
    · simpa using slots.parkedSend other parked
    · simp [unparked] at parked
  · exact slots.closed

/-- A message is popped and the parked send takes its place: the queue is as full as before. -/
theorem absorb (slots : pair.Slots) {side : Side} {message : Message} {rest : List Message}
    (queue : pair.queues side.other = message :: rest) {parked : PendingSend Message}
    (waiting : pair.pendingSend side.other = some parked) (space : rest.length < kQueueDepth) :
    { pair with
      queues := update pair.queues side.other (rest ++ [parked.message])
      pendingSend := update pair.pendingSend side.other none }.Slots := by
  have isOpen := (slots.parkedSend side.other (by rw [waiting]; rfl)).2
  apply of_open
  · exact isOpen
  · intro other
    obtain rfl | rfl := side.eq_or_eq_other other
    · simpa using slots.bounded other
    · simp only [Function.update_self, List.length_append, List.length_singleton]
      omega
  · intro other blocked
    obtain rfl | rfl := side.eq_or_eq_other other
    · simp [slots.unparked_of_cons queue] at blocked
    · simpa using (slots.parkedReceive side.other blocked).1
  · intro other blocked
    obtain rfl | rfl := side.eq_or_eq_other other
    · simpa using (slots.parkedSend other (by simpa using blocked)).1
    · simp at blocked

theorem endSession (slots : pair.Slots) (side : Side) (why : CloseReason) :
    (pair.endSession side why).Slots where
  bounded := slots.bounded
  parkedReceive _ parked := nomatch parked
  parkedSend _ parked := nomatch parked
  closed _ _ := ⟨rfl, rfl⟩

/-- Every hold keeps the slot invariant. -/
theorem holds (slots : pair.Slots) {top : Activation Message} {held : Held Message}
    (holds : pair.Holds top held) : held.pair.Slots := by
  cases holds with
  | unmoved _ receivers senders frames owed unarmed => exact slots.recount receivers senders
  | delivered _ senders side message receiver own owed room parked =>
    exact (slots.recount pair.blockedReceivers senders).unpark side.other
  | queued _ senders side message own owed room unparked =>
    exact (slots.recount pair.blockedReceivers senders).queue
      ⟨room.isOpen, room.length_lt, room.unparked⟩ unparked message
  | sendParked side message callback isOpen full unparked => exact slots.parkSend isOpen full _
  | sendRefused side message callback error why => exact slots
  | receiveRefused side timeout callback why => exact slots
  | popped _ receivers side message rest own owed queue kept =>
    exact (slots.recount receivers pair.blockedSenders).pop queue kept
  | absorbed _ receivers side message rest own owed queue parked waiting space =>
    exact (slots.recount receivers pair.blockedSenders).absorb queue waiting space
  | ended _ receivers side frames owed unarmed empty closed =>
    exact slots.recount receivers pair.blockedSenders
  | receiveParked side timeout callback unparked empty isOpen =>
    exact slots.parkReceive isOpen empty callback _
  | closing side why => exact slots.endSession side why
  | expired _ side generation callback completed error bounds parked current => exact slots.unpark side

end Slots

end PairState

namespace PairThreads

open PairState

theorem Step.slots {encodeMessage : Message → Outcome Frame} {state target : PairThreads Message}
    {label : PairLabel Message} (step : Step encodeMessage state label target)
    (slots : state.pair.Slots) : target.pair.Slots := by
  cases step with
  | hold _ thread top rest held free found holds kind => exact slots.holds holds
  | spawn => exact slots
  | call thread call stack found application survives => exact slots
  | armed thread side generation callback rest found => exact slots
  | unarmed thread side generation callback rest found => exact slots
  | invoke thread call calls rest found => exact slots
  | leave thread top rest returns found => exact slots
  | release thread rest found => exact slots

theorem slots_of_run {encodeMessage : Message → Outcome Frame} {state : PairThreads Message}
    {labels : List (PairLabel Message)}
    (reached : (machine encodeMessage).run {} labels = some state) : state.pair.Slots :=
  (machine encodeMessage).invariant_of_run (fun state => state.pair.Slots)
    (fun _ _ _ slots moved => (step_spec moved).slots slots) Slots.initial reached

/-- In every state of every run, with the lock free or not, each queue is within its depth, a
parked receive has an empty queue, a parked send a full one, both in an open session, and a closed
session has nothing parked. -/
theorem pair_slots {encodeMessage : Message → Outcome Frame} {state : PairThreads Message}
    {labels : List (PairLabel Message)}
    (reached : (machine encodeMessage).run {} labels = some state) :
    (∀ side, (state.pair.queues side).length ≤ kQueueDepth) ∧
    (∀ side, (state.pair.pendingReceive side).isSome →
      state.pair.queues side.other = [] ∧ state.pair.closed = false) ∧
    (∀ side, (state.pair.pendingSend side).isSome →
      (state.pair.queues side).length = kQueueDepth ∧ state.pair.closed = false) ∧
    (state.pair.closed = true →
      ∀ side, state.pair.pendingReceive side = none ∧ state.pair.pendingSend side = none) := by
  have slots := slots_of_run reached
  exact ⟨slots.bounded, slots.parkedReceive, slots.parkedSend, slots.closed⟩

/-- Eight sends fill the queue and the ninth is parked, while the peer's own receive is parked on
the other queue: both slots are taken at once. -/
theorem pair_slots_full :
    let calls := (List.range 9).flatMap fun message =>
      [PairLabel.call 0 (.sendAsync .first message), .acquire 0] ++
        if message < 8 then [.invoke 0, .leave 0, .leave 0] else []
    ∃ state, (machine Codec.plain.encodeMessage).run {}
        (PairLabel.spawn :: calls ++ [.call 0 (.receiveAsync .first none), .acquire 0]) = some state ∧
      (state.pair.pendingSend .first).isSome ∧ (state.pair.pendingReceive .first).isSome ∧
      (state.pair.queues .first).length = kQueueDepth := by
  refine ⟨_, (Option.some_get (by decide)).symm, by decide, by decide, ?_⟩
  exact ((pair_slots (Option.some_get (by decide)).symm).2.2.1 .first (by decide)).1

end PairThreads

end OpalCpp.Http

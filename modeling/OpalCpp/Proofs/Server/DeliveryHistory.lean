import OpalCpp.Proofs.Server.DeliverySteps

/-! # Where the events in play come from

Every event in the queue, in the chain, in a writer's hands, or in a log was accepted by an
enqueue, and the accepted events are numbered in the order of acceptance. The class an event is
queued under is the class it was enqueued with, also after a replacement in place.
-/

namespace OpalCpp.Server

/-- The event a writer holds, before and during its send. -/
def WriterPc.event {Tx : Type*} : WriterPc Tx → Option (Stamped Tx)
  | .popped event _ | .sending event _ => some event
  | _ => none

/-- The claimed event, until `SendAsync` has been called with it. -/
def ChainOp.unsent {Tx : Type*} (op : ChainOp Tx) : Option (Stamped Tx) :=
  if op.sent then none else some op.event

/-- The event a writer has taken, until `Send` has been called with it. -/
def WriterPc.unsent {Tx : Type*} : WriterPc Tx → Option (Stamped Tx)
  | .popped event _ => some event
  | _ => none

theorem DeliveryClass.eq_of_coalesces {queued delivery : DeliveryClass}
    (coalesce : delivery.kind = .coalesce) (same : queued.coalesces delivery.key = true) :
    queued = delivery := by
  simp only [coalesces, Bool.and_eq_true, beq_iff_eq] at same
  cases queued
  cases delivery
  simp_all

namespace Delivery

variable {Handle Tx : Type*}

/-- The events writers have taken off the queue and not finished sending. -/
def held (state : Delivery Handle Tx) : List (Stamped Tx) := state.threads.filterMap WriterPc.event

structure Recorded (state : Delivery Handle Tx) : Prop where
  queue : ∀ queued ∈ state.entry.queue,
    queued.event ∈ state.accepted ∧ queued.delivery = queued.event.delivery
  chain : ∀ op ∈ state.chain, op.event ∈ state.accepted
  threads : ∀ pc ∈ state.threads, ∀ event ∈ pc.event, event ∈ state.accepted
  handed : ∀ send ∈ state.handed, send.event ∈ state.accepted
  order : state.accepted.Pairwise (fun earlier later => earlier.stamp < later.stamp)
  fresh : ∀ event ∈ state.accepted, event.stamp < state.enqueues

theorem recorded_added (options : Options) (handle : Handle) (supportsAsync : Bool) :
    (added options handle supportsAsync : Delivery Handle Tx).Recorded := by
  refine ⟨?_, ?_, ?_, ?_, ?_, ?_⟩
  · simp [added, Entry.added]
  · simp [added]
  · intro pc member event holds
    have waiting : pc = .waiting := by
      simp only [added] at member
      split_ifs at member <;> simp at member
      exact member
    rw [waiting] at holds
    cases holds
  · simp [added]
  · exact List.Pairwise.nil
  · simp [added]

@[simp] theorem offered_stamp (options : Options) (state : Delivery Handle Tx) (event : Tx)
    (delivery : DeliveryClass) : (state.offered options event delivery).stamp = state.enqueues := rfl

@[simp] theorem offered_delivery (options : Options) (state : Delivery Handle Tx) (event : Tx)
    (delivery : DeliveryClass) : (state.offered options event delivery).delivery = delivery := rfl

end Delivery

/-- What stands in an edited queue stood there before or is the placed event, under its class. -/
theorem Entry.Placed.mem {Tx : Type*} {capacity inFlight : ℕ} {event : Tx} {delivery : DeliveryClass}
    {queue placed : List (Queued Tx)} (edit : Entry.Placed capacity inFlight event delivery queue placed)
    {queued : Queued Tx} (member : queued ∈ placed) : queued ∈ queue ∨ queued = ⟨event, delivery⟩ := by
  cases edit with
  | @replace before after old pending coalesce same first =>
    simp only [List.mem_append, List.mem_cons] at member ⊢
    rcases member with member | rfl | member
    · exact .inl (.inl member)
    · exact .inr (by rw [DeliveryClass.eq_of_coalesces coalesce same])
    · exact .inl (.inr (.inr member))
  | evict pending unmatched full droppable =>
    simp only [List.mem_append, List.mem_cons, List.not_mem_nil, or_false] at member ⊢
    rcases member with (member | member) | rfl
    · exact .inl (.inl member)
    · exact .inl (.inr (.inr member))
    · exact .inr rfl
  | append unmatched room =>
    simp only [List.mem_append, List.mem_cons, List.not_mem_nil, or_false] at member
    exact member

namespace Delivery

variable {Handle Tx : Type*} {options : Options} {state target : Delivery Handle Tx}
  {label : DeliveryLabel Handle Tx}

/-- An accepted event goes to the end of the record, under a number of its own. -/
private theorem order_accept (recorded : state.Recorded) {event : Stamped Tx}
    (number : event.stamp = state.enqueues) :
    (state.accepted ++ [event]).Pairwise (fun earlier later => earlier.stamp < later.stamp) ∧
      ∀ known ∈ state.accepted ++ [event], known.stamp < state.enqueues + 1 := by
  constructor
  · rw [List.pairwise_append]
    refine ⟨recorded.order, List.pairwise_singleton _ _, fun known member last isLast => ?_⟩
    rw [List.mem_singleton.mp isLast, number]
    exact recorded.fresh known member
  · intro known member
    rcases List.mem_append.mp member with member | member
    · exact (recorded.fresh known member).trans (Nat.lt_succ_self _)
    · rw [List.mem_singleton.mp member, number]
      exact Nat.lt_succ_self _

/-- Placement keeps the queue recorded once the placed event is. -/
private theorem queue_accept (recorded : state.Recorded) {event : Tx} {delivery : DeliveryClass}
    {queue : List (Queued (Stamped Tx))}
    (edit : Entry.Placed options.queueCapacity state.entry.inFlight
      (state.offered options event delivery) delivery state.entry.queue queue) :
    ∀ queued ∈ queue, queued.event ∈ state.accepted ++ [state.offered options event delivery] ∧
      queued.delivery = queued.event.delivery := by
  intro queued member
  rcases edit.mem member with member | rfl
  · exact ⟨List.mem_append_left _ (recorded.queue queued member).1, (recorded.queue queued member).2⟩
  · exact ⟨List.mem_append_right _ (List.mem_singleton_self _), rfl⟩

private theorem queue_recorded (recorded : state.Recorded) (step : Step options state label target) :
    ∀ queued ∈ target.entry.queue,
      queued.event ∈ target.accepted ∧ queued.delivery = queued.event.delivery := by
  have queue := recorded.queue
  have none : ∀ queued ∈ ([] : List (Queued (Stamped Tx))),
      queued.event ∈ state.accepted ∧ queued.delivery = queued.event.delivery :=
    fun queued member => absurd member List.not_mem_nil
  have kept (keep : Bool) : ∀ queued ∈ (if keep then state.entry.queue else []),
      queued.event ∈ state.accepted ∧ queued.delivery = queued.event.delivery := by
    cases keep
    · exact none
    · exact queue
  cases step with
  | placed edit taking => exact queue_accept recorded edit
  | claimed edit attached running async idle => exact queue_accept recorded edit
  | advanced present sent next running =>
    exact fun queued member => queue queued (List.mem_of_mem_tail (next ▸ member))
  | drained present sent finished => exact fun queued member => queue queued (List.mem_of_mem_tail member)
  | broken => exact kept _
  | writerPop present running split =>
    exact fun queued member => queue queued (split ▸ List.mem_cons_of_mem _ member)
  | writerFailed => exact kept _
  | detach => exact kept _
  | remove | requestStop => exact none
  | _ => exact queue

private theorem chain_recorded (recorded : state.Recorded) (step : Step options state label target) :
    ∀ op ∈ target.chain, op.event ∈ target.accepted := by
  have chain := recorded.chain
  have marked : ∀ op ∈ state.markCleared, op.event ∈ state.accepted := by
    intro op member
    obtain ⟨old, present, rfl⟩ := List.mem_map.mp member
    exact chain old present
  have erased (index : ℕ) : ∀ op ∈ state.chain.eraseIdx index, op.event ∈ state.accepted :=
    fun op member => chain op (List.mem_of_mem_eraseIdx member)
  -- A claim copies the front of the queue.
  have claims {ops : List (ChainOp Tx)} {number : ℕ} {front : Queued (Stamped Tx)}
      {known : List (Stamped Tx)} (others : ∀ op ∈ ops, op.event ∈ known) (queued : front.event ∈ known) :
      ∀ op ∈ ops ++ [claimOp number front.event], op.event ∈ known := by
    intro op member
    rcases List.mem_append.mp member with member | member
    · exact others op member
    · rw [List.mem_singleton.mp member]; exact queued
  cases step with
  | placed edit taking => exact fun op member => List.mem_append_left _ (chain op member)
  | claimed edit attached running async idle =>
    exact claims (fun op member => List.mem_append_left _ (chain op member))
      (queue_accept recorded edit _ (List.mem_cons_self ..)).1
  | submit present unsent =>
    intro op member
    have held := chain _ (List.mem_of_getElem? present)
    rcases List.mem_or_eq_of_mem_set member with member | same
    · exact chain op member
    · rw [same]; exact held
  | advanced present sent next running =>
    exact claims (erased _) (recorded.queue _ (List.mem_of_mem_tail (next ▸ List.mem_cons_self ..))).1
  | drained | fallback | parked | broken => exact erased _
  | writerFailed present =>
    dsimp only
    split_ifs
    · exact chain
    · exact marked
  | detach registered unlocked grace attached =>
    dsimp only
    split_ifs
    · exact chain
    · exact marked
  | resumeChain waiting quiet queue =>
    exact claims chain (recorded.queue _ (queue ▸ List.mem_cons_self ..)).1
  | remove | requestStop => exact marked
  | _ => exact chain

private theorem threads_recorded (recorded : state.Recorded) (step : Step options state label target) :
    ∀ pc ∈ target.threads, ∀ event ∈ pc.event, event ∈ target.accepted := by
  have threads := recorded.threads
  have moved {thread : ℕ} {pc : WriterPc Tx} (held : ∀ event ∈ pc.event, event ∈ state.accepted) :
      ∀ current ∈ state.threads.set thread pc, ∀ event ∈ current.event, event ∈ state.accepted := by
    intro current member
    rcases List.mem_or_eq_of_mem_set member with member | rfl
    · exact threads current member
    · exact held
  have spawned : ∀ pc ∈ state.threads ++ [.waiting], ∀ event ∈ pc.event, event ∈ state.accepted := by
    intro pc member event holds
    rcases List.mem_append.mp member with member | member
    · exact threads pc member event holds
    · rw [List.mem_singleton.mp member] at holds
      cases holds
  cases step with
  | placed edit taking =>
    exact fun pc member event holds => List.mem_append_left _ (threads pc member event holds)
  | claimed edit attached running async idle =>
    exact fun pc member event holds => List.mem_append_left _ (threads pc member event holds)
  | fallback => exact spawned
  | writerLeave | writerFailed | writerDone => exact moved (fun event holds => nomatch holds)
  | writerPop present running queue =>
    refine moved (fun event holds => ?_)
    rw [← Option.some.inj holds]
    exact (recorded.queue _ (queue ▸ List.mem_cons_self ..)).1
  | writerSend present =>
    exact moved (fun event holds => threads _ (List.mem_of_getElem? present) event holds)
  | writerReturn present => exact moved (fun event holds => by split_ifs at holds <;> cases holds)
  | resumeWriter => exact spawned
  | _ => exact threads

private theorem handed_recorded (recorded : state.Recorded) (step : Step options state label target) :
    ∀ send ∈ target.handed, send.event ∈ target.accepted := by
  have handed := recorded.handed
  cases step with
  | placed | claimed => exact fun send member => List.mem_append_left _ (handed send member)
  | submit present unsent =>
    intro send member
    rcases List.mem_append.mp member with member | member
    · exact handed send member
    · rw [List.mem_singleton.mp member]
      exact recorded.chain _ (List.mem_of_getElem? present)
  | writerSend present =>
    intro send member
    rcases List.mem_append.mp member with member | member
    · exact handed send member
    · rw [List.mem_singleton.mp member]
      exact recorded.threads _ (List.mem_of_getElem? present) _ rfl
  | _ => exact handed

theorem Recorded.step (recorded : state.Recorded) (step : Step options state label target) :
    target.Recorded := by
  refine ⟨queue_recorded recorded step, chain_recorded recorded step, threads_recorded recorded step,
    handed_recorded recorded step, ?_, ?_⟩
  · cases step with
    | placed | claimed => exact (order_accept recorded rfl).1
    | _ => exact recorded.order
  · cases step with
    | refused => exact fun event member => (recorded.fresh event member).trans (Nat.lt_succ_self _)
    | placed | claimed => exact (order_accept recorded rfl).2
    | _ => exact recorded.fresh

end Delivery

end OpalCpp.Server

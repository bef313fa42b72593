import OpalCpp.Proofs.Server.DeliveryHistory
import OpalCpp.Proofs.Server.InFlightFront

/-! # The queue of an attached entry

While an entry stays attached and no send fails, every edit of its deque is one of five: nothing,
the front leaving by delivery, a coalesce event replaced in place, a droppable event evicted from
a full queue, and an event going to the back. The reliable events delivered, in a writer's hands,
and queued are then exactly the accepted ones, through the switch from the chain to a writer too.
-/

namespace OpalCpp.Server

/-- The steps of an attached entry whose sends succeed or are refused. -/
def DeliveryLabel.Undisturbed {Handle Tx : Type*} : DeliveryLabel Handle Tx → Prop
  | .enqueue _ _ | .submit _ | .complete _ (.ok _) | .writerTake _ | .writerSend _ => True
  | .complete _ (.error error) => error.kind = .validation
  | .writerReturn _ sent => sent.isOk = true
  | _ => False

instance {Handle Tx : Type*} (label : DeliveryLabel Handle Tx) : Decidable label.Undisturbed :=
  match label with
  | .complete _ (.error _) | .writerReturn _ _ => inferInstanceAs (Decidable (_ = _))
  | .enqueue _ _ | .submit _ | .complete _ (.ok _) | .writerTake _ | .writerSend _ => instDecidableTrue
  | .writerFailed _ | .writerDone _ | .detach _ | .resume _ _ _ | .resumeFinish | .remove | .expire _ | .unregister
  | .requestStop | .join => instDecidableFalse

def Stamped.reliable {Tx : Type*} (event : Stamped Tx) : Bool := event.delivery.kind == .reliable

namespace Delivery

variable {Handle Tx : Type*}

/-- The events whose sends reported success, in that order. -/
def delivered (state : Delivery Handle Tx) : List (Stamped Tx) :=
  (state.settled.filter (·.2)).map (·.1)

/-- Delivered, in flight, and queued. The chain's in-flight event is still the front of the queue. -/
def carried (state : Delivery Handle Tx) : List (Stamped Tx) :=
  state.delivered ++ state.held ++ state.entry.queue.map (·.event)

/-- What may happen to a queue of this capacity from one state to the next. -/
inductive QueueEdit (capacity : ℕ) (state target : Delivery Handle Tx) : Prop
  | kept (same : target.entry.queue = state.entry.queue)
  /-- The front left for a writer, or its `SendAsync` completed successfully. -/
  | popped (front : Queued (Stamped Tx)) (split : state.entry.queue = front :: target.entry.queue)
      (delivery : target.held = state.held ++ [front.event] ∨
        target.delivered = state.delivered ++ [front.event])
  /-- A coalesce event gave its place to a later one of its key. -/
  | replaced (before after : List (Queued (Stamped Tx))) (old new : Queued (Stamped Tx))
      (split : state.entry.queue = before ++ old :: after)
      (edit : target.entry.queue = before ++ new :: after)
      (coalesce : old.delivery.kind = .coalesce) (same : new.delivery = old.delivery)
      (later : old.event.stamp < new.event.stamp)
  /-- A droppable event was evicted from a full queue. -/
  | evicted (before after : List (Queued (Stamped Tx))) (victim new : Queued (Stamped Tx))
      (split : state.entry.queue = before ++ victim :: after)
      (edit : target.entry.queue = before ++ after ++ [new])
      (droppable : victim.delivery.kind = .droppable) (full : state.entry.queue.length = capacity)
  | pushed (new : Queued (Stamped Tx)) (edit : target.entry.queue = state.entry.queue ++ [new])

/-- The invariant of an attached entry with this capacity. -/
structure Flowing (capacity : ℕ) (state : Delivery Handle Tx) : Prop where
  sound : state.Sound
  recorded : state.Recorded
  tracked : state.Tracked
  running : state.entry.stopping = false
  attached : state.entry.detached = false
  bounded : state.entry.queue.length ≤ capacity
  conserved : state.carried.filter Stamped.reliable = state.accepted.filter Stamped.reliable

theorem flowing_added (options : Options) (handle : Handle) (supportsAsync : Bool) :
    (added options handle supportsAsync : Delivery Handle Tx).Flowing options.normalize.queueCapacity where
  sound := sound_added options handle supportsAsync
  recorded := recorded_added options handle supportsAsync
  tracked := tracked_added options handle supportsAsync
  running := rfl
  attached := rfl
  bounded := Nat.zero_le _
  conserved := by
    have silent : (added options handle supportsAsync : Delivery Handle Tx).carried = [] := by
      simp only [carried, delivered, held, added, Entry.added]
      split_ifs <;> rfl
    rw [silent]
    rfl

section Step

variable {options : Options} {state target : Delivery Handle Tx} {label : DeliveryLabel Handle Tx}

/-- Placement adds the event to the reliable ones queued when it is reliable, and removes none. -/
private theorem reliable_placed (recorded : state.Recorded) {event : Tx} {delivery : DeliveryClass}
    {queue : List (Queued (Stamped Tx))}
    (edit : Entry.Placed options.queueCapacity state.entry.inFlight
      (state.offered options event delivery) delivery state.entry.queue queue) :
    (queue.map (·.event)).filter Stamped.reliable =
      (state.entry.queue.map (·.event)).filter Stamped.reliable ++
        [state.offered options event delivery].filter Stamped.reliable := by
  have agrees := recorded.queue
  generalize state.entry.queue = source at edit agrees
  cases edit with
  | @replace before after old pending coalesce same first =>
    have former : old.event.reliable = false := by
      rw [Stamped.reliable, ← (agrees old (by simp)).2, DeliveryClass.eq_of_coalesces coalesce same, coalesce]
      rfl
    have latter : (state.offered options event delivery).reliable = false := by
      rw [Stamped.reliable, offered_delivery, coalesce]; rfl
    simp [former, latter]
  | @evict before after victim pending unmatched full droppable =>
    have former : victim.event.reliable = false := by
      rw [Stamped.reliable, ← (agrees victim (by simp)).2, droppable]; rfl
    simp [List.filter_append, former]
  | append unmatched room => simp [List.filter_append]

/-- The placement of one accepted event, as an edit of the queue. -/
private theorem edit_placed (flowing : state.Flowing options.queueCapacity) {event : Tx}
    {delivery : DeliveryClass} {queue : List (Queued (Stamped Tx))}
    (edit : Entry.Placed options.queueCapacity state.entry.inFlight
      (state.offered options event delivery) delivery state.entry.queue queue)
    (queued : target.entry.queue = queue) : QueueEdit options.queueCapacity state target := by
  have bounded := flowing.bounded
  have agrees := flowing.recorded.queue
  generalize source : state.entry.queue = items at edit
  rw [source] at bounded agrees
  cases edit with
  | @replace before after old pending coalesce same first =>
    have class_eq := DeliveryClass.eq_of_coalesces coalesce same
    refine .replaced before after old _ source queued (class_eq ▸ coalesce) rfl ?_
    exact flowing.recorded.fresh old.event (agrees old (by simp)).1
  | @evict before after victim pending unmatched full droppable =>
    exact .evicted before after victim _ source queued droppable (by rw [source]; omega)
  | append unmatched room => exact .pushed _ (by rw [queued, source])

/-- The in-flight event of a running entry is the front of its queue, and no writer holds anything. -/
private theorem Flowing.front {capacity index : ℕ} (flowing : state.Flowing capacity) {op : ChainOp Tx}
    (present : state.chain[index]? = some op) :
    (∃ front rest, state.entry.queue = front :: rest ∧ front.event = op.event) ∧ state.held = [] := by
  have async := flowing.sound.chainMode (flowing.sound.delivering_of_present present)
  refine ⟨?_, flowing.sound.filterMap_threads_async WriterPc.event rfl async⟩
  rcases flowing.tracked op (List.mem_of_getElem? present) with front | ⟨_, _, stopping⟩
  · exact front
  · rw [flowing.running] at stopping
    cases stopping

private theorem delivered_append (settled : List (Stamped Tx × Bool)) (event : Stamped Tx) :
    ((settled ++ [(event, true)]).filter (·.2)).map (·.1) = (settled.filter (·.2)).map (·.1) ++ [event] := by
  simp [List.filter_append]

/-- A successful completion moves the front of the queue to the delivered events. -/
private theorem carried_completed {capacity index : ℕ} (flowing : state.Flowing capacity) {op : ChainOp Tx}
    (present : state.chain[index]? = some op) :
    ((state.settled ++ [(op.event, true)]).filter (·.2)).map (·.1) ++ state.held ++
      state.entry.queue.tail.map (·.event) = state.carried := by
  obtain ⟨⟨front, rest, queue, same⟩, none⟩ := flowing.front present
  rw [delivered_append, carried, delivered, none, queue, ← same]
  simp

theorem Flowing.conserved_step (flowing : state.Flowing options.queueCapacity)
    (quiet : label.Undisturbed) (step : Step options state label target) :
    target.carried.filter Stamped.reliable = target.accepted.filter Stamped.reliable := by
  have conserved := flowing.conserved
  have sound := flowing.sound
  -- An accepted event joins the accepted ones and the queue alike.
  have accepted {event : Tx} {delivery : DeliveryClass} {queue : List (Queued (Stamped Tx))}
      (edit : Entry.Placed options.queueCapacity state.entry.inFlight
        (state.offered options event delivery) delivery state.entry.queue queue) :
      (state.delivered ++ state.held ++ queue.map (·.event)).filter Stamped.reliable =
        (state.accepted ++ [state.offered options event delivery]).filter Stamped.reliable := by
    have grown := congrArg (· ++ [state.offered options event delivery].filter Stamped.reliable) conserved
    simpa only [carried, List.filter_append, reliable_placed flowing.recorded edit, List.append_assoc] using grown
  cases step with
  | placed edit taking => exact accepted edit
  | claimed edit attached running async idle => exact accepted edit
  | advanced present sent next running =>
    have same := carried_completed flowing present
    rw [next] at same
    exact (congrArg _ same).trans conserved
  | drained present sent finished => exact (congrArg _ (carried_completed flowing present)).trans conserved
  | fallback present sent refusal running alone =>
    simpa only [carried, held, delivered, List.filterMap_append, List.filterMap_cons, List.filterMap_nil,
      WriterPc.event, List.append_nil] using conserved
  | broken present sent failure => exact absurd quiet failure
  | writerLeave present stopping =>
    rw [flowing.running] at stopping
    cases stopping
  | writerPop present running queue =>
    obtain ⟨before, after⟩ := sound.filterMap_threads WriterPc.event rfl present (by simp)
    simpa only [carried, held, delivered, before, after, queue, WriterPc.event, Option.toList_none,
      Option.toList_some, List.append_nil, List.map_cons, List.append_assoc, List.singleton_append]
      using conserved
  | writerSend present =>
    obtain ⟨before, after⟩ := sound.filterMap_threads WriterPc.event rfl present (by simp)
    simpa only [carried, held, delivered, before, after, WriterPc.event] using conserved
  | @writerReturn thread taken event sent present =>
    obtain ⟨before, after⟩ := sound.filterMap_threads WriterPc.event rfl present (by simp)
    have ok : sent.isOk = true := quiet
    simpa only [carried, held, delivered, ok, ↓reduceIte, delivered_append, before, after, WriterPc.event,
      Option.toList_none, Option.toList_some, List.append_nil] using conserved
  | writerFailed | writerDone | detach | resume | resumeWriter | resumeChain | resumeIdle => exact quiet.elim
  | remove | expire | unregister | requestStop | join => exact quiet.elim
  | _ => exact conserved

/-- One step of an attached entry keeps its invariant. -/
theorem Flowing.step (flowing : state.Flowing options.queueCapacity) (quiet : label.Undisturbed)
    (step : Step options state label target) : target.Flowing options.queueCapacity := by
  have safe : ¬ Strands options state label := by
    intro strands
    cases label with
    | enqueue event delivery => exact absurd (flowing.attached.symm.trans strands.1) Bool.false_ne_true
    | _ => exact strands
  have shorter := (List.length_tail (l := state.entry.queue)).trans_le ((Nat.sub_le _ _).trans flowing.bounded)
  refine ⟨flowing.sound.step step, flowing.recorded.step step, flowing.tracked.step flowing.sound safe step,
    ?_, ?_, ?_, flowing.conserved_step quiet step⟩
  · cases step with
    | broken present sent failure => exact absurd quiet failure
    | writerFailed | detach | resumeWriter | resumeChain | resumeIdle | remove | requestStop => exact quiet.elim
    | _ => exact flowing.running
  · cases step with
    | detach | resumeWriter | resumeChain | resumeIdle => exact quiet.elim
    | _ => exact flowing.attached
  · cases step with
    | placed edit taking => exact edit.length_le flowing.bounded
    | claimed edit attached running async idle => exact edit.length_le flowing.bounded
    | advanced present sent next running => rwa [next] at shorter
    | drained present sent finished => exact shorter
    | broken present sent failure => exact absurd quiet failure
    | writerPop present running queue =>
      rw [queue] at shorter
      exact shorter
    | writerFailed | detach | remove | requestStop => exact quiet.elim
    | _ => exact flowing.bounded

/-- One step of an attached entry edits its queue in one of the five ways. -/
theorem Flowing.edit (flowing : state.Flowing options.queueCapacity) (quiet : label.Undisturbed)
    (step : Step options state label target) : QueueEdit options.queueCapacity state target := by
  cases step with
  | placed edit taking => exact edit_placed flowing edit rfl
  | claimed edit attached running async idle => exact edit_placed flowing edit rfl
  | advanced present sent next running =>
    obtain ⟨⟨front, rest, queue, same⟩, _⟩ := flowing.front present
    refine .popped front ?_ (.inr ?_)
    · rw [queue] at next ⊢
      exact congrArg _ next
    · rw [same]
      exact delivered_append _ _
  | drained present sent finished =>
    obtain ⟨⟨front, rest, queue, same⟩, _⟩ := flowing.front present
    refine .popped front ?_ (.inr ?_)
    · dsimp only
      rw [queue, List.tail_cons]
    · rw [same]
      exact delivered_append _ _
  | broken present sent failure => exact absurd quiet failure
  | writerPop present running queue =>
    obtain ⟨before, after⟩ := flowing.sound.filterMap_threads WriterPc.event rfl present (by simp)
    refine .popped _ queue (.inl ?_)
    rw [held, held, before, after]
    rfl
  | writerFailed | detach | remove | requestStop => exact quiet.elim
  | _ => exact .kept rfl

end Step

/-- In every run of an attached entry without failed sends: the queue stays within its capacity, the
reliable events delivered, in flight and queued are the accepted ones in order, each further step
edits the queue in one of the five ways, and an enqueue that reports false changes nothing. -/
theorem attached_queue (options : Options) (handle : Handle) (supportsAsync : Bool)
    (labels : List (DeliveryLabel Handle Tx)) (state : Delivery Handle Tx)
    (reached : (delivery Handle Tx options).run (added options handle supportsAsync) labels = some state)
    (quiet : ∀ label ∈ labels, label.Undisturbed) :
    state.entry.queue.length ≤ max options.queueCapacity 1 ∧
    state.accepted.Pairwise (fun earlier later => earlier.stamp < later.stamp) ∧
    state.carried.filter Stamped.reliable = state.accepted.filter Stamped.reliable ∧
    (∀ label target, label.Undisturbed → (delivery Handle Tx options).step state label = some target →
      QueueEdit (max options.queueCapacity 1) state target) ∧
    (∀ event delivery, (state.entry.enqueue options.normalize event delivery).2.reported = false →
      (state.entry.enqueue options.normalize event delivery).1 = state.entry) := by
  have flowing := (OpalCpp.Server.delivery Handle Tx options).invariant_of_along
    (Flowing options.normalize.queueCapacity)
    (fun source label target flowing quiet run => flowing.step quiet (step_cases run))
    (flowing_added options handle supportsAsync) (Machine.along_of_forall _ quiet _) reached
  rw [← Options.normalize_queueCapacity]
  refine ⟨flowing.bounded, flowing.recorded.order, flowing.conserved, ?_, ?_⟩
  · exact fun label target quiet run => flowing.edit quiet (step_cases run)
  · intro event delivery silent
    have cases := Entry.enqueue_cases options.normalize state.entry event delivery
    generalize state.entry.enqueue options.normalize event delivery = result at cases silent
    obtain ⟨entry, outcome⟩ := result
    cases cases with
    | refused => rfl
    | placed | claimed => cases silent

/-- A queue of two: the chain is refused, the fallback writer delivers the reliable event it gave
back, and the droppable event behind it makes room for the next reliable one. -/
theorem attached_queue_fallback :
    ∃ state, (delivery ℕ String { asyncDelivery := true, queueCapacity := 2 }).run
      (added { asyncDelivery := true, queueCapacity := 2 } 0 true)
      [.enqueue "a" .Reliable, .submit 0, .enqueue "tick" .Droppable, .enqueue "b" .Reliable,
        .complete 0 (.error (.Validation "a send is already outstanding")), .writerTake 0,
        .writerSend 0, .writerReturn 0 (.ok ())] = some state ∧
      state.carried.map (·.event) = ["a", "b"] ∧
      state.carried.filter Stamped.reliable = state.accepted.filter Stamped.reliable := by
  refine ⟨_, (Option.some_get (by decide)).symm, by decide, ?_⟩
  exact (attached_queue _ 0 true _ _ (Option.some_get _).symm (by decide)).2.2.1

end Delivery

end OpalCpp.Server

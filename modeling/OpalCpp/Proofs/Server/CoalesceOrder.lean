import OpalCpp.Proofs.Server.DeliveryInvariant
import OpalCpp.Proofs.Server.DeliveryHistory

/-! # When coalescing is latest-wins end to end

The events handed over, those on their way to a send, and those queued form one line. A coalesced
event overtakes nothing as long as it replaces the only pending event of its key. An in-flight
front is off limits to placement, so a second event of its key queues behind it; when the chain
then gives the front back without having delivered it (a refused send, a send that failed while
the entry is detached), both are pending, and the next event of the key replaces the older one:
it is handed over first and the event it superseded follows it.
-/

namespace OpalCpp.Server

/-- Two events of one coalesce key stand in the order of their enqueues. -/
def LatestWins {Tx : Type*} (first second : Stamped Tx) : Prop :=
  ∀ key, first.delivery.coalesces key = true → second.delivery.coalesces key = true →
    first.stamp ≤ second.stamp

theorem LatestWins.refl {Tx : Type*} (event : Stamped Tx) : LatestWins event event :=
  fun _ _ _ => le_rfl

namespace Delivery

variable {Handle Tx : Type*}

/-- Events taken off the queue or claimed, and not handed over yet. -/
def leaving (state : Delivery Handle Tx) : List (Stamped Tx) :=
  state.chain.filterMap ChainOp.unsent ++ state.threads.filterMap WriterPc.unsent

/-- Everything handed over, leaving, or queued, in that order. -/
def line (state : Delivery Handle Tx) : List (Stamped Tx) :=
  state.handed.map (·.event) ++ (state.leaving ++ state.entry.queue.map (·.event))

/-- A coalesce event is enqueued only while at most one pending event has its key. -/
def SingleMatch (state : Delivery Handle Tx) : DeliveryLabel Handle Tx → Prop
  | .enqueue _ delivery => delivery.kind = .coalesce →
      state.entry.pending.countP (·.delivery.coalesces delivery.key) ≤ 1
  | _ => True

instance (state : Delivery Handle Tx) (label : DeliveryLabel Handle Tx) :
    Decidable (state.SingleMatch label) := by
  cases label <;> unfold SingleMatch <;> infer_instance

section Placement

variable {options : Options} {state : Delivery Handle Tx} {event : Tx} {delivery : DeliveryClass}
  {queue : List (Queued (Stamped Tx))} {ahead : List (Stamped Tx)}

/-- Nothing pending after the replaced event has its key, when it is the only one that does. -/
private theorem unmatched_after {inFlight : ℕ} {before after : List (Queued (Stamped Tx))}
    {old : Queued (Stamped Tx)} (pending : inFlight ≤ before.length)
    (same : old.delivery.coalesces delivery.key = true)
    (single : ((before ++ old :: after).drop inFlight).countP (·.delivery.coalesces delivery.key) ≤ 1) :
    ∀ other ∈ after, other.delivery.coalesces delivery.key = false := by
  rw [List.drop_append_of_le_length pending, List.countP_append, List.countP_cons,
    if_pos same] at single
  have none : after.countP (·.delivery.coalesces delivery.key) = 0 := by omega
  intro other member
  simpa using List.countP_eq_zero.mp none other member

/-- Placement keeps the line in order when the replaced event is the only pending one of its key. -/
private theorem line_placed (recorded : state.Recorded)
    (edit : Entry.Placed options.queueCapacity state.entry.inFlight
      (state.offered options event delivery) delivery state.entry.queue queue)
    (single : state.SingleMatch (.enqueue event delivery))
    (known : ∀ earlier ∈ ahead, earlier ∈ state.accepted)
    (ordered : (ahead ++ state.entry.queue.map (·.event)).Pairwise LatestWins) :
    (ahead ++ queue.map (·.event)).Pairwise LatestWins := by
  -- The new event is younger than everything in the line.
  have youngest (items : List (Queued (Stamped Tx))) (within : items ⊆ state.entry.queue)
      (front : List (Stamped Tx)) (accepted : ∀ earlier ∈ front, earlier ∈ state.accepted) :
      ∀ earlier ∈ front ++ items.map (·.event), LatestWins earlier (state.offered options event delivery) := by
    intro earlier member key _ _
    refine (recorded.fresh earlier ?_).le
    rcases List.mem_append.mp member with member | member
    · exact accepted earlier member
    · obtain ⟨queued, inside, rfl⟩ := List.mem_map.mp member
      exact (recorded.queue queued (within inside)).1
  have agrees := recorded.queue
  simp only [SingleMatch, Entry.pending] at single
  generalize state.entry.queue = source at edit ordered youngest single agrees
  cases edit with
  | @replace before after old pending coalesce same first =>
    have last := unmatched_after pending same (single coalesce)
    simp only [List.map_append, List.map_cons, ← List.append_assoc] at ordered ⊢
    rw [List.pairwise_append, List.pairwise_cons] at ordered ⊢
    obtain ⟨early, ⟨_, late⟩, across⟩ := ordered
    refine ⟨early, ⟨?_, late⟩, ?_⟩
    · intro later member key placed queued
      obtain ⟨item, inside, rfl⟩ := List.mem_map.mp member
      rw [← (agrees item (by simp [inside])).2] at queued
      have keyed : key = delivery.key := by
        simp only [offered_delivery, DeliveryClass.coalesces, Bool.and_eq_true, beq_iff_eq] at placed
        exact placed.2.symm
      rw [keyed, last item inside] at queued
      cases queued
    · intro earlier member later placed
      rcases List.mem_cons.mp placed with rfl | placed
      · exact youngest before (List.subset_append_left _ _) ahead known earlier member
      · exact across earlier member later (List.mem_cons_of_mem _ placed)
  | @evict before after victim pending unmatched full droppable =>
    simp only [List.map_append, List.map_cons, List.map_nil, ← List.append_assoc] at ordered ⊢
    have kept : (ahead ++ before.map (·.event) ++ after.map (·.event)).Pairwise LatestWins :=
      ordered.sublist (List.Sublist.append_left (List.sublist_cons_self _ _) _)
    rw [List.pairwise_append]
    refine ⟨kept, List.pairwise_singleton _ _, fun earlier member later placed => ?_⟩
    rw [List.mem_singleton.mp placed]
    refine youngest (before ++ after) ?_ ahead known earlier
      (by simpa only [List.map_append, List.append_assoc] using member)
    exact List.Sublist.subset (List.Sublist.append_left (List.sublist_cons_self _ _) _)
  | append unmatched room =>
    simp only [List.map_append, List.map_cons, List.map_nil, ← List.append_assoc]
    rw [List.pairwise_append]
    refine ⟨ordered, List.pairwise_singleton _ _, fun earlier member later placed => ?_⟩
    rw [List.mem_singleton.mp placed]
    exact youngest _ (List.Subset.refl _) ahead known earlier member

end Placement

section Step

variable {options : Options} {state target : Delivery Handle Tx} {label : DeliveryLabel Handle Tx}

theorem unsent_claimOp (epoch : ℕ) (event : Stamped Tx) :
    [claimOp epoch event].filterMap ChainOp.unsent = [event] := rfl

/-- Clearing the queue under an operation leaves it as unsent as it was. -/
theorem filterMap_unsent_markCleared (state : Delivery Handle Tx) :
    state.markCleared.filterMap ChainOp.unsent = state.chain.filterMap ChainOp.unsent := by
  rw [markCleared, List.filterMap_map]
  rfl

/-- Claiming a front that has been settled with puts its event into the line once more. -/
private theorem line_claimed {ahead rest : List (Stamped Tx)} {front : Stamped Tx}
    (ordered : (ahead ++ front :: rest).Pairwise LatestWins) :
    (ahead ++ ([front] ++ front :: rest)).Pairwise LatestWins := by
  rw [List.pairwise_append, List.pairwise_cons] at ordered
  obtain ⟨early, ⟨first, late⟩, across⟩ := ordered
  rw [List.pairwise_append]
  refine ⟨early, List.Pairwise.cons ?_ (List.Pairwise.cons first late), ?_⟩
  · intro later member
    rcases List.mem_cons.mp member with rfl | member
    · exact .refl _
    · exact first later member
  · intro earlier member later placed
    apply across earlier member later
    simpa using placed

/-- Everything in the line was accepted. -/
private theorem line_accepted (recorded : state.Recorded) :
    ∀ event ∈ state.handed.map (·.event) ++ state.leaving, event ∈ state.accepted := by
  intro event member
  simp only [leaving, List.mem_append, List.mem_map, List.mem_filterMap] at member
  rcases member with ⟨send, sent, rfl⟩ | ⟨op, present, unsent⟩ | ⟨pc, present, unsent⟩
  · exact recorded.handed send sent
  · have same : op.event = event := by
      unfold ChainOp.unsent at unsent
      split_ifs at unsent
      exact Option.some.inj unsent
    exact same ▸ recorded.chain op present
  · apply recorded.threads pc present event
    cases pc <;> cases unsent
    rfl

/-- A shorter queue behind the same events keeps the line in order. -/
private theorem line_shortened {ahead : List (Stamped Tx)} {queue rest : List (Queued (Stamped Tx))}
    (fewer : rest.Sublist queue) (ordered : (ahead ++ queue.map (·.event)).Pairwise LatestWins) :
    (ahead ++ rest.map (·.event)).Pairwise LatestWins :=
  ordered.sublist ((fewer.map _).append_left _)

theorem line_step (sound : state.Sound) (recorded : state.Recorded) (single : state.SingleMatch label)
    (ordered : state.line.Pairwise LatestWins) (step : Step options state label target) :
    target.line.Pairwise LatestWins := by
  have split : (state.handed.map (·.event) ++ state.leaving ++
      state.entry.queue.map (·.event)).Pairwise LatestWins := by rwa [List.append_assoc]
  have idle {index : ℕ} {op : ChainOp Tx} (present : state.chain[index]? = some op)
      (sent : op.sent = true) : state.chain.filterMap ChainOp.unsent = [] ∧
        state.chain.eraseIdx index = [] ∧ state.entry.asyncMode = true := by
    obtain ⟨alone, rfl⟩ := sound.chain_eq present
    refine ⟨?_, by rw [alone]; rfl, sound.chainMode (sound.delivering_of_present present)⟩
    rw [alone]
    simp [ChainOp.unsent, sent]
  have kept (keep : Bool) : (if keep then state.entry.queue else []).Sublist state.entry.queue := by
    cases keep
    · exact List.nil_sublist _
    · exact List.Sublist.refl _
  cases step with
  | placed edit taking =>
    have placed := line_placed recorded edit single (line_accepted recorded) split
    rwa [List.append_assoc] at placed
  | claimed edit attached running async inactive =>
    have placed := line_placed recorded edit single (line_accepted recorded) split
    have threads := sound.filterMap_threads_async WriterPc.unsent rfl async
    have empty : state.leaving = [] := by
      rw [leaving, sound.chain_nil inactive, threads]; rfl
    rw [empty, List.append_nil, List.map_cons] at placed
    simp only [line, leaving, sound.chain_nil inactive, threads, List.nil_append,
      unsent_claimOp, List.append_nil, List.map_cons]
    exact line_claimed placed
  | @submit index op present unsent =>
    obtain ⟨alone, rfl⟩ := sound.chain_eq present
    have before : state.chain.filterMap ChainOp.unsent = [op.event] := by
      rw [alone]; simp [ChainOp.unsent, unsent]
    have after : (state.chain.set 0 { op with sent := true }).filterMap ChainOp.unsent = [] := by
      rw [alone]; rfl
    simpa only [line, leaving, before, after, List.map_append, List.map_cons, List.map_nil,
      List.append_assoc, List.nil_append] using ordered
  | advanced present sent next running =>
    obtain ⟨unsent, erased, async⟩ := idle present sent
    have threads := sound.filterMap_threads_async WriterPc.unsent rfl async
    have empty : state.leaving = [] := by rw [leaving, unsent, threads]; rfl
    have shorter := line_shortened (List.tail_sublist _) split
    rw [empty, List.append_nil, next, List.map_cons] at shorter
    simp only [line, leaving, erased, threads, List.nil_append, unsent_claimOp,
      List.append_nil, List.map_cons]
    exact line_claimed shorter
  | drained present sent finished =>
    obtain ⟨unsent, erased, _⟩ := idle present sent
    have shorter := line_shortened (List.tail_sublist _) split
    simpa only [line, leaving, erased, unsent, List.filterMap_nil, List.append_assoc] using shorter
  | fallback present sent refusal running alone =>
    obtain ⟨unsent, erased, _⟩ := idle present sent
    simpa only [line, leaving, erased, unsent, List.filterMap_append, List.filterMap_nil,
      List.filterMap_cons, WriterPc.unsent, List.append_nil] using ordered
  | parked present sent refusal finished =>
    obtain ⟨unsent, erased, _⟩ := idle present sent
    simpa only [line, leaving, erased, unsent, List.filterMap_nil] using ordered
  | broken present sent failure =>
    obtain ⟨unsent, erased, _⟩ := idle present sent
    have shorter := line_shortened (kept state.entry.detached) split
    simpa only [line, leaving, erased, unsent, List.filterMap_nil, List.append_assoc] using shorter
  | writerLeave present stopping =>
    have moved := sound.filterMap_threads_moved WriterPc.unsent rfl .exiting present (by simp) rfl
    simpa only [line, leaving, moved] using ordered
  | writerPop present running queue =>
    obtain ⟨before, after⟩ := sound.filterMap_threads WriterPc.unsent rfl present (by simp)
    simpa only [line, leaving, sound.chain_nil_of_writer present (by simp), before, after, queue, WriterPc.unsent,
      Option.toList_none, Option.toList_some, List.filterMap_nil, List.nil_append, List.map_cons,
      List.singleton_append] using ordered
  | writerSend present =>
    obtain ⟨before, after⟩ := sound.filterMap_threads WriterPc.unsent rfl present (by simp)
    simpa only [line, leaving, sound.chain_nil_of_writer present (by simp), before, after, WriterPc.unsent,
      Option.toList_none, Option.toList_some, List.filterMap_nil, List.nil_append, List.map_append,
      List.map_cons, List.map_nil, List.append_assoc] using ordered
  | @writerReturn thread taken event sent present =>
    have moved := sound.filterMap_threads_moved WriterPc.unsent rfl (if sent.isOk then .waiting else .failed)
      present (by simp) (by split_ifs <;> rfl)
    simpa only [line, leaving, moved] using ordered
  | writerFailed present =>
    have shorter := line_shortened (kept state.entry.detached) split
    have moved := sound.filterMap_threads_moved WriterPc.unsent rfl .exiting present (by simp) rfl
    simpa only [line, leaving, moved, Entry.writerFailed,
      sound.chain_nil_of_writer present (by simp), markCleared, List.map_nil, ite_self, List.append_assoc] using shorter
  | writerDone present =>
    have moved := sound.filterMap_threads_moved WriterPc.unsent rfl .exited present (by simp) rfl
    simpa only [line, leaving, moved] using ordered
  | detach registered unlocked grace attached =>
    have shorter := line_shortened (kept options.queueWhileDetached) split
    have same : (if options.queueWhileDetached then state.chain else state.markCleared).filterMap
        ChainOp.unsent = state.chain.filterMap ChainOp.unsent := by
      split_ifs
      · rfl
      · exact filterMap_unsent_markCleared state
    simpa only [line, leaving, same, Entry.detach, List.append_assoc] using shorter
  | resumeWriter waiting quiet =>
    simpa only [line, leaving, List.filterMap_append, List.filterMap_cons, List.filterMap_nil,
      WriterPc.unsent, List.append_nil] using ordered
  | resumeChain waiting quiet queue =>
    obtain ⟨exited, inactive⟩ := (quiescent_iff _).mp quiet
    have threads : state.threads.filterMap WriterPc.unsent = [] := sound.filterMap_threads_nil WriterPc.unsent rfl exited
    have empty : state.leaving = [] := by
      rw [leaving, sound.chain_nil inactive, threads]; rfl
    rw [empty, List.append_nil, queue, List.map_cons] at split
    simp only [line, leaving, sound.chain_nil inactive, threads, List.nil_append, unsent_claimOp,
      List.append_nil, queue, List.map_cons]
    exact line_claimed split
  | remove | requestStop =>
    have shorter := line_shortened (List.nil_sublist _) split
    simpa only [line, leaving, stopped, Entry.requestStop, filterMap_unsent_markCleared,
      List.append_assoc] using shorter
  | _ => exact ordered

end Step

/-- In a run whose coalesce events are each enqueued while at most one pending event has their key,
the events of every key are handed over in the order of acceptance. -/
theorem coalesce_latest_wins (options : Options) (handle : Handle) (supportsAsync : Bool)
    (labels : List (DeliveryLabel Handle Tx)) (state : Delivery Handle Tx)
    (reached : (delivery Handle Tx options).run (added options handle supportsAsync) labels = some state)
    (single : (delivery Handle Tx options).Along SingleMatch (added options handle supportsAsync) labels) :
    (∀ send ∈ state.handed, send.event ∈ state.accepted) ∧
    state.accepted.Pairwise (fun earlier later => earlier.stamp < later.stamp) ∧
    ∀ key, ((state.handed.filter fun send => send.event.delivery.coalesces key).map
      fun send => send.event.stamp).Pairwise (· ≤ ·) := by
  have start : (added options handle supportsAsync : Delivery Handle Tx).line.Pairwise LatestWins := by
    have silent : (added options handle supportsAsync : Delivery Handle Tx).line = [] := by
      simp only [line, leaving, added, Entry.added]
      split_ifs <;> rfl
    rw [silent]
    exact .nil
  obtain ⟨_, recorded, ordered⟩ := (delivery Handle Tx options).invariant_of_along
    (fun state => state.Sound ∧ state.Recorded ∧ state.line.Pairwise LatestWins)
    (fun source label target kept lone run =>
      ⟨kept.1.step (step_cases run), kept.2.1.step (step_cases run),
        line_step kept.1 kept.2.1 lone kept.2.2 (step_cases run)⟩)
    ⟨sound_added options handle supportsAsync, recorded_added options handle supportsAsync, start⟩
    single reached
  refine ⟨recorded.handed, recorded.order, fun key => ?_⟩
  have handed := (List.pairwise_append.mp ordered).1
  rw [List.pairwise_map] at handed ⊢
  refine List.pairwise_filter.mpr (handed.imp fun wins first second => ?_)
  exact wins key first second

/-- A key updated twice behind the event on the wire: the second update replaces the first. -/
theorem coalesce_latest_wins_replaced :
    ∃ state, (delivery ℕ String { asyncDelivery := true }).run (added { asyncDelivery := true } 0 true)
      [.enqueue "x=0" (.Coalesce "x"), .submit 0, .enqueue "x=1" (.Coalesce "x"),
        .enqueue "x=2" (.Coalesce "x"), .complete 0 (.ok ()), .submit 0] = some state ∧
      state.handed.map (·.event.event) = ["x=0", "x=2"] ∧
      ∀ key, ((state.handed.filter fun send => send.event.delivery.coalesces key).map
        fun send => send.event.stamp).Pairwise (· ≤ ·) := by
  refine ⟨_, (Option.some_get (by decide)).symm, by decide, ?_⟩
  exact (coalesce_latest_wins _ 0 true _ _ (Option.some_get _).symm (by decide)).2.2

/-- The send of the first event is refused with a second one of its key behind it. The third one
replaces the first, is delivered by the fallback writer, and the stale second one follows it. -/
theorem coalesce_stale_after_refusal :
    ∃ state, (delivery ℕ String { asyncDelivery := true }).run (added { asyncDelivery := true } 0 true)
      [.enqueue "x=0" (.Coalesce "x"), .submit 0, .enqueue "x=1" (.Coalesce "x"),
        .complete 0 (.error (.Validation "a send is already outstanding")),
        .enqueue "x=2" (.Coalesce "x"), .writerTake 0, .writerSend 0, .writerReturn 0 (.ok ()),
        .writerTake 0, .writerSend 0] = some state ∧
      ¬ ((state.handed.filter fun send => send.event.delivery.coalesces "x").map
        fun send => send.event.stamp).Pairwise (· ≤ ·) :=
  ⟨_, rfl, by decide⟩

end Delivery

end OpalCpp.Server

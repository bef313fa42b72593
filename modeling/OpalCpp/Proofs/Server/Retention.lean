import OpalCpp.Proofs.Server.DeliveryHistory
import OpalCpp.Proofs.Server.InFlightFront

/-! # What retention keeps

With `queue_while_detached` set, a queue that never fills, and failing sends that report only once
the entry is detached, nothing accepted disappears unseen. The settled sends, the event in a
writer's hands and the queue together list every accepted event that no later one replaced,
exactly once and in the order of their places in line. A settled send either succeeded or was a
writer's blocking `Send` that failed: that event is off the queue and dies with the old wire,
where the chain's in-flight event is still the front of the queue and stays.
-/

namespace OpalCpp.Server

/-- The events no later one took the place of, each once, in the order of their places. -/
def InLine {Tx : Type*} (events accepted : List (Stamped Tx)) : Prop :=
  events.Pairwise (fun earlier later => earlier.slot < later.slot) ∧
  ∀ event, event ∈ events ↔ event ∈ accepted ∧
    ∀ other ∈ accepted, other.slot = event.slot → other.stamp ≤ event.stamp

namespace InLine

variable {Tx : Type*} {accepted before after : List (Stamped Tx)} {old new : Stamped Tx}

/-- A new event at the end of the line, with a place and a number nobody had. -/
theorem push (line : InLine before accepted) (place : ∀ event ∈ accepted, event.slot < new.slot) :
    InLine (before ++ [new]) (accepted ++ [new]) := by
  obtain ⟨order, members⟩ := line
  constructor
  · rw [List.pairwise_append]
    refine ⟨order, List.pairwise_singleton _ _, fun earlier member later last => ?_⟩
    rw [List.mem_singleton.mp last]
    exact place earlier ((members earlier).mp member).1
  · intro event
    simp only [List.mem_append, List.mem_singleton]
    constructor
    · rintro (member | rfl)
      · obtain ⟨known, top⟩ := (members event).mp member
        refine ⟨.inl known, fun other known' same => ?_⟩
        rcases known' with known' | rfl
        · exact top other known' same
        · exact absurd same (place event known).ne'
      · refine ⟨.inr rfl, fun other known same => ?_⟩
        rcases known with known | rfl
        · exact absurd same (place other known).ne
        · exact le_rfl
    · rintro ⟨known | rfl, top⟩
      · exact .inl ((members event).mpr ⟨known, fun other member => top other (.inl member)⟩)
      · exact .inr rfl

/-- A new event in the place of an old one. -/
theorem replace (line : InLine (before ++ old :: after) accepted) (place : new.slot = old.slot)
    (younger : ∀ event ∈ accepted, event.stamp < new.stamp) :
    InLine (before ++ new :: after) (accepted ++ [new]) := by
  obtain ⟨order, members⟩ := line
  rw [List.pairwise_append, List.pairwise_cons] at order
  obtain ⟨early, ⟨first, late⟩, across⟩ := order
  have known : old ∈ accepted := ((members old).mp (by simp)).1
  -- Nobody else in the line stands where the old event stood.
  have elsewhere : ∀ event ∈ before ++ after, event.slot ≠ old.slot := by
    intro event member
    rcases List.mem_append.mp member with member | member
    · exact (across event member old (List.mem_cons_self ..)).ne
    · exact (first event member).ne'
  constructor
  · rw [List.pairwise_append, List.pairwise_cons]
    refine ⟨early, ⟨fun later member => place ▸ first later member, late⟩, fun earlier member later placed => ?_⟩
    rcases List.mem_cons.mp placed with rfl | placed
    · exact place ▸ across earlier member old (List.mem_cons_self ..)
    · exact across earlier member later (List.mem_cons_of_mem _ placed)
  · intro event
    constructor
    · intro member
      have split : event = new ∨ event ∈ before ++ after := by
        simp only [List.mem_append, List.mem_cons] at member ⊢
        tauto
      rcases split with rfl | member
      · refine ⟨by simp, fun other placed _ => ?_⟩
        rcases List.mem_append.mp placed with placed | placed
        · exact (younger other placed).le
        · rw [List.mem_singleton.mp placed]
      · have inside : event ∈ before ++ old :: after := by
          simp only [List.mem_append, List.mem_cons] at member ⊢
          tauto
        obtain ⟨present, top⟩ := (members event).mp inside
        refine ⟨List.mem_append_left _ present, fun other placed same => ?_⟩
        rcases List.mem_append.mp placed with placed | placed
        · exact top other placed same
        · rw [List.mem_singleton.mp placed, place] at same
          exact absurd same.symm (elsewhere event member)
    · rintro ⟨present, top⟩
      rcases List.mem_append.mp present with present | present
      · have inside := (members event).mpr ⟨present, fun other placed => top other (List.mem_append_left _ placed)⟩
        have different : event ≠ old := by
          rintro rfl
          have := top new (by simp) place
          exact absurd (younger event present) (by omega)
        simp only [List.mem_append, List.mem_cons] at inside ⊢
        tauto
      · rw [List.mem_singleton.mp present]
        simp

end InLine

namespace Delivery

variable {Handle Tx : Type*}

/-- Settled, in a writer's hands, and queued. -/
def ledger (state : Delivery Handle Tx) : List (Stamped Tx) :=
  state.settled.map (·.1) ++ state.held ++ state.entry.queue.map (·.event)

/-- The queue has room for every enqueue, a send fails only on a detached entry, and the entry is
not taken out of the registry. -/
def Retains (options : Options) (state : Delivery Handle Tx) : DeliveryLabel Handle Tx → Prop
  | .enqueue _ _ => state.entry.queue.length < options.queueCapacity
  | .complete _ (.error error) => error.kind = .transport ∧ state.entry.detached = true
  | .writerReturn _ (.error error) => error.kind = .transport ∧ state.entry.detached = true
  | .remove | .expire _ | .unregister | .requestStop | .join => False
  | _ => True

instance (options : Options) (state : Delivery Handle Tx) (label : DeliveryLabel Handle Tx) :
    Decidable (Retains options state label) :=
  match label with
  | .enqueue _ _ => inferInstanceAs (Decidable (_ < _))
  | .complete _ (.error _) | .writerReturn _ (.error _) => inferInstanceAs (Decidable (_ ∧ _))
  | .remove | .expire _ | .unregister | .requestStop | .join => instDecidableFalse
  | .submit _ | .complete _ (.ok _) | .writerTake _ | .writerSend _ | .writerReturn _ (.ok _)
  | .writerFailed _ | .writerDone _
  | .detach _ | .resume _ _ _ | .resumeFinish => instDecidableTrue

structure Retained (state : Delivery Handle Tx) : Prop where
  sound : state.Sound
  recorded : state.Recorded
  /-- The claimed event is the front of the queue. -/
  front : ∀ op ∈ state.chain, ∃ front rest, state.entry.queue = front :: rest ∧ front.event = op.event
  failing : .failed ∈ state.threads → state.entry.detached = true
  places : ∀ event ∈ state.accepted, event.slot ≤ event.stamp ∧
    (event.delivery.kind ≠ .coalesce → event.slot = event.stamp)
  line : InLine state.ledger state.accepted

theorem retained_added (options : Options) (handle : Handle) (supportsAsync : Bool) :
    (added options handle supportsAsync : Delivery Handle Tx).Retained where
  sound := sound_added options handle supportsAsync
  recorded := recorded_added options handle supportsAsync
  front := by simp [added]
  failing := by
    simp only [added]
    split_ifs <;> simp
  places := by simp [added]
  line := by
    have silent : (added options handle supportsAsync : Delivery Handle Tx).ledger = [] := by
      simp only [ledger, held, added, Entry.added]
      split_ifs <;> rfl
    rw [silent]
    simp [InLine, added]

section Step

variable {options : Options} {state target : Delivery Handle Tx} {label : DeliveryLabel Handle Tx}

/-- With room in the queue an accepted event takes the place of a pending match or a place of its own. -/
private theorem offered_place {event : Tx} {delivery : DeliveryClass} {queue : List (Queued (Stamped Tx))}
    (edit : Entry.Placed options.queueCapacity state.entry.inFlight
      (state.offered options event delivery) delivery state.entry.queue queue)
    (room : state.entry.queue.length < options.queueCapacity) :
    (∃ before old after, state.entry.queue = before ++ old :: after ∧
      queue.map (·.event) = before.map (·.event) ++ state.offered options event delivery :: after.map (·.event) ∧
      (state.offered options event delivery).slot = old.event.slot ∧ delivery.kind = .coalesce) ∨
    (queue.map (·.event) = state.entry.queue.map (·.event) ++ [state.offered options event delivery] ∧
      (state.offered options event delivery).slot = state.enqueues) := by
  -- Without a match the offered event stands where its number says.
  have fresh (unmatched : delivery.kind = .coalesce → ∀ other ∈ state.entry.queue.drop state.entry.inFlight,
      other.delivery.coalesces delivery.key = false) :
      (state.offered options event delivery).slot = state.enqueues := by
    have site := Entry.site_of_unmatched options.queueCapacity unmatched
    simp only [offered]
  generalize source : state.entry.queue = items at edit
  cases edit with
  | @replace before after old pending coalesce same first =>
    refine .inl ⟨before, old, after, rfl, by simp, ?_, coalesce⟩
    have site := Entry.site_of_match options.queueCapacity source pending coalesce same first
    simp only [offered, site, source, List.getElem?_append_right le_rfl, Nat.sub_self, List.getElem?_cons_zero,
      Option.map_some, Option.getD_some]
  | @evict before after victim pending unmatched full droppable =>
    rw [source] at room
    omega
  | append unmatched room =>
    rw [← source] at unmatched
    exact .inr ⟨by simp, fresh unmatched⟩

private theorem places_accepted (retained : state.Retained) {event : Tx} {delivery : DeliveryClass}
    {queue : List (Queued (Stamped Tx))}
    (edit : Entry.Placed options.queueCapacity state.entry.inFlight
      (state.offered options event delivery) delivery state.entry.queue queue)
    (room : state.entry.queue.length < options.queueCapacity) :
    ∀ known ∈ state.accepted ++ [state.offered options event delivery], known.slot ≤ known.stamp ∧
      (known.delivery.kind ≠ .coalesce → known.slot = known.stamp) := by
  intro known member
  rcases List.mem_append.mp member with member | member
  · exact retained.places known member
  · rw [List.mem_singleton.mp member]
    rcases offered_place edit room with ⟨before, old, after, split, _, place, coalesce⟩ | ⟨_, place⟩
    · have accepted := (retained.recorded.queue old (by rw [split]; simp)).1
      refine ⟨?_, fun other => absurd coalesce other⟩
      rw [place, offered_stamp]
      exact (retained.places _ accepted).1.trans (retained.recorded.fresh _ accepted).le
    · exact ⟨place.le, fun _ => place⟩

/-- An accepted event joins the line. -/
private theorem line_grown (retained : state.Retained) {event : Tx} {delivery : DeliveryClass}
    {queue : List (Queued (Stamped Tx))}
    (edit : Entry.Placed options.queueCapacity state.entry.inFlight
      (state.offered options event delivery) delivery state.entry.queue queue)
    (room : state.entry.queue.length < options.queueCapacity) :
    InLine (state.settled.map (·.1) ++ state.held ++ queue.map (·.event))
      (state.accepted ++ [state.offered options event delivery]) := by
  have line := retained.line
  rcases offered_place edit room with ⟨before, old, after, split, edited, place, _⟩ | ⟨edited, place⟩
  · rw [ledger, split, List.map_append, List.map_cons, ← List.append_assoc] at line
    rw [edited, ← List.append_assoc]
    exact line.replace place retained.recorded.fresh
  · rw [edited, ← List.append_assoc]
    apply line.push
    intro known member
    rw [place]
    exact (retained.places known member).1.trans_lt (retained.recorded.fresh known member)

private theorem front_step (retention : options.queueWhileDetached = true) (retained : state.Retained)
    (safe : Retains options state label) (step : Step options state label target) :
    ∀ op ∈ target.chain, ∃ front rest, target.entry.queue = front :: rest ∧ front.event = op.event := by
  have sound := retained.sound
  have idle {index : ℕ} {op : ChainOp Tx} (present : state.chain[index]? = some op) :
      state.chain.eraseIdx index = [] := by
    obtain ⟨single, rfl⟩ := sound.chain_eq present
    rw [single]; rfl
  have claims {epoch : ℕ} {front : Queued (Stamped Tx)} {rest queue : List (Queued (Stamped Tx))}
      (split : queue = front :: rest) : ∀ op ∈ [] ++ [claimOp epoch front.event],
        ∃ front rest, queue = front :: rest ∧ front.event = op.event := by
    intro op member
    rw [List.mem_singleton.mp member]
    exact ⟨front, rest, split, rfl⟩
  have nothing {ops : List (ChainOp Tx)} {queue : List (Queued (Stamped Tx))} (empty : ops = []) :
      ∀ op ∈ ops, ∃ front rest, queue = front :: rest ∧ front.event = op.event :=
    fun op member => absurd (empty ▸ member) List.not_mem_nil
  cases step with
  | placed edit taking =>
    intro op member
    obtain ⟨index, present⟩ := List.mem_iff_getElem?.mp member
    obtain ⟨front, rest, split, same⟩ := retained.front op member
    have one : state.entry.inFlight = 1 := by
      simp [Entry.inFlight, sound.delivering_of_present present, split]
    rw [one, split] at edit
    obtain ⟨tail, kept⟩ := edit.front_kept
    exact ⟨front, tail, kept, same⟩
  | claimed edit attached running async inactive =>
    rw [sound.chain_nil inactive]
    exact claims rfl
  | submit present unsent =>
    intro op member
    have held := retained.front _ (List.mem_of_getElem? present)
    rcases List.mem_or_eq_of_mem_set member with member | same
    · exact retained.front op member
    · rw [same]; exact held
  | advanced present sent next running =>
    rw [idle present]
    exact claims rfl
  | drained present sent finished => exact nothing (idle present)
  | fallback present sent refusal running alone => exact nothing (idle present)
  | parked present sent refusal finished => exact nothing (idle present)
  | broken present sent failure => exact nothing (idle present)
  | writerPop present running queue => exact nothing (sound.chain_nil_of_writer present (by simp))
  | writerFailed present =>
    have empty := sound.chain_nil_of_writer present (by simp)
    exact nothing (by rw [markCleared, empty, List.map_nil, ite_self])
  | detach registered unlocked grace attached =>
    simp only [retention, ↓reduceIte, Entry.detach]
    exact retained.front
  | resumeWriter waiting quiet => exact nothing (sound.chain_nil ((quiescent_iff _).mp quiet).2)
  | resumeChain waiting quiet queue =>
    rw [sound.chain_nil ((quiescent_iff _).mp quiet).2]
    exact claims queue
  | resumeIdle waiting quiet queue => exact nothing (sound.chain_nil ((quiescent_iff _).mp quiet).2)
  | remove | requestStop => exact safe.elim
  | _ => exact retained.front

private theorem failing_step (retained : state.Retained) (safe : Retains options state label)
    (step : Step options state label target) :
    .failed ∈ target.threads → target.entry.detached = true := by
  have failing := retained.failing
  have moved {thread : ℕ} {pc : WriterPc Tx} (other : pc ≠ .failed)
      (member : .failed ∈ state.threads.set thread pc) : state.entry.detached = true := by
    rcases List.mem_or_eq_of_mem_set member with member | same
    · exact failing member
    · exact absurd same.symm other
  have quiet (finished : state.entry.quiescent = true) : .failed ∉ state.threads := by
    intro member
    obtain ⟨thread, read⟩ := List.mem_iff_getElem?.mp member
    cases retained.sound.exited ((quiescent_iff _).mp finished).1 read
  cases step with
  | fallback present sent refusal running alone =>
    intro member
    exact failing (by simpa using member)
  | writerLeave | writerPop | writerSend | writerFailed | writerDone => exact moved (by simp)
  | @writerReturn thread taken event sent present =>
    rcases sent with error | ⟨⟩
    · exact fun _ => safe.2
    · exact moved (by simp [Except.isOk, Except.toBool])
  | detach registered unlocked grace attached => exact fun _ => rfl
  | resumeWriter waiting finished => exact fun member => absurd (by simpa using member) (quiet finished)
  | resumeChain waiting finished queue => exact fun member => absurd member (quiet finished)
  | resumeIdle waiting finished queue => exact fun member => absurd member (quiet finished)
  | _ => exact failing

/-- Every step but a placement leaves the ledger as it is; a placement adds the accepted event. -/
private theorem line_retained (retention : options.queueWhileDetached = true) (retained : state.Retained)
    (safe : Retains options state label) (step : Step options state label target) :
    InLine target.ledger target.accepted := by
  have line := retained.line
  have sound := retained.sound
  -- Completing the in-flight send moves the front to the settled events.
  have completed {index : ℕ} {op : ChainOp Tx} (present : state.chain[index]? = some op) :
      (state.settled ++ [(op.event, true)]).map (·.1) ++ state.held ++
        state.entry.queue.tail.map (·.event) = state.ledger := by
    obtain ⟨front, rest, queue, same⟩ := retained.front op (List.mem_of_getElem? present)
    have async := sound.chainMode (sound.delivering_of_present present)
    have none : state.held = [] := sound.filterMap_threads_async WriterPc.event rfl async
    rw [ledger, queue, none, ← same]
    simp
  cases step with
  | placed edit taking => exact line_grown retained edit safe
  | claimed edit attached running async idle => exact line_grown retained edit safe
  | advanced present sent next running =>
    have same := completed present
    rw [next] at same
    rw [← same] at line
    exact line
  | drained present sent finished =>
    rw [← completed present] at line
    exact line
  | fallback present sent refusal running alone =>
    rw [safe.1] at refusal
    cases refusal
  | broken present sent failure =>
    have detached : state.entry.detached = true := safe.2
    simpa only [ledger, held, detached, ↓reduceIte] using line
  | writerLeave present stopping =>
    have moved := sound.filterMap_threads_moved WriterPc.event rfl .exiting present (by simp) rfl
    simpa only [ledger, held, moved] using line
  | writerPop present running queue =>
    obtain ⟨before, after⟩ := sound.filterMap_threads WriterPc.event rfl present (by simp)
    simpa only [ledger, held, before, after, queue, WriterPc.event, Option.toList_none, Option.toList_some,
      List.append_nil, List.map_cons, List.append_assoc, List.singleton_append] using line
  | @writerSend thread taken event present =>
    have moved := sound.filterMap_threads_moved WriterPc.event rfl (.sending event taken) present (by simp) rfl
    simpa only [ledger, held, moved] using line
  | @writerReturn thread taken event sent present =>
    obtain ⟨before, after⟩ := sound.filterMap_threads WriterPc.event rfl present (by simp)
    have released : (if sent.isOk then WriterPc.waiting else WriterPc.failed : WriterPc Tx).event = none := by
      split_ifs <;> rfl
    rw [ledger, held, before] at line
    simp only [ledger, held, after, released, Option.toList_none, List.map_append, List.map_cons,
      List.map_nil, List.append_nil]
    exact line
  | writerFailed present =>
    have detached := retained.failing (List.mem_of_getElem? present)
    have moved := sound.filterMap_threads_moved WriterPc.event rfl .exiting present (by simp) rfl
    simpa only [ledger, held, moved, Entry.writerFailed, detached,
      ↓reduceIte] using line
  | writerDone present =>
    have moved := sound.filterMap_threads_moved WriterPc.event rfl .exited present (by simp) rfl
    simpa only [ledger, held, moved] using line
  | detach registered unlocked grace attached =>
    simpa only [ledger, held, Entry.detach, retention, ↓reduceIte] using line
  | resumeWriter waiting quiet =>
    simpa only [ledger, held, List.filterMap_append, List.filterMap_cons, List.filterMap_nil,
      WriterPc.event, List.append_nil] using line
  | remove | requestStop => exact safe.elim
  | _ => exact line

theorem Retained.step (retention : options.queueWhileDetached = true) (retained : state.Retained)
    (safe : Retains options state label) (step : Step options state label target) : target.Retained where
  sound := retained.sound.step step
  recorded := retained.recorded.step step
  front := front_step retention retained safe step
  failing := failing_step retained safe step
  places := by
    cases step with
    | placed edit taking => exact places_accepted retained edit safe
    | claimed edit attached running async idle => exact places_accepted retained edit safe
    | _ => exact retained.places
  line := line_retained retention retained safe step

end Step

end Delivery

end OpalCpp.Server

import OpalCpp.Proofs.Server.DeliveryHistory
import OpalCpp.Proofs.Server.DeliveryInvariant

/-! # The in-flight event is the front of the queue

The chain leaves its event queued until the completion has landed. `Tracked` says that the front
is that event, or that the queue was emptied under it and delivery is over. Every step keeps this
except one: a sender that looked the entry up before it was removed enqueues into a detached entry
that retains its queue.
-/

namespace OpalCpp.Server.Delivery

variable {Handle Tx : Type*}

/-- The enqueue of a sender that finds the entry detached and retaining, with a send in flight and
nothing queued: the entry was removed after the sender looked it up. -/
def Strands (options : Options) (state : Delivery Handle Tx) : DeliveryLabel Handle Tx → Prop
  | .enqueue _ _ => state.entry.detached = true ∧ options.queueWhileDetached = true ∧
      state.entry.delivering = true ∧ state.entry.queue = []
  | _ => False

instance (options : Options) (state : Delivery Handle Tx) (label : DeliveryLabel Handle Tx) :
    Decidable (Strands options state label) :=
  match label with
  | .enqueue _ _ => inferInstanceAs (Decidable (_ ∧ _ ∧ _ ∧ _))
  | .submit _ | .complete _ _ | .writerTake _ | .writerSend _ | .writerReturn _ _ | .writerFailed _ | .writerDone _
  | .detach _ | .resume _ _ _ | .resumeFinish | .remove | .expire _ | .unregister | .requestStop | .join =>
    instDecidableFalse

/-- The claimed event is the front, or the queue is empty since it was cleared and delivery is over. -/
def Tracked (state : Delivery Handle Tx) : Prop :=
  ∀ op ∈ state.chain,
    (∃ front rest, state.entry.queue = front :: rest ∧ front.event = op.event) ∨
    (op.cleared = some state.accepted.length ∧ state.entry.queue = [] ∧ state.entry.stopping = true)

theorem tracked_added (options : Options) (handle : Handle) (supportsAsync : Bool) :
    (added options handle supportsAsync : Delivery Handle Tx).Tracked := by
  simp [Tracked, added]

section Step

variable {options : Options} {state target : Delivery Handle Tx} {label : DeliveryLabel Handle Tx}

/-- Placement leaves the in-flight front where it is. -/
private theorem tracked_placed (sound : state.Sound) (tracked : state.Tracked) {event : Tx}
    {delivery : DeliveryClass} {queue : List (Queued (Stamped Tx))}
    (edit : Entry.Placed options.queueCapacity state.entry.inFlight
      (state.offered options event delivery) delivery state.entry.queue queue)
    (taking : (state.entry.detached = true ∧ options.queueWhileDetached = true) ∨
      (state.entry.detached = false ∧ state.entry.stopping = false ∧
        (state.entry.asyncMode = true → state.entry.delivering = true)))
    (safe : ¬ Strands options state (.enqueue event delivery)) {op : ChainOp Tx}
    (member : op ∈ state.chain) : ∃ front rest, queue = front :: rest ∧ front.event = op.event := by
  obtain ⟨index, present⟩ := List.mem_iff_getElem?.mp member
  have delivering := sound.delivering_of_present present
  rcases tracked op member with ⟨front, rest, split, same⟩ | ⟨_, empty, stopping⟩
  · have one : state.entry.inFlight = 1 := by simp [Entry.inFlight, delivering, split]
    rw [one, split] at edit
    obtain ⟨tail, kept⟩ := edit.front_kept
    exact ⟨front, tail, kept, same⟩
  · rcases taking with ⟨detached, retained⟩ | ⟨_, running, _⟩
    · exact absurd ⟨detached, retained, delivering, empty⟩ safe
    · rw [stopping] at running
      cases running

theorem Tracked.step (sound : state.Sound) (tracked : state.Tracked)
    (safe : ¬ Strands options state label) (step : Step options state label target) : target.Tracked := by
  -- Clearing the queue under the chain marks its operation and stops the entry.
  have marked {entry : Entry Handle (Stamped Tx)} (empty : entry.queue = [])
      (stopping : entry.stopping = true) : ∀ op ∈ state.markCleared,
      (∃ front rest, entry.queue = front :: rest ∧ front.event = op.event) ∨
      (op.cleared = some state.accepted.length ∧ entry.queue = [] ∧ entry.stopping = true) := by
    intro op member
    obtain ⟨old, _, rfl⟩ := List.mem_map.mp member
    exact .inr ⟨rfl, empty, stopping⟩
  -- Once the chain is idle there is nothing to track.
  have idle {index : ℕ} {op : ChainOp Tx} (present : state.chain[index]? = some op) :
      state.chain.eraseIdx index = [] := by
    obtain ⟨single, rfl⟩ := sound.chain_eq present
    rw [single]; rfl
  cases step with
  | placed edit taking => exact fun op member => .inl (tracked_placed sound tracked edit taking safe member)
  | claimed edit attached running async inactive =>
    intro op member
    dsimp only at member
    rw [sound.chain_nil inactive, List.nil_append, List.mem_singleton] at member
    exact .inl ⟨_, _, rfl, by rw [member]; rfl⟩
  | submit present unsent =>
    intro op member
    have held := tracked _ (List.mem_of_getElem? present)
    rcases List.mem_or_eq_of_mem_set member with member | same
    · exact tracked op member
    · rw [same]; exact held
  | advanced present sent next running =>
    intro op member
    dsimp only at member
    rw [idle present, List.nil_append, List.mem_singleton] at member
    exact .inl ⟨_, _, rfl, by rw [member]; rfl⟩
  | drained present sent finished => exact fun op member => absurd (idle present ▸ member) List.not_mem_nil
  | fallback present sent refusal running alone =>
    exact fun op member => absurd (idle present ▸ member) List.not_mem_nil
  | parked present sent refusal finished =>
    exact fun op member => absurd (idle present ▸ member) List.not_mem_nil
  | broken present sent failure => exact fun op member => absurd (idle present ▸ member) List.not_mem_nil
  | writerPop present running queue =>
    exact fun op member => absurd (sound.chain_nil_of_writer present (by simp) ▸ member) List.not_mem_nil
  | writerFailed present =>
    have empty := sound.chain_nil_of_writer present (by simp)
    intro op member
    dsimp only at member
    rw [markCleared, empty, List.map_nil, ite_self] at member
    exact absurd member List.not_mem_nil
  | detach registered unlocked grace attached =>
    by_cases retained : options.queueWhileDetached = true
    · intro op member
      dsimp only at member
      rw [if_pos retained] at member
      rcases tracked op member with ⟨front, rest, queue, same⟩ | ⟨cleared, empty, stopping⟩
      · exact .inl ⟨front, rest, by simp [Entry.detach, retained, queue], same⟩
      · exact .inr ⟨cleared, by simp [Entry.detach, empty], rfl⟩
    · intro op member
      dsimp only at member
      rw [if_neg retained] at member
      exact marked (by simp [Entry.detach, retained]) rfl op member
  | resumeWriter waiting quiet =>
    have empty := sound.chain_nil ((quiescent_iff _).mp quiet).2
    exact fun op member => absurd (empty ▸ member) List.not_mem_nil
  | resumeChain waiting quiet queue =>
    intro op member
    dsimp only at member
    rw [sound.chain_nil ((quiescent_iff _).mp quiet).2, List.nil_append, List.mem_singleton] at member
    exact .inl ⟨_, _, queue, by rw [member]; rfl⟩
  | resumeIdle waiting quiet queue =>
    have empty := sound.chain_nil ((quiescent_iff _).mp quiet).2
    exact fun op member => absurd (empty ▸ member) List.not_mem_nil
  | remove | requestStop => exact marked rfl rfl
  | _ => exact tracked

end Step

end OpalCpp.Server.Delivery

/-! ## Which runs strand no event

A queue that delivery is responsible for always has someone to drain it, and the chain's in-flight
event is the queue's front, or the queue was cleared under it and has received nothing since. One
interleaving breaks the last part: a sender looks the entry up, the entry is detached with a send
in flight and then removed, and the sender's enqueue is still accepted, because `Remove` leaves
`detached` set and retention is tested before `stopping`. The event lands in front of a completion
that will pop it. Apart from that step the property holds in every state of every run.
-/

namespace OpalCpp.Server.Delivery

variable {Handle Tx : Type*}

/-- No accepted event is stranded in this state. -/
structure NoneStranded (state : Delivery Handle Tx) : Prop where
  /-- An asynchronous entry that is not stopping and has something queued is delivering. -/
  chainRuns : state.entry.asyncMode = true → state.entry.stopping = false →
    state.entry.queue ≠ [] → state.entry.delivering = true
  /-- A writer-mode entry that is not stopping has a writer that has not exited. -/
  writerRuns : state.entry.asyncMode = false → state.entry.stopping = false →
    ∃ pc ∈ state.threads, pc ≠ .exited
  /-- `delivering` is exactly one claimed event whose completion is outstanding. -/
  oneInFlight : (state.entry.delivering = true ↔ state.chain.length = 1) ∧
    (state.entry.delivering = false → state.chain = [])
  /-- The claimed event is the front, or the queue was cleared since and has received nothing. -/
  frontInFlight : ∀ op ∈ state.chain, state.entry.queue.head?.map (·.event) = some op.event ∨
    op.cleared = some state.accepted.length

theorem NoneStranded.of_tracked {state : Delivery Handle Tx} (sound : state.Sound)
    (tracked : state.Tracked) : state.NoneStranded where
  chainRuns := sound.draining
  writerRuns := by
    intro sync running
    obtain ⟨thread, writer⟩ := sound.manned sync running
    obtain ⟨pc, read, _, leaves⟩ := sound.joinable thread writer
    refine ⟨pc, List.mem_of_getElem? read, fun exited => ?_⟩
    rw [leaves (.inr exited)] at running
    cases running
  oneInFlight := by
    refine ⟨?_, sound.chain_nil⟩
    rw [sound.chain]
    cases state.entry.delivering <;> simp
  frontInFlight := by
    intro op member
    rcases tracked op member with ⟨front, rest, queue, same⟩ | ⟨cleared, _, _⟩
    · exact .inl (by rw [queue]; simp [same])
    · exact .inr cleared

section Step

variable {options : Options} {state target : Delivery Handle Tx} {label : DeliveryLabel Handle Tx}

/-- The stale enqueue is accepted, and its event stands where the claimed one should. -/
theorem not_noneStranded_of_strands (positive : 0 < options.queueCapacity) (sound : state.Sound)
    (recorded : state.Recorded) (tracked : state.Tracked) (strands : Strands options state label)
    (run : Delivery.step options state label = some target) : ¬ target.NoneStranded := by
  cases label with
  | enqueue event delivery =>
    obtain ⟨detached, retained, delivering, empty⟩ := strands
    intro none
    have placement := Entry.placeLocked_of_empty positive empty (state.offered options event delivery) delivery
    simp only [Delivery.step, enqueue, Entry.enqueue, detached, retained, ↓reduceIte, placement,
      Option.toList_none, List.map_nil, List.append_nil, Option.some.injEq] at run
    subst run
    obtain ⟨op, single⟩ := List.length_eq_one_iff.mp (by rw [sound.chain, delivering]; rfl)
    have member : op ∈ state.chain := by rw [single]; exact List.mem_singleton_self _
    rcases none.frontInFlight op member with front | cleared
    · have same : state.offered options event delivery = op.event := by simpa using front
      have older := recorded.fresh op.event (recorded.chain op member)
      rw [← same, offered_stamp] at older
      exact absurd older (lt_irrefl _)
    · rcases tracked op member with ⟨front, rest, queue, _⟩ | ⟨mark, _, _⟩
      · rw [empty] at queue; cases queue
      · rw [mark] at cleared
        simp at cleared
  | _ => exact strands.elim

end Step

/-- Exactly the runs without such a stale enqueue strand no event in any of their states. -/
theorem none_stranded_iff (options : Options) (handle : Handle) (supportsAsync : Bool)
    (labels : List (DeliveryLabel Handle Tx)) (state : Delivery Handle Tx)
    (reached : (delivery Handle Tx options).run (added options handle supportsAsync) labels = some state) :
    (delivery Handle Tx options).Throughout NoneStranded (added options handle supportsAsync) labels ↔
      (delivery Handle Tx options).Along (fun state label => ¬ Strands options.normalize state label)
        (added options handle supportsAsync) labels := by
  refine (delivery Handle Tx options).throughout_iff_along
    (fun state => state.Sound ∧ state.Recorded ∧ state.Tracked) ?_ ?_ ?_
    ⟨sound_added options handle supportsAsync, recorded_added options handle supportsAsync,
      tracked_added options handle supportsAsync⟩ reached
  · rintro source label target ⟨sound, recorded, tracked⟩ safe run
    have step := step_cases run
    exact ⟨sound.step step, recorded.step step, tracked.step sound safe step⟩
  · rintro source ⟨sound, _, tracked⟩
    exact .of_tracked sound tracked
  · rintro source label target ⟨sound, recorded, tracked⟩ run none strands
    have positive : 0 < options.normalize.queueCapacity := by
      rw [Options.normalize_queueCapacity]; omega
    exact not_noneStranded_of_strands positive sound recorded tracked strands run none

/-- A session that reconnects with a message on the wire and another one enqueued meanwhile: both
are delivered on the new handle, and nothing is stranded on the way. -/
theorem none_stranded_iff_reconnect :
    (delivery ℕ String { asyncDelivery := true, gracePeriod := 30, queueWhileDetached := true }).Throughout
      NoneStranded (added { asyncDelivery := true, gracePeriod := 30, queueWhileDetached := true } 0 true)
      [.enqueue "a" .Reliable, .submit 0, .detach 0, .enqueue "b" .Reliable,
        .complete 0 (.error (Error.Transport "reset")), .resume 1 true 5, .resumeFinish, .submit 0,
        .complete 0 (.ok ()), .submit 0, .complete 0 (.ok ())] := by
  rw [none_stranded_iff _ _ _ _ _ rfl]
  decide

/-- The session leaves while its message is on the wire and it is detached; a sender that had found
the entry before still gets its event accepted, in front of the outstanding completion. -/
theorem stale_enqueue_stranded :
    ∃ state, (delivery ℕ String
      { asyncDelivery := true, gracePeriod := 30, queueWhileDetached := true }).run
        (added { asyncDelivery := true, gracePeriod := 30, queueWhileDetached := true } 0 true)
        [.enqueue "a" .Reliable, .submit 0, .detach 0, .remove, .enqueue "b" .Reliable] = some state ∧
      ¬ state.NoneStranded := by
  refine ⟨_, rfl, fun none => ?_⟩
  have inFlight := none.frontInFlight ⟨⟨"a", .Reliable, 0, 0⟩, true, 0, some 1⟩ (by decide)
  revert inFlight
  decide

end OpalCpp.Server.Delivery

import Mathlib.Algebra.GroupWithZero.Nat
import OpalCpp.Proofs.Server.Retention

/-! # What a resumed session receives

After the swap delivery goes on with the retained queue. Until the next detach, the events settled
before the swap, those sent on the new handle, and those still waiting list every accepted event
that no later one replaced, once and in line order; and delivery alone can always run the waiting
ones down to none. So whatever was neither delivered on an old handle nor lost in a writer's failed
`Send` goes out on the new one, exactly once.
-/

namespace OpalCpp.Server

/-- The claimed event, once `SendAsync` has been called with it. -/
def ChainOp.inSend {Tx : Type*} (op : ChainOp Tx) : Option (Stamped Tx) :=
  if op.sent then some op.event else none

/-- The event a writer is inside `Send` with. -/
def WriterPc.inSend {Tx : Type*} : WriterPc Tx → Option (Stamped Tx)
  | .sending event _ => some event
  | _ => none

/-- How many steps a writer still needs to finish the event it holds. -/
def WriterPc.remaining {Tx : Type*} : WriterPc Tx → Option ℕ
  | .popped _ _ => some 2
  | .sending _ _ => some 1
  | _ => none

namespace DeliveryLabel

variable {Handle Tx : Type*}

/-- A writer's blocking `Send` reports a failure. -/
def failedSend : DeliveryLabel Handle Tx → Bool
  | .writerReturn _ sent => !sent.isOk
  | _ => false

def detaches : DeliveryLabel Handle Tx → Bool
  | .detach _ => true
  | _ => false

/-- A step of delivery whose send, if one reports, succeeds. -/
def Delivers : DeliveryLabel Handle Tx → Prop
  | .submit _ | .complete _ (.ok _) | .writerTake _ | .writerSend _ | .writerReturn _ (.ok _) => True
  | _ => False

end DeliveryLabel

namespace Delivery

variable {Handle Tx : Type*}

/-- The events inside a send right now. -/
def inSend (state : Delivery Handle Tx) : List (Stamped Tx) :=
  state.chain.filterMap ChainOp.inSend ++ state.threads.filterMap WriterPc.inSend

/-- The events accepted and not handed over yet; the chain's in-flight front has been. -/
def waiting (state : Delivery Handle Tx) : List (Stamped Tx) :=
  state.threads.filterMap WriterPc.unsent ++
    (state.entry.queue.drop (state.chain.countP (·.sent))).map (·.event)

/-- A retaining step that does not detach the entry again. -/
def Follows (options : Options) (state : Delivery Handle Tx) (label : DeliveryLabel Handle Tx) : Prop :=
  Retains options state label ∧ label.detaches = false

instance (options : Options) (state : Delivery Handle Tx) (label : DeliveryLabel Handle Tx) :
    Decidable (Follows options state label) := inferInstanceAs (Decidable (_ ∧ _))

/-- The entry after a swap, with everything sent and settled since. -/
structure Following (resumed state : Delivery Handle Tx) : Prop where
  retained : state.Retained
  attached : state.entry.detached = false
  running : state.entry.stopping = false
  handle : state.entry.handle = resumed.entry.handle
  log : ∃ sends since, state.handed = resumed.handed ++ sends ∧ state.settled = resumed.settled ++ since ∧
    (∀ send ∈ sends, send.handle = resumed.entry.handle) ∧ (∀ settled ∈ since, settled.2 = true) ∧
    sends.map (·.event) = since.map (·.1) ++ state.inSend

section Step

variable {options : Options} {state target resumed : Delivery Handle Tx} {label : DeliveryLabel Handle Tx}

/-- What a writer holds it is sending or about to send. -/
private theorem threads_split (sound : state.Sound) :
    state.threads.filterMap WriterPc.inSend ++ state.threads.filterMap WriterPc.unsent = state.held := by
  by_cases live : ∃ pc ∈ state.threads, pc ≠ .exited
  · obtain ⟨pc, member, running⟩ := live
    obtain ⟨thread, present⟩ := List.mem_iff_getElem?.mp member
    rw [held, (sound.filterMap_threads WriterPc.inSend rfl present running).1,
      (sound.filterMap_threads WriterPc.unsent rfl present running).1,
      (sound.filterMap_threads WriterPc.event rfl present running).1]
    cases pc <;> rfl
  · have exited : ∀ pc ∈ state.threads, pc = .exited := by simpa using live
    have silent {yield : WriterPc Tx → Option (Stamped Tx)} (none : yield .exited = none) :
        state.threads.filterMap yield = [] :=
      List.filterMap_eq_nil_iff.mpr fun pc member => exited pc member ▸ none
    rw [held, silent rfl, silent rfl, silent rfl]
    rfl

/-- In a send or waiting is the same as in a writer's hands or queued. -/
theorem Retained.inSend_append_waiting (retained : state.Retained) :
    state.inSend ++ state.waiting = state.held ++ state.entry.queue.map (·.event) := by
  have sound := retained.sound
  have split := threads_split sound
  cases chain : state.chain with
  | nil =>
    rw [inSend, waiting, chain, ← split]
    simp
  | cons op ops =>
    have present : state.chain[0]? = some op := by rw [chain]; rfl
    obtain ⟨single, _⟩ := sound.chain_eq present
    obtain ⟨front, rest, queue, same⟩ := retained.front op (List.mem_of_getElem? present)
    have async := sound.chainMode (sound.delivering_of_present present)
    have alone : state.entry.writer = none ∨ state.entry.done = true := .inl (sound.threadless async).1
    rw [inSend, waiting, held, single, sound.filterMap_threads_nil WriterPc.inSend rfl alone,
      sound.filterMap_threads_nil WriterPc.unsent rfl alone,
      sound.filterMap_threads_nil WriterPc.event rfl alone, queue]
    cases sent : op.sent <;> simp [ChainOp.inSend, sent, same]

/-- Between a swap and the next detach the entry keeps its handle and keeps running. -/
private theorem steady_step (retained : state.Retained) (attached : state.entry.detached = false)
    (running : state.entry.stopping = false) (follows : Follows options state label)
    (step : Step options state label target) :
    target.entry.detached = false ∧ target.entry.stopping = false ∧
      target.entry.handle = state.entry.handle := by
  obtain ⟨safe, away⟩ := follows
  have unlocked {waiting : Handle × Bool} (locked : state.resuming = some waiting) : False := by
    have detached := (retained.sound.resuming (by simp [locked])).2
    rw [attached] at detached
    cases detached
  cases step with
  | broken present sent failure =>
    have detached : state.entry.detached = true := safe.2
    rw [attached] at detached
    cases detached
  | writerFailed present =>
    have detached := retained.failing (List.mem_of_getElem? present)
    rw [attached] at detached
    cases detached
  | detach => cases away
  | resumeWriter waiting quiet => exact (unlocked waiting).elim
  | resumeChain waiting quiet queue => exact (unlocked waiting).elim
  | resumeIdle waiting quiet queue => exact (unlocked waiting).elim
  | remove | requestStop => exact safe.elim
  | _ => exact ⟨attached, running, rfl⟩

/-- A step starts a send, finishes one successfully, or does neither. -/
private theorem sending_step (retained : state.Retained) (attached : state.entry.detached = false)
    (running : state.entry.stopping = false) (follows : Follows options state label)
    (step : Step options state label target) :
    (target.handed = state.handed ∧ target.settled = state.settled ∧ target.inSend = state.inSend) ∨
    (∃ send : Handover Handle Tx, target.handed = state.handed ++ [send] ∧ target.settled = state.settled ∧
      send.handle = state.entry.handle ∧ state.inSend = [] ∧ target.inSend = [send.event]) ∨
    (∃ event, target.handed = state.handed ∧ target.settled = state.settled ++ [(event, true)] ∧
      state.inSend = [event] ∧ target.inSend = []) := by
  obtain ⟨safe, away⟩ := follows
  have sound := retained.sound
  have completed {index : ℕ} {op : ChainOp Tx} (present : state.chain[index]? = some op)
      (sent : op.sent = true) : state.inSend = [op.event] ∧ state.chain.eraseIdx index = [] ∧
        state.threads.filterMap WriterPc.inSend = [] := by
    obtain ⟨single, rfl⟩ := sound.chain_eq present
    have silent := sound.filterMap_threads_async WriterPc.inSend rfl (sound.chainMode (sound.delivering_of_present present))
    refine ⟨?_, by rw [single]; rfl, silent⟩
    rw [inSend, single, silent]
    simp [ChainOp.inSend, sent]
  cases step with
  | claimed edit attached running async idle =>
    refine .inl ⟨rfl, rfl, ?_⟩
    simp only [inSend, List.filterMap_append]
    simp [claimOp, ChainOp.inSend]
  | @submit index op present unsent =>
    obtain ⟨single, rfl⟩ := sound.chain_eq present
    have silent := sound.filterMap_threads_async WriterPc.inSend rfl (sound.chainMode (sound.delivering_of_present present))
    refine .inr (.inl ⟨_, rfl, rfl, rfl, ?_, ?_⟩)
    · rw [inSend, single, silent]
      simp [ChainOp.inSend, unsent]
    · simp only [inSend, single, silent]
      simp [ChainOp.inSend]
  | advanced present sent next running =>
    obtain ⟨before, erased, silent⟩ := completed present sent
    refine .inr (.inr ⟨_, rfl, rfl, before, ?_⟩)
    simp only [inSend, erased, silent]
    simp [claimOp, ChainOp.inSend]
  | drained present sent finished =>
    obtain ⟨before, erased, silent⟩ := completed present sent
    refine .inr (.inr ⟨_, rfl, rfl, before, ?_⟩)
    simp only [inSend, erased, silent, List.filterMap_nil, List.append_nil]
  | fallback present sent refusal running alone =>
    rw [safe.1] at refusal
    cases refusal
  | parked present sent refusal finished =>
    rw [safe.1] at refusal
    cases refusal
  | broken present sent failure =>
    have detached : state.entry.detached = true := safe.2
    rw [attached] at detached
    cases detached
  | writerLeave present stopping =>
    rw [running] at stopping
    cases stopping
  | @writerPop thread front rest present running queue =>
    refine .inl ⟨rfl, rfl, ?_⟩
    have moved := sound.filterMap_threads_moved WriterPc.inSend rfl (.popped front.event state.epoch) present (by simp) rfl
    simp only [inSend, moved]
  | writerSend present =>
    obtain ⟨before, after⟩ := sound.filterMap_threads WriterPc.inSend rfl present (by simp)
    have chain := sound.chain_nil_of_writer present (by simp)
    refine .inr (.inl ⟨_, rfl, rfl, rfl, ?_, ?_⟩)
    · simp only [inSend, chain, before]
      rfl
    · simp only [inSend, chain, after]
      rfl
  | @writerReturn thread taken event sent present =>
    obtain ⟨before, after⟩ := sound.filterMap_threads WriterPc.inSend rfl present (by simp)
    have chain := sound.chain_nil_of_writer present (by simp)
    rcases sent with error | ⟨⟩
    · have detached : state.entry.detached = true := safe.2
      rw [attached] at detached
      cases detached
    · refine .inr (.inr ⟨event, rfl, rfl, ?_, ?_⟩)
      · simp only [inSend, chain, before]
        rfl
      · simp only [inSend, chain, after]
        rfl
  | writerFailed present =>
    have detached := retained.failing (List.mem_of_getElem? present)
    rw [attached] at detached
    cases detached
  | writerDone present =>
    refine .inl ⟨rfl, rfl, ?_⟩
    simp only [inSend, sound.filterMap_threads_moved WriterPc.inSend rfl .exited present (by simp) rfl]
  | detach => cases away
  | resumeWriter waiting quiet =>
    refine .inl ⟨rfl, rfl, ?_⟩
    simp only [inSend, List.filterMap_append]
    simp [WriterPc.inSend]
  | resumeChain waiting quiet queue =>
    refine .inl ⟨rfl, rfl, ?_⟩
    simp only [inSend, List.filterMap_append]
    simp [claimOp, ChainOp.inSend]
  | remove | requestStop => exact safe.elim
  | _ => exact .inl ⟨rfl, rfl, rfl⟩

/-- A step after the swap goes on sending on the new handle, and nothing it settles has failed. -/
theorem Following.step (retention : options.queueWhileDetached = true) (following : Following resumed state)
    (follows : Follows options state label) (step : Step options state label target) :
    Following resumed target := by
  obtain ⟨retained, attached, running, handle, sends, since, handed, settled, current, succeeded, same⟩ :=
    following
  obtain ⟨attached', running', kept⟩ := steady_step retained attached running follows step
  refine ⟨retained.step retention follows.1 step, attached', running', kept.trans handle, ?_⟩
  rcases sending_step retained attached running follows step with
    ⟨log, book, unmoved⟩ | ⟨send, log, book, used, idle, busy⟩ | ⟨event, log, book, busy, idle⟩
  · exact ⟨sends, since, log.trans handed, book.trans settled, current, succeeded, unmoved ▸ same⟩
  · refine ⟨sends ++ [send], since, by rw [log, handed, List.append_assoc], book.trans settled, ?_, succeeded, ?_⟩
    · intro other member
      rcases List.mem_append.mp member with member | member
      · exact current other member
      · rw [List.mem_singleton.mp member, used, handle]
    · rw [idle, List.append_nil] at same
      rw [busy, List.map_append, same]
      rfl
  · refine ⟨sends, since ++ [(event, true)], log.trans handed, by rw [book, settled, List.append_assoc],
      current, ?_, ?_⟩
    · intro entry member
      rcases List.mem_append.mp member with member | member
      · exact succeeded entry member
      · rw [List.mem_singleton.mp member]
    · rw [idle, List.append_nil, List.map_append, same, busy]
      rfl

/-- The swap itself: nothing is inside a send, and the entry runs on the new handle. -/
theorem following_resumed (retention : options.queueWhileDetached = true) (retained : state.Retained)
    (step : Step options state .resumeFinish resumed) : Following resumed resumed := by
  have kept : resumed.Retained :=
    retained.step retention (show Retains options state .resumeFinish from trivial) step
  have sound := retained.sound
  -- Every writer has exited and the chain is idle when the wait is over.
  have silent (quiet : state.entry.quiescent = true) :
      state.chain = [] ∧ state.threads.filterMap WriterPc.inSend = [] := by
    obtain ⟨exited, idle⟩ := (quiescent_iff _).mp quiet
    exact ⟨sound.chain_nil idle, sound.filterMap_threads_nil WriterPc.inSend rfl exited⟩
  have start (attached : resumed.entry.detached = false) (running : resumed.entry.stopping = false)
      (idle : resumed.inSend = []) : Following resumed resumed :=
    ⟨kept, attached, running, rfl, [], [], (List.append_nil _).symm, (List.append_nil _).symm,
      fun send member => absurd member List.not_mem_nil, fun entry member => absurd member List.not_mem_nil,
      by rw [idle]; rfl⟩
  cases step with
  | resumeWriter waiting quiet =>
    obtain ⟨chain, threads⟩ := silent quiet
    apply start rfl rfl
    simp only [inSend, chain, List.filterMap_append, threads]
    rfl
  | resumeChain waiting quiet queue =>
    obtain ⟨chain, threads⟩ := silent quiet
    apply start rfl rfl
    simp only [inSend, chain, threads]
    rfl
  | resumeIdle waiting quiet queue =>
    obtain ⟨chain, threads⟩ := silent quiet
    apply start rfl rfl
    simp only [inSend, chain, threads]
    rfl

/-- Steps of delivery left until the entry is idle, if it receives nothing more. -/
def work (state : Delivery Handle Tx) : ℕ :=
  3 * state.entry.queue.length + state.chain.countP (!·.sent) +
    (state.threads.filterMap WriterPc.remaining).sum

/-- A completion that reports success is always taken. -/
private theorem complete_ok_exists {index : ℕ} {op : ChainOp Tx} (present : state.chain[index]? = some op)
    (sent : op.sent = true) : ∃ target, state.complete index (.ok ()) = some target := by
  rw [← Option.isSome_iff_exists]
  simp only [complete, present, sent, ↓reduceIte, Entry.complete]
  generalize ({ state.entry with queue := state.entry.queue.tail } : Entry Handle _).claimLocked = claim
  rcases claim with ⟨entry, _ | event⟩ <;> rfl

/-- While the chain has an operation, it can be sent, or completed with one event less to deliver. -/
private theorem chain_progress (retained : state.Retained) {op : ChainOp Tx} (chain : state.chain = [op]) :
    ∃ label target, label.Delivers ∧ Delivery.step options state label = some target ∧
      target.work < state.work := by
  have present : state.chain[0]? = some op := by rw [chain]; rfl
  obtain ⟨front, rest, queue, _⟩ := retained.front op (List.mem_of_getElem? present)
  cases sent : op.sent with
  | false =>
    refine ⟨.submit 0, _, trivial, by simp only [step, submit, present, sent]; rfl, ?_⟩
    simp [work, chain, sent]
  | true =>
    obtain ⟨target, run⟩ := complete_ok_exists present sent
    refine ⟨.complete 0 (.ok ()), target, trivial, run, ?_⟩
    have step : Step options state (.complete 0 (.ok ())) target := step_cases run
    cases step with
    | advanced found issued next running =>
      rw [queue, List.tail_cons] at next
      simp [work, chain, queue, next, claimOp, sent]
      omega
    | drained found issued finished =>
      simp [work, chain, queue, sent]

/-- While a writer-mode entry has something to deliver, its writer can go on. -/
private theorem writer_progress (retained : state.Retained) (attached : state.entry.detached = false)
    (running : state.entry.stopping = false) (sync : state.entry.asyncMode = false)
    (busy : state.held ≠ [] ∨ state.entry.queue ≠ []) :
    ∃ label target, label.Delivers ∧ Delivery.step options state label = some target ∧
      target.work < state.work := by
  have sound := retained.sound
  obtain ⟨thread, writer⟩ := sound.manned sync running
  obtain ⟨pc, present, _, leaves⟩ := sound.joinable thread writer
  have live : pc ≠ .exited := by
    intro exited
    rw [leaves (.inr exited)] at running
    cases running
  obtain ⟨before, after⟩ := sound.filterMap_threads WriterPc.remaining rfl present live
  cases pc with
  | waiting =>
    have idle : state.held = [] := (sound.filterMap_threads WriterPc.event rfl present live).1
    obtain ⟨front, rest, queue⟩ := List.exists_cons_of_ne_nil (busy.resolve_left (absurd idle))
    have run : Delivery.step options state (.writerTake thread) = some { state with
        entry := { state.entry with queue := rest }
        threads := state.threads.set thread (.popped front.event state.epoch) } := by
      simp [step, writerTake, present, Entry.writerRunnable, Entry.writerTake, running, queue]
    refine ⟨.writerTake thread, _, trivial, run, ?_⟩
    simp [work, before, after, queue, WriterPc.remaining]
    omega
  | popped event taken =>
    refine ⟨.writerSend thread, _, trivial, by simp only [step, writerSend, present]; rfl, ?_⟩
    simp [work, before, after, WriterPc.remaining]
  | sending event taken =>
    refine ⟨.writerReturn thread (.ok ()), _, trivial, by simp only [step, writerReturn, present]; rfl, ?_⟩
    simp [work, before, after, WriterPc.remaining, Except.isOk, Except.toBool]
  | failed =>
    rw [retained.failing (List.mem_of_getElem? present)] at attached
    cases attached
  | exiting =>
    rw [leaves (.inl rfl)] at running
    cases running
  | exited => exact absurd rfl live

/-- Delivery can always run an attached entry down to nothing queued and nothing in a writer's hands. -/
theorem Following.drains (retention : options.queueWhileDetached = true) (following : Following resumed state) :
    ∃ labels final, (∀ label ∈ labels, label.Delivers) ∧
      (Machine.mk (Delivery.step options)).run state labels = some final ∧ Following resumed final ∧
      final.accepted = state.accepted ∧ final.held = [] ∧ final.entry.queue = [] := by
  induction size : state.work using Nat.strong_induction_on generalizing state with
  | _ size ih =>
    by_cases busy : state.held ≠ [] ∨ state.entry.queue ≠ []
    · have progress : ∃ label target, label.Delivers ∧ Delivery.step options state label = some target ∧
          target.work < state.work := by
        cases async : state.entry.asyncMode with
        | false => exact writer_progress following.retained following.attached following.running async busy
        | true =>
          have sound := following.retained.sound
          have idle : state.held = [] :=
            sound.filterMap_threads_async WriterPc.event rfl async
          have delivering := sound.draining async following.running (busy.resolve_left (absurd idle))
          obtain ⟨op, chain⟩ := List.length_eq_one_iff.mp (sound.chain.trans (by rw [delivering]; rfl))
          exact chain_progress following.retained chain
      obtain ⟨label, target, delivers, run, less⟩ := progress
      have step : Step options state label target := step_cases run
      have follows : Follows options state label := by
        unfold DeliveryLabel.Delivers at delivers
        split at delivers
        all_goals first | exact delivers.elim | exact ⟨trivial, rfl⟩
      have accepted : target.accepted = state.accepted := by
        cases step with
        | placed | claimed => exact delivers.elim
        | _ => rfl
      obtain ⟨labels, final, each, reached, rest⟩ := ih _ (size ▸ less) (following.step retention follows step) rfl
      refine ⟨label :: labels, final, ?_, ?_, rest.1, rest.2.1.trans accepted, rest.2.2⟩
      · simpa using ⟨delivers, each⟩
      · exact Machine.run_cons_eq_some _ |>.mpr ⟨target, run, reached⟩
    · rw [not_or, not_not, not_not] at busy
      exact ⟨[], state, by simp, rfl, following, rfl, busy⟩

/-- A settled failure is a writer's failed send, and nothing else is. -/
theorem failures_step (step : Step options state label target) :
    target.settled.countP (!·.2) = state.settled.countP (!·.2) + label.failedSend.toNat := by
  cases step with
  | advanced | drained => simp [DeliveryLabel.failedSend]
  | @writerReturn thread taken event sent present =>
    rcases sent with error | ⟨⟩ <;> simp [DeliveryLabel.failedSend, Except.isOk, Except.toBool]
  | _ => rfl

end Step

theorem failures_of_run {options : Options} {state target : Delivery Handle Tx}
    {labels : List (DeliveryLabel Handle Tx)}
    (reached : (delivery Handle Tx options).run state labels = some target) :
    target.settled.countP (!·.2) = state.settled.countP (!·.2) + labels.countP (·.failedSend) := by
  induction labels generalizing state with
  | nil => cases reached; rfl
  | cons label rest ih =>
    obtain ⟨next, run, tail⟩ := (delivery Handle Tx options).run_cons_eq_some.mp reached
    rw [ih tail, failures_step (step_cases run), List.countP_cons]
    cases label.failedSend
    · simp
    · simp
      omega

/-- A retaining entry that follows a swap has in line what was settled before it, what has been
sent on the new handle, and what is waiting. -/
private theorem Following.line {resumed state : Delivery Handle Tx} (following : Following resumed state) :
    ∃ sends, state.handed = resumed.handed ++ sends ∧
      (∀ send ∈ sends, send.handle = resumed.entry.handle) ∧
      InLine (resumed.settled.map (·.1) ++ sends.map (·.event) ++ state.waiting) state.accepted := by
  obtain ⟨sends, since, handed, settled, current, _, same⟩ := following.log
  refine ⟨sends, handed, current, ?_⟩
  have line := following.retained.line
  rw [ledger, settled, List.map_append, List.append_assoc,
    ← following.retained.inSend_append_waiting] at line
  simpa only [same, List.append_assoc] using line

/-- Retention across a reconnect. At a swap the settled sends and the retained queue list, once and
in line order, every accepted event that no later one replaced; a settled send that did not report
ok is a writer's failed `Send`. From then on, until the entry is detached again, the events sent on
the new handle continue that list with the ones still waiting, and delivery can always finish it. -/
theorem retained_across_resume (options : Options) (handle : Handle) (supportsAsync : Bool)
    (retention : options.queueWhileDetached = true) (labels later : List (DeliveryLabel Handle Tx))
    (state resumed target : Delivery Handle Tx)
    (reached : (delivery Handle Tx options).run (added options handle supportsAsync) labels = some state)
    (retains : (delivery Handle Tx options).Along (Retains options.normalize)
      (added options handle supportsAsync) labels)
    (swap : (delivery Handle Tx options).step state .resumeFinish = some resumed)
    (continued : (delivery Handle Tx options).run resumed later = some target)
    (follows : (delivery Handle Tx options).Along (Follows options.normalize) resumed later) :
    (∀ event ∈ target.accepted, event.slot ≤ event.stamp ∧
      (event.delivery.kind ≠ .coalesce → event.slot = event.stamp)) ∧
    InLine (state.settled.map (·.1) ++ state.entry.queue.map (·.event)) state.accepted ∧
    state.settled.countP (!·.2) = labels.countP (·.failedSend) ∧
    (∃ sends, target.handed = resumed.handed ++ sends ∧
      (∀ send ∈ sends, send.handle = resumed.entry.handle) ∧
      InLine (state.settled.map (·.1) ++ sends.map (·.event) ++ target.waiting) target.accepted) ∧
    ∃ drain final sends, (∀ label ∈ drain, label.Delivers) ∧
      (delivery Handle Tx options).run target drain = some final ∧
      final.accepted = target.accepted ∧ final.handed = resumed.handed ++ sends ∧
      (∀ send ∈ sends, send.handle = resumed.entry.handle) ∧
      InLine (state.settled.map (·.1) ++ sends.map (·.event)) target.accepted := by
  have retention : options.normalize.queueWhileDetached = true := retention
  have retained := (delivery Handle Tx options).invariant_of_along Retained
    (fun source label next retained safe run => retained.step retention safe (step_cases run))
    (retained_added options handle supportsAsync) retains reached
  have step : Step options.normalize state .resumeFinish resumed := step_cases swap
  have following := (delivery Handle Tx options).invariant_of_along (Following resumed)
    (fun source label next following safe run => following.step retention safe (step_cases run))
    (following_resumed retention retained step) follows continued
  have settled : resumed.settled = state.settled := by cases step <;> rfl
  have idle : state.held = [] := by
    have quiet : state.entry.quiescent = true := by cases step <;> assumption
    exact retained.sound.filterMap_threads_nil WriterPc.event rfl ((quiescent_iff _).mp quiet).1
  refine ⟨following.retained.places, ?_, ?_, settled ▸ following.line, ?_⟩
  · simpa only [ledger, idle, List.append_nil] using retained.line
  · rw [failures_of_run reached]
    simp [added]
  · obtain ⟨drain, final, each, run, after, accepted, empty, queue⟩ :=
      following.drains retention
    obtain ⟨sends, handed, current, line⟩ := after.line
    have none : final.waiting = [] := by
      have whole := after.retained.inSend_append_waiting
      rw [empty, queue] at whole
      exact (List.append_eq_nil_iff.mp whole).2
    rw [none, List.append_nil, accepted, settled] at line
    exact ⟨drain, final, sends, each, run, accepted, handed, current, line⟩

/-- The chain's message fails while the session is detached; the resumed session receives it again,
followed by the one enqueued meanwhile. -/
theorem retained_across_resume_chain :
    ∃ state resumed target : Delivery ℕ String,
      target.handed.map (fun send => (send.handle, send.event.event)) = [(0, "a"), (1, "a"), (1, "b")] ∧
      ∃ sends, target.handed = resumed.handed ++ sends ∧
        (∀ send ∈ sends, send.handle = resumed.entry.handle) ∧
        InLine (state.settled.map (·.1) ++ sends.map (·.event) ++ target.waiting) target.accepted := by
  refine ⟨_, _, _, ?_, (retained_across_resume
    { asyncDelivery := true, gracePeriod := 30, queueWhileDetached := true } 0 true rfl
    [.enqueue "a" .Reliable, .submit 0, .detach 0, .enqueue "b" .Reliable,
      .complete 0 (.error (.Transport "closed")), .resume 1 true 5]
    [.submit 0, .complete 0 (.ok ()), .submit 0] _ _ _
    (Option.some_get (by decide)).symm (by decide) (Option.some_get (by decide)).symm
    (Option.some_get (by decide)).symm (by decide)).2.2.2.1⟩
  decide

/-- A writer in the middle of its `Send` when the session is detached: the event is off the queue,
the send fails, and the resumed session never receives it. -/
theorem writer_mid_send_lost :
    ∃ state, (delivery ℕ String { gracePeriod := 30, queueWhileDetached := true }).run
      (added { gracePeriod := 30, queueWhileDetached := true } 0 false)
      [.enqueue "a" .Reliable, .writerTake 0, .writerSend 0, .detach 0,
        .writerReturn 0 (.error (.Transport "closed")), .writerFailed 0, .writerDone 0, .resume 1 false 5,
        .resumeFinish, .enqueue "b" .Reliable, .writerTake 1, .writerSend 1, .writerReturn 1 (.ok ())] =
      some state ∧
    (delivery ℕ String { gracePeriod := 30, queueWhileDetached := true }).Along
      (Retains ({ gracePeriod := 30, queueWhileDetached := true } : Options).normalize)
      (added { gracePeriod := 30, queueWhileDetached := true } 0 false)
      [.enqueue "a" .Reliable, .writerTake 0, .writerSend 0, .detach 0,
        .writerReturn 0 (.error (.Transport "closed")), .writerFailed 0, .writerDone 0, .resume 1 false 5,
        .resumeFinish, .enqueue "b" .Reliable, .writerTake 1, .writerSend 1, .writerReturn 1 (.ok ())] ∧
    state.accepted.map (·.event) = ["a", "b"] ∧
    state.settled.map (fun settled => (settled.1.event, settled.2)) = [("a", false), ("b", true)] ∧
    state.handed.map (fun send => (send.handle, send.event.event)) = [(0, "a"), (1, "b")] ∧
    state.entry.queue = [] ∧ state.held = [] := by
  refine ⟨_, (Option.some_get (by decide)).symm, ?_⟩
  decide

end Delivery

end OpalCpp.Server

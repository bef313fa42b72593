import OpalCpp.Proofs.Server.DeliveryInvariant

/-! # The handle swap is quiescent

Delivery reads `entry.handle` without a lock. What makes that safe is that `Resume` assigns it only
after every writer has exited and every completion has landed, so an event taken off the queue
under one handle is never sent on another. Handles are numbered by the resumes that installed
them; `Aligned` says that whatever delivery holds, and every send it has made, belongs to the
handle that was current when the event was taken.
-/

namespace OpalCpp.Server.Delivery

variable {Handle Tx : Type*}

/-- Every handle the entry has had, by the number of resumes before it; the current one is last. -/
def handles (state : Delivery Handle Tx) : List Handle := state.earlier ++ [state.entry.handle]

end Delivery

/-- The number of resumes before the writer took the event it holds. -/
def WriterPc.taken {Tx : Type*} : WriterPc Tx → Option ℕ
  | .popped _ taken | .sending _ taken => some taken
  | _ => none

namespace Delivery

variable {Handle Tx : Type*}

structure Aligned (state : Delivery Handle Tx) : Prop where
  chain : ∀ op ∈ state.chain, op.epoch = state.epoch
  threads : ∀ pc ∈ state.threads, ∀ taken ∈ pc.taken, taken = state.epoch
  handed : ∀ send ∈ state.handed, send.taken = send.epoch ∧ state.handles[send.epoch]? = some send.handle

theorem aligned_added (options : Options) (handle : Handle) (supportsAsync : Bool) :
    (added options handle supportsAsync : Delivery Handle Tx).Aligned := by
  refine ⟨?_, ?_, ?_⟩
  · simp [added]
  · intro pc member taken holds
    have waiting : pc = .waiting := by
      simp only [added] at member
      split_ifs at member <;> simp at member
      exact member
    rw [waiting] at holds
    cases holds
  · simp [added]

section Step

variable {options : Options} {state target : Delivery Handle Tx} {label : DeliveryLabel Handle Tx}

/-- Only the second half of a resume installs a handle; everything else keeps the current one. -/
theorem handles_step (step : Step options state label target) :
    (label ≠ .resumeFinish ∧ target.earlier = state.earlier ∧ target.entry.handle = state.entry.handle) ∨
    (label = .resumeFinish ∧ target.earlier = state.handles ∧ target.handed = state.handed) := by
  cases step with
  | resumeWriter | resumeChain | resumeIdle => exact .inr ⟨rfl, rfl, rfl⟩
  | _ => exact .inl ⟨by simp, rfl, rfl⟩

/-- A step appends at most one send, on the handle current at that moment. -/
theorem handed_step (aligned : state.Aligned) (step : Step options state label target) :
    ∃ sends, target.handed = state.handed ++ sends ∧ ∀ send ∈ sends,
      send.taken = state.epoch ∧ send.epoch = state.epoch ∧ send.handle = state.entry.handle := by
  cases step with
  | submit present unsent =>
    refine ⟨_, rfl, fun send member => ?_⟩
    rw [List.mem_singleton.mp member]
    exact ⟨aligned.chain _ (List.mem_of_getElem? present), rfl, rfl⟩
  | writerSend present =>
    refine ⟨_, rfl, fun send member => ?_⟩
    rw [List.mem_singleton.mp member]
    exact ⟨aligned.threads _ (List.mem_of_getElem? present) _ rfl, rfl, rfl⟩
  | _ => exact ⟨[], (List.append_nil _).symm, fun send member => absurd member List.not_mem_nil⟩

private theorem chain_aligned (sound : state.Sound) (aligned : state.Aligned)
    (step : Step options state label target) : ∀ op ∈ target.chain, op.epoch = target.epoch := by
  have chain := aligned.chain
  have marked : ∀ op ∈ state.markCleared, op.epoch = state.epoch := by
    intro op member
    obtain ⟨old, present, rfl⟩ := List.mem_map.mp member
    exact chain old present
  have erased (index : ℕ) : ∀ op ∈ state.chain.eraseIdx index, op.epoch = state.epoch :=
    fun op member => chain op (List.mem_of_mem_eraseIdx member)
  cases step with
  | claimed edit attached running async idle =>
    intro op member
    rcases List.mem_append.mp member with member | member
    · exact chain op member
    · rw [List.mem_singleton.mp member]; rfl
  | submit present unsent =>
    intro op member
    have held := chain _ (List.mem_of_getElem? present)
    rcases List.mem_or_eq_of_mem_set member with member | same
    · exact chain op member
    · rw [same]; exact held
  | advanced present sent next running =>
    intro op member
    rcases List.mem_append.mp member with member | member
    · exact erased _ op member
    · rw [List.mem_singleton.mp member]; rfl
  | drained | fallback | parked | broken => exact erased _
  | writerFailed present =>
    dsimp only
    split_ifs
    · exact chain
    · exact marked
  | detach registered unlocked grace attached =>
    dsimp only
    split_ifs
    · exact chain
    · exact marked
  | resumeWriter waiting quiet =>
    rw [sound.chain_nil ((quiescent_iff _).mp quiet).2]
    exact fun op member => absurd member List.not_mem_nil
  | resumeChain waiting quiet queue =>
    rw [sound.chain_nil ((quiescent_iff _).mp quiet).2]
    intro op member
    rw [List.mem_singleton.mp member]
    simp [claimOp, epoch]
  | resumeIdle waiting quiet queue =>
    rw [sound.chain_nil ((quiescent_iff _).mp quiet).2]
    exact fun op member => absurd member List.not_mem_nil
  | remove | requestStop => exact marked
  | _ => exact chain

private theorem threads_aligned (sound : state.Sound) (aligned : state.Aligned)
    (step : Step options state label target) :
    ∀ pc ∈ target.threads, ∀ taken ∈ pc.taken, taken = target.epoch := by
  have threads := aligned.threads
  -- A moved thread holds what it held before, or the front it has just taken.
  have moved {thread : ℕ} {pc : WriterPc Tx} (held : ∀ taken ∈ pc.taken, taken = state.epoch) :
      ∀ current ∈ state.threads.set thread pc, ∀ taken ∈ current.taken, taken = state.epoch := by
    intro current member
    rcases List.mem_or_eq_of_mem_set member with member | rfl
    · exact threads current member
    · exact held
  -- Across a swap nobody holds anything: every thread has exited.
  have quiet (finished : state.entry.quiescent = true) :
      ∀ pc ∈ state.threads, ∀ taken ∈ pc.taken, taken = target.epoch := by
    intro pc member taken holds
    obtain ⟨thread, read⟩ := List.mem_iff_getElem?.mp member
    rw [sound.exited ((quiescent_iff _).mp finished).1 read] at holds
    cases holds
  have spawned {number : ℕ} (others : ∀ pc ∈ state.threads, ∀ taken ∈ pc.taken, taken = number) :
      ∀ pc ∈ state.threads ++ [.waiting], ∀ taken ∈ pc.taken, taken = number := by
    intro pc member taken holds
    rcases List.mem_append.mp member with member | member
    · exact others pc member taken holds
    · rw [List.mem_singleton.mp member] at holds
      cases holds
  cases step with
  | fallback => exact spawned threads
  | writerLeave | writerFailed | writerDone => exact moved (fun taken holds => nomatch holds)
  | writerPop => exact moved (fun taken holds => (Option.some.inj holds).symm)
  | writerSend present =>
    exact moved (fun taken holds => threads _ (List.mem_of_getElem? present) taken holds)
  | writerReturn present => exact moved (fun taken holds => by split_ifs at holds <;> cases holds)
  | resumeWriter waiting finished => exact spawned (quiet finished)
  | resumeChain waiting finished queue => exact quiet finished
  | resumeIdle waiting finished queue => exact quiet finished
  | _ => exact threads

theorem Aligned.step (sound : state.Sound) (aligned : state.Aligned)
    (step : Step options state label target) : target.Aligned := by
  refine ⟨chain_aligned sound aligned step, threads_aligned sound aligned step, ?_⟩
  intro send member
  rcases handles_step step with ⟨_, earlier, handle⟩ | ⟨_, earlier, handed⟩
  · have same : target.handles = state.handles := by rw [handles, earlier, handle, handles]
    obtain ⟨sends, log, current⟩ := handed_step aligned step
    rw [log] at member
    rcases List.mem_append.mp member with member | member
    · rw [same]; exact aligned.handed send member
    · obtain ⟨taken, epoch, used⟩ := current send member
      refine ⟨taken.trans epoch.symm, ?_⟩
      rw [same, epoch, used, handles, Delivery.epoch, List.getElem?_concat_length]
  · rw [handed] at member
    obtain ⟨taken, used⟩ := aligned.handed send member
    refine ⟨taken, ?_⟩
    rw [handles, earlier, List.getElem?_append_left (List.getElem?_eq_some_iff.mp used).1]
    exact used

end Step

/-- Soundness and alignment are kept together. -/
theorem aligned_of_run {options : Options} {source target : Delivery Handle Tx}
    {labels : List (DeliveryLabel Handle Tx)} (sound : source.Sound) (aligned : source.Aligned)
    (reached : (delivery Handle Tx options).run source labels = some target) :
    target.Sound ∧ target.Aligned :=
  (delivery Handle Tx options).invariant_of_run (fun state => state.Sound ∧ state.Aligned)
    (fun _ _ _ kept run => ⟨kept.1.step (step_cases run), kept.2.step kept.1 (step_cases run)⟩)
    ⟨sound, aligned⟩ reached

/-- Handles only accumulate, and every later send is on the current handle or one installed since. -/
theorem sends_of_run {options : Options} {source target : Delivery Handle Tx}
    {labels : List (DeliveryLabel Handle Tx)} (sound : source.Sound) (aligned : source.Aligned)
    (reached : (delivery Handle Tx options).run source labels = some target) :
    source.handles <+: target.handles ∧ ∃ sends, target.handed = source.handed ++ sends ∧
      ∀ send ∈ sends, send.taken = send.epoch ∧ source.epoch ≤ send.epoch ∧
        target.handles[send.epoch]? = some send.handle := by
  induction labels generalizing source with
  | nil =>
    cases reached
    exact ⟨List.prefix_rfl, [], (List.append_nil _).symm, fun send member => absurd member List.not_mem_nil⟩
  | cons label rest ih =>
    obtain ⟨next, run, tail⟩ := (delivery Handle Tx options).run_cons_eq_some.mp reached
    have step := step_cases run
    obtain ⟨grown, later, log, current⟩ := ih (sound.step step) (aligned.step sound step) tail
    obtain ⟨sends, first, now⟩ := handed_step aligned step
    have extended : source.handles <+: next.handles ∧ source.epoch ≤ next.epoch := by
      rcases handles_step step with ⟨_, earlier, handle⟩ | ⟨_, earlier, _⟩
      · rw [handles, handles, earlier, handle, epoch, epoch, earlier]
        exact ⟨List.prefix_rfl, le_rfl⟩
      · constructor
        · rw [handles.eq_def next, earlier]
          exact List.prefix_append _ _
        · rw [epoch, epoch, earlier, handles, List.length_append]
          exact Nat.le_add_right _ _
    have whole := extended.1.trans grown
    refine ⟨whole, sends ++ later, by rw [log, first, List.append_assoc], ?_⟩
    intro send member
    rcases List.mem_append.mp member with member | member
    · obtain ⟨taken, epoch, used⟩ := now send member
      refine ⟨taken.trans epoch.symm, epoch.ge, ?_⟩
      rw [epoch, used]
      obtain ⟨installed, same⟩ := whole
      rw [← same, handles, Delivery.epoch, List.append_assoc, List.getElem?_append_right le_rfl, Nat.sub_self]
      rfl
    · obtain ⟨taken, after, used⟩ := current send member
      exact ⟨taken, extended.2.trans after, used⟩

/-- The swap is quiescent. A detached entry is stopping; `Resume` assigns the handle, and alone
does, when every writer has exited and no claimed event is on its way; and from any state on, no
event is sent except on the handle under which it was taken, which is the handle of that state or
one installed after it. -/
theorem handle_swap_quiescent (options : Options) (handle : Handle) (supportsAsync : Bool)
    (labels later : List (DeliveryLabel Handle Tx)) (state target : Delivery Handle Tx)
    (reached : (delivery Handle Tx options).run (added options handle supportsAsync) labels = some state)
    (continued : (delivery Handle Tx options).run state later = some target) :
    (state.entry.detached = true → state.entry.stopping = true) ∧
    (∀ swapped, (delivery Handle Tx options).step state .resumeFinish = some swapped →
      (∀ pc ∈ state.threads, pc = .exited) ∧ state.chain = []) ∧
    (∀ label next, (delivery Handle Tx options).step state label = some next →
      label ≠ .resumeFinish → next.entry.handle = state.entry.handle) ∧
    state.handles <+: target.handles ∧
    ∃ sends, target.handed = state.handed ++ sends ∧ ∀ send ∈ sends,
      send.taken = send.epoch ∧ state.epoch ≤ send.epoch ∧
        target.handles[send.epoch]? = some send.handle := by
  obtain ⟨sound, aligned⟩ :=
    aligned_of_run (sound_added options handle supportsAsync) (aligned_added options handle supportsAsync) reached
  refine ⟨sound.parked, ?_, ?_, sends_of_run sound aligned continued⟩
  · intro swapped run
    have step : Step options.normalize state .resumeFinish swapped := step_cases run
    have quiet : state.entry.quiescent = true := by cases step <;> assumption
    obtain ⟨exited, idle⟩ := (quiescent_iff _).mp quiet
    refine ⟨fun pc member => ?_, sound.chain_nil idle⟩
    obtain ⟨thread, read⟩ := List.mem_iff_getElem?.mp member
    exact sound.exited exited read
  · intro label next run other
    rcases handles_step (step_cases run) with ⟨_, _, same⟩ | ⟨finish, _, _⟩
    · exact same
    · exact absurd finish other

/-- A writer-mode entry detached in the middle of a send, resumed on a new handle, sending there. -/
theorem handle_swap_quiescent_resumed : ∃ state target : Delivery ℕ String,
    state.epoch = 1 ∧ target.handed.map (·.handle) = [3, 7] ∧
    ∃ sends, target.handed = state.handed ++ sends ∧ ∀ send ∈ sends,
      send.taken = send.epoch ∧ state.epoch ≤ send.epoch ∧
        target.handles[send.epoch]? = some send.handle := by
  let options : Options := { gracePeriod := 30, queueWhileDetached := true }
  let labels : List (DeliveryLabel ℕ String) :=
    [.enqueue "a" .Reliable, .enqueue "b" .Reliable, .writerTake 0, .writerSend 0, .detach 0,
      .writerReturn 0 (.error (.Transport "closed")), .writerFailed 0, .writerDone 0,
      .resume 7 false 1, .resumeFinish]
  let later : List (DeliveryLabel ℕ String) := [.writerTake 1, .writerSend 1]
  have runs : ∃ target, (delivery ℕ String options).run (added options 3 false) (labels ++ later) =
      some target := Option.isSome_iff_exists.mp (by decide)
  obtain ⟨target, whole⟩ := runs
  rw [Machine.run_append] at whole
  obtain ⟨state, reached, continued⟩ := Option.bind_eq_some_iff.mp whole
  have swapped : ((delivery ℕ String options).run (added options 3 false) labels).map epoch = some 1 := by
    decide
  have sent : ((delivery ℕ String options).run (added options 3 false) (labels ++ later)).map
      (fun state => state.handed.map (·.handle)) = some [3, 7] := by decide
  rw [reached] at swapped
  rw [Machine.run_append, reached, Option.bind_some, continued] at sent
  exact ⟨state, target, Option.some.inj swapped, Option.some.inj sent,
    (handle_swap_quiescent options 3 false labels later state target reached continued).2.2.2.2⟩

end Delivery

end OpalCpp.Server

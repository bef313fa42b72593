import OpalCpp.Proofs.Server.DeliverySteps

/-! # The flags of an entry mean what they say

`Sound` ties the entry's flags to the environment: `delivering` counts the chain's operations, a
thread that has not exited is the one the entry can join, `done` is that thread's exit, and a
queue that delivery is responsible for has someone to drain it. It holds in every reachable state
whatever the interleaving, because each step keeps it; the handle swap is quiescent as a result.
-/

namespace OpalCpp.Server.Delivery

variable {Handle Tx : Type*}

structure Sound (state : Delivery Handle Tx) : Prop where
  /-- `delivering` is exactly one claimed event on its way. -/
  chain : state.chain.length = state.entry.delivering.toNat
  chainMode : state.entry.delivering = true → state.entry.asyncMode = true
  threadless : state.entry.asyncMode = true → state.entry.writer = none ∧ state.entry.done = false
  /-- A running writer is the one the entry will join. -/
  owner : ∀ thread pc, state.threads[thread]? = some pc → pc ≠ .exited →
    state.entry.writer = some thread
  /-- The joinable writer exists; `done` is its exit, and it leaves its loop only to stop. -/
  joinable : ∀ thread, state.entry.writer = some thread → ∃ pc, state.threads[thread]? = some pc ∧
    (state.entry.done = true ↔ pc = .exited) ∧
    (pc = .exiting ∨ pc = .exited → state.entry.stopping = true)
  manned : state.entry.asyncMode = false → state.entry.stopping = false →
    ∃ thread, state.entry.writer = some thread
  draining : state.entry.asyncMode = true → state.entry.stopping = false →
    state.entry.queue ≠ [] → state.entry.delivering = true
  parked : state.entry.detached = true → state.entry.stopping = true
  resuming : state.resuming ≠ none → state.registered = true ∧ state.entry.detached = true

theorem sound_added (options : Options) (handle : Handle) (supportsAsync : Bool) :
    (added options handle supportsAsync : Delivery Handle Tx).Sound := by
  cases mode : options.asyncDelivery && supportsAsync with
  | true => constructor <;> simp [added, Entry.added, Options.normalize, mode]
  | false =>
    constructor
    case owner =>
      intro thread pc present running
      have bound : thread < 1 := by
        simpa [added, mode] using (List.getElem?_eq_some_iff.mp present).1
      obtain rfl : thread = 0 := by omega
      simp [added, Entry.added, Options.normalize, mode]
    all_goals simp [added, Entry.added, Options.normalize, mode]

/-- Every writer has exited once the entry is quiescent. -/
theorem Sound.exited {state : Delivery Handle Tx} (sound : state.Sound)
    (quiet : state.entry.writer = none ∨ state.entry.done = true) {thread : ℕ} {pc : WriterPc Tx}
    (present : state.threads[thread]? = some pc) : pc = .exited := by
  by_contra running
  have owner := sound.owner thread pc present running
  rcases quiet with none | done
  · rw [none] at owner; cases owner
  · obtain ⟨current, read, exit, _⟩ := sound.joinable thread owner
    rw [present, Option.some.injEq] at read
    exact running (read ▸ exit.mp done)

theorem quiescent_iff (entry : Entry Handle Tx) :
    entry.quiescent = true ↔ (entry.writer = none ∨ entry.done = true) ∧ entry.delivering = false := by
  simp [Entry.quiescent, Option.isNone_iff_eq_none]

/-- No operation of the chain is under way once the entry is quiescent. -/
theorem Sound.chain_nil {state : Delivery Handle Tx} (sound : state.Sound)
    (idle : state.entry.delivering = false) : state.chain = [] :=
  List.length_eq_zero_iff.mp (by rw [sound.chain, idle]; rfl)

theorem Sound.delivering_of_present {state : Delivery Handle Tx} (sound : state.Sound) {index : ℕ}
    {op : ChainOp Tx} (present : state.chain[index]? = some op) : state.entry.delivering = true := by
  by_contra idle
  rw [sound.chain_nil (by simpa using idle)] at present
  cases present

/-- The chain holds just the operation found in it. -/
theorem Sound.chain_eq {state : Delivery Handle Tx} (sound : state.Sound) {index : ℕ}
    {op : ChainOp Tx} (present : state.chain[index]? = some op) : state.chain = [op] ∧ index = 0 := by
  have length := sound.chain
  rw [sound.delivering_of_present present] at length
  obtain ⟨only, single⟩ := List.length_eq_one_iff.mp length
  rw [single] at present ⊢
  cases index with
  | zero => exact ⟨by simpa using present, rfl⟩
  | succ index => simp at present

/-- A running writer is the only thread that holds anything, and it still is after it moved on. -/
theorem Sound.filterMap_threads {state : Delivery Handle Tx} (sound : state.Sound) {α : Type*}
    (yield : WriterPc Tx → Option α) (silent : yield .exited = none) {thread : ℕ} {pc : WriterPc Tx}
    (present : state.threads[thread]? = some pc) (running : pc ≠ .exited) :
    state.threads.filterMap yield = (yield pc).toList ∧
      ∀ next, (state.threads.set thread next).filterMap yield = (yield next).toList := by
  have alone : ∀ place other, place ≠ thread → state.threads[place]? = some other → yield other = none := by
    intro place other elsewhere read
    have gone : other = .exited := by
      by_contra live
      have owners := (sound.owner thread pc present running).symm.trans (sound.owner place other read live)
      exact elsewhere (Option.some.inj owners).symm
    rw [gone, silent]
  refine ⟨filterMap_eq_of_only present alone, fun next => ?_⟩
  have bound := (List.getElem?_eq_some_iff.mp present).1
  apply filterMap_eq_of_only (List.getElem?_set_self bound)
  intro place other elsewhere read
  rw [List.getElem?_set_ne (Ne.symm elsewhere)] at read
  exact alone place other elsewhere read

/-- Once every writer has exited none of them holds anything. -/
theorem Sound.filterMap_threads_nil {state : Delivery Handle Tx} (sound : state.Sound) {α : Type*}
    (yield : WriterPc Tx → Option α) (silent : yield .exited = none)
    (quiet : state.entry.writer = none ∨ state.entry.done = true) : state.threads.filterMap yield = [] := by
  rw [List.filterMap_eq_nil_iff]
  intro pc member
  obtain ⟨thread, read⟩ := List.mem_iff_getElem?.mp member
  rw [sound.exited quiet read, silent]

/-- An asynchronous entry has no writer that could hold anything. -/
theorem Sound.filterMap_threads_async {state : Delivery Handle Tx} (sound : state.Sound) {α : Type*}
    (yield : WriterPc Tx → Option α) (silent : yield .exited = none) (async : state.entry.asyncMode = true) :
    state.threads.filterMap yield = [] :=
  sound.filterMap_threads_nil yield silent (.inl (sound.threadless async).1)

/-- A writer that moves on with what it holds changes nothing of what the threads hold. -/
theorem Sound.filterMap_threads_moved {state : Delivery Handle Tx} (sound : state.Sound) {α : Type*}
    (yield : WriterPc Tx → Option α) (silent : yield .exited = none) {thread : ℕ} {pc : WriterPc Tx}
    (next : WriterPc Tx) (present : state.threads[thread]? = some pc) (running : pc ≠ .exited)
    (same : yield next = yield pc) :
    (state.threads.set thread next).filterMap yield = state.threads.filterMap yield := by
  obtain ⟨before, after⟩ := sound.filterMap_threads yield silent present running
  rw [after, before, same]

@[simp] theorem length_markCleared (state : Delivery Handle Tx) :
    state.markCleared.length = state.chain.length := List.length_map _

section Preservation

variable {options : Options} {state target : Delivery Handle Tx} {label : DeliveryLabel Handle Tx}

private theorem chain_step (sound : state.Sound) (step : Step options state label target) :
    target.chain.length = target.entry.delivering.toNat := by
  have length := sound.chain
  cases step with
  | claimed edit attached running async idle =>
    simp only [idle, Bool.toNat_false] at length
    simp [length]
  | submit present unsent => simpa using length
  | advanced present sent next running =>
    obtain ⟨single, rfl⟩ := sound.chain_eq present
    simp [single]
  | drained present sent finished =>
    obtain ⟨single, rfl⟩ := sound.chain_eq present
    simp [single]
  | fallback present sent refusal running alone =>
    obtain ⟨single, rfl⟩ := sound.chain_eq present
    simp [single]
  | parked present sent refusal finished =>
    obtain ⟨single, rfl⟩ := sound.chain_eq present
    simp [single]
  | broken present sent failure =>
    obtain ⟨single, rfl⟩ := sound.chain_eq present
    simp [single]
  | resumeWriter waiting quiet => exact length
  | resumeChain waiting quiet queue =>
    rw [sound.chain_nil ((quiescent_iff _).mp quiet).2]
    rfl
  | resumeIdle waiting quiet queue =>
    rw [sound.chain_nil ((quiescent_iff _).mp quiet).2]
    rfl
  | detach registered unlocked grace attached =>
    split_ifs
    · exact length
    · exact (length_markCleared _).trans length
  | writerFailed present =>
    split_ifs
    · exact length
    · exact (length_markCleared _).trans length
  | remove registered unlocked => exact (length_markCleared _).trans length
  | requestStop gone => exact (length_markCleared _).trans length
  | _ => exact length

private theorem chainMode_step (sound : state.Sound) (step : Step options state label target) :
    target.entry.delivering = true → target.entry.asyncMode = true := by
  have mode := sound.chainMode
  cases step with
  | claimed edit attached running async idle => exact fun _ => async
  | advanced present sent next running => exact fun _ => mode (sound.delivering_of_present present)
  | resumeWriter waiting quiet =>
    intro delivering
    rw [((quiescent_iff _).mp quiet).2] at delivering
    cases delivering
  | resumeChain waiting quiet queue => exact fun _ => rfl
  | resumeIdle waiting quiet queue => exact fun _ => rfl
  | drained | fallback | parked | broken => exact fun delivering => nomatch delivering
  | _ => exact mode

/-- A thread that has not exited belongs to an entry in writer mode. -/
theorem Sound.writerMode (sound : state.Sound) {thread : ℕ} {pc : WriterPc Tx}
    (present : state.threads[thread]? = some pc) (running : pc ≠ .exited) :
    state.entry.asyncMode = false := by
  by_contra async
  have owner := sound.owner thread pc present running
  rw [(sound.threadless (by simpa using async)).1] at owner
  cases owner

/-- A writer and the chain never run side by side. -/
theorem Sound.chain_nil_of_writer (sound : state.Sound) {thread : ℕ} {pc : WriterPc Tx}
    (present : state.threads[thread]? = some pc) (running : pc ≠ .exited) : state.chain = [] := by
  apply sound.chain_nil
  by_contra delivering
  have async := sound.chainMode (by simpa using delivering)
  rw [sound.writerMode present running] at async
  cases async

/-- A thread that has not exited has not reported `done`, and leaves its loop only to stop. -/
theorem Sound.running (sound : state.Sound) {thread : ℕ} {pc : WriterPc Tx}
    (present : state.threads[thread]? = some pc) (live : pc ≠ .exited) :
    state.entry.done = false ∧ (pc = .exiting → state.entry.stopping = true) := by
  obtain ⟨current, read, exit, leaves⟩ := sound.joinable thread (sound.owner thread pc present live)
  obtain rfl : pc = current := by rw [present] at read; exact Option.some.inj read
  exact ⟨by simpa [live] using exit, fun left => leaves (.inl left)⟩

private theorem threadless_step (sound : state.Sound) (step : Step options state label target) :
    target.entry.asyncMode = true → target.entry.writer = none ∧ target.entry.done = false := by
  have threadless := sound.threadless
  cases step with
  | fallback present sent refusal running alone => exact fun async => nomatch async
  | writerDone present =>
    intro async
    rw [sound.writerMode present (by simp)] at async
    cases async
  | resumeWriter waiting quiet => exact fun async => nomatch async
  | resumeChain waiting quiet queue => exact fun _ => ⟨rfl, rfl⟩
  | resumeIdle waiting quiet queue => exact fun _ => ⟨rfl, rfl⟩
  | join gone joinable done => exact fun async => ⟨rfl, (threadless async).2⟩
  | _ => exact threadless

/-- A thread that has moved but not exited is still the one the entry can join. -/
private theorem owner_set (sound : state.Sound) {thread : ℕ} {pc moved : WriterPc Tx}
    (present : state.threads[thread]? = some pc) (running : pc ≠ .exited) {other : ℕ}
    {current : WriterPc Tx} (read : (state.threads.set thread moved)[other]? = some current)
    (live : current ≠ .exited) : state.entry.writer = some other := by
  rw [List.getElem?_set] at read
  split_ifs at read with same
  · exact same ▸ sound.owner thread pc present running
  · exact sound.owner other current read live

/-- Once every thread has exited, the only one running is the one just spawned. -/
private theorem owner_spawn
    (quiet : ∀ (thread : ℕ) (pc : WriterPc Tx), state.threads[thread]? = some pc → pc = .exited)
    {thread : ℕ} {pc : WriterPc Tx} (read : (state.threads ++ [.waiting])[thread]? = some pc)
    (live : pc ≠ .exited) : some state.threads.length = some thread := by
  by_cases old : thread < state.threads.length
  · rw [List.getElem?_append_left old] at read
    exact absurd (quiet thread pc read) live
  · have bound := (List.getElem?_eq_some_iff.mp read).1
    simp only [List.length_append, List.length_cons, List.length_nil] at bound
    rw [Option.some.injEq]
    omega

private theorem owner_step (sound : state.Sound) (step : Step options state label target) :
    ∀ thread pc, target.threads[thread]? = some pc → pc ≠ .exited →
      target.entry.writer = some thread := by
  have owner := sound.owner
  cases step with
  | fallback present sent refusal running alone =>
    exact fun thread pc read live => owner_spawn (fun _ _ => sound.exited (.inl alone)) read live
  | writerLeave present stopping =>
    exact fun thread pc read live => owner_set sound present (by simp) read live
  | writerPop present running queue =>
    exact fun thread pc read live => owner_set sound present (by simp) read live
  | writerSend present => exact fun thread pc read live => owner_set sound present (by simp) read live
  | writerReturn present => exact fun thread pc read live => owner_set sound present (by simp) read live
  | writerFailed present => exact fun thread pc read live => owner_set sound present (by simp) read live
  | writerDone present => exact fun thread pc read live => owner_set sound present (by simp) read live
  | resumeWriter waiting quiet =>
    have exited := ((quiescent_iff _).mp quiet).1
    exact fun thread pc read live => owner_spawn (fun _ _ => sound.exited exited) read live
  | resumeChain waiting quiet queue =>
    exact fun thread pc read live => absurd (sound.exited ((quiescent_iff _).mp quiet).1 read) live
  | resumeIdle waiting quiet queue =>
    exact fun thread pc read live => absurd (sound.exited ((quiescent_iff _).mp quiet).1 read) live
  | join gone joinable done =>
    exact fun thread pc read live => absurd (sound.exited (.inr done) read) live
  | _ => exact owner

/-- The writer's own steps change its program counter and nothing about who may join it. -/
private theorem joinable_set (sound : state.Sound) {thread : ℕ} {pc moved : WriterPc Tx}
    {done stopping : Bool} (present : state.threads[thread]? = some pc) (live : pc ≠ .exited)
    (exit : done = true ↔ moved = .exited)
    (leaves : moved = .exiting ∨ moved = .exited → stopping = true) {other : ℕ}
    (joinable : state.entry.writer = some other) :
    ∃ pc, (state.threads.set thread moved)[other]? = some pc ∧ (done = true ↔ pc = .exited) ∧
      (pc = .exiting ∨ pc = .exited → stopping = true) := by
  have owner := sound.owner thread pc present live
  obtain rfl : thread = other := by rw [owner] at joinable; exact Option.some.inj joinable
  have bound := (List.getElem?_eq_some_iff.mp present).1
  exact ⟨moved, by rw [List.getElem?_set_self bound], exit, leaves⟩

private theorem joinable_spawn (thread : ℕ) (spawned : some state.threads.length = some thread)
    {done stopping : Bool} (fresh : done = false) :
    ∃ pc, (state.threads ++ [.waiting])[thread]? = some pc ∧ (done = true ↔ pc = .exited) ∧
      (pc = .exiting ∨ pc = .exited → stopping = true) := by
  obtain rfl := Option.some.inj spawned
  exact ⟨.waiting, by simp, by simp [fresh], by simp⟩

private theorem joinable_step (sound : state.Sound) (step : Step options state label target) :
    ∀ thread, target.entry.writer = some thread → ∃ pc, target.threads[thread]? = some pc ∧
      (target.entry.done = true ↔ pc = .exited) ∧
      (pc = .exiting ∨ pc = .exited → target.entry.stopping = true) := by
  have joinable := sound.joinable
  cases step with
  | fallback present sent refusal running alone =>
    have fresh := (sound.threadless (sound.chainMode (sound.delivering_of_present present))).2
    exact fun thread spawned => joinable_spawn thread spawned fresh
  | broken present sent failure =>
    intro thread writer
    obtain ⟨pc, read, exit, _⟩ := joinable thread writer
    exact ⟨pc, read, exit, fun _ => rfl⟩
  | writerLeave present stopping =>
    have fresh := (sound.running present (by simp)).1
    exact fun other writer => joinable_set sound present (by simp) (by simp [fresh]) (fun _ => stopping) writer
  | writerPop present running queue =>
    have fresh := (sound.running present (by simp)).1
    exact fun other writer => joinable_set sound present (by simp) (by simp [fresh]) (by simp) writer
  | writerSend present =>
    have fresh := (sound.running present (by simp)).1
    exact fun other writer => joinable_set sound present (by simp) (by simp [fresh]) (by simp) writer
  | @writerReturn _ _ _ sent present =>
    have fresh := (sound.running present (by simp)).1
    refine fun other writer => joinable_set sound present (by simp) ?_ ?_ writer
    · split_ifs <;> simp [fresh]
    · split_ifs <;> simp
  | writerFailed present =>
    have fresh := (sound.running present (by simp)).1
    exact fun other writer => joinable_set sound present (by simp) (by simp [Entry.writerFailed, fresh])
      (fun _ => rfl) writer
  | writerDone present =>
    have stopping := (sound.running present (by simp)).2 rfl
    exact fun other writer => joinable_set sound present (by simp) (by simp) (fun _ => stopping) writer
  | detach registered unlocked grace attached =>
    intro thread writer
    obtain ⟨pc, read, exit, _⟩ := joinable thread writer
    exact ⟨pc, read, exit, fun _ => rfl⟩
  | resumeWriter waiting quiet => exact fun thread spawned => joinable_spawn thread spawned rfl
  | resumeChain waiting quiet queue => exact fun thread writer => nomatch writer
  | resumeIdle waiting quiet queue => exact fun thread writer => nomatch writer
  | remove registered unlocked =>
    intro thread writer
    obtain ⟨pc, read, exit, _⟩ := joinable thread writer
    exact ⟨pc, read, exit, fun _ => rfl⟩
  | requestStop gone =>
    intro thread writer
    obtain ⟨pc, read, exit, _⟩ := joinable thread writer
    exact ⟨pc, read, exit, fun _ => rfl⟩
  | join gone joinable done => exact fun thread writer => nomatch writer
  | _ => exact joinable

private theorem manned_step (sound : state.Sound) (step : Step options state label target) :
    target.entry.asyncMode = false → target.entry.stopping = false →
      ∃ thread, target.entry.writer = some thread := by
  have manned := sound.manned
  cases step with
  | fallback present sent refusal running alone => exact fun _ _ => ⟨_, rfl⟩
  | broken present sent failure => exact fun _ running => nomatch running
  | writerFailed present => exact fun _ running => nomatch running
  | detach registered unlocked grace attached => exact fun _ running => nomatch running
  | resumeWriter waiting quiet => exact fun _ _ => ⟨_, rfl⟩
  | resumeChain waiting quiet queue => exact fun sync => nomatch sync
  | resumeIdle waiting quiet queue => exact fun sync => nomatch sync
  | remove registered unlocked => exact fun _ running => nomatch running
  | requestStop gone => exact fun _ running => nomatch running
  | join gone joinable done =>
    intro _ running
    obtain ⟨pc, _, exit, leaves⟩ := sound.joinable _ joinable
    rw [leaves (.inr (exit.mp done))] at running
    cases running
  | _ => exact manned

private theorem draining_step (sound : state.Sound) (step : Step options state label target) :
    target.entry.asyncMode = true → target.entry.stopping = false →
      target.entry.queue ≠ [] → target.entry.delivering = true := by
  have draining := sound.draining
  cases step with
  | placed edit taking =>
    intro async running _
    rcases taking with ⟨detached, _⟩ | ⟨_, _, delivering⟩
    · rw [sound.parked detached] at running
      cases running
    · exact delivering async
  | claimed edit attached running async idle => exact fun _ _ _ => rfl
  | advanced present sent next running => exact fun _ _ _ => rfl
  | drained present sent finished =>
    intro _ running more
    rcases finished with empty | stopping
    · exact absurd empty more
    · rw [stopping] at running
      cases running
  | fallback present sent refusal running alone => exact fun async => nomatch async
  | parked present sent refusal finished =>
    intro async running
    rcases finished with stopping | writer
    · rw [stopping] at running
      cases running
    · exact absurd (sound.threadless async).1 writer
  | broken present sent failure => exact fun _ running => nomatch running
  | writerPop present running queue =>
    intro async
    rw [sound.writerMode present (by simp)] at async
    cases async
  | writerFailed present => exact fun _ running => nomatch running
  | detach registered unlocked grace attached => exact fun _ running => nomatch running
  | resumeWriter waiting quiet => exact fun async => nomatch async
  | resumeChain waiting quiet queue => exact fun _ _ _ => rfl
  | resumeIdle waiting quiet queue => exact fun _ _ more => absurd queue more
  | remove registered unlocked => exact fun _ running => nomatch running
  | requestStop gone => exact fun _ running => nomatch running
  | _ => exact draining

private theorem parked_step (sound : state.Sound) (step : Step options state label target) :
    target.entry.detached = true → target.entry.stopping = true := by
  have parked := sound.parked
  cases step with
  | broken | writerFailed | detach | remove | requestStop => exact fun _ => rfl
  | resumeWriter | resumeChain | resumeIdle => exact fun detached => nomatch detached
  | _ => exact parked

private theorem resuming_step (sound : state.Sound) (step : Step options state label target) :
    target.resuming ≠ none → target.registered = true ∧ target.entry.detached = true := by
  have resuming := sound.resuming
  cases step with
  | detach registered unlocked grace attached => exact fun _ => ⟨registered, rfl⟩
  | resume registered unlocked grace detached early => exact fun _ => ⟨registered, detached⟩
  | resumeWriter | resumeChain | resumeIdle => exact fun locked => absurd rfl locked
  | remove registered unlocked => exact fun locked => absurd unlocked locked
  | expire registered unlocked detached late => exact fun locked => absurd unlocked locked
  | unregister registered unlocked => exact fun locked => absurd unlocked locked
  | _ => exact resuming

theorem Sound.step (sound : state.Sound) (step : Step options state label target) : target.Sound where
  chain := chain_step sound step
  chainMode := chainMode_step sound step
  threadless := threadless_step sound step
  owner := owner_step sound step
  joinable := joinable_step sound step
  manned := manned_step sound step
  draining := draining_step sound step
  parked := parked_step sound step
  resuming := resuming_step sound step

end Preservation

/-- The flags mean what they say after any interleaving from `Add` on. -/
theorem sound_of_run {options : Options} {handle : Handle} {supportsAsync : Bool}
    {labels : List (DeliveryLabel Handle Tx)} {state : Delivery Handle Tx}
    (reached : (delivery Handle Tx options).run (added options handle supportsAsync) labels = some state) :
    state.Sound :=
  (delivery Handle Tx options).invariant_of_run Sound
    (fun _ _ _ sound run => sound.step (step_cases run)) (sound_added options handle supportsAsync) reached

end OpalCpp.Server.Delivery

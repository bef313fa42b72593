import OpalCpp.Proofs.Server.Grace
import OpalCpp.Proofs.Server.WriterCustody

/-! # Writer threads are accounted for

A writer is named by its entry and its place among the writers of the entry. It is joined in the step in which the
entry's `std::thread` stops being joinable. Each is started for an entry whose delivery is not over, is held with its
entry until it is joined, and is joined once, at the latest by the destructor.
-/

namespace OpalCpp.Server

variable {Id Handle Tx : Type*}

/-! ## The account -/

/-- The thread has not come to its end. -/
def WriterPc.running : WriterPc Tx → Bool
  | .exited => false
  | _ => true

/-- A method of the registry is called. -/
def RegistryLabel.isCall : RegistryLabel Id Handle Tx → Bool
  | .add _ _ _ | .remove _ | .detach _ _ | .resume _ _ _ _ | .drain => true
  | _ => false

/-! ## Entries whose delivery is over -/

namespace Core

variable [LinearOrder Id] {options : Options} {core target : Core Id Handle Tx} {claims : List (Claim Id)} {ref : ℕ}
    {cell : Cell Handle Tx}

/-- Where an entry stands whose delivery is over, with the writers it has had. -/
def OverAt (core : Core Id Handle Tx) (ref writers : ℕ) : Prop :=
  ∃ cell, core.heap[ref]? = some cell ∧ cell.delivery.Over ∧ cell.delivery.threads.length = writers

/-- No change to the core starts a writer for an entry whose delivery is over. -/
theorem OverAt.change {writers : ℕ} (spent : core.OverAt ref writers) (simulated : core.Simulated options)
    (change : Change options.normalize core target claims) : target.OverAt ref writers := by
  obtain ⟨cell, present, spent, length⟩ := spent
  have moved {other : ℕ} {found : Cell Handle Tx} {label : DeliveryLabel Handle Tx} {next : Delivery Handle Tx}
      (episode : Option ℕ)
      (read : core.heap[other]? = some found) (step : found.delivery.step options.normalize label = some next) :
      ∃ cell, (core.heap.set other { delivery := next, episode })[ref]? = some cell ∧ cell.delivery.Over ∧
        cell.delivery.threads.length = writers := by
    by_cases here : other = ref
    · subst here
      rw [present] at read
      cases read
      obtain ⟨handle, supportsAsync, history, run⟩ := simulated cell (List.mem_of_getElem? present)
      obtain ⟨after, quiet⟩ := spent.step (Delivery.sound_of_run run) (Delivery.step_cases step)
      exact ⟨_, List.getElem?_set_self (List.getElem?_eq_some_iff.mp present).1, after, quiet.1.trans length⟩
    · exact ⟨cell, (List.getElem?_set_ne here).trans present, spent, length⟩
  cases change with
  | entry read step same => exact moved _ read step
  | added absent =>
    exact ⟨cell, (List.getElem?_append_left (List.getElem?_eq_some_iff.mp present).1).trans present, spent, length⟩
  | detached listed read step => exact moved _ read step
  | resumed read step => exact moved _ read step
  | removed listed read step => exact moved _ read step
  | expired listed read step => exact moved _ read step
  | cleared => exact ⟨cell, present, spent, length⟩

theorem OverAt.changes {writers : ℕ} (spent : core.OverAt ref writers) (simulated : core.Simulated options)
    (changes : Changes options.normalize core target claims) : target.OverAt ref writers := by
  induction changes with
  | refl => exact spent
  | tail before change ih => exact ih.change (simulated.changes before) change

end Core

namespace Registry

/-- The writer that can be joined of an entry. -/
def writerOf (registry : Registry Id Handle Tx) (ref : ℕ) : Option ℕ := registry.heap[ref]?.bind (·.delivery.entry.writer)

/-- The writers that are joinable before a step and no more after it. -/
def joinedIn (registry target : Registry Id Handle Tx) : List (ℕ × ℕ) :=
  (List.range registry.heap.length).filterMap fun ref =>
    (registry.writerOf ref).bind fun thread => if target.writerOf ref = some thread then none else some (ref, thread)

/-- The writers joined in a run, in order. -/
def joins [LinearOrder Id] (options : Options) : Registry Id Handle Tx → List (RegistryLabel Id Handle Tx) → List (ℕ × ℕ)
  | _, [] => []
  | registry, label :: rest =>
    match (sessionRegistry Id Handle Tx options).step registry label with
    | none => []
    | some target => registry.joinedIn target ++ joins options target rest

/-- The writer was started. -/
def Started (registry : Registry Id Handle Tx) (thread : ℕ × ℕ) : Prop :=
  ∃ cell, registry.heap[thread.1]? = some cell ∧ thread.2 < cell.delivery.threads.length

/-- The writer was started and has come to its end. -/
def Ended (registry : Registry Id Handle Tx) (thread : ℕ × ℕ) : Prop :=
  ∃ cell, registry.heap[thread.1]? = some cell ∧ cell.delivery.threads[thread.2]? = some .exited

/-- A writer that a new entry starts with is the one to be joined. -/
theorem writer_added {options : Options} {handle : Handle} {supportsAsync : Bool} {thread : ℕ}
    (started : thread < (Delivery.added options handle supportsAsync : Delivery Handle Tx).threads.length) :
    (Delivery.added options handle supportsAsync : Delivery Handle Tx).entry.writer = some thread := by
  cases mode : options.asyncDelivery && supportsAsync with
  | true => simp [Delivery.added, mode] at started
  | false =>
    simp only [Delivery.added, mode, Bool.false_eq_true, if_false, List.length_singleton, Nat.lt_one_iff] at started
    simp [Delivery.added, Entry.added, Options.normalize, mode, started]

section Account

variable {registry target : Registry Id Handle Tx}

theorem mem_joinedIn {thread : ℕ × ℕ} : thread ∈ registry.joinedIn target ↔
    registry.writerOf thread.1 = some thread.2 ∧ target.writerOf thread.1 ≠ some thread.2 := by
  rw [joinedIn, List.mem_filterMap]
  constructor
  · rintro ⟨ref, -, joined⟩
    obtain ⟨writer, owner, left⟩ := Option.bind_eq_some_iff.mp joined
    split_ifs at left with kept
    cases left
    exact ⟨owner, kept⟩
  · rintro ⟨owner, left⟩
    obtain ⟨cell, present, -⟩ := Option.bind_eq_some_iff.mp owner
    refine ⟨thread.1, List.mem_range.mpr (List.getElem?_eq_some_iff.mp present).1, ?_⟩
    rw [owner, Option.bind_some, if_neg left]

theorem joinedIn_nodup : (registry.joinedIn target).Nodup := by
  refine List.Nodup.filterMap ?_ List.nodup_range
  intro first second thread one other
  obtain ⟨writer, -, left⟩ := Option.bind_eq_some_iff.mp one
  obtain ⟨writer', -, left'⟩ := Option.bind_eq_some_iff.mp other
  split_ifs at left left'
  cases left
  cases left'
  rfl

/-- What is joined after a step has been joined before or is joined in it. -/
theorem joined_iff (turned : Turned registry.heap target.heap) (sound : ∀ cell ∈ registry.heap, cell.delivery.Sound)
    {thread : ℕ × ℕ} :
    (target.Started thread ∧ target.writerOf thread.1 ≠ some thread.2) ↔
      (registry.Started thread ∧ registry.writerOf thread.1 ≠ some thread.2) ∨ thread ∈ registry.joinedIn target := by
  rw [mem_joinedIn]
  cases present : registry.heap[thread.1]? with
  | none =>
    have absent : registry.writerOf thread.1 = none := by rw [writerOf, present]; rfl
    constructor
    · rintro ⟨⟨next, read, started⟩, free⟩
      obtain ⟨options, handle, supportsAsync, fresh⟩ := turned.new thread.1 next present read
      rw [writerOf, read, Option.bind_some, fresh] at free
      rw [fresh] at started
      exact absurd (writer_added started) free
    · rintro (⟨⟨cell, read, -⟩, -⟩ | ⟨owner, -⟩)
      · rw [present] at read
        cases read
      · rw [absent] at owner
        cases owner
  | some cell =>
    obtain ⟨next, read, turn⟩ := turned.old thread.1 cell present
    have before : registry.writerOf thread.1 = cell.delivery.entry.writer := by rw [writerOf, present]; rfl
    have after : target.writerOf thread.1 = next.delivery.entry.writer := by rw [writerOf, read]; rfl
    have started : registry.Started thread ↔ thread.2 < cell.delivery.threads.length := by
      simp only [Started, present, Option.some.injEq, exists_eq_left']
    have starts : target.Started thread ↔ thread.2 < next.delivery.threads.length := by
      simp only [Started, read, Option.some.injEq, exists_eq_left']
    have within : cell.delivery.entry.writer = some thread.2 → thread.2 < cell.delivery.threads.length := by
      intro owner
      obtain ⟨pc, found, -⟩ := (sound cell (List.mem_of_getElem? present)).joinable thread.2 owner
      exact (List.getElem?_eq_some_iff.mp found).1
    rw [before, after, started, starts]
    rcases turn with ⟨length, same | none_⟩ | ⟨length, writer⟩
    · rw [length, same]
      tauto
    · rw [length, none_]
      simp only [ne_eq, reduceCtorEq, not_false_eq_true, and_true]
      by_cases owner : cell.delivery.entry.writer = some thread.2
      · simp only [owner, not_true_eq_false, and_false, false_or, iff_true]
        exact within owner
      · simp only [owner, not_false_eq_true, and_true, or_false]
    · rw [length, writer, ne_eq, Option.some.injEq]
      constructor
      · rintro ⟨bound, other⟩
        by_cases owner : cell.delivery.entry.writer = some thread.2
        · exact .inr ⟨owner, other⟩
        · exact .inl ⟨by omega, owner⟩
      · rintro (⟨bound, -⟩ | ⟨owner, other⟩)
        · exact ⟨by omega, by omega⟩
        · have bound := within owner
          exact ⟨by omega, other⟩

end Account

/-! ## Runs -/

section Runs

variable [LinearOrder Id] {options : Options} {labels : List (RegistryLabel Id Handle Tx)} {registry : Registry Id Handle Tx}

theorem sound_of_reached (reached : (sessionRegistry Id Handle Tx options).run {} labels = some registry) :
    ∀ cell ∈ registry.heap, cell.delivery.Sound := by
  intro cell member
  obtain ⟨handle, supportsAsync, history, run⟩ := entries_of_run reached cell member
  exact Delivery.sound_of_run run

theorem ids_of_reached (reached : (sessionRegistry Id Handle Tx options).run {} labels = some registry) :
    (registry.sessions.map (·.1)).Nodup := by
  obtain ⟨claims, settled, -⟩ := settled_of_run reached
  exact settled.ids

/-- What holds of the empty registry and is kept by the steps at the end of runs holds after every run. -/
theorem reached_induction {property : List (RegistryLabel Id Handle Tx) → Registry Id Handle Tx → Prop}
    (start : property [] {})
    (kept : ∀ labels registry label target, (sessionRegistry Id Handle Tx options).run {} labels = some registry →
      property labels registry → (sessionRegistry Id Handle Tx options).step registry label = some target →
        property (labels ++ [label]) target)
    (reached : (sessionRegistry Id Handle Tx options).run {} labels = some registry) : property labels registry := by
  induction labels using List.reverseRecOn generalizing registry with
  | nil =>
    cases reached
    exact start
  | append_singleton early label ih =>
    rw [Machine.run_append] at reached
    obtain ⟨middle, before, last⟩ := Option.bind_eq_some_iff.mp reached
    obtain ⟨next, step, same⟩ := Machine.run_cons_eq_some _ |>.mp last
    cases same
    exact kept early middle label _ before (ih before) step

theorem custody_of_reached (reached : (sessionRegistry Id Handle Tx options).run {} labels = some registry) :
    registry.Custody := by
  refine @reached_induction Id Handle Tx _ options labels registry (fun _ registry => registry.Custody)
    ⟨⟨List.nodup_nil, ?_, ?_, ?_, ?_⟩, ?_⟩ (fun labels registry label target before custody step => ?_) reached
  · exact fun ref member => absurd member List.not_mem_nil
  · exact fun ref member => absurd member List.not_mem_nil
  · exact fun ref member => absurd member List.not_mem_nil
  · exact fun ref cell present => nomatch present
  · exact fun ref cell present => nomatch present
  · exact (custody.step (ids_of_reached before) (sound_of_reached before) step).1

theorem joins_concat {source target : Registry Id Handle Tx} {label : RegistryLabel Id Handle Tx}
    (reached : (sessionRegistry Id Handle Tx options).run source labels = some registry)
    (step : (sessionRegistry Id Handle Tx options).step registry label = some target) :
    joins options source (labels ++ [label]) = joins options source labels ++ registry.joinedIn target := by
  induction labels generalizing source with
  | nil =>
    cases reached
    simp only [List.nil_append, joins, step, List.append_nil]
  | cons first rest ih =>
    obtain ⟨next, moved, later⟩ := Machine.run_cons_eq_some _ |>.mp reached
    simp only [List.cons_append, joins, moved, ih later, List.append_assoc]

/-- A writer that was started can be joined or has been joined, once. -/
theorem joins_of_reached (reached : (sessionRegistry Id Handle Tx options).run {} labels = some registry) :
    (joins options {} labels).Nodup ∧ ∀ thread, (registry.Started thread ∧ registry.writerOf thread.1 ≠ some thread.2) ↔
      thread ∈ joins options {} labels := by
  refine @reached_induction Id Handle Tx _ options labels registry (fun labels registry => (joins options {} labels).Nodup ∧
    ∀ thread, (registry.Started thread ∧ registry.writerOf thread.1 ≠ some thread.2) ↔ thread ∈ joins options {} labels)
    ⟨List.nodup_nil, ?_⟩ (fun labels registry label target before account step => ?_) reached
  · rintro thread
    refine iff_of_false ?_ List.not_mem_nil
    rintro ⟨⟨cell, present, -⟩, -⟩
    cases present
  · obtain ⟨once, joined⟩ := account
    have sound := sound_of_reached before
    have turned := ((custody_of_reached before).step (ids_of_reached before) sound step).2
    rw [joins_concat before step]
    constructor
    · refine List.Nodup.append once joinedIn_nodup fun thread early late => ?_
      exact ((joined thread).mpr early).2 (mem_joinedIn.mp late).1
    · intro thread
      rw [joined_iff turned sound, joined thread, List.mem_append]

/-- An entry whose delivery is over gets no writer any more. -/
theorem over_of_run {later : List (RegistryLabel Id Handle Tx)} {target : Registry Id Handle Tx} {ref writers : ℕ}
    (reached : (sessionRegistry Id Handle Tx options).run {} labels = some registry)
    (spent : registry.core.OverAt ref writers)
    (run : (sessionRegistry Id Handle Tx options).run registry later = some target) : target.core.OverAt ref writers := by
  have kept := (sessionRegistry Id Handle Tx options).invariant_of_run
    (fun registry => ((∃ claims, registry.core.Settled claims) ∧ registry.core.Simulated options) ∧
      registry.core.OverAt ref writers)
    (fun source label target known step => ?_) ⟨⟨?_, entries_of_run reached⟩, spent⟩ run
  · exact kept.2
  · obtain ⟨⟨⟨claims, settled⟩, simulated⟩, spent⟩ := known
    obtain ⟨more, changes, _⟩ := step_effect settled.ids step
    exact ⟨⟨⟨_, settled.changes changes⟩, simulated.changes changes⟩, spent.changes simulated changes⟩
  · obtain ⟨claims, settled, -⟩ := settled_of_run reached
    exact ⟨claims, settled⟩

/-- Nothing is registered or retired any more once the destructor has taken the entries. -/
def Emptied (registry : Registry Id Handle Tx) : Prop :=
  registry.teardown.collected = true → registry.sessions = [] ∧ registry.retired = []

omit [LinearOrder Id] in
theorem Emptied.of_same {target : Registry Id Handle Tx} (emptied : registry.Emptied)
    (sessions : target.sessions = registry.sessions)
    (retired : target.retired = registry.retired) (teardown : target.teardown.collected = registry.teardown.collected) :
    target.Emptied := by
  rw [Emptied, sessions, retired, teardown]
  exact emptied

theorem reapLocked_teardown (registry : Registry Id Handle Tx) : registry.reapLocked.teardown = registry.teardown :=
  congrArg (fun calls => calls.2.2.1) (reapLocked_changes {} registry).2

/-- A method that is called leaves the destructor where it is. -/
theorem teardown_of_call {label : RegistryLabel Id Handle Tx} {target : Registry Id Handle Tx}
    (ids : (registry.sessions.map (·.1)).Nodup)
    (call : label.isCall = true) (step : registry.step options label = some target) :
    target.teardown = registry.teardown := by
  cases label with
  | add id handle supportsAsync =>
    cases (locking_eq_some step).2
    have same := reapLocked_teardown registry
    rw [add]
    split <;> exact same
  | remove id =>
    cases (locking_eq_some step).2
    rw [remove]
    split
    · rfl
    · split
      · rfl
      · split
        · rfl
        · exact reapLocked_teardown _
  | detach id now =>
    cases (locking_eq_some step).2
    rw [detach]
    repeat' split
    all_goals first | rfl | (rw [armExpiryLocked]; split <;> rfl)
  | resume id handle supportsAsync now =>
    cases (locking_eq_some step).2
    rw [resume]
    repeat' split
    all_goals rfl
  | drain =>
    cases (locking_eq_some step).2
    exact congrArg (·.2.2.1) (takeExpiredLocked_changes options ⊤ ids).2
  | _ => cases call

/-- Every step keeps it, unless a method is called. -/
theorem Emptied.step {label : RegistryLabel Id Handle Tx} {target : Registry Id Handle Tx} (emptied : registry.Emptied)
    (ids : (registry.sessions.map (·.1)).Nodup) (alive : label.isCall = true → registry.teardown.collected = false)
    (step : registry.step options label = some target) : target.Emptied := by
  by_cases call : label.isCall = true
  · intro collected
    rw [teardown_of_call ids call step, alive call] at collected
    cases collected
  · cases label with
    | add | remove | detach | resume | drain => exact absurd rfl call
    | resumeFinish =>
      obtain ⟨ref, -, run⟩ := Option.bind_eq_some_iff.mp step
      obtain ⟨cell, -, run⟩ := Option.bind_eq_some_iff.mp run
      obtain ⟨delivery, -, rfl⟩ := Option.map_eq_some_iff.mp run
      exact emptied.of_same rfl rfl rfl
    | entry ref label =>
      have run : registry.entry options ref label = some target := step
      rw [entry] at run
      split_ifs at run
      obtain ⟨cell, -, run⟩ := Option.bind_eq_some_iff.mp run
      obtain ⟨delivery, -, rfl⟩ := Option.map_eq_some_iff.mp run
      exact emptied.of_same rfl rfl rfl
    | expiryTake now =>
      have takes := (locking_eq_some step).2
      rw [expiryTake] at takes
      split at takes
      · split_ifs at takes
        intro collected
        have same := congrArg (·.2.2.1) (takeExpiredLocked_changes options (now : WithTop ℕ) ids).2
        by_cases before : registry.teardown.collected = true
        · have none_ : registry.takeExpiredLocked (now : WithTop ℕ) = (registry, []) := by
            rw [takeExpiredLocked, (emptied before).1]
            rfl
          rw [none_] at takes
          cases takes
          exact emptied collected
        · generalize registry.takeExpiredLocked now = pair at takes same
          obtain ⟨next, claims⟩ := pair
          have still : target.teardown = registry.teardown := by
            cases claims <;> cases takes
            · rfl
            · exact same
          rw [still] at collected
          exact absurd collected before
      · cases takes
    | expiryFire | expiryExit | drainFire | destroy | destroyJoinExpiry | destroyFire =>
      have still := still_of_quiet rfl step
      exact emptied.of_same still.sessions still.retired still.collected
    | destroyExpire =>
      have expires := (locking_eq_some step).2
      rw [destroyExpire] at expires
      split at expires
      · cases expires
        exact fun collected => absurd collected Bool.false_ne_true
      · cases expires
    | destroyCollect =>
      have collects := (locking_eq_some step).2
      rw [destroyCollect] at collects
      split at collects
      · cases collects
        exact fun _ => ⟨rfl, rfl⟩
      · cases collects
    | destroyStop =>
      have stops : registry.destroyStop = some target := step
      rw [destroyStop] at stops
      split at stops
      · next stopping =>
        have collected : registry.teardown.collected = true := by rw [stopping]; rfl
        split at stops
        · cases stops
          exact fun _ => emptied collected
        · obtain ⟨delivery, -, rfl⟩ := Option.map_eq_some_iff.mp stops
          exact fun _ => emptied collected
      · next stopping =>
        cases stops
        exact fun _ => emptied (by rw [stopping]; rfl)
      · cases stops
    | destroyJoin =>
      have joins : registry.destroyJoin = some target := step
      rw [destroyJoin] at joins
      split at joins
      · next joining =>
        have collected : registry.teardown.collected = true := by rw [joining]; rfl
        split at joins
        · cases joins
          exact fun _ => emptied collected
        · split_ifs at joins
          · cases joins
            exact fun _ => emptied collected
          · obtain ⟨delivery, -, rfl⟩ := Option.map_eq_some_iff.mp joins
            exact fun _ => emptied collected
      · cases joins

end Runs

/-- An entry has one running writer at most. -/
theorem running_le_one {state : Delivery Handle Tx} (sound : state.Sound) : state.threads.countP WriterPc.running ≤ 1 := by
  have filtered : state.threads.filterMap (Option.guard WriterPc.running) = state.threads.filter WriterPc.running :=
    congrFun List.filterMap_eq_filter _
  rw [List.countP_eq_length_filter, ← filtered]
  by_cases idle : ∀ pc ∈ state.threads, pc = .exited
  · have none_ : state.threads.filterMap (Option.guard WriterPc.running) = [] := by
      rw [List.filterMap_eq_nil_iff]
      intro pc member
      rw [idle pc member]
      rfl
    rw [none_]
    exact Nat.zero_le 1
  · push Not at idle
    obtain ⟨pc, member, running⟩ := idle
    obtain ⟨thread, read⟩ := List.mem_iff_getElem?.mp member
    rw [(sound.filterMap_threads (Option.guard WriterPc.running) rfl read running).1]
    cases Option.guard WriterPc.running pc
    · exact Nat.zero_le 1
    · exact Nat.le_refl 1

section Accounted

variable [LinearOrder Id] {options : Options} {labels : List (RegistryLabel Id Handle Tx)} {registry : Registry Id Handle Tx}

omit [LinearOrder Id] in
/-- Before the destructor takes the entries, an entry with a writer to be joined is registered or retired, in one place. -/
theorem count_holders (custody : registry.Custody) (before : registry.teardown.collected = false) {ref : ℕ}
    {cell : Cell Handle Tx}
    (present : registry.heap[ref]? = some cell) (manned : cell.delivery.entry.writer ≠ none) :
    (registry.sessions.map (·.2) ++ registry.retired).count ref = 1 := by
  have none_ : registry.teardown.held = [] := by
    cases pc : registry.teardown <;> rw [pc] at before <;> first | rfl | cases before
  have held := custody.held
  rw [none_] at held
  have distinct := held.nodup
  rw [List.append_nil] at distinct
  refine List.count_eq_one_of_mem distinct ?_
  by_contra absent
  rw [List.mem_append, not_or] at absent
  exact manned (held.gone ref cell present absent.1 absent.2 List.not_mem_nil).2

omit [LinearOrder Id] in
/-- Delivery is over for an entry that has left the map, before the destructor takes the others. -/
theorem overAt_of_left (custody : registry.Custody) (before : registry.teardown.collected = false) {ref : ℕ}
    {cell : Cell Handle Tx}
    (present : registry.heap[ref]? = some cell) (left : ref ∉ registry.sessions.map (·.2)) :
    registry.core.OverAt ref cell.delivery.threads.length := by
  have none_ : registry.teardown.held = [] := by
    cases pc : registry.teardown <;> rw [pc] at before <;> first | rfl | cases before
  have held := custody.held
  rw [none_] at held
  by_cases retired : ref ∈ registry.retired
  · obtain ⟨found, read, spent⟩ := held.spent ref retired
    rw [present] at read
    cases read
    exact ⟨cell, present, spent, rfl⟩
  · exact ⟨cell, present, (held.gone ref cell present left retired List.not_mem_nil).1, rfl⟩

omit [LinearOrder Id] in
/-- A writer that can be joined no more has come to its end. -/
theorem ended_of_joined (sound : ∀ cell ∈ registry.heap, cell.delivery.Sound) {thread : ℕ × ℕ}
    (started : registry.Started thread)
    (left : registry.writerOf thread.1 ≠ some thread.2) : registry.Ended thread := by
  obtain ⟨cell, present, bound⟩ := started
  have read : cell.delivery.threads[thread.2]? = some cell.delivery.threads[thread.2] := List.getElem?_eq_getElem bound
  refine ⟨cell, present, ?_⟩
  by_cases running : cell.delivery.threads[thread.2] = .exited
  · rw [read, running]
  · have owner := (sound cell (List.mem_of_getElem? present)).owner thread.2 _ read running
    rw [writerOf, present, Option.bind_some] at left
    exact absurd owner left

/-- At the end of a destruction during which no method is called, no writer is left to be joined. -/
theorem destroyed_joined (reached : (sessionRegistry Id Handle Tx options).run {} labels = some registry)
    (alive : (sessionRegistry Id Handle Tx options).Along
      (fun registry label => label.isCall = true → registry.teardown.collected = false) {} labels)
    (destroyed : registry.teardown = .join []) (ref : ℕ) : registry.writerOf ref = none := by
  have start : (∃ claims, ({} : Registry Id Handle Tx).core.Settled claims) ∧ ({} : Registry Id Handle Tx).Emptied := by
    obtain ⟨claims, settled, -⟩ := settled_of_run (rfl : (sessionRegistry Id Handle Tx options).run {} [] = some {})
    exact ⟨⟨claims, settled⟩, fun collected => nomatch collected⟩
  obtain ⟨-, emptied⟩ := (sessionRegistry Id Handle Tx options).invariant_of_along
    (fun registry => (∃ claims, registry.core.Settled claims) ∧ registry.Emptied)
    (fun source label target known alive step => by
      obtain ⟨⟨claims, settled⟩, emptied⟩ := known
      obtain ⟨more, changes, _⟩ := step_effect settled.ids step
      exact ⟨⟨_, settled.changes changes⟩, emptied.step settled.ids alive step⟩)
    start alive reached
  obtain ⟨sessions, retired⟩ := emptied (by rw [destroyed]; rfl)
  have held := (custody_of_reached reached).held
  rw [sessions, retired, destroyed] at held
  cases present : registry.heap[ref]? with
  | none => rw [writerOf, present, Option.bind_none]
  | some cell =>
    rw [writerOf, present, Option.bind_some]
    exact (held.gone ref cell present List.not_mem_nil List.not_mem_nil List.not_mem_nil).2

/-- Writer threads are accounted for, whatever the interleaving. An entry has one running writer at most. Until the
destructor takes the entries, one with a writer to be joined is registered or retired, and in one place; one that was
removed or has expired gets no writer any more. No writer is joined twice, and at the end of a destruction during which
no method is called every writer that was ever started has been joined. -/
theorem writers_accounted (options : Options) (labels : List (RegistryLabel Id Handle Tx)) (registry : Registry Id Handle Tx)
    (reached : (sessionRegistry Id Handle Tx options).run {} labels = some registry) :
    (∀ ref cell, registry.heap[ref]? = some cell →
      cell.delivery.threads.countP WriterPc.running ≤ 1 ∧
        (registry.teardown.collected = false →
          (cell.delivery.entry.writer ≠ none → (registry.sessions.map (·.2) ++ registry.retired).count ref = 1) ∧
            (ref ∉ registry.sessions.map (·.2) → ∀ later target,
              (sessionRegistry Id Handle Tx options).run registry later = some target →
                ∃ next, target.heap[ref]? = some next ∧
                next.delivery.threads.length = cell.delivery.threads.length))) ∧
      ((joins options {} labels).Nodup ∧ ∀ thread ∈ joins options {} labels, registry.Ended thread) ∧
        ((sessionRegistry Id Handle Tx options).Along
          (fun registry label => label.isCall = true → registry.teardown.collected = false) {} labels →
            registry.teardown = .join [] → ∀ thread, registry.Started thread → thread ∈ joins options {} labels) := by
  have custody := custody_of_reached reached
  have sound := sound_of_reached reached
  obtain ⟨once, joined⟩ := joins_of_reached reached
  refine ⟨fun ref cell present =>
    ⟨?_, fun before => ⟨?_, fun left later target run => ?_⟩⟩, ⟨once, fun thread member => ?_⟩, ?_⟩
  · exact running_le_one (sound cell (List.mem_of_getElem? present))
  · exact count_holders custody before present
  · obtain ⟨next, read, -, length⟩ := over_of_run reached (overAt_of_left custody before present left) run
    exact ⟨next, read, length⟩
  · obtain ⟨started, left⟩ := (joined thread).mpr member
    exact ended_of_joined sound started left
  · intro alive destroyed thread started
    refine (joined thread).mp ⟨started, ?_⟩
    rw [destroyed_joined reached alive destroyed]
    exact (Option.some_ne_none _).symm

end Accounted

/-- One of two sessions is removed, and its writer is not reaped before the destruction: the destructor joins both. -/
theorem writers_accounted_removed :
    ∃ registry, (sessionRegistry ℕ ℕ String {}).run {}
      [.add 7 0 false, .add 8 1 false, .remove 7, .entry 0 (.writerTake 0), .entry 0 (.writerDone 0), .destroy,
        .destroyJoinExpiry, .destroyExpire, .destroyCollect, .destroyStop, .destroyStop, .destroyStop,
          .entry 1 (.writerTake 0),
        .entry 1 (.writerDone 0), .destroyJoin, .destroyJoin] = some registry ∧
      registry.teardown = .join [] ∧ registry.heap.length = 2 ∧
      ∀ thread, registry.Started thread → thread ∈ [(1, 0), (0, 0)] := by
  have joined : joins {} ({} : Registry ℕ ℕ String)
      [.add 7 0 false, .add 8 1 false, .remove 7, .entry 0 (.writerTake 0), .entry 0 (.writerDone 0), .destroy,
        .destroyJoinExpiry, .destroyExpire, .destroyCollect, .destroyStop, .destroyStop, .destroyStop,
          .entry 1 (.writerTake 0),
        .entry 1 (.writerDone 0), .destroyJoin, .destroyJoin] = [(1, 0), (0, 0)] := by
    decide
  refine ⟨_, (Option.some_get (by decide)).symm, by decide, by decide, ?_⟩
  rw [← joined]
  exact (writers_accounted {} _ _ (Option.some_get _).symm).2.2 (by decide) (by decide)

end Registry

end OpalCpp.Server

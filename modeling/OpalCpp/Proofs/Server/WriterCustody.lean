import OpalCpp.Proofs.Server.DeliveryInvariant
import OpalCpp.Proofs.Server.RegistrySteps

/-! # Who holds an entry that may have a writer

An entry is in the map, among the retired ones, or with the destructor, and in one place only. One that is nowhere
has no writer and has been stopped, so it never gets one. Every operation of the registry keeps this, and but for
`Add`, the fallback of a chain and `Resume` none starts a writer.
-/

namespace OpalCpp.Server

variable {Id Handle Tx : Type*}

namespace Delivery

/-- Delivery is over for good: the entry has left the map and has been stopped. -/
def Over (state : Delivery Handle Tx) : Prop := state.registered = false ∧ state.entry.stopping = true

/-- No writer is started, and none is joined but the one there is. -/
def Quiet (state target : Delivery Handle Tx) : Prop :=
  target.threads.length = state.threads.length ∧ (target.entry.writer = state.entry.writer ∨ target.entry.writer = none)

/-- A writer is started, and is the one to be joined. -/
def Spawned (state target : Delivery Handle Tx) : Prop :=
  target.threads.length = state.threads.length + 1 ∧ target.entry.writer = some state.threads.length

theorem Quiet.refl (state : Delivery Handle Tx) : state.Quiet state := ⟨rfl, .inl rfl⟩

theorem Quiet.trans {state middle target : Delivery Handle Tx} (first : state.Quiet middle) (second : middle.Quiet target) :
    state.Quiet target := by
  refine ⟨second.1.trans first.1, ?_⟩
  rcases second.2 with same | none_
  · rw [same]
    exact first.2
  · exact .inr none_

section Steps

variable {options : Options} {state target : Delivery Handle Tx} {label : DeliveryLabel Handle Tx}

/-- An entry whose delivery is over keeps its threads, and gets no writer. -/
theorem Over.step (spent : state.Over) (sound : state.Sound) (step : Step options state label target) :
    target.Over ∧ state.Quiet target := by
  obtain ⟨gone, stopping⟩ := spent
  have unlocked : state.resuming = none := by
    by_contra waiting
    rw [(sound.resuming waiting).1] at gone
    cases gone
  cases step with
  | fallback present sent refusal running alone =>
    rw [stopping] at running
    cases running
  | resumeWriter waiting | resumeChain waiting | resumeIdle waiting =>
    rw [unlocked] at waiting
    cases waiting
  | detach registered | resume registered | remove registered | expire registered | unregister registered =>
    rw [gone] at registered
    cases registered
  | writerLeave | writerPop | writerSend | writerReturn | writerDone =>
    exact ⟨⟨gone, stopping⟩, List.length_set, .inl rfl⟩
  | writerFailed => exact ⟨⟨gone, rfl⟩, List.length_set, .inl rfl⟩
  | broken => exact ⟨⟨gone, rfl⟩, .refl _⟩
  | requestStop => exact ⟨⟨gone, rfl⟩, .refl _⟩
  | join => exact ⟨⟨gone, stopping⟩, rfl, .inr rfl⟩
  | _ => exact ⟨⟨gone, stopping⟩, .refl _⟩

/-- A step starts a writer or none. -/
theorem step_writer (step : Step options state label target) : state.Quiet target ∨ state.Spawned target := by
  cases step with
  | fallback | resumeWriter => exact .inr ⟨List.length_append, rfl⟩
  | writerLeave | writerPop | writerSend | writerReturn | writerDone | writerFailed => exact .inl ⟨List.length_set, .inl rfl⟩
  | resumeChain | resumeIdle | join => exact .inl ⟨rfl, .inr rfl⟩
  | _ => exact .inl ⟨rfl, .inl rfl⟩

/-- The steps an entry takes without the registry leave it in the map or out of it, and its lock alone. -/
theorem registered_internal (internal : label.internal = true) (step : Step options state label target) :
    target.registered = state.registered ∧ target.resuming = state.resuming := by
  cases step with
  | remove | expire | unregister | resume | resumeWriter | resumeChain | resumeIdle => cases internal
  | _ => exact ⟨rfl, rfl⟩

end Steps

end Delivery

/-! ## Holders -/

/-- Who holds the entries of a heap: the map, the retired ones, and the destructor with those it still has to stop. -/
structure Held (sessions retired held unstopped : List ℕ) (heap : List (Cell Handle Tx)) : Prop where
  nodup : (sessions ++ (retired ++ held)).Nodup
  listed : ∀ ref ∈ sessions, ∃ cell, heap[ref]? = some cell ∧ cell.delivery.registered = true
  spent : ∀ ref ∈ retired, ∃ cell, heap[ref]? = some cell ∧ cell.delivery.Over
  taken : ∀ ref ∈ held, ∃ cell, heap[ref]? = some cell ∧ cell.delivery.registered = false ∧
    (ref ∉ unstopped → cell.delivery.entry.stopping = true)
  gone : ∀ ref cell, heap[ref]? = some cell → ref ∉ sessions → ref ∉ retired → ref ∉ held →
    cell.delivery.Over ∧ cell.delivery.entry.writer = none

namespace Held

variable {sessions retired held unstopped : List ℕ} {heap : List (Cell Handle Tx)} {ref : ℕ} {cell : Cell Handle Tx}

/-- A cell of an updated heap is the one that was put there or an old one. -/
theorem getElem?_set_cases {other : ℕ} {found next : Cell Handle Tx} (read : (heap.set ref next)[other]? = some found) :
    (other = ref ∧ found = next) ∨ (other ≠ ref ∧ heap[other]? = some found) := by
  rw [List.getElem?_set] at read
  split_ifs at read with same bound
  · exact .inl ⟨same.symm, (Option.some.inj read).symm⟩
  · exact .inr ⟨fun other => same other.symm, read⟩

theorem perm {sessions' retired' held' : List ℕ} (same : Held sessions retired held unstopped heap)
    (first : sessions'.Perm sessions)
    (second : retired'.Perm retired) (third : held'.Perm held) : Held sessions' retired' held' unstopped heap where
  nodup := (first.append (second.append third)).nodup_iff.mpr same.nodup
  listed ref member := same.listed ref (first.mem_iff.mp member)
  spent ref member := same.spent ref (second.mem_iff.mp member)
  taken ref member := same.taken ref (third.mem_iff.mp member)
  gone ref cell present unlisted fresh free := same.gone ref cell present (fun member => unlisted (first.mem_iff.mpr member))
    (fun member => fresh (second.mem_iff.mpr member)) (fun member => free (third.mem_iff.mpr member))

/-- An entry moves on where it is. -/
theorem set (same : Held sessions retired held unstopped heap) (present : heap[ref]? = some cell) (next : Cell Handle Tx)
    (kept : next.delivery.registered = cell.delivery.registered)
    (stopped : cell.delivery.registered = false → cell.delivery.entry.stopping = true → next.delivery.entry.stopping = true)
    (unmanned : cell.delivery.Over → cell.delivery.entry.writer = none → next.delivery.entry.writer = none) :
    Held sessions retired held unstopped (heap.set ref next) := by
  have bound := (List.getElem?_eq_some_iff.mp present).1
  have moved (other : ℕ) {property property' : Cell Handle Tx → Prop} (step : property cell → property' next)
      (stay : ∀ old, property old → property' old) (before : ∃ old, heap[other]? = some old ∧ property old) :
      ∃ new, (heap.set ref next)[other]? = some new ∧ property' new := by
    obtain ⟨old, read, holds⟩ := before
    by_cases here : ref = other
    · subst here
      rw [present] at read
      cases read
      exact ⟨next, List.getElem?_set_self bound, step holds⟩
    · exact ⟨old, (List.getElem?_set_ne here).trans read, stay old holds⟩
  constructor
  · exact same.nodup
  · exact fun other member => moved other (fun registered => kept.trans registered) (fun _ registered => registered)
      (same.listed other member)
  · refine fun other member => moved other (fun spent => ?_) (fun _ spent => spent) (same.spent other member)
    exact ⟨kept.trans spent.1, stopped spent.1 spent.2⟩
  · refine fun other member => moved other (fun left => ?_) (fun _ left => left) (same.taken other member)
    exact ⟨kept.trans left.1, fun free => stopped left.1 (left.2 free)⟩
  · intro other found read unlisted fresh free
    rcases getElem?_set_cases read with ⟨rfl, rfl⟩ | ⟨-, read⟩
    · obtain ⟨spent, alone⟩ := same.gone other cell present unlisted fresh free
      exact ⟨⟨kept.trans spent.1, stopped spent.1 spent.2⟩, unmanned spent alone⟩
    · exact same.gone other found read unlisted fresh free

/-- A retired entry without a writer is let go. -/
theorem drop (same : Held sessions (ref :: retired) held unstopped heap) (present : heap[ref]? = some cell)
    (alone : cell.delivery.entry.writer = none) : Held sessions retired held unstopped heap where
  nodup := by
    have shorter : (sessions ++ (retired ++ held)).Sublist (sessions ++ (ref :: retired ++ held)) :=
      (List.Sublist.refl _).append ((List.sublist_cons_self ref retired).append (List.Sublist.refl _))
    exact same.nodup.sublist shorter
  listed := same.listed
  spent other member := same.spent other (List.mem_cons_of_mem _ member)
  taken := same.taken
  gone other found read unlisted fresh free := by
    by_cases here : other = ref
    · subst here
      rw [present] at read
      cases read
      obtain ⟨_, again, spent⟩ := same.spent other List.mem_cons_self
      rw [present] at again
      cases again
      exact ⟨spent, alone⟩
    · exact same.gone other found read unlisted (fun member => (List.mem_cons.mp member).elim here fresh) free

/-- An entry leaves the map and is taken by the destructor, which still has to stop it or has no need to. -/
theorem take (same : Held (ref :: sessions) retired held unstopped heap) (present : heap[ref]? = some cell)
    {next : Cell Handle Tx} (left : next.delivery.registered = false)
    (stopping : ref ∉ unstopped → next.delivery.entry.stopping = true) :
    Held sessions retired (ref :: held) unstopped (heap.set ref next) := by
  have bound := (List.getElem?_eq_some_iff.mp present).1
  have distinct := same.nodup
  have fresh : ref ∉ sessions ++ (retired ++ held) := by
    rw [List.cons_append, List.nodup_cons] at distinct
    exact distinct.1
  rw [List.mem_append, List.mem_append, not_or, not_or] at fresh
  have other {refs : List ℕ} (apart : ref ∉ refs) {other : ℕ} (member : other ∈ refs) :
    (heap.set ref next)[other]? = heap[other]? :=
    List.getElem?_set_ne (by rintro rfl; exact apart member)
  constructor
  · have moved : (sessions ++ (retired ++ ref :: held)).Perm (ref :: sessions ++ (retired ++ held)) :=
      (List.perm_middle.append_left sessions).trans List.perm_middle
    exact moved.nodup_iff.mpr distinct
  · intro listed member
    rw [other fresh.1 member]
    exact same.listed listed (List.mem_cons_of_mem _ member)
  · intro gone member
    rw [other fresh.2.1 member]
    exact same.spent gone member
  · intro gone member
    rcases List.mem_cons.mp member with rfl | member
    · exact ⟨next, List.getElem?_set_self bound, left, stopping⟩
    · rw [other fresh.2.2 member]
      exact same.taken gone member
  · intro gone found read unlisted notRetired free
    rcases getElem?_set_cases read with ⟨rfl, rfl⟩ | ⟨here, read⟩
    · exact absurd List.mem_cons_self free
    · exact same.gone gone found read (fun member => (List.mem_cons.mp member).elim here unlisted) notRetired
        (fun member => free (List.mem_cons_of_mem _ member))

/-- An entry whose delivery is over is as good as retired. -/
theorem retire (same : Held sessions retired (ref :: held) unstopped heap) (present : heap[ref]? = some cell)
    (spent : cell.delivery.Over) : Held sessions (ref :: retired) held unstopped heap where
  nodup := (List.perm_middle.symm.append_left sessions).nodup_iff.mpr same.nodup
  listed := same.listed
  spent other member := by
    rcases List.mem_cons.mp member with rfl | member
    · exact ⟨cell, present, spent⟩
    · exact same.spent other member
  taken other member := same.taken other (List.mem_cons_of_mem _ member)
  gone other found read unlisted fresh free := same.gone other found read unlisted
    (fun member => fresh (List.mem_cons_of_mem _ member))
    (fun member => (List.mem_cons.mp member).elim (fun here => fresh (here ▸ List.mem_cons_self)) free)

/-- The destructor takes the retired entries. -/
theorem merge (same : Held sessions retired held unstopped heap) : Held sessions [] (held ++ retired) unstopped heap where
  nodup := by
    rw [List.nil_append]
    exact (List.perm_append_comm.append_left sessions).nodup_iff.mpr same.nodup
  listed := same.listed
  spent _ member := absurd member List.not_mem_nil
  taken ref member := by
    rcases List.mem_append.mp member with member | member
    · exact same.taken ref member
    · obtain ⟨cell, present, gone, stopping⟩ := same.spent ref member
      exact ⟨cell, present, gone, fun _ => stopping⟩
  gone ref cell present unlisted _ free := same.gone ref cell present unlisted
    (fun member => free (List.mem_append_right _ member)) (fun member => free (List.mem_append_left _ member))

/-- An entry that was stopped need not be stopped again. -/
theorem stopped (same : Held sessions retired held (ref :: unstopped) heap)
    (stopping : ∀ cell, heap[ref]? = some cell → cell.delivery.entry.stopping = true) :
    Held sessions retired held unstopped heap where
  nodup := same.nodup
  listed := same.listed
  spent := same.spent
  taken other member := by
    obtain ⟨cell, present, gone, free⟩ := same.taken other member
    refine ⟨cell, present, gone, fun fresh => ?_⟩
    by_cases here : other = ref
    · exact stopping cell (here ▸ present)
    · exact free fun member => (List.mem_cons.mp member).elim here fresh
  gone := same.gone

/-- There may be more to stop than has to be. -/
theorem weaken {more : List ℕ} (same : Held sessions retired held unstopped heap) (within : unstopped ⊆ more) :
    Held sessions retired held more heap where
  nodup := same.nodup
  listed := same.listed
  spent := same.spent
  taken other member := by
    obtain ⟨cell, present, gone, free⟩ := same.taken other member
    exact ⟨cell, present, gone, fun fresh => free fun member => fresh (within member)⟩
  gone := same.gone

/-- A new entry in the map. -/
theorem add (same : Held sessions retired held unstopped heap) {next : Cell Handle Tx}
    (registered : next.delivery.registered = true) :
    Held (heap.length :: sessions) retired held unstopped (heap ++ [next]) := by
  have present (ref : ℕ) {property : Cell Handle Tx → Prop} (old : ∃ cell, heap[ref]? = some cell ∧ property cell) :
      ref < heap.length ∧ ∃ cell, (heap ++ [next])[ref]? = some cell ∧ property cell := by
    obtain ⟨cell, read, holds⟩ := old
    have bound := (List.getElem?_eq_some_iff.mp read).1
    exact ⟨bound, cell, (List.getElem?_append_left bound).trans read, holds⟩
  constructor
  · rw [List.cons_append, List.nodup_cons, List.mem_append, List.mem_append]
    refine ⟨?_, same.nodup⟩
    rintro (member | member | member)
    · exact absurd (present _ (same.listed _ member)).1 (Nat.lt_irrefl _)
    · exact absurd (present _ (same.spent _ member)).1 (Nat.lt_irrefl _)
    · exact absurd (present _ (same.taken _ member)).1 (Nat.lt_irrefl _)
  · intro listed member
    rcases List.mem_cons.mp member with rfl | member
    · exact ⟨next, List.getElem?_concat_length .., registered⟩
    · exact (present listed (same.listed listed member)).2
  · exact fun gone member => (present gone (same.spent gone member)).2
  · exact fun gone member => (present gone (same.taken gone member)).2
  · intro gone found read unlisted notRetired free
    rw [List.getElem?_append] at read
    split_ifs at read with bound
    · exact same.gone gone found read (fun member => unlisted (List.mem_cons_of_mem _ member)) notRetired free
    · have last := (List.getElem?_eq_some_iff.mp read).1
      have here : gone = heap.length := by
        rw [List.length_singleton] at last
        omega
      exact absurd (here ▸ List.mem_cons_self) unlisted

end Held

/-! ## The operations of the registry -/

/-- No cell of the heap gets a writer, nor a `Resume` that waits. -/
def HeapQuiet (heap target : List (Cell Handle Tx)) : Prop :=
  List.Forall₂ (fun cell next =>
    cell.delivery.Quiet next.delivery ∧ next.delivery.resuming = cell.delivery.resuming) heap target

theorem HeapQuiet.refl (heap : List (Cell Handle Tx)) : HeapQuiet heap heap :=
  List.forall₂_same.mpr fun _ _ => ⟨.refl _, rfl⟩

theorem HeapQuiet.trans {heap middle target : List (Cell Handle Tx)} (first : HeapQuiet heap middle)
    (second : HeapQuiet middle target) :
    HeapQuiet heap target := by
  induction first generalizing target with
  | nil => exact second
  | cons head tail ih =>
    cases second with
    | cons head' tail' => exact .cons ⟨head.1.trans head'.1, head'.2.trans head.2⟩ (ih tail')

theorem HeapQuiet.set {heap : List (Cell Handle Tx)} {ref : ℕ} {cell next : Cell Handle Tx}
    (present : heap[ref]? = some cell)
    (quiet : cell.delivery.Quiet next.delivery) (resuming : next.delivery.resuming = cell.delivery.resuming) :
    HeapQuiet heap (heap.set ref next) := by
  induction heap generalizing ref with
  | nil => exact .nil
  | cons head tail ih =>
    cases ref with
    | zero =>
      cases present
      exact .cons ⟨quiet, resuming⟩ (HeapQuiet.refl tail)
    | succ ref => exact .cons ⟨.refl _, rfl⟩ (ih present)

namespace Registry

section Operations

variable {registry target : Registry Id Handle Tx} {sessions retired held unstopped : List ℕ}

/-- What reaping leaves alone. -/
structure Frame (registry target : Registry Id Handle Tx) : Prop where
  sessions : target.sessions = registry.sessions
  teardown : target.teardown = registry.teardown
  resuming : target.resuming = registry.resuming
  quiet : HeapQuiet registry.heap target.heap

theorem Frame.refl (registry : Registry Id Handle Tx) : Frame registry registry := ⟨rfl, rfl, rfl, .refl _⟩

theorem Frame.trans {middle : Registry Id Handle Tx} (first : Frame registry middle) (second : Frame middle target) :
    Frame registry target :=
  ⟨second.sessions.trans first.sessions, second.teardown.trans first.teardown, second.resuming.trans first.resuming,
    first.quiet.trans second.quiet⟩

/-- A round of reaping joins the writer of an entry and lets it go, lets it go without a writer, or keeps it. -/
theorem reapOne_held (ref : ℕ) (rest : List ℕ)
    (same : Held sessions (registry.retired ++ ref :: rest) held unstopped registry.heap) :
    Held sessions ((registry.reapOne ref).retired ++ rest) held unstopped (registry.reapOne ref).heap ∧
      Frame registry (registry.reapOne ref) := by
  have front := same.perm (.refl _) List.perm_middle.symm (.refl _)
  obtain ⟨cell, present, spent⟩ := front.spent ref List.mem_cons_self
  rw [reapOne, present]
  dsimp only
  split_ifs with none_
  · rw [Option.isNone_iff_eq_none] at none_
    exact ⟨front.drop present none_, .refl registry⟩
  · cases joined : cell.delivery.join with
    | none =>
      refine ⟨?_, rfl, rfl, rfl, .refl _⟩
      rw [List.append_assoc]
      exact same
    | some delivery =>
      have step : cell.delivery.step {} .join = some delivery := joined
      have moved := Delivery.step_cases step
      have bound := (List.getElem?_eq_some_iff.mp present).1
      cases moved with
      | join gone joinable done =>
        have reaped := front.set present
          { cell with delivery := { cell.delivery with entry := { cell.delivery.entry with writer := none } } } rfl
          (fun _ stopping => stopping) fun _ _ => rfl
        exact ⟨reaped.drop (List.getElem?_set_self bound) rfl, rfl, rfl, rfl, .set present ⟨rfl, .inr rfl⟩ rfl⟩

theorem reapLocked_held (same : Held sessions registry.retired held unstopped registry.heap) :
    Held sessions registry.reapLocked.retired held unstopped registry.reapLocked.heap ∧
      Frame registry registry.reapLocked := by
  have rounds :
      ∀ (refs : List ℕ) (registry : Registry Id Handle Tx),
        Held sessions (registry.retired ++ refs) held unstopped registry.heap →
      Held sessions (refs.foldl reapOne registry).retired held unstopped (refs.foldl reapOne registry).heap ∧
        Frame registry (refs.foldl reapOne registry) := by
    intro refs
    induction refs with
    | nil =>
      intro registry same
      rw [List.append_nil] at same
      exact ⟨same, .refl registry⟩
    | cons ref rest ih =>
      intro registry same
      obtain ⟨round, first⟩ := reapOne_held ref rest same
      obtain ⟨after, second⟩ := ih _ round
      exact ⟨after, first.trans second⟩
  obtain ⟨after, frame⟩ := rounds registry.retired { registry with retired := [] } same
  exact ⟨after, frame.sessions, frame.teardown, frame.resuming, frame.quiet⟩

/-- An id that leaves the map takes its entry along, and no other one. -/
theorem erase_perm [DecidableEq Id] {map : List (Id × ℕ)} (ids : (map.map (·.1)).Nodup) {session : Id × ℕ}
    (listed : session ∈ map) :
    (map.map (·.2)).Perm (session.2 :: (erase map session.1).map (·.2)) := by
  induction map with
  | nil => exact absurd listed List.not_mem_nil
  | cons first rest ih =>
    rw [List.map_cons, List.nodup_cons] at ids
    by_cases here : first = session
    · subst here
      have others : erase rest first.1 = rest := by
        refine List.filter_eq_self.mpr fun other member => bne_iff_ne.mpr fun same => ?_
        exact ids.1 (same ▸ List.mem_map_of_mem member)
      rw [erase, List.filter_cons_of_neg (by simp), ← erase, others]
      exact .refl _
    · have later : session ∈ rest := (List.mem_cons.mp listed).resolve_left (Ne.symm here)
      have other : first.1 ≠ session.1 := fun same => ids.1 (same ▸ List.mem_map_of_mem later)
      rw [erase, List.filter_cons_of_pos (by simpa using other), ← erase, List.map_cons, List.map_cons]
      exact ((ih ids.2 later).cons _).trans (.swap _ _ _)

/-- The entry of an id leaves the map, stopped; it is retired if it has a writer. -/
theorem leave_held [DecidableEq Id] {session : Id × ℕ} {cell next : Cell Handle Tx}
    (ids : (registry.sessions.map (·.1)).Nodup)
    (listed : session ∈ registry.sessions) (present : registry.heap[session.2]? = some cell) (spent : next.delivery.Over)
    (same : Held (registry.sessions.map (·.2)) registry.retired held unstopped registry.heap) :
    Held ((erase registry.sessions session.1).map (·.2))
      (if next.delivery.entry.writer.isSome then registry.retired ++ [session.2] else registry.retired) held unstopped
      (registry.heap.set session.2 next) := by
  have bound := (List.getElem?_eq_some_iff.mp present).1
  have taken := (same.perm (erase_perm ids listed).symm (.refl _) (.refl _)).take present spent.1 fun _ => spent.2
  have left := taken.retire (List.getElem?_set_self bound) spent
  split_ifs with manned
  · exact left.perm (.refl _) (List.perm_append_singleton _ _) (.refl _)
  · rw [Option.not_isSome_iff_eq_none] at manned
    exact left.drop (List.getElem?_set_self bound) manned

/-- The loop of `TakeExpiredLocked` over the rest of the map. -/
theorem takeRest_held [DecidableEq Id] (now : WithTop ℕ) (rest : List (Id × ℕ)) (registry : Registry Id Handle Tx)
    (claims : List (Claim Id))
    (ids : (registry.sessions.map (·.1)).Nodup) (restIds : (rest.map (·.1)).Nodup)
    (listed : ∀ session ∈ rest, session ∈ registry.sessions)
    (sound : ∀ cell ∈ registry.heap, cell.delivery.Sound)
    (same : Held (registry.sessions.map (·.2)) registry.retired held unstopped registry.heap) :
    let taken := (rest.foldl (takeOne now) (registry, claims)).1
    Held (taken.sessions.map (·.2)) taken.retired held unstopped taken.heap ∧
      (taken.teardown = registry.teardown ∧ taken.resuming = registry.resuming) ∧ HeapQuiet registry.heap taken.heap := by
  induction rest generalizing registry claims with
  | nil => exact ⟨same, ⟨rfl, rfl⟩, .refl _⟩
  | cons session rest ih =>
    rw [List.map_cons, List.nodup_cons] at restIds
    have later : ∀ other ∈ rest, other ∈ registry.sessions :=
      fun other member => listed other (List.mem_cons_of_mem _ member)
    rw [List.foldl_cons]
    have stay (skipped : takeOne now (registry, claims) session = (registry, claims)) := by
      have after := ih registry claims ids restIds.2 later sound same
      rw [← skipped] at after
      exact after
    cases present : registry.heap[session.2]? with
    | none => exact stay (by rw [takeOne, present])
    | some cell =>
      cases expired : cell.delivery.expire now with
      | none => exact stay (by simp only [takeOne, present, expired])
      | some delivery =>
        have step : cell.delivery.step {} (.expire now) = some delivery := expired
        have before := sound cell (List.mem_of_getElem? present)
        have moved := Delivery.step_cases step
        have spent : delivery.Over ∧ cell.delivery.Quiet delivery ∧ delivery.resuming = cell.delivery.resuming := by
          cases moved with
          | expire registered unlocked detached late => exact ⟨⟨rfl, before.parked detached⟩, .refl _, rfl⟩
        obtain ⟨spent, quiet, resuming⟩ := spent
        have gone : ({ delivery, episode := none } : Cell Handle Tx).delivery.Over := spent
        have left := leave_held ids (listed session List.mem_cons_self) present gone same
        have others : ∀ other ∈ rest, other ∈ erase registry.sessions session.1 := by
          intro other member
          refine List.mem_filter.mpr ⟨later other member, bne_iff_ne.mpr fun same => ?_⟩
          exact restIds.1 (same ▸ List.mem_map_of_mem member)
        have after := ih
          { registry.finish session.2 cell delivery .expired with
            sessions := erase registry.sessions session.1
            retired := if delivery.entry.writer.isSome then registry.retired ++ [session.2] else registry.retired }
          (claims ++ [⟨session.1, session.2, cell.episode⟩]) (ids.sublist (List.filter_sublist.map _)) restIds.2 others
          (by
            intro other member
            rcases List.mem_or_eq_of_mem_set member with member | rfl
            · exact sound other member
            · exact before.step moved) left
        have round : takeOne now (registry, claims) session =
            ({ registry.finish session.2 cell delivery .expired with
                sessions := erase registry.sessions session.1
                retired := if delivery.entry.writer.isSome then registry.retired ++ [session.2] else registry.retired },
              claims ++ [⟨session.1, session.2, cell.episode⟩]) := by
          simp only [takeOne, present, expired, finish]
        rw [round]
        exact ⟨after.1, after.2.1, (HeapQuiet.set present quiet resuming).trans after.2.2⟩

theorem takeExpiredLocked_held [DecidableEq Id] (now : WithTop ℕ) (ids : (registry.sessions.map (·.1)).Nodup)
    (sound : ∀ cell ∈ registry.heap, cell.delivery.Sound)
    (same : Held (registry.sessions.map (·.2)) registry.retired held unstopped registry.heap) :
    let taken := (registry.takeExpiredLocked now).1
    Held (taken.sessions.map (·.2)) taken.retired held unstopped taken.heap ∧
      (taken.teardown = registry.teardown ∧ taken.resuming = registry.resuming) ∧ HeapQuiet registry.heap taken.heap := by
  have loop := takeRest_held now registry.sessions registry [] ids ids (fun _ member => member) sound same
  rw [takeExpiredLocked]
  dsimp only
  split_ifs
  · exact loop
  · obtain ⟨taken, ⟨teardown, resuming⟩, quiet⟩ := loop
    obtain ⟨reaped, frame⟩ := reapLocked_held taken
    exact ⟨frame.sessions ▸ reaped, ⟨frame.teardown.trans teardown, frame.resuming.trans resuming⟩, quiet.trans frame.quiet⟩

/-- The destructor's loop over the map: no `Resume` is waiting, so every entry leaves. -/
theorem collect_held (rest : List (Id × ℕ)) (registry : Registry Id Handle Tx)
    (free : ∀ cell ∈ registry.heap, cell.delivery.resuming = none) (within : ∀ session ∈ rest, session.2 ∈ unstopped)
    (same : Held (rest.map (·.2)) registry.retired held unstopped registry.heap) :
    Held [] registry.retired ((rest.map (·.2)).reverse ++ held) unstopped (rest.foldl collectOne registry).heap ∧
      HeapQuiet registry.heap (rest.foldl collectOne registry).heap := by
  induction rest generalizing registry held with
  | nil => exact ⟨same, .refl _⟩
  | cons session rest ih =>
    obtain ⟨cell, present, registered⟩ := same.listed session.2 List.mem_cons_self
    have idle := free cell (List.mem_of_getElem? present)
    have moved :
        registry.collectOne session = registry.update session.2 cell { cell.delivery with registered := false } := by
      have reachable := (Delivery.reachable_iff cell.delivery).mpr ⟨registered, idle⟩
      simp only [collectOne, present, Delivery.unregister, reachable, if_true]
    have here := within session List.mem_cons_self
    have next :
      ({ cell with delivery := { cell.delivery with registered := false } } : Cell Handle Tx).delivery.registered = false :=
        rfl
    have taken := same.take present next fun fresh => absurd here fresh
    rw [List.foldl_cons, moved]
    have after := ih (registry.update session.2 cell { cell.delivery with registered := false })
      (by
        intro other member
        rcases List.mem_or_eq_of_mem_set member with member | rfl
        · exact free other member
        · exact idle)
      (fun other member => within other (List.mem_cons_of_mem _ member)) taken
    have first : HeapQuiet registry.heap (registry.update session.2 cell { cell.delivery with registered := false }).heap :=
      HeapQuiet.set present (.refl _) rfl
    refine ⟨?_, first.trans after.2⟩
    rw [List.map_cons, List.reverse_cons, List.append_assoc]
    exact after.1

theorem collect_resuming (sessions : List (Id × ℕ)) (registry : Registry Id Handle Tx) :
    (sessions.foldl collectOne registry).resuming = registry.resuming := by
  induction sessions generalizing registry with
  | nil => rfl
  | cons session rest ih =>
    rw [List.foldl_cons, ih, collectOne]
    repeat' split
    all_goals rfl

end Operations

end Registry

/-! ## Steps of the registry -/

/-- The entries the destructor has taken out of the map. -/
def TeardownPc.held : TeardownPc Id → List ℕ
  | .stop _ all => all
  | .join refs => refs
  | _ => []

/-- Those it has not stopped yet. -/
def TeardownPc.unstopped : TeardownPc Id → List ℕ
  | .stop refs _ => refs
  | _ => []

/-- The destructor has taken the entries out of the map. -/
def TeardownPc.collected : TeardownPc Id → Bool
  | .stop _ _ | .join _ => true
  | _ => false

/-- The step fires a claim or moves a thread on. -/
def RegistryLabel.isQuiet : RegistryLabel Id Handle Tx → Bool
  | .expiryFire | .expiryExit | .drainFire _ | .destroy | .destroyJoinExpiry | .destroyFire => true
  | _ => false

/-- A cell of a step's heap is an old one, with a writer more at most, or a new entry. -/
structure Turned (heap target : List (Cell Handle Tx)) : Prop where
  old : ∀ (ref : ℕ) (cell : Cell Handle Tx), heap[ref]? = some cell → ∃ next : Cell Handle Tx, target[ref]? = some next ∧
    (cell.delivery.Quiet next.delivery ∨ cell.delivery.Spawned next.delivery)
  new : ∀ (ref : ℕ) (next : Cell Handle Tx), heap[ref]? = none → target[ref]? = some next → ∃ options handle supportsAsync,
    next.delivery = Delivery.added options handle supportsAsync

theorem HeapQuiet.getElem? {heap target : List (Cell Handle Tx)} (quiet : HeapQuiet heap target) (ref : ℕ) :
    (heap[ref]? = none ∧ target[ref]? = none) ∨ ∃ cell next, heap[ref]? = some cell ∧ target[ref]? = some next ∧
      cell.delivery.Quiet next.delivery ∧ next.delivery.resuming = cell.delivery.resuming := by
  induction quiet generalizing ref with
  | nil => exact .inl ⟨rfl, rfl⟩
  | cons head tail ih =>
    cases ref with
    | zero => exact .inr ⟨_, _, rfl, rfl, head⟩
    | succ ref => exact ih ref

theorem HeapQuiet.turned {heap target : List (Cell Handle Tx)} (quiet : HeapQuiet heap target) : Turned heap target where
  old ref cell present := by
    rcases quiet.getElem? ref with ⟨none_, -⟩ | ⟨found, next, read, after, same, -⟩
    · rw [present] at none_
      cases none_
    · rw [present] at read
      cases read
      exact ⟨next, after, .inl same⟩
  new ref next absent present := by
    rcases quiet.getElem? ref with ⟨-, none_⟩ | ⟨found, _, read, -⟩
    · rw [present] at none_
      cases none_
    · rw [absent] at read
      cases read

theorem Turned.set {heap : List (Cell Handle Tx)} {ref : ℕ} {cell next : Cell Handle Tx} (present : heap[ref]? = some cell)
    (turned : cell.delivery.Quiet next.delivery ∨ cell.delivery.Spawned next.delivery) :
    Turned heap (heap.set ref next) where
  old other found read := by
    by_cases here : ref = other
    · subst here
      rw [present] at read
      cases read
      exact ⟨next, List.getElem?_set_self (List.getElem?_eq_some_iff.mp present).1, turned⟩
    · exact ⟨found, (List.getElem?_set_ne here).trans read, .inl (.refl _)⟩
  new other found absent read := by
    rcases Held.getElem?_set_cases read with ⟨rfl, -⟩ | ⟨-, read⟩
    · rw [present] at absent
      cases absent
    · rw [absent] at read
      cases read

namespace Registry

/-- Every entry that may have a writer is held, and only the entry whose `Resume` holds the registry lock waits for one. -/
structure Custody (registry : Registry Id Handle Tx) : Prop where
  held : Held (registry.sessions.map (·.2)) registry.retired registry.teardown.held registry.teardown.unstopped registry.heap
  locked : ∀ ref cell, registry.heap[ref]? = some cell → cell.delivery.resuming ≠ none → registry.resuming = some ref

section Steps

variable {options : Options} {registry target : Registry Id Handle Tx}

/-- A step without a new waiter keeps the lock to those who wait. -/
theorem locked_of_quiet (quiet : HeapQuiet registry.heap target.heap) (same : target.resuming = registry.resuming)
    (locked : ∀ ref cell, registry.heap[ref]? = some cell → cell.delivery.resuming ≠ none → registry.resuming = some ref) :
    ∀ ref cell, target.heap[ref]? = some cell → cell.delivery.resuming ≠ none → target.resuming = some ref := by
  intro ref next present waiting
  rcases quiet.getElem? ref with ⟨-, none_⟩ | ⟨cell, found, read, after, -, kept⟩
  · rw [present] at none_
    cases none_
  · rw [present] at after
    cases after
    rw [same]
    exact locked ref cell read (kept ▸ waiting)

/-- An entry moves on, and its lock stays with who has it. -/
theorem Custody.set (custody : registry.Custody) {ref : ℕ} {cell : Cell Handle Tx}
    (present : registry.heap[ref]? = some cell)
    (next : Cell Handle Tx) (kept : next.delivery.registered = cell.delivery.registered ∧
      next.delivery.resuming = cell.delivery.resuming)
    (stopped : cell.delivery.registered = false → cell.delivery.entry.stopping = true → next.delivery.entry.stopping = true)
    (unmanned : cell.delivery.Over → cell.delivery.entry.writer = none → next.delivery.entry.writer = none) :
    ({ registry with heap := registry.heap.set ref next } : Registry Id Handle Tx).Custody where
  held := custody.held.set present next kept.1 stopped unmanned
  locked other found read waiting := by
    rcases Held.getElem?_set_cases read with ⟨rfl, rfl⟩ | ⟨-, read⟩
    · exact custody.locked other cell present (kept.2 ▸ waiting)
    · exact custody.locked other found read waiting

theorem entry_custody (custody : registry.Custody) (sound : ∀ cell ∈ registry.heap, cell.delivery.Sound) {ref : ℕ}
    {label : DeliveryLabel Handle Tx} (run : registry.entry options ref label = some target) :
    target.Custody ∧ Turned registry.heap target.heap := by
  rw [entry] at run
  split_ifs at run with internal
  obtain ⟨cell, present, run⟩ := Option.bind_eq_some_iff.mp run
  obtain ⟨delivery, moved, rfl⟩ := Option.map_eq_some_iff.mp run
  have step := Delivery.step_cases moved
  have before := sound cell (List.mem_of_getElem? present)
  refine ⟨custody.set present { cell with delivery } (Delivery.registered_internal internal step) ?_ ?_,
    .set present (Delivery.step_writer step)⟩
  · exact fun gone stopping => (Delivery.Over.step ⟨gone, stopping⟩ before step).1.2
  · intro spent alone
    rcases (spent.step before step).2.2 with same | none_
    · exact same.trans alone
    · exact none_

theorem resumeFinish_custody (custody : registry.Custody) (sound : ∀ cell ∈ registry.heap, cell.delivery.Sound)
    (run : registry.resumeFinish = some target) : target.Custody ∧ Turned registry.heap target.heap := by
  obtain ⟨ref, holder, run⟩ := Option.bind_eq_some_iff.mp run
  obtain ⟨cell, present, run⟩ := Option.bind_eq_some_iff.mp run
  obtain ⟨delivery, moved, rfl⟩ := Option.map_eq_some_iff.mp run
  have step : Delivery.Step {} cell.delivery .resumeFinish delivery := Delivery.step_cases moved
  have before := sound cell (List.mem_of_getElem? present)
  have kept : delivery.registered = cell.delivery.registered ∧ delivery.resuming = none := by
    cases step <;> exact ⟨rfl, rfl⟩
  have held := custody.held.set present { delivery, episode := none } kept.1
    (fun gone stopping => (Delivery.Over.step ⟨gone, stopping⟩ before step).1.2)
    (fun spent alone => (spent.step before step).2.2.elim (fun same => same.trans alone) fun none_ => none_)
  refine ⟨⟨held, fun other found read waiting => ?_⟩, .set present (Delivery.step_writer step)⟩
  rcases Held.getElem?_set_cases read with ⟨rfl, rfl⟩ | ⟨here, read⟩
  · exact absurd kept.2 waiting
  · have owner := custody.locked other found read waiting
    rw [holder] at owner
    exact absurd (Option.some.inj owner).symm here

theorem Custody.reap (custody : registry.Custody) :
    registry.reapLocked.Custody ∧ HeapQuiet registry.heap registry.reapLocked.heap := by
  obtain ⟨reaped, frame⟩ := reapLocked_held custody.held
  rw [← frame.sessions, ← frame.teardown] at reaped
  exact ⟨⟨reaped, locked_of_quiet frame.quiet frame.resuming custody.locked⟩, frame.quiet⟩

variable [LinearOrder Id]

theorem add_custody (custody : registry.Custody) (id : Id) (handle : Handle) (supportsAsync : Bool) :
    (registry.add options id handle supportsAsync).1.Custody ∧
      Turned registry.heap (registry.add options id handle supportsAsync).1.heap := by
  obtain ⟨reaped, quiet⟩ := custody.reap
  rw [add]
  split
  · exact ⟨reaped, quiet.turned⟩
  · have fresh : ({ delivery := .added options handle supportsAsync } : Cell Handle Tx).delivery.registered = true := rfl
    have order := (List.perm_orderedInsert (fun first second : Id × ℕ => first.1 ≤ second.1)
      (id, registry.reapLocked.heap.length) registry.reapLocked.sessions).map (·.2)
    refine ⟨⟨(reaped.held.add fresh).perm order (.refl _) (.refl _), ?_⟩, ?_, ?_⟩
    · intro ref found read waiting
      dsimp only at read
      rw [List.getElem?_append] at read
      split_ifs at read with bound
      · exact reaped.locked ref found read waiting
      · have last := List.mem_singleton.mp (List.mem_of_getElem? read)
        rw [last] at waiting
        exact absurd rfl waiting
    · intro ref cell present
      obtain ⟨next, read, turned⟩ := quiet.turned.old ref cell present
      have bound := (List.getElem?_eq_some_iff.mp read).1
      exact ⟨next, (List.getElem?_append_left bound).trans read, turned⟩
    · intro ref next absent read
      dsimp only at read
      rw [List.getElem?_append] at read
      split_ifs at read with bound
      · exact quiet.turned.new ref next absent read
      · have last := List.mem_singleton.mp (List.mem_of_getElem? read)
        rw [last]
        exact ⟨options, handle, supportsAsync, rfl⟩

theorem remove_custody (custody : registry.Custody) (ids : (registry.sessions.map (·.1)).Nodup) (id : Id) :
    (registry.remove id).1.Custody ∧ Turned registry.heap (registry.remove id).1.heap := by
  rw [remove]
  split
  · exact ⟨custody, (HeapQuiet.refl _).turned⟩
  · next ref found =>
    split
    · exact ⟨custody, (HeapQuiet.refl _).turned⟩
    · next cell present =>
      split
      · exact ⟨custody, (HeapQuiet.refl _).turned⟩
      · next delivery moved =>
        have step : Delivery.Step {} cell.delivery .remove delivery := Delivery.step_cases moved
        have facts : delivery.Over ∧ cell.delivery.Quiet delivery ∧ delivery.resuming = cell.delivery.resuming := by
          cases step
          exact ⟨⟨rfl, rfl⟩, .refl _, rfl⟩
        obtain ⟨spent, quiet, resuming⟩ := facts
        have gone : ({ delivery, episode := none } : Cell Handle Tx).delivery.Over := spent
        have left := leave_held ids (mem_of_lookup found) present gone custody.held
        have first : HeapQuiet registry.heap (registry.heap.set ref { delivery, episode := none }) :=
          HeapQuiet.set present quiet resuming
        have middle : ({ registry.finish ref cell delivery .removed with
            sessions := erase registry.sessions id
            retired := if delivery.entry.writer.isSome then registry.retired ++ [ref] else registry.retired } :
            Registry Id Handle Tx).Custody := ⟨left, locked_of_quiet first rfl custody.locked⟩
        obtain ⟨reaped, quiet⟩ := middle.reap
        exact ⟨reaped, (first.trans quiet).turned⟩

omit [LinearOrder Id] in
theorem armExpiryLocked_custody (custody : registry.Custody) :
    registry.armExpiryLocked.Custody ∧ registry.armExpiryLocked.heap = registry.heap := by
  rw [armExpiryLocked]
  split
  · exact ⟨⟨custody.held, custody.locked⟩, rfl⟩
  · exact ⟨custody, rfl⟩

theorem detach_custody (custody : registry.Custody) (id : Id) (now : ℕ) :
    (registry.detach options id now).1.Custody ∧ Turned registry.heap (registry.detach options id now).1.heap := by
  rw [detach]
  split
  · exact ⟨custody, (HeapQuiet.refl _).turned⟩
  · next ref found =>
    split
    · exact ⟨custody, (HeapQuiet.refl _).turned⟩
    · next cell present =>
      split
      · exact ⟨custody, (HeapQuiet.refl _).turned⟩
      · next delivery moved =>
        have step : Delivery.Step options cell.delivery (.detach now) delivery := Delivery.step_cases moved
        have facts : (delivery.registered = cell.delivery.registered ∧ delivery.resuming = cell.delivery.resuming) ∧
            delivery.entry.stopping = true ∧ delivery.entry.writer = cell.delivery.entry.writer := by
          cases step
          exact ⟨⟨rfl, rfl⟩, rfl, rfl⟩
        obtain ⟨kept, stopping, writer⟩ := facts
        have parked : ({ registry with
            heap := registry.heap.set ref { delivery, episode := some registry.detaches.length }
            detaches := registry.detaches ++ [id] } : Registry Id Handle Tx).Custody := by
          have moved := custody.set present { delivery, episode := some registry.detaches.length } kept (fun _ _ => stopping)
            fun _ alone => writer.trans alone
          exact ⟨moved.held, moved.locked⟩
        obtain ⟨armed, same⟩ := armExpiryLocked_custody parked
        refine ⟨armed, ?_⟩
        rw [same]
        exact .set present (Delivery.step_writer step)

theorem resume_custody (custody : registry.Custody) (free : registry.resuming = none) (id : Id) (handle : Handle)
    (supportsAsync : Bool)
    (now : ℕ) : (registry.resume options id handle supportsAsync now).Custody ∧
      Turned registry.heap (registry.resume options id handle supportsAsync now).heap := by
  rw [resume]
  split
  · exact ⟨custody, (HeapQuiet.refl _).turned⟩
  · next ref found =>
    split
    · exact ⟨custody, (HeapQuiet.refl _).turned⟩
    · next cell present =>
      split
      · exact ⟨custody, (HeapQuiet.refl _).turned⟩
      · next delivery moved =>
        have step : Delivery.Step options cell.delivery (.resume handle supportsAsync now) delivery :=
          Delivery.step_cases moved
        have facts : delivery.registered = cell.delivery.registered ∧ delivery.entry = cell.delivery.entry := by
          cases step
          exact ⟨rfl, rfl⟩
        obtain ⟨kept, entry⟩ := facts
        have held := custody.held.set present { cell with delivery } kept (fun _ stopping => entry ▸ stopping)
          fun _ alone => entry ▸ alone
        refine ⟨⟨held, fun other found read waiting => ?_⟩, .set present (Delivery.step_writer step)⟩
        rcases Held.getElem?_set_cases read with ⟨rfl, -⟩ | ⟨-, read⟩
        · rfl
        · have owner := custody.locked other found read waiting
          rw [free] at owner
          cases owner

theorem takeExpired_custody (custody : registry.Custody) (ids : (registry.sessions.map (·.1)).Nodup)
    (sound : ∀ cell ∈ registry.heap, cell.delivery.Sound) (now : WithTop ℕ) :
    (registry.takeExpiredLocked now).1.Custody ∧ HeapQuiet registry.heap (registry.takeExpiredLocked now).1.heap := by
  obtain ⟨taken, ⟨teardown, resuming⟩, quiet⟩ := takeExpiredLocked_held now ids sound custody.held
  rw [← teardown] at taken
  exact ⟨⟨taken, locked_of_quiet quiet resuming custody.locked⟩, quiet⟩

omit [LinearOrder Id] in
theorem destroyCollect_custody (custody : registry.Custody) (free : registry.resuming = none)
    (run : registry.destroyCollect = some target) : target.Custody ∧ Turned registry.heap target.heap := by
  rw [destroyCollect] at run
  split at run
  · next firing =>
    cases run
    have idle : ∀ cell ∈ registry.heap, cell.delivery.resuming = none := by
      intro cell member
      obtain ⟨ref, read⟩ := List.mem_iff_getElem?.mp member
      by_contra waiting
      have owner := custody.locked ref cell read waiting
      rw [free] at owner
      cases owner
    have start := custody.held
    rw [firing] at start
    have all : [] ⊆ registry.sessions.map (·.2) ++ registry.retired := List.nil_subset _
    obtain ⟨taken, quiet⟩ := collect_held registry.sessions registry idle
      (fun session member => List.mem_append_left _ (List.mem_map_of_mem member)) (start.weaken all)
    have fresh : (TeardownPc.firing ([] : List (Claim Id))).held = [] := rfl
    rw [fresh, List.append_nil] at taken
    have merged := taken.merge.perm (.refl _) (.refl _) ((List.reverse_perm _).symm.append_right _)
    exact ⟨⟨merged, locked_of_quiet quiet (collect_resuming registry.sessions registry) custody.locked⟩, quiet.turned⟩
  · cases run

omit [LinearOrder Id] in
theorem destroyStop_custody (custody : registry.Custody) (run : registry.destroyStop = some target) :
    target.Custody ∧ Turned registry.heap target.heap := by
  rw [destroyStop] at run
  have start := custody.held
  split at run
  · next ref rest all stopping =>
    rw [stopping] at start
    split at run
    · next absent =>
      cases run
      have before : Held (registry.sessions.map (·.2)) registry.retired all (ref :: rest) registry.heap := start
      have stopped := before.stopped fun cell present => by
        rw [absent] at present
        cases present
      exact ⟨⟨stopped, custody.locked⟩, (HeapQuiet.refl _).turned⟩
    · next cell present =>
      obtain ⟨delivery, moved, rfl⟩ := Option.map_eq_some_iff.mp run
      have step : Delivery.Step {} cell.delivery .requestStop delivery := Delivery.step_cases moved
      have facts : (delivery.registered = cell.delivery.registered ∧ delivery.resuming = cell.delivery.resuming) ∧
          delivery.entry.stopping = true ∧ delivery.entry.writer = cell.delivery.entry.writer := by
        cases step
        exact ⟨⟨rfl, rfl⟩, rfl, rfl⟩
      obtain ⟨kept, halted, writer⟩ := facts
      have bound := (List.getElem?_eq_some_iff.mp present).1
      have moved := custody.set present { cell with delivery } kept (fun _ _ => halted) fun _ alone => writer.trans alone
      have start := moved.held
      dsimp only at start
      rw [stopping] at start
      have before : Held (registry.sessions.map (·.2)) registry.retired all (ref :: rest)
        (registry.heap.set ref { cell with delivery }) := start
      have stopped := before.stopped fun found read => by
        rw [List.getElem?_set_self bound] at read
        cases read
        exact halted
      exact ⟨⟨stopped, moved.locked⟩, .set present (Delivery.step_writer step)⟩
  · next all stopping =>
    cases run
    rw [stopping] at start
    exact ⟨⟨start, custody.locked⟩, (HeapQuiet.refl _).turned⟩
  · cases run

omit [LinearOrder Id] in
theorem destroyJoin_custody (custody : registry.Custody) (run : registry.destroyJoin = some target) :
    target.Custody ∧ Turned registry.heap target.heap := by
  rw [destroyJoin] at run
  have start := custody.held
  split at run
  · next ref rest joining =>
    rw [joining] at start
    obtain ⟨cell, present, left, halted⟩ := start.taken ref List.mem_cons_self
    rw [present] at run
    have spent : cell.delivery.Over := ⟨left, halted List.not_mem_nil⟩
    dsimp only at run
    split_ifs at run with alone
    · cases run
      rw [Option.isNone_iff_eq_none] at alone
      exact ⟨⟨(start.retire present spent).drop present alone, custody.locked⟩, (HeapQuiet.refl _).turned⟩
    · obtain ⟨delivery, moved, rfl⟩ := Option.map_eq_some_iff.mp run
      have step : Delivery.Step {} cell.delivery .join delivery := Delivery.step_cases moved
      have facts : (delivery.registered = cell.delivery.registered ∧ delivery.resuming = cell.delivery.resuming) ∧
          delivery.entry.stopping = cell.delivery.entry.stopping ∧ delivery.entry.writer = none := by
        cases step
        exact ⟨⟨rfl, rfl⟩, rfl, rfl⟩
      obtain ⟨kept, same, writer⟩ := facts
      have bound := (List.getElem?_eq_some_iff.mp present).1
      have moved := custody.set present { cell with delivery } kept (fun _ stopping => same.trans stopping) fun _ _ => writer
      have start := moved.held
      dsimp only at start
      rw [joining] at start
      have after : delivery.Over := ⟨kept.1.trans spent.1, same.trans spent.2⟩
      have dropped := (Held.retire start (List.getElem?_set_self bound) after).drop (List.getElem?_set_self bound) writer
      exact ⟨⟨dropped, moved.locked⟩, .set present (Delivery.step_writer step)⟩
  · cases run

/-- What a quiet step leaves as it is: the entries, and who holds them. -/
structure Still (registry target : Registry Id Handle Tx) : Prop where
  sessions : target.sessions = registry.sessions
  retired : target.retired = registry.retired
  heap : target.heap = registry.heap
  resuming : target.resuming = registry.resuming
  held : target.teardown.held = registry.teardown.held
  unstopped : target.teardown.unstopped = registry.teardown.unstopped
  collected : target.teardown.collected = registry.teardown.collected

omit [LinearOrder Id] in
theorem still_fire (claim : Claim Id) : Still registry (registry.fire options claim) := by
  rw [Registry.fire]
  split_ifs <;> exact ⟨rfl, rfl, rfl, rfl, rfl, rfl, rfl⟩

theorem still_of_quiet {label : RegistryLabel Id Handle Tx} (quiet : label.isQuiet = true)
    (run : registry.step options label = some target) : Still registry target := by
  cases label with
  | expiryFire =>
    have fires : registry.expiryFire options = some target := run
    rw [expiryFire] at fires
    split at fires
    · cases fires
      exact ⟨rfl, rfl, rfl, rfl, rfl, rfl, rfl⟩
    · next claim rest firing =>
      cases fires
      exact { @still_fire _ _ _ options registry claim with }
    · cases fires
  | expiryExit =>
    have exits := (locking_eq_some run).2
    rw [expiryExit] at exits
    split at exits
    · split_ifs at exits
      cases exits
      exact ⟨rfl, rfl, rfl, rfl, rfl, rfl, rfl⟩
    · cases exits
  | drainFire caller =>
    have fires : registry.drainFire options caller = some target := run
    rw [drainFire] at fires
    split at fires
    · next claim rest firing =>
      cases fires
      exact { @still_fire _ _ _ options registry claim with }
    · cases fires
  | destroy =>
    have stops := (locking_eq_some run).2
    rw [destroy] at stops
    split at stops
    · next alive =>
      cases stops
      constructor <;> first | rfl | (rw [alive]; rfl)
    · cases stops
  | destroyJoinExpiry =>
    have joins : registry.destroyJoinExpiry = some target := run
    rw [destroyJoinExpiry.eq_def] at joins
    split at joins
    iterate 2
      · next stopping _ =>
        cases joins
        constructor <;> first | rfl | (rw [stopping]; rfl)
    · cases joins
  | destroyFire =>
    have fires : registry.destroyFire options = some target := run
    rw [destroyFire] at fires
    split at fires
    · next claim rest firing =>
      cases fires
      refine { @still_fire _ _ _ options registry claim with held := ?_, unstopped := ?_, collected := ?_ } <;>
        (rw [firing]; rfl)
    · cases fires
  | _ => cases quiet

/-- Every step keeps who holds what, and starts a writer for one entry at most. -/
theorem Custody.step (custody : registry.Custody) (ids : (registry.sessions.map (·.1)).Nodup)
    (sound : ∀ cell ∈ registry.heap, cell.delivery.Sound) {label : RegistryLabel Id Handle Tx}
    (run : registry.step options label = some target) : target.Custody ∧ Turned registry.heap target.heap := by
  cases label with
  | add id handle supportsAsync =>
    cases (locking_eq_some run).2
    exact add_custody custody id handle supportsAsync
  | remove id =>
    cases (locking_eq_some run).2
    exact remove_custody custody ids id
  | detach id now =>
    cases (locking_eq_some run).2
    exact detach_custody custody id now
  | resume id handle supportsAsync now =>
    obtain ⟨free, run⟩ := locking_eq_some run
    cases run
    exact resume_custody custody free id handle supportsAsync now
  | resumeFinish => exact resumeFinish_custody custody sound run
  | entry ref label => exact entry_custody custody sound run
  | expiryTake now =>
    have takes := (locking_eq_some run).2
    rw [expiryTake] at takes
    split at takes
    · split_ifs at takes
      obtain ⟨taken, quiet⟩ := takeExpired_custody custody ids sound (now : WithTop ℕ)
      generalize registry.takeExpiredLocked now = pair at takes taken quiet
      obtain ⟨next, claims⟩ := pair
      cases claims with
      | nil =>
        cases takes
        exact ⟨custody, (HeapQuiet.refl _).turned⟩
      | cons claim rest =>
        cases takes
        exact ⟨⟨taken.held, taken.locked⟩, quiet.turned⟩
    · cases takes
  | expiryFire | expiryExit | drainFire | destroy | destroyJoinExpiry | destroyFire =>
    have still := still_of_quiet rfl run
    rw [still.heap]
    refine ⟨⟨?_, ?_⟩, (HeapQuiet.refl _).turned⟩
    · rw [still.sessions, still.retired, still.heap, still.held, still.unstopped]
      exact custody.held
    · rw [still.heap, still.resuming]
      exact custody.locked
  | drain =>
    cases (locking_eq_some run).2
    obtain ⟨taken, quiet⟩ := takeExpired_custody custody ids sound ⊤
    exact ⟨⟨taken.held, taken.locked⟩, quiet.turned⟩
  | destroyExpire =>
    have expires := (locking_eq_some run).2
    rw [destroyExpire] at expires
    split at expires
    · next expiring =>
      cases expires
      obtain ⟨taken, quiet⟩ := takeExpired_custody custody ids sound ⊤
      have teardown := (takeExpiredLocked_held ⊤ ids sound custody.held).2.1.1
      have held := taken.held
      rw [teardown, expiring] at held
      exact ⟨⟨held, taken.locked⟩, quiet.turned⟩
    · cases expires
  | destroyCollect =>
    obtain ⟨free, run⟩ := locking_eq_some run
    exact destroyCollect_custody custody free run
  | destroyStop => exact destroyStop_custody custody run
  | destroyJoin => exact destroyJoin_custody custody run

end Steps

end Registry

end OpalCpp.Server

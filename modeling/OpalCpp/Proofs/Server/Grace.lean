import OpalCpp.Proofs.Server.RegistrySteps
import Mathlib.Data.List.Range

/-! # Reconnect grace is settled exactly once

Every episode that a detach has opened is either the one its entry is in or stands exactly once in
the record of endings, as a resume, a removal or an expiry claim. The claims are in the record in
the order they were made, each with the id and the episode it claimed, and each is fired once or
still to be fired. An attached entry is in no episode, so no claim takes it, whatever the clock.
-/

namespace OpalCpp.Server

namespace Core

variable {Id Handle Tx : Type*}

/-- The record of episodes is complete, given the claims made so far. -/
structure Settled (core : Core Id Handle Tx) (claims : List (Claim Id)) : Prop where
  ids : (core.sessions.map (·.1)).Nodup
  refs : (core.sessions.map (·.2)).Nodup
  /-- A registered entry is in an episode exactly while it is detached, an episode of its own id. -/
  listed : ∀ session ∈ core.sessions, ∃ cell, core.heap[session.2]? = some cell ∧
    (cell.delivery.entry.detached = true ↔ cell.episode.isSome = true) ∧
    ∀ episode ∈ cell.episode, core.detaches[episode]? = some session.1
  episodes : (core.ended.map (·.1) ++ core.heap.filterMap (·.episode)).Perm (List.range core.detaches.length)
  claimed : claims.map (·.episode) = (core.ended.filter (·.2 == .expired)).map fun ending => some ending.1
  named : ∀ claim ∈ claims, ∀ episode ∈ claim.episode, core.detaches[episode]? = some claim.id

variable {options : Options} {core target : Core Id Handle Tx} {claims more : List (Claim Id)}

/-- The session found by its reference is the only one. -/
theorem Settled.session_eq (settled : core.Settled claims) {first second : Id × ℕ}
    (one : first ∈ core.sessions) (other : second ∈ core.sessions) (same : first.2 = second.2) :
    first = second :=
  List.inj_on_of_nodup_map settled.refs one other same

/-- Ending an episode moves its number from the heap to the record. -/
private theorem episodes_finish (settled : core.Settled claims) {ref : ℕ} {cell : Cell Handle Tx}
    (present : core.heap[ref]? = some cell) (delivery : Delivery Handle Tx) (ending : Ending) :
    ((core.finish ref cell delivery ending).ended.map (·.1) ++
      (core.finish ref cell delivery ending).heap.filterMap (·.episode)).Perm
      (List.range core.detaches.length) := by
  obtain ⟨before, after, old, new⟩ := filterMap_set (·.episode) present
  have episodes := settled.episodes
  simp only [finish, new, List.map_append, List.map_map]
  rw [old] at episodes
  refine List.Perm.trans ?_ episodes
  have same : cell.episode.toList.map (Prod.fst ∘ (·, ending)) = cell.episode.toList := by
    cases cell.episode <;> rfl
  simp only [same, Option.toList_none, List.append_nil, List.append_assoc]
  apply List.Perm.append_left _
  rw [← List.append_assoc, ← List.append_assoc]
  exact List.perm_append_comm.append_right _

private theorem settled_entry (settled : core.Settled claims) {ref : ℕ} {cell : Cell Handle Tx}
    {delivery : Delivery Handle Tx} (present : core.heap[ref]? = some cell)
    (same : delivery.entry.detached = cell.delivery.entry.detached) :
    Settled { core with heap := core.heap.set ref { cell with delivery } } claims where
  ids := settled.ids
  refs := settled.refs
  listed := by
    intro session member
    obtain ⟨listed, read, detached, named⟩ := settled.listed session member
    by_cases here : ref = session.2
    · subst here
      rw [present] at read
      cases read
      have bound := (List.getElem?_eq_some_iff.mp present).1
      exact ⟨{ cell with delivery }, List.getElem?_set_self bound, by rwa [same], named⟩
    · exact ⟨listed, (List.getElem?_set_ne here).trans read, detached, named⟩
  episodes := by
    obtain ⟨before, after, old, new⟩ := filterMap_set (·.episode) present
    have episodes := settled.episodes
    rw [old] at episodes
    simpa only [new] using episodes
  claimed := settled.claimed
  named := settled.named

private theorem settled_detached (settled : core.Settled claims) {id : Id} {ref : ℕ} {cell : Cell Handle Tx}
    {delivery : Delivery Handle Tx} (listed : (id, ref) ∈ core.sessions)
    (present : core.heap[ref]? = some cell) (attached : cell.delivery.entry.detached = false)
    (parked : delivery.entry.detached = true) :
    Settled { core with
      heap := core.heap.set ref { delivery, episode := some core.detaches.length }
      detaches := core.detaches ++ [id] } claims where
  ids := settled.ids
  refs := settled.refs
  listed := by
    intro session member
    by_cases here : ref = session.2
    · have bound := (List.getElem?_eq_some_iff.mp present).1
      have same : (id, ref) = session := settled.session_eq listed member here
      subst same
      refine ⟨_, List.getElem?_set_self bound, by simp [parked], ?_⟩
      intro episode opened
      rw [← Option.some.inj opened]
      exact List.getElem?_concat_length ..
    · obtain ⟨other, read, detached, named⟩ := settled.listed session member
      refine ⟨other, (List.getElem?_set_ne here).trans read, detached, fun episode inside => ?_⟩
      exact List.getElem?_append_left (List.getElem?_eq_some_iff.mp (named episode inside)).1 ▸
        named episode inside
  episodes := by
    obtain ⟨other, read, detached, _⟩ := settled.listed (id, ref) listed
    rw [present] at read
    cases read
    have none : cell.episode = none := by
      rw [attached] at detached
      simpa using detached
    obtain ⟨before, after, old, new⟩ := filterMap_set (·.episode) present
    have episodes := settled.episodes
    rw [old, none, Option.toList_none, List.append_nil] at episodes
    simp only [new, List.length_append, List.length_cons, List.length_nil, Nat.zero_add, List.range_succ]
    refine List.Perm.trans ?_ (episodes.append_right _)
    simp only [Option.toList_some, List.append_assoc]
    exact ((List.perm_append_comm).append_left _).append_left _
  claimed := settled.claimed
  named := by
    intro claim member episode inside
    have known := settled.named claim member episode inside
    exact List.getElem?_append_left (List.getElem?_eq_some_iff.mp known).1 ▸ known

private theorem settled_resumed (settled : core.Settled claims) {ref : ℕ} {cell : Cell Handle Tx}
    {delivery : Delivery Handle Tx} (present : core.heap[ref]? = some cell)
    (attached : delivery.entry.detached = false) :
    (core.finish ref cell delivery .resumed).Settled claims where
  ids := settled.ids
  refs := settled.refs
  listed := by
    intro session member
    by_cases here : ref = session.2
    · subst here
      have bound := (List.getElem?_eq_some_iff.mp present).1
      exact ⟨{ delivery, episode := none }, List.getElem?_set_self bound, by simp [attached], by simp⟩
    · obtain ⟨other, read, rest⟩ := settled.listed session member
      exact ⟨other, (List.getElem?_set_ne here).trans read, rest⟩
  episodes := episodes_finish settled present delivery .resumed
  claimed := by
    have claimed := settled.claimed
    cases episode : cell.episode <;> simpa [finish, episode] using claimed
  named := settled.named

variable [LinearOrder Id]

/-- A session other than the one that left keeps its entry. -/
private theorem listed_finish (settled : core.Settled claims) {id : Id} {ref : ℕ}
    (listed : (id, ref) ∈ core.sessions) (cell : Cell Handle Tx) (delivery : Delivery Handle Tx) (ending : Ending) :
    ∀ session ∈ Registry.erase core.sessions id, ∃ cell', (core.finish ref cell delivery ending).heap[session.2]? =
      some cell' ∧ (cell'.delivery.entry.detached = true ↔ cell'.episode.isSome = true) ∧
      ∀ episode ∈ cell'.episode, core.detaches[episode]? = some session.1 := by
  intro session member
  obtain ⟨inside, other⟩ := List.mem_filter.mp member
  have elsewhere : session.2 ≠ ref := by
    intro same
    have equal := settled.session_eq inside listed same
    rw [equal] at other
    simp at other
  rw [finish, List.getElem?_set_ne elsewhere.symm]
  exact settled.listed session inside

private theorem settled_added (settled : core.Settled claims) {id : Id} {delivery : Delivery Handle Tx}
    (absent : ∀ session ∈ core.sessions, session.1 ≠ id) (attached : delivery.entry.detached = false) :
    Settled { core with
      sessions := Registry.emplace core.sessions id core.heap.length
      heap := core.heap ++ [{ delivery }] } claims where
  ids := by
    have perm := (List.perm_orderedInsert (fun first second : Id × ℕ => first.1 ≤ second.1)
      (id, core.heap.length) core.sessions).map (·.1)
    rw [Registry.emplace, perm.nodup_iff, List.map_cons, List.nodup_cons]
    refine ⟨fun member => ?_, settled.ids⟩
    obtain ⟨session, inside, same⟩ := List.mem_map.mp member
    exact absent session inside same
  refs := by
    have perm := (List.perm_orderedInsert (fun first second : Id × ℕ => first.1 ≤ second.1)
      (id, core.heap.length) core.sessions).map (·.2)
    rw [Registry.emplace, perm.nodup_iff, List.map_cons, List.nodup_cons]
    refine ⟨fun member => ?_, settled.refs⟩
    obtain ⟨session, inside, same⟩ := List.mem_map.mp member
    obtain ⟨cell, read, _⟩ := settled.listed session inside
    have bound := (List.getElem?_eq_some_iff.mp read).1
    exact absurd same bound.ne
  listed := by
    intro session member
    rw [Registry.emplace, List.mem_orderedInsert] at member
    rcases member with rfl | member
    · exact ⟨{ delivery }, List.getElem?_concat_length .., by simp [attached], by simp⟩
    · obtain ⟨cell, read, rest⟩ := settled.listed session member
      have bound := (List.getElem?_eq_some_iff.mp read).1
      exact ⟨cell, by rw [List.getElem?_append_left bound, read], rest⟩
  episodes := by simpa using settled.episodes
  claimed := settled.claimed
  named := settled.named

private theorem settled_removed (settled : core.Settled claims) {id : Id} {ref : ℕ} {cell : Cell Handle Tx}
    {delivery : Delivery Handle Tx} (listed : (id, ref) ∈ core.sessions)
    (present : core.heap[ref]? = some cell) :
    Settled { core.finish ref cell delivery .removed with sessions := Registry.erase core.sessions id }
      claims where
  ids := settled.ids.sublist (List.filter_sublist.map _)
  refs := settled.refs.sublist (List.filter_sublist.map _)
  listed := listed_finish settled listed cell delivery .removed
  episodes := episodes_finish settled present delivery .removed
  claimed := by
    have claimed := settled.claimed
    cases episode : cell.episode <;> simpa [finish, episode] using claimed
  named := settled.named

/-- A claim ends the episode the detached entry is in, and carries its id. -/
private theorem settled_expired (settled : core.Settled claims) {id : Id} {ref : ℕ} {cell : Cell Handle Tx}
    {delivery : Delivery Handle Tx} (listed : (id, ref) ∈ core.sessions)
    (present : core.heap[ref]? = some cell) (detached : cell.delivery.entry.detached = true) :
    Settled { core.finish ref cell delivery .expired with sessions := Registry.erase core.sessions id }
      (claims ++ [⟨id, ref, cell.episode⟩]) := by
  obtain ⟨other, read, iff, named⟩ := settled.listed (id, ref) listed
  rw [present] at read
  cases read
  obtain ⟨episode, opened⟩ := Option.isSome_iff_exists.mp (iff.mp detached)
  refine ⟨settled.ids.sublist (List.filter_sublist.map _), settled.refs.sublist (List.filter_sublist.map _),
    listed_finish settled listed cell delivery .expired, episodes_finish settled present delivery .expired, ?_, ?_⟩
  · simp [finish, opened, settled.claimed]
  · intro claim member number inside
    rcases List.mem_append.mp member with member | member
    · exact settled.named claim member number inside
    · rw [List.mem_singleton.mp member] at inside ⊢
      exact named number inside

theorem Settled.change (settled : core.Settled claims) (change : Change options core target more) :
    target.Settled (claims ++ more) := by
  cases change with
  | entry present step same => simpa using settled_entry settled present same
  | added absent => simpa using settled_added settled absent rfl
  | detached listed present step =>
    cases Delivery.step_cases step with
    | detach registered unlocked grace attached =>
      simpa using settled_detached settled listed present attached rfl
  | resumed present step =>
    rw [List.append_nil]
    cases Delivery.step_cases step with
    | resumeWriter | resumeChain | resumeIdle => exact settled_resumed settled present rfl
  | removed listed present step => simpa using settled_removed settled listed present
  | expired listed present step =>
    cases Delivery.step_cases step with
    | expire registered unlocked detached late => exact settled_expired settled listed present detached
  | cleared =>
    rw [List.append_nil]
    exact ⟨List.nodup_nil, List.nodup_nil, fun session member => absurd member List.not_mem_nil,
      settled.episodes, settled.claimed, settled.named⟩

theorem Settled.changes (settled : core.Settled claims) (changes : Changes options core target more) :
    target.Settled (claims ++ more) := by
  induction changes with
  | refl => rwa [List.append_nil]
  | tail _ change ih =>
    rw [← List.append_assoc]
    exact ih.change change

/-- Every entry on the heap is where a run of its own machine has brought it. -/
def Simulated (options : Options) (core : Core Id Handle Tx) : Prop :=
  ∀ cell ∈ core.heap, ∃ handle supportsAsync labels,
    (delivery Handle Tx options).run (.added options handle supportsAsync) labels = some cell.delivery

theorem Simulated.change (simulated : core.Simulated options)
    (change : Change options.normalize core target more) : target.Simulated options := by
  -- One more step of the entry's machine extends its run.
  have stepped {ref : ℕ} {cell : Cell Handle Tx} {label : DeliveryLabel Handle Tx}
      {moved : Delivery Handle Tx} (episode : Option ℕ) (present : core.heap[ref]? = some cell)
      (step : cell.delivery.step options.normalize label = some moved) :
      ∀ other ∈ core.heap.set ref { delivery := moved, episode }, ∃ handle supportsAsync labels,
        (delivery Handle Tx options).run (.added options handle supportsAsync) labels = some other.delivery := by
    intro other member
    rcases List.mem_or_eq_of_mem_set member with member | rfl
    · exact simulated other member
    · obtain ⟨handle, supportsAsync, labels, run⟩ := simulated cell (List.mem_of_getElem? present)
      refine ⟨handle, supportsAsync, labels ++ [label], ?_⟩
      rw [Machine.run_append, run, Option.bind_some, Machine.run_cons_eq_some]
      exact ⟨moved, step, rfl⟩
  cases change with
  | entry present step same => exact stepped _ present step
  | @added id handle supportsAsync absent =>
    intro cell member
    rcases List.mem_append.mp member with member | member
    · exact simulated cell member
    · rw [List.mem_singleton.mp member]
      exact ⟨handle, supportsAsync, [], rfl⟩
  | detached listed present step => exact stepped _ present step
  | resumed present step => exact stepped _ present step
  | removed listed present step => exact stepped _ present step
  | expired listed present step => exact stepped _ present step
  | cleared => exact simulated

theorem Simulated.changes (simulated : core.Simulated options)
    (changes : Changes options.normalize core target more) : target.Simulated options := by
  induction changes with
  | refl => exact simulated
  | tail _ change ih => exact ih.change change

end Core

/-- A call to `on_expired`, or the end of a batch of them. -/
def RegistryLabel.Fires {Id Handle Tx : Type*} : RegistryLabel Id Handle Tx → Prop
  | .expiryFire | .drainFire _ | .destroyFire => True
  | _ => False

namespace Registry

variable {Id Handle Tx : Type*}

section Firing

variable {options : Options} {registry : Registry Id Handle Tx}

/-- Whoever holds a claim can fire it, also while a `Resume` holds the registry lock. -/
theorem fire_enabled [LinearOrder Id] (options : Options) (waiting : registry.pending ≠ []) :
    ∃ label target, label.Fires ∧ registry.step options label = some target ∧
      target.core = registry.core ∧ target.pending.length < registry.pending.length := by
  by_cases thread : registry.expiry.claims = []
  · by_cases callers : registry.drains.flatten = []
    · have last : registry.teardown.claims ≠ [] := by
        rw [pending, thread, callers] at waiting
        exact waiting
      obtain ⟨claim, rest, split⟩ := List.exists_cons_of_ne_nil last
      have firing : registry.teardown = .firing (claim :: rest) := by
        cases pc : registry.teardown <;> simp_all [TeardownPc.claims]
      have run : registry.step options .destroyFire =
          some { registry.fire options claim with teardown := .firing rest } := by
        simp only [step, destroyFire, firing]
      refine ⟨.destroyFire, _, trivial, run, core_fire options registry claim, ?_⟩
      rw [pending, pending, fire]
      split_ifs <;> simp [firing, TeardownPc.claims]
    · obtain ⟨batch, member, filled⟩ : ∃ batch ∈ registry.drains, batch ≠ [] := by simpa using callers
      obtain ⟨caller, read⟩ := List.mem_iff_getElem?.mp member
      obtain ⟨claim, rest, rfl⟩ := List.exists_cons_of_ne_nil filled
      have run : registry.step options (.drainFire caller) =
          some { registry.fire options claim with drains := registry.drains.set caller rest } := by
        simp only [step, drainFire, read]
      refine ⟨.drainFire caller, _, trivial, run, core_fire options registry claim, ?_⟩
      have shorter := (flatten_set_perm read).length_eq
      rw [pending, pending, fire]
      split_ifs <;> simp only [List.length_append, shorter, List.length_cons] <;> omega
  · obtain ⟨claim, rest, split⟩ := List.exists_cons_of_ne_nil thread
    have firing : registry.expiry = .firing (claim :: rest) := by
      cases pc : registry.expiry <;> simp_all [ExpiryPc.claims]
    have run : registry.step options .expiryFire =
        some { registry.fire options claim with expiry := .firing rest } := by
      simp only [step, expiryFire, firing]
    refine ⟨.expiryFire, _, trivial, run, core_fire options registry claim, ?_⟩
    rw [pending, pending, fire]
    split_ifs <;> simp [firing, ExpiryPc.claims]

/-- Firing alone can always work off every claim that has been made. -/
theorem fires_out [LinearOrder Id] (options : Options) (registry : Registry Id Handle Tx) :
    ∃ fires final, (∀ label ∈ fires, label.Fires) ∧
      (sessionRegistry Id Handle Tx options).run registry fires = some final ∧
      final.core = registry.core ∧ final.pending = [] := by
  induction size : registry.pending.length using Nat.strong_induction_on generalizing registry with
  | _ size ih =>
    by_cases waiting : registry.pending = []
    · exact ⟨[], registry, by simp, rfl, rfl, waiting⟩
    · obtain ⟨label, target, fires, run, core, less⟩ := fire_enabled options.normalize waiting
      obtain ⟨rest, final, each, reached, same, out⟩ := ih _ (size ▸ less) target rfl
      refine ⟨label :: rest, final, by simpa using ⟨fires, each⟩, ?_, same.trans core, out⟩
      exact (sessionRegistry Id Handle Tx options).run_cons_eq_some.mpr ⟨target, run, reached⟩

end Firing

section Attached

variable [LinearOrder Id] {registry : Registry Id Handle Tx}

omit [LinearOrder Id] in
theorem reapLocked_sessions (registry : Registry Id Handle Tx) :
    registry.reapLocked.sessions = registry.sessions := by
  have rounds : ∀ (refs : List ℕ) (registry : Registry Id Handle Tx),
      (refs.foldl reapOne registry).sessions = registry.sessions := by
    intro refs
    induction refs with
    | nil => exact fun _ => rfl
    | cons ref rest ih =>
      intro registry
      rw [List.foldl_cons, ih]
      unfold reapOne
      repeat' split
      all_goals rfl
  exact rounds registry.retired { registry with retired := [] }

/-- The loop over the map passes an attached entry by. -/
private theorem attached_kept {claims : List (Claim Id)} (settled : registry.core.Settled claims)
    (now : WithTop ℕ) {session : Id × ℕ} {cell : Cell Handle Tx} (listed : session ∈ registry.sessions)
    (attached : cell.delivery.entry.detached = false)
    (rest : List (Id × ℕ)) (within : ∀ other ∈ rest, other ∈ registry.sessions)
    (taken : Registry Id Handle Tx) (made : List (Claim Id)) (kept : session ∈ taken.sessions)
    (still : taken.heap[session.2]? = some cell) (others : ∀ claim ∈ made, claim.ref ≠ session.2) :
    session ∈ (rest.foldl (takeOne now) (taken, made)).1.sessions ∧
      ∀ claim ∈ (rest.foldl (takeOne now) (taken, made)).2, claim.ref ≠ session.2 := by
  induction rest generalizing taken made with
  | nil => exact ⟨kept, others⟩
  | cons other rest ih =>
    have tail : ∀ later ∈ rest, later ∈ registry.sessions :=
      fun later member => within later (List.mem_cons_of_mem _ member)
    rw [List.foldl_cons]
    rcases takeOne_cases now taken made other with same | ⟨found, delivery, retired, read, expired, round⟩
    · rw [same]
      exact ih tail taken made kept still others
    · have member := within other (List.mem_cons_self ..)
      have elsewhere : other.2 ≠ session.2 := by
        intro same
        rw [same, still] at read
        cases read
        have step : cell.delivery.step {} (.expire now) = some delivery := expired
        cases Delivery.step_cases step with
        | expire registered unlocked detached late =>
          rw [attached] at detached
          cases detached
      rw [round]
      refine ih tail _ _ ?_ ?_ ?_
      · refine List.mem_filter.mpr ⟨kept, ?_⟩
        have different : session.1 ≠ other.1 := by
          intro same
          exact elsewhere (congrArg Prod.snd (List.inj_on_of_nodup_map settled.ids listed member same)).symm
        simpa using different
      · rw [finish, List.getElem?_set_ne elsewhere]
        exact still
      · intro claim inside
        rcases List.mem_append.mp inside with inside | inside
        · exact others claim inside
        · rw [List.mem_singleton.mp inside]
          exact elsewhere

/-- No expiry claim takes an attached entry, whatever the time. -/
theorem takeExpiredLocked_attached {claims : List (Claim Id)} (settled : registry.core.Settled claims)
    (now : WithTop ℕ) {session : Id × ℕ} {cell : Cell Handle Tx} (listed : session ∈ registry.sessions)
    (present : registry.heap[session.2]? = some cell) (attached : cell.delivery.entry.detached = false) :
    session ∈ (registry.takeExpiredLocked now).1.sessions ∧
      ∀ claim ∈ (registry.takeExpiredLocked now).2, claim.ref ≠ session.2 := by
  have loop := attached_kept settled now listed attached registry.sessions (fun _ member => member)
    registry [] listed present (fun claim member => absurd member List.not_mem_nil)
  unfold takeExpiredLocked
  dsimp only
  split_ifs
  · exact loop
  · rw [reapLocked_sessions]
    exact loop

end Attached

/-- An episode is opened by exactly the calls to `Detach` that return true. -/
theorem detaches_detach [DecidableEq Id] (options : Options) (registry : Registry Id Handle Tx) (id : Id) (now : ℕ) :
    (registry.detach options id now).1.detaches =
      registry.detaches ++ if (registry.detach options id now).2 then [id] else [] := by
  cases found : registry.lookup id with
  | none => simp [detach, found]
  | some ref =>
    cases present : registry.heap[ref]? with
    | none => simp [detach, found, present]
    | some cell =>
      cases moved : cell.delivery.detach options now with
      | none => simp [detach, found, present, moved]
      | some delivery =>
        simp only [detach, found, present, moved, ↓reduceIte, armExpiryLocked]
        split <;> rfl

/-- The record is complete after any run, and the claims made are those fired or still to be fired. -/
theorem settled_of_run [LinearOrder Id] {options : Options} {labels : List (RegistryLabel Id Handle Tx)}
    {registry : Registry Id Handle Tx}
    (reached : (sessionRegistry Id Handle Tx options).run {} labels = some registry) :
    ∃ claims, registry.core.Settled claims ∧
      (options.onExpired = true → (registry.fired ++ registry.pending).Perm claims) := by
  refine (sessionRegistry Id Handle Tx options).invariant_of_run
    (fun registry => ∃ claims, registry.core.Settled claims ∧
      (options.onExpired = true → (registry.fired ++ registry.pending).Perm claims)) ?_ ?_ reached
  · rintro source label target ⟨claims, settled, accounts⟩ run
    obtain ⟨more, changes, handed⟩ := step_effect settled.ids run
    refine ⟨claims ++ more, settled.changes changes, fun calling => ?_⟩
    exact (handed calling).trans ((accounts calling).append_right more)
  · refine ⟨[], ⟨List.nodup_nil, List.nodup_nil, ?_, List.Perm.refl _, rfl, ?_⟩, fun _ => List.Perm.refl _⟩
    · exact fun session member => absurd member List.not_mem_nil
    · exact fun claim member => absurd member List.not_mem_nil

/-- Every entry of a registry, registered or not, has come to its state by a run of its own delivery
machine: what holds after every such run holds of it. -/
theorem entries_of_run [LinearOrder Id] {options : Options} {labels : List (RegistryLabel Id Handle Tx)}
    {registry : Registry Id Handle Tx}
    (reached : (sessionRegistry Id Handle Tx options).run {} labels = some registry) :
    registry.core.Simulated options := by
  refine ((sessionRegistry Id Handle Tx options).invariant_of_run
    (fun registry => (∃ claims, registry.core.Settled claims) ∧ registry.core.Simulated options)
    ?_ ?_ reached).2
  · rintro source label target ⟨⟨claims, settled⟩, simulated⟩ run
    obtain ⟨more, changes, _⟩ := step_effect settled.ids run
    exact ⟨⟨_, settled.changes changes⟩, simulated.changes changes⟩
  · refine ⟨⟨[], List.nodup_nil, List.nodup_nil, ?_, List.Perm.refl _, rfl, ?_⟩, ?_⟩
    · exact fun session member => absurd member List.not_mem_nil
    · exact fun claim member => absurd member List.not_mem_nil
    · exact fun cell member => absurd member List.not_mem_nil

/-- Reconnect grace is settled exactly once. The endings recorded and the episodes still going on
are the episodes opened, each once. The calls to `on_expired` made or still to be made are for
the episodes that ended by a claim, each once and with its id, and those still to be made can
always be made. No claim takes an attached entry. -/
theorem grace_settled_once [LinearOrder Id] (options : Options) (labels : List (RegistryLabel Id Handle Tx))
    (registry : Registry Id Handle Tx)
    (reached : (sessionRegistry Id Handle Tx options).run {} labels = some registry) :
    (∀ id now, (registry.detach options.normalize id now).1.detaches =
      registry.detaches ++ if (registry.detach options.normalize id now).2 then [id] else []) ∧
    (registry.ended.map (·.1) ++ registry.heap.filterMap (·.episode)).Perm
      (List.range registry.detaches.length) ∧
    (options.onExpired = true →
      ((registry.fired ++ registry.pending).map (·.episode)).Perm
        ((registry.ended.filter (·.2 == .expired)).map fun ending => some ending.1) ∧
      ∀ claim ∈ registry.fired ++ registry.pending, ∀ episode ∈ claim.episode,
        registry.detaches[episode]? = some claim.id) ∧
    (∀ now, ∀ session ∈ registry.sessions, ∀ cell ∈ registry.heap[session.2]?,
      cell.delivery.entry.detached = false →
        session ∈ (registry.takeExpiredLocked now).1.sessions ∧
        ∀ claim ∈ (registry.takeExpiredLocked now).2, claim.ref ≠ session.2) ∧
    ∃ fires final, (∀ label ∈ fires, label.Fires) ∧
      (sessionRegistry Id Handle Tx options).run registry fires = some final ∧
      final.ended = registry.ended ∧
      (options.onExpired = true → (final.fired.map (·.episode)).Perm
        ((registry.ended.filter (·.2 == .expired)).map fun ending => some ending.1)) := by
  obtain ⟨claims, settled, accounts⟩ := settled_of_run reached
  refine ⟨fun id now => detaches_detach options.normalize registry id now, settled.episodes, ?_, ?_, ?_⟩
  · intro calling
    refine ⟨((accounts calling).map _).trans (List.Perm.of_eq settled.claimed), ?_⟩
    intro claim member
    exact settled.named claim ((accounts calling).mem_iff.mp member)
  · intro now session listed cell present attached
    exact takeExpiredLocked_attached settled now listed present attached
  · obtain ⟨fires, final, each, run, core, out⟩ := fires_out options registry
    have whole : (sessionRegistry Id Handle Tx options).run {} (labels ++ fires) = some final := by
      rw [Machine.run_append, reached, Option.bind_some, run]
    obtain ⟨made, complete, told⟩ := settled_of_run whole
    have same : final.ended = registry.ended := congrArg Core.ended core
    refine ⟨fires, final, each, run, same, fun calling => ?_⟩
    have perm := (told calling).map (·.episode)
    rw [out, List.append_nil] at perm
    refine perm.trans (List.Perm.of_eq ?_)
    rw [← same]
    exact complete.claimed

/-- A session lost twice: it reconnects within the first grace period, and the second one runs out,
so `on_expired` is called for the second episode alone. -/
theorem grace_settled_once_second :
    ∃ registry, (sessionRegistry ℕ ℕ String { gracePeriod := 30, onExpired := true }).run {}
      [.add 7 0 true, .detach 7 0, .entry 0 (.writerTake 0), .entry 0 (.writerDone 0), .resume 7 1 true 10,
        .resumeFinish, .expiryTake 31, .detach 7 40, .expiryTake 60, .expiryTake 71, .expiryFire] =
        some registry ∧
      registry.ended = [(0, .resumed), (1, .expired)] ∧ registry.fired.map (·.id) = [7] ∧
      ((registry.fired ++ registry.pending).map (·.episode)).Perm
        ((registry.ended.filter (·.2 == .expired)).map fun ending => some ending.1) := by
  refine ⟨_, (Option.some_get (by decide)).symm, by decide, by decide, ?_⟩
  exact ((grace_settled_once { gracePeriod := 30, onExpired := true } _ _ (Option.some_get _).symm).2.2.1 rfl).1

end Registry

end OpalCpp.Server

import OpalCpp.Model.Server.SessionRegistry
import OpalCpp.Proofs.Server.DeliverySteps

/-! # What a step of the registry does to its entries

Every operation of the registry is a sequence of elementary changes to the map, the heap and the
record of episodes: an entry moves on by a step of its own machine, an entry is added, an episode
begins or ends. Reaping, arming, and the bookkeeping of the threads leave this core alone. The
claims that a step makes are handed on to whoever fires them, and none is lost or copied there.
-/

namespace OpalCpp.Server

/-- The part of the registry that decides who is registered and in which episode. -/
structure Core (Id Handle Tx : Type*) where
  sessions : List (Id × ℕ)
  heap : List (Cell Handle Tx)
  detaches : List Id
  ended : List (ℕ × Ending)

def ExpiryPc.claims {Id : Type*} : ExpiryPc Id → List (Claim Id)
  | .firing claims => claims
  | _ => []

def TeardownPc.claims {Id : Type*} : TeardownPc Id → List (Claim Id)
  | .firing claims => claims
  | _ => []

namespace Core

variable {Id Handle Tx : Type*} [LinearOrder Id]

/-- An entry back on the heap, its episode over if it was in one. -/
def finish (core : Core Id Handle Tx) (ref : ℕ) (cell : Cell Handle Tx) (delivery : Delivery Handle Tx)
    (ending : Ending) : Core Id Handle Tx :=
  { core with
    heap := core.heap.set ref { delivery, episode := none }
    ended := core.ended ++ cell.episode.toList.map (·, ending) }

/-- One elementary change, with the expiry claims it makes. -/
inductive Change (options : Options) (core : Core Id Handle Tx) : Core Id Handle Tx → List (Claim Id) → Prop
  | entry {ref : ℕ} {cell : Cell Handle Tx} {label : DeliveryLabel Handle Tx} {delivery : Delivery Handle Tx}
      (present : core.heap[ref]? = some cell) (step : cell.delivery.step options label = some delivery)
      (same : delivery.entry.detached = cell.delivery.entry.detached) :
      Change options core { core with heap := core.heap.set ref { cell with delivery } } []
  | added {id : Id} {handle : Handle} {supportsAsync : Bool} (absent : ∀ session ∈ core.sessions, session.1 ≠ id) :
      Change options core
        { core with
          sessions := Registry.emplace core.sessions id core.heap.length
          heap := core.heap ++ [{ delivery := .added options handle supportsAsync }] } []
  | detached {id : Id} {ref now : ℕ} {cell : Cell Handle Tx} {delivery : Delivery Handle Tx}
      (listed : (id, ref) ∈ core.sessions) (present : core.heap[ref]? = some cell)
      (step : cell.delivery.step options (.detach now) = some delivery) :
      Change options core
        { core with
          heap := core.heap.set ref { delivery, episode := some core.detaches.length }
          detaches := core.detaches ++ [id] } []
  | resumed {ref : ℕ} {cell : Cell Handle Tx} {delivery : Delivery Handle Tx}
      (present : core.heap[ref]? = some cell) (step : cell.delivery.step options .resumeFinish = some delivery) :
      Change options core (core.finish ref cell delivery .resumed) []
  | removed {id : Id} {ref : ℕ} {cell : Cell Handle Tx} {delivery : Delivery Handle Tx}
      (listed : (id, ref) ∈ core.sessions) (present : core.heap[ref]? = some cell)
      (step : cell.delivery.step options .remove = some delivery) :
      Change options core
        { core.finish ref cell delivery .removed with sessions := Registry.erase core.sessions id } []
  | expired {id : Id} {ref : ℕ} {now : WithTop ℕ} {cell : Cell Handle Tx} {delivery : Delivery Handle Tx}
      (listed : (id, ref) ∈ core.sessions) (present : core.heap[ref]? = some cell)
      (step : cell.delivery.step options (.expire now) = some delivery) :
      Change options core
        { core.finish ref cell delivery .expired with sessions := Registry.erase core.sessions id }
        [⟨id, ref, cell.episode⟩]
  | cleared : Change options core { core with sessions := [] } []

/-- A sequence of changes and all the claims made on the way. -/
inductive Changes (options : Options) (core : Core Id Handle Tx) : Core Id Handle Tx → List (Claim Id) → Prop
  | refl : Changes options core core []
  | tail {middle target : Core Id Handle Tx} {claims more : List (Claim Id)}
      (changes : Changes options core middle claims) (change : Change options middle target more) :
      Changes options core target (claims ++ more)

namespace Changes

variable {options : Options} {core middle target : Core Id Handle Tx} {claims more : List (Claim Id)}

theorem single (change : Change options core target claims) : Changes options core target claims :=
  .tail .refl change

theorem trans (first : Changes options core middle claims) (second : Changes options middle target more) :
    Changes options core target (claims ++ more) := by
  induction second with
  | refl => rwa [List.append_nil]
  | tail _ change ih =>
    rw [← List.append_assoc]
    exact .tail ih change

end Changes

end Core

namespace Registry

variable {Id Handle Tx : Type*}

def core (registry : Registry Id Handle Tx) : Core Id Handle Tx :=
  ⟨registry.sessions, registry.heap, registry.detaches, registry.ended⟩

/-- The claims that have not been fired yet, by whoever holds them. -/
def pending (registry : Registry Id Handle Tx) : List (Claim Id) :=
  registry.expiry.claims ++ registry.drains.flatten ++ registry.teardown.claims

/-- Who is firing what, and what has been fired. -/
def calls (registry : Registry Id Handle Tx) :
    ExpiryPc Id × List (List (Claim Id)) × TeardownPc Id × List (Claim Id) :=
  (registry.expiry, registry.drains, registry.teardown, registry.fired)

/-- The claims fired and those still to be fired, whatever else has happened. -/
theorem fired_pending_of_calls {registry target : Registry Id Handle Tx} (same : target.calls = registry.calls) :
    target.fired = registry.fired ∧ target.pending = registry.pending := by
  simp only [calls, Prod.mk.injEq] at same
  obtain ⟨expiry, drains, teardown, fired⟩ := same
  exact ⟨fired, by rw [pending, expiry, drains, teardown, pending]⟩

section Pieces

variable [LinearOrder Id] {options : Options} {registry target : Registry Id Handle Tx}

theorem mem_of_lookup {id : Id} {ref : ℕ} (found : registry.lookup id = some ref) :
    (id, ref) ∈ registry.sessions := by
  obtain ⟨session, search, rfl⟩ := Option.map_eq_some_iff.mp found
  have named : session.1 = id := by simpa using List.find?_some search
  rw [← named]
  exact List.mem_of_find?_eq_some search

theorem ne_of_lookup {id : Id} (missing : registry.lookup id = none) :
    ∀ session ∈ registry.sessions, session.1 ≠ id := by
  have search := Option.map_eq_none_iff.mp missing
  simpa using search

/-- A round of reaping joins at most one writer. -/
theorem reapOne_changes (options : Options) (registry : Registry Id Handle Tx) (ref : ℕ) :
    Core.Changes options registry.core (registry.reapOne ref).core [] ∧
      (registry.reapOne ref).calls = registry.calls := by
  unfold reapOne
  split
  · next cell present =>
    split_ifs
    · exact ⟨.refl, rfl⟩
    · split
      · next delivery joined =>
        have step : cell.delivery.step options .join = some delivery := joined
        have same : delivery.entry.detached = cell.delivery.entry.detached := by
          cases Delivery.step_cases step
          rfl
        exact ⟨.single (.entry present step same), rfl⟩
      · exact ⟨.refl, rfl⟩
  · exact ⟨.refl, rfl⟩

theorem reapLocked_changes (options : Options) (registry : Registry Id Handle Tx) :
    Core.Changes options registry.core registry.reapLocked.core [] ∧
      registry.reapLocked.calls = registry.calls := by
  have rounds : ∀ (refs : List ℕ) (registry : Registry Id Handle Tx),
      Core.Changes options registry.core (refs.foldl reapOne registry).core [] ∧
        (refs.foldl reapOne registry).calls = registry.calls := by
    intro refs
    induction refs with
    | nil => exact fun registry => ⟨.refl, rfl⟩
    | cons ref rest ih =>
      intro registry
      obtain ⟨first, same⟩ := reapOne_changes options registry ref
      obtain ⟨later, kept⟩ := ih (registry.reapOne ref)
      exact ⟨first.trans later, kept.trans same⟩
  exact rounds registry.retired { registry with retired := [] }

/-- The session leaves the map at the end of a round that claims it. -/
theorem takeOne_cases (now : WithTop ℕ) (registry : Registry Id Handle Tx) (claims : List (Claim Id))
    (session : Id × ℕ) :
    takeOne now (registry, claims) session = (registry, claims) ∨
    ∃ cell delivery retired, registry.heap[session.2]? = some cell ∧ cell.delivery.expire now = some delivery ∧
      takeOne now (registry, claims) session =
        ({ registry.finish session.2 cell delivery .expired with
            sessions := erase registry.sessions session.1, retired },
          claims ++ [⟨session.1, session.2, cell.episode⟩]) := by
  unfold takeOne
  dsimp only
  split
  · exact .inl rfl
  · next cell present =>
    split
    · exact .inl rfl
    · next delivery expired => exact .inr ⟨cell, delivery, _, present, expired, rfl⟩

/-- The loop of `TakeExpiredLocked` over the rest of the map. -/
private theorem takeRest_changes (options : Options) (now : WithTop ℕ) (rest : List (Id × ℕ))
    (registry : Registry Id Handle Tx) (claims : List (Claim Id))
    (ids : (rest.map (·.1)).Nodup) (listed : ∀ session ∈ rest, session ∈ registry.sessions) :
    ∃ more, (rest.foldl (takeOne now) (registry, claims)).2 = claims ++ more ∧
      Core.Changes options registry.core (rest.foldl (takeOne now) (registry, claims)).1.core more ∧
      (rest.foldl (takeOne now) (registry, claims)).1.calls = registry.calls := by
  induction rest generalizing registry claims with
  | nil => exact ⟨[], (List.append_nil _).symm, .refl, rfl⟩
  | cons session rest ih =>
    rw [List.map_cons, List.nodup_cons] at ids
    obtain ⟨fresh, ids⟩ := ids
    rw [List.foldl_cons]
    rcases takeOne_cases now registry claims session with
      same | ⟨cell, delivery, retired, present, expired, round⟩
    · rw [same]
      exact ih registry claims ids fun other member => listed other (List.mem_cons_of_mem _ member)
    · rw [round]
      have others : ∀ other ∈ rest, other ∈ erase registry.sessions session.1 := by
        intro other member
        refine List.mem_filter.mpr ⟨listed other (List.mem_cons_of_mem _ member), ?_⟩
        have different : other.1 ≠ session.1 := fun same => fresh (same ▸ List.mem_map_of_mem member)
        simpa using different
      obtain ⟨more, collected, changes, calls⟩ := ih
        { registry.finish session.2 cell delivery .expired with
            sessions := erase registry.sessions session.1, retired }
        (claims ++ [⟨session.1, session.2, cell.episode⟩]) ids others
      have step : cell.delivery.step options (.expire now) = some delivery := expired
      have first : Core.Change options registry.core _ [⟨session.1, session.2, cell.episode⟩] :=
        .expired (listed session (List.mem_cons_self ..)) present step
      refine ⟨_, by rw [collected, List.append_assoc], (Core.Changes.single first).trans changes, calls⟩

theorem takeExpiredLocked_changes (options : Options) (now : WithTop ℕ)
    (ids : (registry.sessions.map (·.1)).Nodup) :
    Core.Changes options registry.core (registry.takeExpiredLocked now).1.core
        (registry.takeExpiredLocked now).2 ∧
      (registry.takeExpiredLocked now).1.calls = registry.calls := by
  obtain ⟨claims, collected, changes, calls⟩ :=
    takeRest_changes options now registry.sessions registry [] ids fun session member => member
  rw [List.nil_append] at collected
  unfold takeExpiredLocked
  dsimp only
  rw [collected]
  split_ifs
  · rw [collected]
    exact ⟨changes, calls⟩
  · obtain ⟨reaped, same⟩ :=
      reapLocked_changes options (registry.sessions.foldl (takeOne now) (registry, [])).1
    refine ⟨?_, same.trans calls⟩
    simpa only [List.append_nil] using changes.trans reaped

/-- The destructor's loop over the map unregisters entries and does nothing else. -/
theorem collect_changes (options : Options) (sessions : List (Id × ℕ)) (registry : Registry Id Handle Tx) :
    Core.Changes options registry.core (sessions.foldl collectOne registry).core [] ∧
      (sessions.foldl collectOne registry).calls = registry.calls := by
  induction sessions generalizing registry with
  | nil => exact ⟨.refl, rfl⟩
  | cons session rest ih =>
    have round : Core.Changes options registry.core (registry.collectOne session).core [] ∧
        (registry.collectOne session).calls = registry.calls := by
      unfold collectOne
      split
      · exact ⟨.refl, rfl⟩
      · next cell present =>
        split
        · exact ⟨.refl, rfl⟩
        · next delivery gone =>
          have step : cell.delivery.step options .unregister = some delivery := gone
          have same : delivery.entry.detached = cell.delivery.entry.detached := by
            cases Delivery.step_cases step
            rfl
          exact ⟨.single (.entry present step same), rfl⟩
    obtain ⟨later, kept⟩ := ih (registry.collectOne session)
    exact ⟨round.1.trans later, kept.trans round.2⟩

/-- Steps that entries take without the registry neither detach nor resume. -/
theorem detached_internal {label : DeliveryLabel Handle Tx} {delivery moved : Delivery Handle Tx}
    (internal : label.internal = true) (step : delivery.step options label = some moved) :
    moved.entry.detached = delivery.entry.detached := by
  cases Delivery.step_cases step with
  | detach | resumeWriter | resumeChain | resumeIdle => cases internal
  | _ => rfl

omit [LinearOrder Id] in
/-- Taking a claim off one batch takes it off them all. -/
theorem flatten_set_perm {batches : List (List (Claim Id))} {caller : ℕ} {claim : Claim Id}
    {rest : List (Claim Id)} (present : batches[caller]? = some (claim :: rest)) :
    batches.flatten.Perm (claim :: (batches.set caller rest).flatten) := by
  obtain ⟨bound, read⟩ := List.getElem?_eq_some_iff.mp present
  have split := List.take_append_drop caller batches
  rw [List.drop_eq_getElem_cons bound, read] at split
  rw [List.set_eq_take_append_cons_drop, if_pos bound]
  nth_rewrite 1 [← split]
  simpa only [List.flatten_append, List.flatten_cons, List.cons_append] using List.perm_middle

/-- What one step does: changes to the core, and claims handed on to be fired. -/
structure Effect (options : Options) (registry target : Registry Id Handle Tx) (claims : List (Claim Id)) :
    Prop where
  changes : Core.Changes options registry.core target.core claims
  accounts : options.onExpired = true →
    (target.fired ++ target.pending).Perm (registry.fired ++ registry.pending ++ claims)

theorem Effect.of_calls (changes : Core.Changes options registry.core target.core [])
    (same : target.calls = registry.calls) : Effect options registry target [] := by
  obtain ⟨fired, pending⟩ := fired_pending_of_calls same
  exact ⟨changes, fun _ => by rw [fired, pending, List.append_nil]⟩

omit [LinearOrder Id] in
theorem locking_eq_some {step : Option (Registry Id Handle Tx)} (run : registry.locking step = some target) :
    registry.resuming = none ∧ step = some target := by
  unfold locking at run
  split_ifs at run with free
  exact ⟨by simpa using free, run⟩

theorem add_effect (id : Id) (handle : Handle) (supportsAsync : Bool) :
    Effect options registry (registry.add options id handle supportsAsync).1 [] := by
  obtain ⟨reaped, same⟩ := reapLocked_changes options registry
  unfold add
  dsimp only
  split
  · exact .of_calls reaped same
  · next missing =>
    exact .of_calls (reaped.trans (.single (.added (ne_of_lookup missing)))) same

theorem remove_effect (id : Id) : Effect options registry (registry.remove id).1 [] := by
  unfold remove
  split
  · exact .of_calls .refl rfl
  · next ref found =>
    split
    · exact .of_calls .refl rfl
    · next cell present =>
      split
      · exact .of_calls .refl rfl
      · next delivery gone =>
        have step : cell.delivery.step options .remove = some delivery := gone
        have first : Core.Change options registry.core _ [] := .removed (mem_of_lookup found) present step
        dsimp only
        split_ifs
        all_goals
          obtain ⟨reaped, same⟩ := reapLocked_changes options
            { registry.finish ref cell delivery .removed with
              sessions := erase registry.sessions id
              retired := _ }
          exact .of_calls ((Core.Changes.single first).trans reaped) same

omit [LinearOrder Id] in
theorem armExpiryLocked_calls (registry : Registry Id Handle Tx) :
    registry.armExpiryLocked.core = registry.core ∧ registry.armExpiryLocked.pending = registry.pending ∧
      registry.armExpiryLocked.fired = registry.fired := by
  unfold armExpiryLocked
  split
  · next absent => exact ⟨rfl, by simp [pending, absent, ExpiryPc.claims], rfl⟩
  · exact ⟨rfl, rfl, rfl⟩

theorem detach_effect (id : Id) (now : ℕ) : Effect options registry (registry.detach options id now).1 [] := by
  unfold detach
  split
  · exact .of_calls .refl rfl
  · next ref found =>
    split
    · exact .of_calls .refl rfl
    · next cell present =>
      split
      · exact .of_calls .refl rfl
      · next delivery moved =>
        have step : cell.delivery.step options (.detach now) = some delivery := moved
        have change : Core.Change options registry.core _ [] := .detached (mem_of_lookup found) present step
        obtain ⟨core, pending, fired⟩ := armExpiryLocked_calls { registry with
          heap := registry.heap.set ref { delivery, episode := some registry.detaches.length }
          detaches := registry.detaches ++ [id] }
        refine ⟨core ▸ .single change, fun _ => ?_⟩
        rw [pending, fired, List.append_nil]
        rfl

theorem resume_effect (id : Id) (handle : Handle) (supportsAsync : Bool) (now : ℕ) :
    Effect options registry (registry.resume options id handle supportsAsync now) [] := by
  unfold resume
  split
  · exact .of_calls .refl rfl
  · next ref found =>
    split
    · exact .of_calls .refl rfl
    · next cell present =>
      split
      · exact .of_calls .refl rfl
      · next delivery moved =>
        have step : cell.delivery.step options (.resume handle supportsAsync now) = some delivery := moved
        have same : delivery.entry.detached = cell.delivery.entry.detached := by
          cases Delivery.step_cases step
          rfl
        exact .of_calls (.single (.entry present step same)) rfl

theorem resumeFinish_effect (run : registry.resumeFinish = some target) : Effect options registry target [] := by
  unfold resumeFinish at run
  obtain ⟨ref, _, run⟩ := Option.bind_eq_some_iff.mp run
  obtain ⟨cell, present, run⟩ := Option.bind_eq_some_iff.mp run
  obtain ⟨delivery, moved, rfl⟩ := Option.map_eq_some_iff.mp run
  have step : cell.delivery.step options .resumeFinish = some delivery := moved
  exact .of_calls (.single (.resumed present step)) rfl

theorem entry_effect {ref : ℕ} {label : DeliveryLabel Handle Tx}
    (run : registry.entry options ref label = some target) : Effect options registry target [] := by
  unfold entry at run
  split_ifs at run with internal
  obtain ⟨cell, present, run⟩ := Option.bind_eq_some_iff.mp run
  obtain ⟨delivery, step, rfl⟩ := Option.map_eq_some_iff.mp run
  exact .of_calls (.single (.entry present step (detached_internal internal step))) rfl

omit [LinearOrder Id] in
theorem core_fire (options : Options) (registry : Registry Id Handle Tx) (claim : Claim Id) :
    (registry.fire options claim).core = registry.core := by
  unfold fire
  split_ifs <;> rfl

/-- Firing the first claim of a batch moves it to the ones fired. -/
theorem fire_effect {claim : Claim Id} (taken : registry.pending.Perm (claim :: target.pending))
    (core : target.core = (registry.fire options claim).core)
    (fired : target.fired = (registry.fire options claim).fired) : Effect options registry target [] := by
  constructor
  · rw [core, core_fire]
    exact .refl
  · intro calling
    rw [fired, fire, if_pos calling, List.append_nil, List.append_assoc, List.singleton_append]
    exact taken.symm.append_left _

theorem expiryTake_effect {now : ℕ} (ids : (registry.sessions.map (·.1)).Nodup)
    (run : registry.expiryTake now = some target) : ∃ claims, Effect options registry target claims := by
  unfold expiryTake at run
  split at run
  · next looping =>
    split_ifs at run
    obtain ⟨changes, same⟩ := takeExpiredLocked_changes options (now : WithTop ℕ) ids
    obtain ⟨fired, pending⟩ := fired_pending_of_calls same
    generalize registry.takeExpiredLocked now = taken at run changes same fired pending
    obtain ⟨taken, claims⟩ := taken
    cases claims with
    | nil =>
      cases run
      exact ⟨[], .of_calls .refl rfl⟩
    | cons claim rest =>
      cases run
      refine ⟨claim :: rest, changes, fun _ => ?_⟩
      have idle : taken.expiry.claims = [] := by
        have expiry : taken.expiry = registry.expiry := congrArg Prod.fst same
        rw [expiry, looping]
        rfl
      have held : registry.pending = taken.drains.flatten ++ taken.teardown.claims := by
        rw [← pending, Registry.pending, idle, List.nil_append]
      have fired : taken.fired = registry.fired := fired
      rw [held, ← fired, List.append_assoc]
      apply List.Perm.append_left _
      simp only [Registry.pending, ExpiryPc.claims]
      rw [List.append_assoc]
      exact List.perm_append_comm
  · cases run

theorem expiryFire_effect (run : registry.expiryFire options = some target) :
    Effect options registry target [] := by
  unfold expiryFire at run
  split at run
  · next firing =>
    cases run
    exact ⟨.refl, fun _ => by simp [pending, firing, ExpiryPc.claims]⟩
  · next claim rest firing =>
    cases run
    refine fire_effect ?_ rfl rfl
    rw [pending, firing, fire]
    split_ifs <;> exact List.Perm.refl _
  · cases run

theorem drain_effect (ids : (registry.sessions.map (·.1)).Nodup) :
    Effect options registry registry.drain (registry.takeExpiredLocked ⊤).2 := by
  obtain ⟨changes, same⟩ := takeExpiredLocked_changes options ⊤ ids
  obtain ⟨fired, pending⟩ := fired_pending_of_calls same
  unfold drain
  generalize registry.takeExpiredLocked ⊤ = taken at changes fired pending
  obtain ⟨taken, claims⟩ := taken
  have fired : taken.fired = registry.fired := fired
  refine ⟨changes, fun _ => ?_⟩
  rw [← pending, ← fired, List.append_assoc]
  apply List.Perm.append_left _
  simp only [Registry.pending, List.flatten_append, List.flatten_cons, List.flatten_nil, List.append_nil,
    List.append_assoc]
  exact (List.perm_append_comm.append_left _).append_left _

theorem drainFire_effect {caller : ℕ} (run : registry.drainFire options caller = some target) :
    Effect options registry target [] := by
  unfold drainFire at run
  split at run
  · next claim rest present =>
    cases run
    refine fire_effect ?_ rfl rfl
    have taken := ((flatten_set_perm present).append_left registry.expiry.claims).append_right
      registry.teardown.claims
    rw [fire]
    split_ifs <;> exact taken.trans (List.perm_middle.append_right _)
  · cases run

theorem destroyExpire_effect (ids : (registry.sessions.map (·.1)).Nodup)
    (run : registry.destroyExpire = some target) : ∃ claims, Effect options registry target claims := by
  unfold destroyExpire at run
  split at run
  · next expiring =>
    obtain ⟨changes, same⟩ := takeExpiredLocked_changes options ⊤ ids
    obtain ⟨fired, pending⟩ := fired_pending_of_calls same
    generalize registry.takeExpiredLocked ⊤ = taken at run changes same fired pending
    obtain ⟨taken, claims⟩ := taken
    cases run
    refine ⟨claims, changes, fun _ => ?_⟩
    have idle : taken.teardown.claims = [] := by
      have teardown : taken.teardown = registry.teardown := congrArg (·.2.2.1) same
      rw [teardown, expiring]
      rfl
    have fired : taken.fired = registry.fired := fired
    rw [← pending, ← fired, List.append_assoc]
    apply List.Perm.append_left _
    rw [Registry.pending.eq_def taken, idle, List.append_nil]
    exact List.Perm.refl _
  · cases run

theorem destroyFire_effect (run : registry.destroyFire options = some target) :
    Effect options registry target [] := by
  unfold destroyFire at run
  split at run
  · next claim rest firing =>
    cases run
    refine fire_effect ?_ rfl rfl
    rw [pending, firing, fire]
    split_ifs <;> exact List.perm_middle
  · cases run

/-- The remaining steps of the destructor stop and join entries. -/
theorem destroyCollect_effect (run : registry.destroyCollect = some target) :
    Effect options registry target [] := by
  unfold destroyCollect at run
  split at run
  · next firing =>
    obtain ⟨changes, same⟩ := collect_changes options registry.sessions registry
    obtain ⟨fired, pending⟩ := fired_pending_of_calls same
    cases run
    refine ⟨changes.trans (.single .cleared), fun _ => ?_⟩
    have idle : (registry.sessions.foldl collectOne registry).teardown.claims = [] := by
      have teardown : (registry.sessions.foldl collectOne registry).teardown = registry.teardown :=
        congrArg (·.2.2.1) same
      rw [teardown, firing]
      rfl
    rw [List.append_nil, ← pending, ← fired]
    apply List.Perm.append_left _
    rw [Registry.pending.eq_def (registry.sessions.foldl collectOne registry), idle, List.append_nil]
    exact List.Perm.of_eq (List.append_nil _)
  · cases run

/-- A step that only moves the destructor on, or an entry along with it. -/
private theorem teardown_effect {teardown : TeardownPc Id} (silent : registry.teardown.claims = [])
    (still : teardown.claims = []) (heap : List (Cell Handle Tx))
    (changes : Core.Changes options registry.core { registry.core with heap } []) :
    Effect options registry { registry with heap, teardown } [] := by
  refine ⟨changes, fun _ => ?_⟩
  simp only [pending, silent, still, List.append_nil]
  exact List.Perm.refl _

theorem destroyStop_effect (run : registry.destroyStop = some target) : Effect options registry target [] := by
  unfold destroyStop at run
  split at run
  · next ref rest all stopping =>
    have silent : registry.teardown.claims = [] := by rw [stopping]; rfl
    split at run
    · cases run
      exact teardown_effect silent rfl registry.heap .refl
    · next cell present =>
      obtain ⟨delivery, moved, rfl⟩ := Option.map_eq_some_iff.mp run
      have step : cell.delivery.step options .requestStop = some delivery := moved
      have same : delivery.entry.detached = cell.delivery.entry.detached := by
        cases Delivery.step_cases step
        rfl
      exact teardown_effect silent rfl _ (.single (.entry present step same))
  · next all stopping =>
    cases run
    exact teardown_effect (by rw [stopping]; rfl) rfl registry.heap .refl
  · cases run

theorem destroyJoin_effect (run : registry.destroyJoin = some target) : Effect options registry target [] := by
  unfold destroyJoin at run
  split at run
  · next ref rest joining =>
    have silent : registry.teardown.claims = [] := by rw [joining]; rfl
    split at run
    · cases run
      exact teardown_effect silent rfl registry.heap .refl
    · next cell present =>
      split_ifs at run
      · cases run
        exact teardown_effect silent rfl registry.heap .refl
      · obtain ⟨delivery, moved, rfl⟩ := Option.map_eq_some_iff.mp run
        have step : cell.delivery.step options .join = some delivery := moved
        have same : delivery.entry.detached = cell.delivery.entry.detached := by
          cases Delivery.step_cases step
          rfl
        exact teardown_effect silent rfl _ (.single (.entry present step same))
  · cases run

/-- Every step of the registry is a sequence of changes to its core, and hands its claims on. -/
theorem step_effect {label : RegistryLabel Id Handle Tx} (ids : (registry.sessions.map (·.1)).Nodup)
    (run : registry.step options label = some target) : ∃ claims, Effect options registry target claims := by
  cases label with
  | add id handle supportsAsync =>
    cases (locking_eq_some run).2
    exact ⟨[], add_effect id handle supportsAsync⟩
  | remove id =>
    cases (locking_eq_some run).2
    exact ⟨[], remove_effect id⟩
  | detach id now =>
    cases (locking_eq_some run).2
    exact ⟨[], detach_effect id now⟩
  | resume id handle supportsAsync now =>
    cases (locking_eq_some run).2
    exact ⟨[], resume_effect id handle supportsAsync now⟩
  | resumeFinish => exact ⟨[], resumeFinish_effect run⟩
  | entry ref label => exact ⟨[], entry_effect run⟩
  | expiryTake now => exact expiryTake_effect ids (locking_eq_some run).2
  | expiryFire => exact ⟨[], expiryFire_effect run⟩
  | expiryExit =>
    have exits := (locking_eq_some run).2
    unfold expiryExit at exits
    split at exits
    · next looping =>
      split_ifs at exits
      cases exits
      exact ⟨[], .refl, fun _ => by simp [pending, looping, ExpiryPc.claims]⟩
    · cases exits
  | drain =>
    cases (locking_eq_some run).2
    exact ⟨_, drain_effect ids⟩
  | drainFire caller => exact ⟨[], drainFire_effect run⟩
  | destroy =>
    have stops := (locking_eq_some run).2
    unfold destroy at stops
    split at stops
    · next alive =>
      cases stops
      exact ⟨[], .refl, fun _ => by simp [pending, alive, TeardownPc.claims]⟩
    · cases stops
  | destroyJoinExpiry =>
    have joins : registry.destroyJoinExpiry = some target := run
    unfold destroyJoinExpiry at joins
    split at joins
    · next stopping absent =>
      cases joins
      exact ⟨[], .refl, fun _ => by simp [pending, stopping, absent, TeardownPc.claims, ExpiryPc.claims]⟩
    · next stopping exited =>
      cases joins
      exact ⟨[], .refl, fun _ => by simp [pending, stopping, exited, TeardownPc.claims, ExpiryPc.claims]⟩
    · cases joins
  | destroyExpire => exact destroyExpire_effect ids (locking_eq_some run).2
  | destroyFire => exact ⟨[], destroyFire_effect run⟩
  | destroyCollect => exact ⟨[], destroyCollect_effect (locking_eq_some run).2⟩
  | destroyStop => exact ⟨[], destroyStop_effect run⟩
  | destroyJoin => exact ⟨[], destroyJoin_effect run⟩

end Pieces

end Registry

end OpalCpp.Server

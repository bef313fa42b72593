import OpalCpp.Proofs.Server.MetricText
import OpalCpp.Proofs.Server.RequestTallies

/-! # Runs of the registry

A session is a registry and the handles it has given out. A call goes through when nothing aborts and
its handle is one of them. What a call can do to the families is said once; that the families stay sound
and that the names stay clear of one another follow over runs.
-/

namespace OpalCpp.Server.Metrics

open scoped Bytes
open Bytes (ascii)
open Exposition (Family Clash)

inductive Call where
  | newCounter (name help : Bytes)
  | newGauge (name help : Bytes)
  | newHistogram (name help : Bytes) (buckets : List Binary64)
  | increment (counter : Handle) (labels : MetricLabels) (amount : Binary64)
  | gaugeSet (gauge : Handle) (labels : MetricLabels) (value : Binary64)
  | gaugeIncrement (gauge : Handle) (labels : MetricLabels) (amount : Binary64)
  | gaugeDecrement (gauge : Handle) (labels : MetricLabels) (amount : Binary64)
  | observe (histogram : Handle) (labels : MetricLabels) (value : Binary64)
  | declare (kind : Kind) (handle : Handle) (labels : MetricLabels)
  | recordStart (start : RequestStart)
  | record (observation : RequestObservation)
  | recordRejection (method : Bytes) (status : ℤ)

structure Session where
  registry : MetricsRegistry
  handles : List (Kind × Handle) := []

namespace Session

/-- A registration gives out a handle. -/
def mint (session : Session) (kind : Kind) (registered : Except String (MetricsRegistry × Handle)) : Option Session :=
  match registered with
  | .ok (registry, handle) => some ⟨registry, (kind, handle) :: session.handles⟩
  | .error _ => none

/-- A call on a handle needs one that was given out. -/
def use (session : Session) (kind : Kind) (handle : Handle) (updated : Except String MetricsRegistry) : Option Session :=
  if (kind, handle) ∈ session.handles then
    match updated with
    | .ok registry => some { session with registry }
    | .error _ => none
  else none

def step (session : Session) : Call → Option Session
  | .newCounter name help => session.mint .counter (session.registry.newCounter name help)
  | .newGauge name help => session.mint .gauge (session.registry.newGauge name help)
  | .newHistogram name help buckets => session.mint .histogram (session.registry.newHistogram name help buckets)
  | .increment counter labels amount =>
    session.use .counter counter (Counter.increment session.registry counter labels amount)
  | .gaugeSet gauge labels value => session.use .gauge gauge (Gauge.set session.registry gauge labels value)
  | .gaugeIncrement gauge labels amount => session.use .gauge gauge (Gauge.increment session.registry gauge labels amount)
  | .gaugeDecrement gauge labels amount => session.use .gauge gauge (Gauge.decrement session.registry gauge labels amount)
  | .observe histogram labels value =>
    session.use .histogram histogram (Histogram.observe session.registry histogram labels value)
  | .declare kind handle labels => session.use kind handle (Handle.declare session.registry handle labels)
  | .recordStart start => some { session with registry := session.registry.recordStart start }
  | .record observation => some { session with registry := session.registry.record observation }
  | .recordRejection method status => some { session with registry := session.registry.recordRejection method status }

/-- A run goes through when each of its calls does. -/
def run (session : Session) (calls : List Call) : Option Session := calls.foldlM step session

end Session

theorem of_bind {α β : Type} {first : Except String α} {next : α → Except String β} {result : β}
    (ran : (do next (← first)) = Except.ok result) : ∃ value, first = .ok value ∧ next value = .ok result := by
  cases first with
  | error message => cases ran
  | ok value => exact ⟨value, rfl, ran⟩

/-! ## What holds of the families -/

/-- The boundaries are ascending numbers. -/
def IsLadder (buckets : List Binary64) : Prop :=
  ∃ numbers : List ℚ, buckets.map Binary64.value? = numbers.map some ∧ numbers.Pairwise (· < ·)

namespace MetricFamily

structure Sound (family : MetricFamily) : Prop where
  ordered : OrderedMap.Ordered family.samples
  rendered : ∀ key ∈ family.samples.map Prod.fst, Rendered (family.kind = .histogram) key
  ladder : family.kind = .histogram → IsLadder family.buckets

/-- An operation changes samples and counts refusals; the family stays the one it is. -/
structure Changes (family changed : MetricFamily) : Prop where
  kind : changed.kind = family.kind
  sound : family.Sound → changed.Sound

theorem changes_self (family : MetricFamily) : Changes family family := ⟨rfl, id⟩

theorem changes_dropped (family : MetricFamily) (dropped : ℕ) : Changes family { family with dropped } :=
  ⟨rfl, fun sound => ⟨sound.ordered, sound.rendered, sound.ladder⟩⟩

theorem changes_modify (family : MetricFamily) (key : Bytes) (change : Sample → Sample) :
    Changes family { family with samples := OrderedMap.modify key change family.samples } := by
  refine ⟨rfl, fun sound => ⟨sound.ordered.modify key change, ?_, sound.ladder⟩⟩
  rw [OrderedMap.keys_modify]
  exact sound.rendered

theorem changes_tryEmplace (family : MetricFamily) {key : Bytes} (rendered : Rendered (family.kind = .histogram) key)
    (sample : Sample) : Changes family { family with samples := OrderedMap.tryEmplace key sample family.samples } := by
  refine ⟨rfl, fun sound => ⟨sound.ordered.tryEmplace key sample, ?_, sound.ladder⟩⟩
  intro other member
  obtain rfl | earlier := OrderedMap.mem_keys_tryEmplace.mp member
  · exact rendered
  · exact sound.rendered other earlier

theorem Changes.trans {first second third : MetricFamily} (changes : Changes first second)
    (changes' : Changes second third) :
    Changes first third := ⟨changes'.kind.trans changes.kind, changes'.sound ∘ changes.sound⟩

theorem add_changes {family changed : MetricFamily} {labels : MetricLabels} {amount : Binary64} {set : Bool}
    (added : family.add labels amount set = .ok changed) : Changes family changed := by
  obtain ⟨key, rendered, added⟩ := of_bind added
  split at added
  · cases added
    exact changes_modify family key _
  · split at added
    · cases added
      exact changes_dropped family _
    · cases added
      exact changes_tryEmplace family (renderLabels_ok rendered) _

theorem observe_changes {family changed : MetricFamily} {labels : MetricLabels} {value : Binary64}
    (observed : family.observe labels value = .ok changed) : Changes family changed := by
  obtain ⟨key, rendered, observed⟩ := of_bind observed
  dsimp only at observed
  split_ifs at observed
  · cases observed
    exact changes_dropped family _
  · cases observed
    exact (changes_tryEmplace family (renderLabels_ok rendered) _).trans (changes_modify _ key _)

theorem declare_changes {family changed : MetricFamily} {labels : MetricLabels}
    (declared : family.declare labels = .ok changed) : Changes family changed := by
  obtain ⟨key, rendered, declared⟩ := of_bind declared
  split_ifs at declared
  · cases declared
    exact changes_self family
  · cases declared
    exact changes_dropped family _
  · cases declared
    exact changes_tryEmplace family (renderLabels_ok rendered) _

end MetricFamily

namespace MetricsRegistry

/-- The families that are written into every exposition. -/
def builtIns : List Family :=
  [(kRequestsTotal, kindText .counter), (kRequestsSuccess, kindText .counter), (kRequestsFailure, kindText .counter),
    (kRequestDuration, kindText .histogram), (kRequestsActive, kindText .gauge), (kObservationsDropped, kindText .counter)]

/-- The families of the exposition. -/
def exposed (registry : MetricsRegistry) : List Family :=
  builtIns ++ registry.families.map fun entry => (entry.1, kindText entry.2.kind)

theorem mem_exposed {registry : MetricsRegistry} {family : Family} :
    family ∈ registry.exposed ↔
      family ∈ builtIns ∨ ∃ entry ∈ registry.families, (entry.1, kindText entry.2.kind) = family := by
  rw [exposed, List.mem_append, List.mem_map]

/-- The order of the maps, and what holds of each family. -/
structure Sound (registry : MetricsRegistry) : Prop where
  routes : OrderedMap.Ordered registry.routes
  inFlight : OrderedMap.Ordered registry.inFlight
  families : OrderedMap.Ordered registry.families
  named : ∀ entry ∈ registry.families, validName entry.1 true = true ∧ entry.1 ∉ reservedNames
  sound : ∀ entry ∈ registry.families, entry.2.Sound

/-- What a call does to a registry: the families that are there keep their names and types, and there may
be one more. -/
structure Evolves (registered : Option Family) (registry next : MetricsRegistry) : Prop where
  options : next.options = registry.options
  sound : registry.Sound → next.Sound
  exposed : ∀ family ∈ next.exposed, family ∈ registry.exposed ∨ registered = some family

theorem evolves_of_families {registry next : MetricsRegistry} (registered : Option Family)
    (options : next.options = registry.options)
    (families : next.families = registry.families)
    (maps : registry.Sound → OrderedMap.Ordered next.routes ∧ OrderedMap.Ordered next.inFlight) :
    Evolves registered registry next := by
  refine ⟨options, fun sound => ?_, ?_⟩
  · obtain ⟨routes, inFlight⟩ := maps sound
    refine ⟨routes, inFlight, ?_, ?_, ?_⟩
    · rw [families]
      exact sound.families
    · rw [families]
      exact sound.named
    · rw [families]
      exact sound.sound
  · rw [exposed, families]
    exact fun family => .inl

/-- A family changes in its place. -/
theorem evolves_update {registry next : MetricsRegistry} {handle : Handle}
    {change : MetricFamily → Except String MetricFamily}
    (changes : ∀ family changed, change family = .ok changed → family.Changes changed)
    (updated : registry.update handle change = .ok next) : Evolves none registry next := by
  cases handle with
  | none =>
    cases updated
    exact evolves_of_families none rfl rfl fun sound => ⟨sound.routes, sound.inFlight⟩
  | some name =>
    rw [update] at updated
    cases found : OrderedMap.find? name registry.families with
    | none =>
      simp only [found] at updated
      cases updated
      exact evolves_of_families none rfl rfl fun sound => ⟨sound.routes, sound.inFlight⟩
    | some family =>
      simp only [found] at updated
      obtain ⟨changed, done, updated⟩ := of_bind updated
      cases updated
      have member := OrderedMap.mem_of_find? found
      have changes := changes family changed done
      have entries : ∀ entry ∈ OrderedMap.modify name (fun _ => changed) registry.families,
          entry = (name, changed) ∨ entry ∈ registry.families := by
        intro entry inside
        obtain ⟨old, earlier, rfl⟩ := List.mem_map.mp inside
        split_ifs with same
        · exact .inl (same ▸ rfl)
        · exact .inr earlier
      refine ⟨rfl, fun sound => ⟨sound.routes, sound.inFlight, sound.families.modify name fun _ => changed, ?_, ?_⟩, ?_⟩
      · intro entry inside
        obtain rfl | earlier := entries entry inside
        · exact sound.named (name, family) member
        · exact sound.named entry earlier
      · intro entry inside
        obtain rfl | earlier := entries entry inside
        · exact changes.sound (sound.sound (name, family) member)
        · exact sound.sound entry earlier
      · intro other exposed_
        refine .inl (mem_exposed.mpr ?_)
        obtain builtIn | ⟨entry, inside, rfl⟩ := mem_exposed.mp exposed_
        · exact .inl builtIn
        · obtain rfl | earlier := entries entry inside
          · exact .inr ⟨(name, family), member, by rw [changes.kind]⟩
          · exact .inr ⟨entry, earlier, rfl⟩

/-- A family comes in, or is there with the same type. -/
theorem evolves_register {registry next : MetricsRegistry} {name help : Bytes} {kind : Kind} {buckets : List Binary64}
    {handle : Handle} (ladder : kind = .histogram → IsLadder buckets)
    (registered : registry.register name help kind buckets = .ok (next, handle)) :
    Evolves (some (name, kindText kind)) registry next := by
  rw [register] at registered
  generalize (if registry.options.enabled then some name else none) = given at registered
  dsimp only at registered
  split_ifs at registered with invalid reserved
  · cases registered
  · cases registered
  · have valid : validName name true = true := by simpa using invalid
    cases found : OrderedMap.find? name registry.families with
    | some existing =>
      simp only [found] at registered
      split_ifs at registered
      · cases registered
      · cases registered
        exact evolves_of_families _ rfl rfl fun sound => ⟨sound.routes, sound.inFlight⟩
    | none =>
      simp only [found] at registered
      cases registered
      refine ⟨rfl, fun sound => ⟨sound.routes, sound.inFlight, sound.families.tryEmplace name _, ?_, ?_⟩, ?_⟩
      · intro entry inside
        obtain rfl | earlier := OrderedMap.mem_tryEmplace inside
        · exact ⟨valid, reserved⟩
        · exact sound.named entry earlier
      · intro entry inside
        obtain rfl | earlier := OrderedMap.mem_tryEmplace inside
        · exact ⟨List.Pairwise.nil, by simp, ladder⟩
        · exact sound.sound entry earlier
      · intro other exposed_
        obtain builtIn | ⟨entry, inside, rfl⟩ := mem_exposed.mp exposed_
        · exact .inl (mem_exposed.mpr (.inl builtIn))
        · obtain rfl | earlier := OrderedMap.mem_tryEmplace inside
          · exact .inr rfl
          · exact .inl (mem_exposed.mpr (.inr ⟨entry, earlier, rfl⟩))

theorem checkBuckets_ok {name : Bytes} {previous : Option Binary64} {buckets : List Binary64}
    (checked : checkBuckets name previous buckets = .ok ()) :
    ∃ numbers : List ℚ, buckets.map Binary64.value? = numbers.map some ∧ numbers.Pairwise (· < ·) ∧
      ∀ before, previous.bind Binary64.value? = some before → ∀ number ∈ numbers, before < number := by
  induction buckets generalizing previous with
  | nil => exact ⟨[], rfl, .nil, by simp⟩
  | cons bound buckets ih =>
    rw [checkBuckets] at checked
    split_ifs at checked with unbounded unsorted
    · cases checked
    · cases checked
    · obtain ⟨numbers, values, ascending, above⟩ := ih checked
      have finite : bound.value?.isSome := by
        rw [finite_iff]
        simpa using unbounded
      obtain ⟨number, value⟩ := Option.isSome_iff_exists.mp finite
      have least := above number (by rw [Option.bind_some, value])
      refine ⟨number :: numbers, by rw [List.map_cons, List.map_cons, value, values],
        List.pairwise_cons.mpr ⟨least, ascending⟩, ?_⟩
      intro before isBefore
      have first : before < number := by
        obtain ⟨old, rfl, oldValue⟩ := Option.bind_eq_some_iff.mp isBefore
        rw [Option.any_some, Bool.or_eq_true, not_or] at unsorted
        simp only [Binary64.less, Binary64.equals, value, oldValue, decide_eq_true_eq] at unsorted
        exact lt_of_le_of_ne (not_lt.mp unsorted.1) (Ne.symm unsorted.2)
      exact List.forall_mem_cons.mpr ⟨first, fun other member => lt_trans first (least other member)⟩

theorem evolves_newHistogram {registry next : MetricsRegistry} {name help : Bytes} {buckets : List Binary64}
    {handle : Handle}
    (registered : registry.newHistogram name help buckets = .ok (next, handle)) :
    Evolves (some (name, kindText .histogram)) registry next := by
  rw [newHistogram] at registered
  split_ifs at registered
  · cases registered
  · obtain ⟨_, checked, registered⟩ := of_bind registered
    obtain ⟨numbers, values, ascending, _⟩ := checkBuckets_ok checked
    exact evolves_register (fun _ => ⟨numbers, values, ascending⟩) registered

theorem families_admitRoute (registry : MetricsRegistry) (key : RouteKey) (change : RouteStats → RouteStats) :
    (registry.admitRoute key change).families = registry.families := by
  rw [admitRoute]
  split_ifs <;> rfl

/-- An event of a request leaves the families alone. -/
theorem evolves_event (registry : MetricsRegistry) (event : RequestEvent) : Evolves none registry (registry.step event) := by
  cases enabled : registry.options.enabled with
  | false =>
    have same : registry.step event = registry := by
      cases event with
      | start start => simp [step, recordStart, enabled]
      | record observation => simp [step, record, enabled]
      | rejection method status => simp [step, recordRejection, enabled]
    rw [same]
    exact evolves_of_families none rfl rfl fun sound => ⟨sound.routes, sound.inFlight⟩
  | true =>
    have families : (registry.step event).families = registry.families := by
      cases event with
      | start start => rw [step, recordStart_eq enabled]
      | record observation => rw [step, record_eq enabled, families_admitRoute, landed]
      | rejection method status => rw [step, recordRejection_eq enabled, families_admitRoute]
    exact evolves_of_families none (step_options enabled event) families fun sound =>
      ⟨step_ordered enabled sound.routes event, step_inFlight enabled sound.inFlight event⟩

/-- No name is one that a histogram adds to another. -/
def Clear (registry : MetricsRegistry) : Prop :=
  ∀ first ∈ registry.exposed, ∀ second ∈ registry.exposed, ¬ Clash first second

theorem sound_create {options : MetricsOptions} {registry : MetricsRegistry} (created : create options = .ok registry) :
    registry.Sound := by
  obtain rfl := create_eq created
  exact ⟨.nil, .nil, .nil, by simp, by simp⟩

theorem clear_create {options : MetricsOptions} {registry : MetricsRegistry} (created : create options = .ok registry) :
    registry.Clear := by
  obtain rfl := create_eq created
  have builtIn : ∀ first ∈ builtIns, ∀ second ∈ builtIns, ¬ Clash first second := by decide
  rw [Clear, exposed, List.map_nil, List.append_nil]
  exact builtIn

end MetricsRegistry

/-! ## What holds of a run -/

namespace Call

/-- The family that a registration is about. -/
def registers : Call → Option Family
  | newCounter name _ => some (name, kindText .counter)
  | newGauge name _ => some (name, kindText .gauge)
  | newHistogram name _ _ => some (name, kindText .histogram)
  | _ => none

/-- A registration keeps clear of the families that are exposed: its name is not one of those that a
histogram adds, and it adds none of theirs. -/
def Clear (registry : MetricsRegistry) (call : Call) : Prop :=
  ∀ family ∈ call.registers, ∀ other ∈ registry.exposed, ¬ Clash family other ∧ ¬ Clash other family

instance (registry : MetricsRegistry) (call : Call) : Decidable (call.Clear registry) :=
  inferInstanceAs (Decidable (∀ family ∈ call.registers, ∀ other ∈ registry.exposed, _))

end Call

namespace Session

theorem of_mint {session next : Session} {kind : Kind} {registered : Except String (MetricsRegistry × Handle)}
    (minted : session.mint kind registered = some next) : ∃ handle, registered = .ok (next.registry, handle) := by
  cases registered with
  | error message => cases minted
  | ok result =>
    cases minted
    exact ⟨result.2, rfl⟩

theorem of_use {session next : Session} {kind : Kind} {handle : Handle} {updated : Except String MetricsRegistry}
    (used : session.use kind handle updated = some next) : updated = .ok next.registry := by
  cases updated with
  | error message => simp [use] at used
  | ok registry =>
    rw [use] at used
    split_ifs at used
    cases used
    rfl

/-- What a call does to the registry. -/
theorem evolves_step {session next : Session} {call : Call} (stepped : session.step call = some next) :
    session.registry.Evolves call.registers next.registry := by
  cases call with
  | newCounter name help =>
    obtain ⟨handle, registered⟩ := of_mint stepped
    rw [MetricsRegistry.newCounter] at registered
    exact MetricsRegistry.evolves_register nofun registered
  | newGauge name help =>
    obtain ⟨handle, registered⟩ := of_mint stepped
    rw [MetricsRegistry.newGauge] at registered
    exact MetricsRegistry.evolves_register nofun registered
  | newHistogram name help buckets =>
    obtain ⟨handle, registered⟩ := of_mint stepped
    exact MetricsRegistry.evolves_newHistogram registered
  | increment counter labels amount =>
    have updated := of_use stepped
    rw [Counter.increment] at updated
    split_ifs at updated
    · cases updated
    · exact MetricsRegistry.evolves_update (fun _ _ => MetricFamily.add_changes) updated
  | gaugeSet gauge labels value =>
    exact MetricsRegistry.evolves_update (fun _ _ => MetricFamily.add_changes) (of_use stepped)
  | gaugeIncrement gauge labels amount =>
    exact MetricsRegistry.evolves_update (fun _ _ => MetricFamily.add_changes) (of_use stepped)
  | gaugeDecrement gauge labels amount =>
    exact MetricsRegistry.evolves_update (fun _ _ => MetricFamily.add_changes) (of_use stepped)
  | observe histogram labels value =>
    exact MetricsRegistry.evolves_update (fun _ _ => MetricFamily.observe_changes) (of_use stepped)
  | declare kind handle labels =>
    exact MetricsRegistry.evolves_update (fun _ _ => MetricFamily.declare_changes) (of_use stepped)
  | recordStart start =>
    cases stepped
    exact MetricsRegistry.evolves_event session.registry (.start start)
  | record observation =>
    cases stepped
    exact MetricsRegistry.evolves_event session.registry (.record observation)
  | recordRejection method status =>
    cases stepped
    exact MetricsRegistry.evolves_event session.registry (.rejection method status)

theorem not_clash_self (family : Family) : ¬ Clash family family := by
  rintro ⟨_, suffix, known, same⟩
  have written : ∀ suffix ∈ Exposition.suffixes, suffix ≠ [] := by decide
  exact written suffix known (List.self_eq_append_right.mp same)

/-- A registration that keeps clear leaves the names clear. -/
theorem clear_step {session next : Session} {call : Call} (stepped : session.step call = some next)
    (clear : session.registry.Clear) (keeps : call.Clear session.registry) : next.registry.Clear := by
  have evolves := evolves_step stepped
  intro first inside second inside'
  obtain earlier | registered := evolves.exposed first inside
  · obtain earlier' | registered' := evolves.exposed second inside'
    · exact clear first earlier second earlier'
    · exact (keeps second registered' first earlier).2
  · obtain earlier' | registered' := evolves.exposed second inside'
    · exact (keeps first registered second earlier').1
    · obtain rfl : first = second := Option.some.inj (registered.symm.trans registered')
      exact not_clash_self first

/-- Each call of a run keeps clear in the state in which it is made. -/
def KeepsClear (session : Session) : List Call → Prop
  | [] => True
  | call :: calls => call.Clear session.registry ∧ ∀ next ∈ session.step call, next.KeepsClear calls

instance decidableKeepsClear : (calls : List Call) → (session : Session) → Decidable (session.KeepsClear calls)
  | [], _ => .isTrue trivial
  | call :: calls, session =>
    have := decidableKeepsClear calls
    inferInstanceAs (Decidable (call.Clear session.registry ∧ ∀ next ∈ session.step call, next.KeepsClear calls))

theorem run_cons {session last : Session} {call : Call} {calls : List Call} (ran : session.run (call :: calls) = some last) :
    ∃ next, session.step call = some next ∧ next.run calls = some last := Option.bind_eq_some_iff.mp ran

theorem run_sound {session last : Session} {calls : List Call} (ran : session.run calls = some last)
    (sound : session.registry.Sound) : last.registry.Sound := by
  induction calls generalizing session with
  | nil =>
    cases ran
    exact sound
  | cons call calls ih =>
    obtain ⟨next, stepped, rest⟩ := run_cons ran
    exact ih rest ((evolves_step stepped).sound sound)

theorem run_clear {session last : Session} {calls : List Call} (ran : session.run calls = some last)
    (clear : session.registry.Clear) (keeps : session.KeepsClear calls) : last.registry.Clear := by
  induction calls generalizing session with
  | nil =>
    cases ran
    exact clear
  | cons call calls ih =>
    obtain ⟨next, stepped, rest⟩ := run_cons ran
    exact ih rest (clear_step stepped clear keeps.1) (keeps.2 next stepped)

end Session

end OpalCpp.Server.Metrics

import OpalCpp.Model.Server.Metrics

/-! # The tallies of requests

A run of starts, completions and rejections keeps the tallies of a registry that is enabled in
agreement. One step says what an event does to the record of each route, to the keys and to the gauge;
the runs follow by induction on their last event.
-/

namespace OpalCpp.Server.Metrics

open scoped Bytes
open Ladder (cumulative tally)

inductive RequestEvent where
  | start (start : RequestStart)
  | record (observation : RequestObservation)
  | rejection (method : Bytes) (status : ℤ)

namespace RequestEvent

/-- The event is counted under a route. -/
def isCounted : RequestEvent → Bool
  | start _ => false
  | record _ => true
  | rejection _ _ => true

/-- A start of a request with the method, as it is labelled. -/
def starts (method : Bytes) : RequestEvent → Bool
  | start request => normalizeMethod request.method = method
  | record _ => false
  | rejection _ _ => false

/-- A completion of a request with the method, as it is labelled. -/
def completes (method : Bytes) : RequestEvent → Bool
  | start _ => false
  | record observation => normalizeMethod observation.method = method
  | rejection _ _ => false

/-- A completion takes a start of its method for its own, of those that wait for one. -/
def pair (waiting : List Bytes) : RequestEvent → Option (List Bytes)
  | start request => some (request.method :: waiting)
  | record observation => if observation.method ∈ waiting then some (waiting.erase observation.method) else none
  | rejection _ _ => some waiting

end RequestEvent

/-- Each completion has a start of its own before it, with the same method. -/
def Paired (events : List RequestEvent) : Prop := (events.foldlM RequestEvent.pair []).isSome

instance (events : List RequestEvent) : Decidable (Paired events) :=
  inferInstanceAs (Decidable ((events.foldlM RequestEvent.pair []).isSome = true))

theorem Paired.of_prefix {before events : List RequestEvent} (paired : Paired events) (earlier : before <+: events) :
    Paired before := by
  obtain ⟨after, rfl⟩ := earlier
  obtain ⟨waiting, ran⟩ := Option.isSome_iff_exists.mp paired
  rw [List.foldlM_append] at ran
  obtain ⟨between, first, _⟩ := Option.bind_eq_some_iff.mp ran
  exact Option.isSome_iff_exists.mpr ⟨between, first⟩

namespace MetricsRegistry

def step (registry : MetricsRegistry) : RequestEvent → MetricsRegistry
  | .start start => registry.recordStart start
  | .record observation => registry.record observation
  | .rejection method status => registry.recordRejection method status

def run (registry : MetricsRegistry) (events : List RequestEvent) : MetricsRegistry := events.foldl step registry

/-- The observation, when it is admitted under the key. -/
def admission (registry : MetricsRegistry) (key : RouteKey) : RequestEvent → List RequestObservation
  | .start _ => []
  | .record observation => if routeKey observation = key ∧ registry.admits key then [observation] else []
  | .rejection _ _ => []

/-- The observations of a run that are admitted under a key, in order. -/
def admitted (registry : MetricsRegistry) (key : RouteKey) : List RequestEvent → List RequestObservation
  | [] => []
  | event :: events => registry.admission key event ++ (registry.step event).admitted key events

/-- What the gauge shows of a method. -/
def gauge (registry : MetricsRegistry) (method : Bytes) : ℤ := (OrderedMap.find? method registry.inFlight).getD 0

theorem run_concat (registry : MetricsRegistry) (events : List RequestEvent) (event : RequestEvent) :
    registry.run (events ++ [event]) = (registry.run events).step event := by
  rw [run, List.foldl_append]
  rfl

theorem admitted_concat (registry : MetricsRegistry) (key : RouteKey) (events : List RequestEvent) (event : RequestEvent) :
    registry.admitted key (events ++ [event]) =
      registry.admitted key events ++ (registry.run events).admission key event := by
  induction events generalizing registry with
  | nil => simp [admitted, run]
  | cons first events ih =>
    rw [List.cons_append, admitted, ih, admitted, List.append_assoc]
    rfl

/-! ## One step -/

/-- The record of a route that is admitted for the first time. -/
def fresh : RouteStats := { buckets := List.replicate HttpLatencyBuckets.length 0 }

section AdmitRoute

variable {registry : MetricsRegistry} {key : RouteKey} {change : RouteStats → RouteStats}

theorem admitRoute_eq (admits : registry.admits key) :
    registry.admitRoute key change =
      { registry with routes := OrderedMap.modify key change (OrderedMap.tryEmplace key fresh registry.routes) } :=
  if_pos admits

theorem admitRoute_of_not (refused : ¬ registry.admits key) :
    registry.admitRoute key change = { registry with observationsDropped := registry.observationsDropped + 1 } :=
  if_neg refused

theorem admitRoute_options : (registry.admitRoute key change).options = registry.options := by
  rw [admitRoute]
  split_ifs <;> rfl

theorem admitRoute_inFlight : (registry.admitRoute key change).inFlight = registry.inFlight := by
  rw [admitRoute]
  split_ifs <;> rfl

theorem ordered_admitRoute (ordered : OrderedMap.Ordered registry.routes) :
    OrderedMap.Ordered (registry.admitRoute key change).routes := by
  rw [admitRoute]
  split_ifs
  · exact (ordered.tryEmplace key _).modify key change
  · exact ordered

theorem keys_admitRoute {other : RouteKey} (member : other ∈ registry.routes.map Prod.fst) :
    other ∈ (registry.admitRoute key change).routes.map Prod.fst := by
  rw [admitRoute]
  split_ifs
  · rw [OrderedMap.keys_modify]
    exact OrderedMap.mem_keys_tryEmplace.mpr (.inr member)
  · exact member

/-- The cap holds after an admission: a key is new only where there is room for it. -/
theorem length_admitRoute (capped : registry.routes.length ≤ registry.options.maxSeries)
    (ordered : OrderedMap.Ordered registry.routes) :
    (registry.admitRoute key change).routes.length ≤ registry.options.maxSeries := by
  by_cases admits : registry.admits key
  · rw [admitRoute_eq admits]
    dsimp only
    rw [OrderedMap.length_modify]
    by_cases present : key ∈ registry.routes.map Prod.fst
    · rw [OrderedMap.tryEmplace_of_mem ordered _ present]
      exact capped
    · rw [OrderedMap.length_tryEmplace _ present]
      obtain found | room := admits
      · exact absurd (OrderedMap.find?_isSome.mp found) present
      · exact room
  · rw [admitRoute_of_not admits]
    exact capped

/-- The record of the key changes when it is admitted, and no other one does. -/
theorem find?_admitRoute (ordered : OrderedMap.Ordered registry.routes) (other : RouteKey) :
    OrderedMap.find? other (registry.admitRoute key change).routes =
      if other = key ∧ registry.admits key then some (change ((OrderedMap.find? key registry.routes).getD fresh))
      else OrderedMap.find? other registry.routes := by
  by_cases admits : registry.admits key
  · rw [admitRoute_eq admits]
    dsimp only
    rw [OrderedMap.find?_modify]
    by_cases same : other = key
    · subst same
      rw [OrderedMap.find?_tryEmplace_self ordered]
      simp [admits]
    · rw [OrderedMap.find?_tryEmplace_of_ne same]
      simp [same]
  · rw [admitRoute_of_not admits]
    simp [admits]

/-- The requests and the refusals are one more. -/
theorem total_admitRoute (counts : ∀ stats, (change stats).requests = stats.requests + 1)
    (ordered : OrderedMap.Ordered registry.routes) :
    ((registry.admitRoute key change).routes.map fun entry => entry.2.requests).sum +
        (registry.admitRoute key change).observationsDropped =
      (registry.routes.map fun entry => entry.2.requests).sum + registry.observationsDropped + 1 := by
  by_cases admits : registry.admits key
  · have present : key ∈ (OrderedMap.tryEmplace key fresh registry.routes).map Prod.fst :=
      OrderedMap.mem_keys_tryEmplace.mpr (.inl rfl)
    have heavier := OrderedMap.sum_modify RouteStats.requests counts (ordered.tryEmplace key fresh) present
    have same : ((OrderedMap.tryEmplace key fresh registry.routes).map fun entry => entry.2.requests).sum = _ :=
      OrderedMap.sum_tryEmplace RouteStats.requests key rfl registry.routes
    rw [admitRoute_eq admits]
    dsimp only
    omega
  · rw [admitRoute_of_not admits]
    dsimp only
    omega

end AdmitRoute

/-! ## The record of a route -/

/-- The bucket of an observation. -/
def bucketOf (observation : RequestObservation) : ℕ :=
  lowerBound HttpLatencyBuckets (Binary64.nearest observation.duration.toInt)

/-- A record agrees with the observations that were admitted under its key. -/
structure Agrees (stats : RouteStats) (observations : List RequestObservation) : Prop where
  outcomes : stats.requests = stats.success + stats.failure
  buckets : stats.buckets = tally HttpLatencyBuckets.length bucketOf observations
  timed : stats.durationCount = observations.length

theorem agrees_fresh : Agrees fresh [] := ⟨rfl, rfl, rfl⟩

theorem requests_count (stats : RouteStats) (status : ℤ) : (stats.count status).requests = stats.requests + 1 := by
  rw [RouteStats.count]
  split_ifs <;> rfl

theorem Agrees.count {stats : RouteStats} {observations : List RequestObservation} (agrees : Agrees stats observations)
    (status : ℤ) : Agrees (stats.count status) observations := by
  have outcomes := agrees.outcomes
  rw [RouteStats.count]
  split_ifs
  · exact ⟨by dsimp only; omega, agrees.buckets, agrees.timed⟩
  · exact ⟨by dsimp only; omega, agrees.buckets, agrees.timed⟩

theorem Agrees.time {stats : RouteStats} {observations : List RequestObservation} (agrees : Agrees stats observations)
    (observation : RequestObservation) :
    Agrees (stats.time (Binary64.nearest observation.duration.toInt)) (observations ++ [observation]) := by
  refine ⟨agrees.outcomes, ?_, ?_⟩
  · rw [Ladder.tally_concat, ← agrees.buckets]
    rfl
  · rw [List.length_append, List.length_singleton, ← agrees.timed]
    rfl

/-- The record of a key, or the one it would get. -/
def statsOf (registry : MetricsRegistry) (key : RouteKey) : RouteStats := (OrderedMap.find? key registry.routes).getD fresh

theorem statsOf_admitRoute {registry : MetricsRegistry} (ordered : OrderedMap.Ordered registry.routes) (key other : RouteKey)
    (change : RouteStats → RouteStats) :
    statsOf (registry.admitRoute key change) other =
      if key = other ∧ registry.admits other then change (statsOf registry other) else statsOf registry other := by
  rw [statsOf, find?_admitRoute ordered]
  by_cases same : key = other
  · subst same
    split_ifs <;> simp_all [statsOf]
  · rw [if_neg fun both => same both.1.symm, if_neg fun both => same both.1, statsOf]

/-! ## What holds of a step -/

section Step

variable {registry : MetricsRegistry} (enabled : registry.options.enabled = true)

/-- The registry with a request less in flight. -/
def landed (registry : MetricsRegistry) (method : Bytes) : MetricsRegistry :=
  { registry with
    inFlight := OrderedMap.modify method (fun count => if 0 < count then count - 1 else count) registry.inFlight }

theorem admits_landed (method : Bytes) (key : RouteKey) : (landed registry method).admits key ↔ registry.admits key :=
  Iff.rfl

theorem statsOf_landed (method : Bytes) (key : RouteKey) : statsOf (landed registry method) key = statsOf registry key := rfl

include enabled

theorem recordStart_eq (start : RequestStart) :
    registry.recordStart start =
      { registry with
        inFlight := OrderedMap.modify (normalizeMethod start.method) (· + 1)
          (OrderedMap.tryEmplace (normalizeMethod start.method) 0 registry.inFlight) } := by
  rw [recordStart, enabled]
  rfl

theorem record_eq (observation : RequestObservation) :
    registry.record observation =
      (landed registry (normalizeMethod observation.method)).admitRoute (routeKey observation) fun stats =>
        (stats.count observation.status).time (Binary64.nearest observation.duration.toInt) := by
  rw [record, enabled]
  rfl

theorem recordRejection_eq (method : Bytes) (status : ℤ) :
    registry.recordRejection method status = registry.admitRoute (rejectionKey method) fun stats => stats.count status := by
  rw [recordRejection, enabled]
  rfl

theorem step_options (event : RequestEvent) : (registry.step event).options = registry.options := by
  cases event with
  | start start => rw [step, recordStart_eq enabled]
  | record observation => rw [step, record_eq enabled, admitRoute_options, landed]
  | rejection method status => rw [step, recordRejection_eq enabled, admitRoute_options]

theorem step_ordered (ordered : OrderedMap.Ordered registry.routes) (event : RequestEvent) :
    OrderedMap.Ordered (registry.step event).routes := by
  cases event with
  | start start =>
    rw [step, recordStart_eq enabled]
    exact ordered
  | record observation =>
    rw [step, record_eq enabled]
    exact ordered_admitRoute ordered
  | rejection method status =>
    rw [step, recordRejection_eq enabled]
    exact ordered_admitRoute ordered

theorem step_capped (ordered : OrderedMap.Ordered registry.routes)
    (capped : registry.routes.length ≤ registry.options.maxSeries) (event : RequestEvent) :
    (registry.step event).routes.length ≤ registry.options.maxSeries := by
  cases event with
  | start start =>
    rw [step, recordStart_eq enabled]
    exact capped
  | record observation =>
    rw [step, record_eq enabled]
    exact @length_admitRoute (landed registry _) _ _ capped ordered
  | rejection method status =>
    rw [step, recordRejection_eq enabled]
    exact length_admitRoute capped ordered

theorem step_keys {key : RouteKey} (member : key ∈ registry.routes.map Prod.fst) (event : RequestEvent) :
    key ∈ (registry.step event).routes.map Prod.fst := by
  cases event with
  | start start =>
    rw [step, recordStart_eq enabled]
    exact member
  | record observation =>
    rw [step, record_eq enabled]
    exact @keys_admitRoute (landed registry _) _ _ _ member
  | rejection method status =>
    rw [step, recordRejection_eq enabled]
    exact keys_admitRoute member

theorem step_total (ordered : OrderedMap.Ordered registry.routes) (event : RequestEvent) :
    ((registry.step event).routes.map fun entry => entry.2.requests).sum + (registry.step event).observationsDropped =
      (registry.routes.map fun entry => entry.2.requests).sum + registry.observationsDropped +
        if event.isCounted then 1 else 0 := by
  cases event with
  | start start =>
    rw [step, recordStart_eq enabled]
    rfl
  | record observation =>
    rw [step, record_eq enabled]
    exact @total_admitRoute (landed registry _) _ _ (fun stats => requests_count stats _) ordered
  | rejection method status =>
    rw [step, recordRejection_eq enabled]
    exact total_admitRoute (fun stats => requests_count stats status) ordered

theorem step_agrees (ordered : OrderedMap.Ordered registry.routes) {key : RouteKey} {observations : List RequestObservation}
    (agrees : Agrees (statsOf registry key) observations) (event : RequestEvent) :
    Agrees (statsOf (registry.step event) key) (observations ++ registry.admission key event) := by
  cases event with
  | start start =>
    rw [step, recordStart_eq enabled, admission, List.append_nil]
    exact agrees
  | record observation =>
    have changed := @statsOf_admitRoute (landed registry (normalizeMethod observation.method)) ordered
      (routeKey observation) key fun stats =>
        (stats.count observation.status).time (Binary64.nearest observation.duration.toInt)
    simp only [admits_landed, statsOf_landed] at changed
    rw [step, record_eq enabled, changed, admission]
    by_cases admits : routeKey observation = key ∧ registry.admits key
    · rw [if_pos admits, if_pos admits]
      exact (agrees.count _).time observation
    · rw [if_neg admits, if_neg admits, List.append_nil]
      exact agrees
  | rejection method status =>
    rw [step, recordRejection_eq enabled, statsOf_admitRoute ordered, admission, List.append_nil]
    split_ifs
    · exact agrees.count status
    · exact agrees

end Step

/-! ## The gauge -/

theorem gauge_recordStart {registry : MetricsRegistry} (enabled : registry.options.enabled = true)
    (ordered : OrderedMap.Ordered registry.inFlight) (start : RequestStart) (method : Bytes) :
    (registry.recordStart start).gauge method =
      registry.gauge method + if normalizeMethod start.method = method then 1 else 0 := by
  rw [recordStart_eq enabled, gauge, OrderedMap.find?_modify]
  by_cases same : normalizeMethod start.method = method
  · subst same
    rw [OrderedMap.find?_tryEmplace_self ordered]
    simp [gauge]
  · rw [OrderedMap.find?_tryEmplace_of_ne (Ne.symm same)]
    simp [gauge, same, Ne.symm same]

/-- Only a gauge that is up goes down, whether the route is admitted or not. -/
theorem gauge_record {registry : MetricsRegistry} (enabled : registry.options.enabled = true)
    (observation : RequestObservation) {method : Bytes}
    (up : normalizeMethod observation.method = method → 0 < registry.gauge method) :
    (registry.record observation).gauge method =
      registry.gauge method - if normalizeMethod observation.method = method then 1 else 0 := by
  rw [record_eq enabled, gauge, admitRoute_inFlight, landed, OrderedMap.find?_modify]
  by_cases same : normalizeMethod observation.method = method
  · have positive := up same
    rw [gauge] at positive ⊢
    cases found : OrderedMap.find? method registry.inFlight with
    | none => simp [found] at positive
    | some count =>
      rw [found, Option.getD_some] at positive
      simp [same, positive]
  · simp [gauge, same, Ne.symm same]

theorem step_inFlight {registry : MetricsRegistry} (enabled : registry.options.enabled = true)
    (ordered : OrderedMap.Ordered registry.inFlight) (event : RequestEvent) :
    OrderedMap.Ordered (registry.step event).inFlight := by
  cases event with
  | start start =>
    rw [step, recordStart_eq enabled]
    dsimp only
    exact (ordered.tryEmplace _ _).modify _ _
  | record observation =>
    rw [step, record_eq enabled, admitRoute_inFlight, landed]
    dsimp only
    exact ordered.modify _ _
  | rejection method status =>
    rw [step, recordRejection_eq enabled, admitRoute_inFlight]
    exact ordered

/-- The gauge counts the starts that wait for a completion, and stays so as long as no completion is
without a start. -/
theorem gauge_step {registry : MetricsRegistry} (enabled : registry.options.enabled = true)
    (ordered : OrderedMap.Ordered registry.inFlight) {waiting left : List Bytes} {event : RequestEvent}
    (paired : event.pair waiting = some left) {method : Bytes}
    (before : registry.gauge method = waiting.countP (normalizeMethod · = method)) :
    (registry.step event).gauge method = left.countP (normalizeMethod · = method) := by
  cases event with
  | start start =>
    cases paired
    rw [step, gauge_recordStart enabled ordered, before, List.countP_cons]
    simp
  | record observation =>
    rw [RequestEvent.pair] at paired
    split_ifs at paired with own
    cases paired
    have removed := List.countP_erase (normalizeMethod · = method) waiting observation.method
    have some_ : normalizeMethod observation.method = method → 0 < waiting.countP (normalizeMethod · = method) := by
      intro same
      exact List.countP_pos_iff.mpr ⟨_, own, decide_eq_true same⟩
    rw [step, gauge_record enabled observation fun same => by rw [before]; exact_mod_cast some_ same, before, removed]
    split_ifs <;> simp_all
  | rejection method' status =>
    cases paired
    rw [step, recordRejection_eq enabled, gauge, admitRoute_inFlight]
    exact before

/-! ## What holds of a run -/

section Run

variable {options : MetricsOptions} (enabled : options.enabled = true)

include enabled

theorem run_options (events : List RequestEvent) : (run { options } events).options = options := by
  induction events using List.reverseRecOn with
  | nil => rfl
  | append_singleton events event ih => rw [run_concat, step_options (by rw [ih, enabled]), ih]

theorem run_enabled (events : List RequestEvent) : (run { options } events).options.enabled = true := by
  rw [run_options enabled]
  exact enabled

theorem run_ordered (events : List RequestEvent) : OrderedMap.Ordered (run { options } events).routes := by
  induction events using List.reverseRecOn with
  | nil => exact List.Pairwise.nil
  | append_singleton events event ih =>
    rw [run_concat]
    exact step_ordered (run_enabled enabled events) ih event

theorem run_inFlight (events : List RequestEvent) : OrderedMap.Ordered (run { options } events).inFlight := by
  induction events using List.reverseRecOn with
  | nil => exact List.Pairwise.nil
  | append_singleton events event ih =>
    rw [run_concat]
    exact step_inFlight (run_enabled enabled events) ih event

theorem run_capped (events : List RequestEvent) : (run { options } events).routes.length ≤ options.maxSeries := by
  induction events using List.reverseRecOn with
  | nil => exact Nat.zero_le _
  | append_singleton events event ih =>
    have same := run_options enabled events
    have capped := step_capped (run_enabled enabled events) (run_ordered enabled events) (by rw [same]; exact ih) event
    rw [run_concat]
    rwa [same] at capped

theorem run_keys {key : RouteKey} (before after : List RequestEvent)
    (member : key ∈ (run { options } before).routes.map Prod.fst) :
    key ∈ (run { options } (before ++ after)).routes.map Prod.fst := by
  induction after using List.reverseRecOn with
  | nil => rwa [List.append_nil]
  | append_singleton after event ih =>
    rw [← List.append_assoc, run_concat]
    exact step_keys (run_enabled enabled (before ++ after)) ih event

theorem run_total (events : List RequestEvent) :
    ((run { options } events).routes.map fun entry => entry.2.requests).sum + (run { options } events).observationsDropped =
      events.countP RequestEvent.isCounted := by
  induction events using List.reverseRecOn with
  | nil => rfl
  | append_singleton events event ih =>
    rw [run_concat, step_total (run_enabled enabled events) (run_ordered enabled events), ih, List.countP_append,
      List.countP_singleton]

theorem run_agrees (events : List RequestEvent) (key : RouteKey) :
    Agrees (statsOf (run { options } events) key) (admitted { options } key events) := by
  induction events using List.reverseRecOn with
  | nil => exact agrees_fresh
  | append_singleton events event ih =>
    rw [run_concat, admitted_concat]
    exact step_agrees (run_enabled enabled events) (run_ordered enabled events) ih event

/-- The record that is found for a key agrees with what was admitted under it. -/
theorem agrees_of_mem (events : List RequestEvent) {entry : RouteKey × RouteStats}
    (member : entry ∈ (run { options } events).routes) : Agrees entry.2 (admitted { options } entry.1 events) := by
  have agrees := run_agrees enabled events entry.1
  rwa [statsOf, OrderedMap.find?_of_mem (run_ordered enabled events) member, Option.getD_some] at agrees

theorem run_gauge {events : List RequestEvent} {waiting : List Bytes}
    (paired : events.foldlM RequestEvent.pair [] = some waiting) (method : Bytes) :
    (run { options } events).gauge method = waiting.countP (normalizeMethod · = method) := by
  induction events using List.reverseRecOn generalizing waiting with
  | nil =>
    cases paired
    rfl
  | append_singleton events event ih =>
    rw [List.foldlM_append] at paired
    obtain ⟨between, first, last⟩ := Option.bind_eq_some_iff.mp paired
    obtain ⟨left, taken, last⟩ := Option.bind_eq_some_iff.mp last
    cases last
    rw [run_concat]
    exact gauge_step (run_enabled enabled events) (run_inFlight enabled events) taken (ih first)

end Run

/-- The starts that wait are those that have not been completed. -/
theorem countP_waiting {events : List RequestEvent} {waiting : List Bytes}
    (paired : events.foldlM RequestEvent.pair [] = some waiting) (method : Bytes) :
    waiting.countP (normalizeMethod · = method) + events.countP (RequestEvent.completes method) =
      events.countP (RequestEvent.starts method) := by
  induction events using List.reverseRecOn generalizing waiting with
  | nil =>
    cases paired
    rfl
  | append_singleton events event ih =>
    rw [List.foldlM_append] at paired
    obtain ⟨between, first, last⟩ := Option.bind_eq_some_iff.mp paired
    obtain ⟨left, taken, last⟩ := Option.bind_eq_some_iff.mp last
    cases last
    have counted := ih first
    rw [List.countP_append, List.countP_append, List.countP_singleton, List.countP_singleton]
    cases event with
    | start start =>
      cases taken
      rw [List.countP_cons]
      simp only [RequestEvent.starts, RequestEvent.completes, Bool.false_eq_true, ↓reduceIte, decide_eq_true_eq]
      split_ifs <;> omega
    | record observation =>
      rw [RequestEvent.pair] at taken
      split_ifs at taken with own
      cases taken
      have removed := List.countP_erase (normalizeMethod · = method) between observation.method
      have some_ : normalizeMethod observation.method = method → 0 < between.countP (normalizeMethod · = method) := by
        intro same
        exact List.countP_pos_iff.mpr ⟨_, own, decide_eq_true same⟩
      simp only [RequestEvent.starts, RequestEvent.completes, Bool.false_eq_true, ↓reduceIte, decide_eq_true_eq]
      simp only [own, true_and, decide_eq_true_eq] at removed
      split_ifs at removed ⊢ with same
      · have positive := some_ same
        omega
      · omega
    | rejection method' status =>
      cases taken
      simpa [RequestEvent.starts, RequestEvent.completes] using counted

/-! ## The buckets -/

theorem bucketOf_eq (observation : RequestObservation) :
    bucketOf observation = Ladder.place latencyBounds observation.duration.toInt := by
  have range : |(observation.duration.toInt : ℚ)| < 2 ^ (1023 : ℤ) := by
    have low := observation.duration.le_toInt
    have high := observation.duration.toInt_lt
    have size : |observation.duration.toInt| ≤ 2 ^ 63 := abs_le.mpr ⟨low, high.le⟩
    have bounded : |(observation.duration.toInt : ℚ)| ≤ 2 ^ (63 : ℤ) := by
      rw [← Int.cast_abs]
      exact_mod_cast size
    exact lt_of_le_of_lt bounded (zpow_lt_zpow_right₀ one_lt_two (by decide))
  have few : ∀ bound ∈ latencyBounds, 0 ≤ bound ∧ bound < 2 ^ 52 := by decide
  rw [bucketOf, lowerBound, HttpLatencyBuckets, List.findIdx_map, Ladder.place]
  apply Ladder.findIdx_congr
  intro bound member
  obtain ⟨nonneg, small⟩ := few bound member
  have compares := Binary64.less_nearest nonneg small range
  rw [Function.comp_apply, Bool.eq_iff_iff, Bool.not_eq_true', ← Bool.not_eq_true, compares, not_lt, decide_eq_true_eq]

/-- The running totals of a record count the observations up to each boundary. -/
theorem Agrees.totals {stats : RouteStats} {observations : List RequestObservation} (agrees : Agrees stats observations) :
    cumulative stats.buckets =
      latencyBounds.map fun bound => observations.countP fun observation => observation.duration.toInt ≤ bound := by
  have ascending : latencyBounds.Pairwise (· < ·) := by decide
  rw [agrees.buckets, Ladder.cumulative_tally]
  apply List.ext_getElem (by simp [HttpLatencyBuckets])
  intro i inside within
  rw [List.length_map] at within
  rw [List.getElem_map, List.getElem_range, List.getElem_map]
  apply List.countP_congr
  intro observation _
  rw [decide_eq_true_eq, decide_eq_true_eq, bucketOf_eq]
  exact Ladder.place_le_iff ascending (List.getElem?_eq_getElem within) observation.duration.toInt

theorem Agrees.totals_facts {stats : RouteStats} {observations : List RequestObservation}
    (agrees : Agrees stats observations) :
    (cumulative stats.buckets).Pairwise (· ≤ ·) ∧ ∀ total ∈ cumulative stats.buckets, total ≤ stats.durationCount := by
  have ascending : latencyBounds.Pairwise (· < ·) := by decide
  rw [agrees.totals, agrees.timed]
  constructor
  · apply List.pairwise_map.mpr
    apply ascending.imp
    intro low high below
    apply List.countP_mono_left
    intro observation _ within
    rw [decide_eq_true_eq] at within ⊢
    exact le_trans within below.le
  · intro total member
    obtain ⟨bound, _, rfl⟩ := List.mem_map.mp member
    exact List.countP_le_length

theorem create_eq {options : MetricsOptions} {registry : MetricsRegistry} (created : create options = .ok registry) :
    registry = { options } := by
  rw [create] at created
  split_ifs at created
  · cases created
  · cases created
    rfl

/-- The tallies of every run of an enabled registry agree: with one another, with the number of requests
that were reported, with the cap, with the latencies that were admitted, and the gauge with the requests
that are in flight. -/
theorem request_tallies_add_up {options : MetricsOptions} {registry : MetricsRegistry}
    (created : create options = .ok registry)
    (enabled : options.enabled = true) (events : List RequestEvent) :
    (∀ entry ∈ (registry.run events).routes, entry.2.requests = entry.2.success + entry.2.failure) ∧
    ((registry.run events).routes.map fun entry => entry.2.requests).sum + (registry.run events).observationsDropped =
      events.countP RequestEvent.isCounted ∧
    (registry.run events).routes.length ≤ options.maxSeries ∧
    (∀ before, before <+: events →
      (registry.run before).routes.map Prod.fst ⊆ (registry.run events).routes.map Prod.fst) ∧
    (∀ entry ∈ (registry.run events).routes,
      cumulative entry.2.buckets =
        latencyBounds.map (fun bound => (registry.admitted entry.1 events).countP (·.duration.toInt ≤ bound)) ∧
      (cumulative entry.2.buckets).Pairwise (· ≤ ·) ∧
      (∀ total ∈ cumulative entry.2.buckets, total ≤ entry.2.durationCount) ∧
      entry.2.durationCount = (registry.admitted entry.1 events).length) ∧
    (Paired events → ∀ before, before <+: events → ∀ method,
      (registry.run before).gauge (normalizeMethod method) =
        (before.countP (RequestEvent.starts (normalizeMethod method)) : ℤ) -
          before.countP (RequestEvent.completes (normalizeMethod method))) := by
  obtain rfl := create_eq created
  refine ⟨?_, run_total enabled events, run_capped enabled events, ?_, ?_, ?_⟩
  · intro entry member
    exact (agrees_of_mem enabled events member).outcomes
  · rintro before ⟨after, rfl⟩ key member
    exact run_keys enabled before after member
  · intro entry member
    have agrees := agrees_of_mem enabled events member
    exact ⟨agrees.totals, agrees.totals_facts.1, agrees.totals_facts.2, agrees.timed⟩
  · intro paired before earlier method
    obtain ⟨waiting, ran⟩ := Option.isSome_iff_exists.mp (paired.of_prefix earlier)
    have waits := countP_waiting ran (normalizeMethod method)
    rw [run_gauge enabled ran]
    omega

/-- Two requests in flight, a cap of one route, and a completion that the cap refuses. -/
theorem request_tallies_at_cap :
    let events : List RequestEvent :=
      [.start ⟨Bytes.ascii "GET"⟩, .start ⟨Bytes.ascii "BREW"⟩, .record ⟨Bytes.ascii "GET", Bytes.ascii "List", 200, 90⟩,
        .record ⟨Bytes.ascii "BREW", Bytes.ascii "Pour", 405, 20⟩, .rejection [] 431]
    let registry : MetricsRegistry := { options := { enabled := true, serviceName := Bytes.ascii "todo", maxSeries := 1 } }
    (registry.run events).routes.length ≤ 1 ∧
    ((registry.run events).routes.map fun entry => entry.2.requests).sum + (registry.run events).observationsDropped = 3 ∧
    (registry.run (events.take 3)).gauge (Bytes.ascii "CUSTOM") = 1 := by
  intro events registry
  have facts := request_tallies_add_up (rfl : create registry.options = .ok registry) rfl events
  have gauge := facts.2.2.2.2.2 (by decide) (events.take 3) (List.take_prefix 3 events) (Bytes.ascii "BREW")
  exact ⟨facts.2.2.1, facts.2.1, gauge⟩

end MetricsRegistry

end OpalCpp.Server.Metrics

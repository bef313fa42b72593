import OpalCpp.Machine.Run
import OpalCpp.Proofs.Server.MetricRuns

/-! # The series of a family are its label sets

The rendering of labels tells label sets apart and nothing else. A call on a family hits the series of its
rendering if that is there or there is room for it, and is dropped otherwise; over every run of calls the
series that are hit are told apart by the label sets of the calls.
-/

namespace OpalCpp.Server.Metrics

open scoped Bytes
open Exposition (SameLabels labelsText parseLabels_text newline_notMem_labels)

/-! ## Renderings -/

theorem perm_sortedLabels (labels : MetricLabels) : (sortedLabels labels).Perm labels := List.perm_insertionSort _ labels

theorem sameLabels_of_perm {first second : MetricLabels} (perm : first.Perm second) : SameLabels first second :=
  ⟨perm.subset, perm.symm.subset⟩

section Renderings

variable {first second : MetricLabels} {histogram histogram' : Bool} {text text' : Bytes}

/-- The labels of a text are read from it, and in their order there is one list for a label set. -/
theorem renderLabels_eq_iff (rendered : renderLabels first histogram = .ok text)
    (rendered' : renderLabels second histogram' = .ok text') : text = text' ↔ SameLabels first second := by
  obtain ⟨series, rfl⟩ := renderLabels_sorted rendered
  obtain ⟨series', rfl⟩ := renderLabels_sorted rendered'
  have sorted := perm_sortedLabels first
  have sorted' := perm_sortedLabels second
  constructor
  · intro same
    have lists := congrArg Exposition.parseLabels same
    rw [parseLabels_text series.named, parseLabels_text series'.named] at lists
    exact sameLabels_of_perm (sorted.symm.trans (lists ▸ sorted'))
  · intro same
    have asymmetric : Std.Asymm fun first second : Bytes × Bytes => first.1 < second.1 := ⟨fun _ _ => lt_asymm⟩
    have forward := List.Subset.trans (List.Subset.trans sorted.subset same.1) sorted'.symm.subset
    have backward := List.Subset.trans (List.Subset.trans sorted'.subset same.2) sorted.symm.subset
    rw [forward.antisymm_of_pairwise series.ascending series'.ascending backward]

/-- Of the lists that are accepted those with the same labels are permutations of each other. -/
theorem perm_of_sameLabels (rendered : renderLabels first histogram = .ok text)
    (rendered' : renderLabels second histogram' = .ok text') (same : SameLabels first second) : first.Perm second := by
  obtain ⟨series, rfl⟩ := renderLabels_sorted rendered
  obtain ⟨series', texts⟩ := renderLabels_sorted rendered'
  have lists := congrArg Exposition.parseLabels (texts.symm.trans ((renderLabels_eq_iff rendered rendered').mpr same).symm)
  rw [parseLabels_text series.named, parseLabels_text series'.named] at lists
  exact (perm_sortedLabels first).symm.trans (lists ▸ perm_sortedLabels second)

theorem newline_notMem_renderLabels (rendered : renderLabels first histogram = .ok text) : '\n'.toUInt8 ∉ text := by
  obtain ⟨series, rfl⟩ := renderLabels_sorted rendered
  exact newline_notMem_labels series.named

end Renderings

/-! ## Calls on a family -/

inductive FamilyCall where
  | add (labels : MetricLabels) (amount : Binary64) (set : Bool)
  | observe (labels : MetricLabels) (value : Binary64)
  | declare (labels : MetricLabels)

namespace FamilyCall

def labels : FamilyCall → MetricLabels
  | add labels _ _ | observe labels _ | declare labels => labels

def apply (family : MetricFamily) : FamilyCall → Except String MetricFamily
  | add labels amount set => family.add labels amount set
  | observe labels value => family.observe labels value
  | declare labels => family.declare labels

end FamilyCall

/-- Calls on a family, one after the other, none of which aborts. -/
def familyMachine : Machine MetricFamily FamilyCall where
  step family call := (call.apply family).toOption

namespace MetricFamily

/-- The names of the series. -/
def series (family : MetricFamily) : List Bytes := family.samples.map Prod.fst

/-- The series that a call is admitted to: its own, if it is there or there is room for it. -/
def hits (family : MetricFamily) (call : FamilyCall) : Option Bytes :=
  match renderLabels call.labels (family.kind = .histogram) with
  | .error _ => none
  | .ok key => if key ∈ family.series ∨ family.samples.length < family.maxSeries then some key else none

/-- The calls of a run that are admitted, each with the series that it hits. -/
def admitted (family : MetricFamily) : List FamilyCall → List (FamilyCall × Bytes)
  | [] => []
  | call :: rest =>
    match familyMachine.step family call with
    | none => []
    | some next => (family.hits call).toList.map (call, ·) ++ next.admitted rest

/-- What a call does to the samples of a family: nothing where it is dropped, and otherwise something to the
sample of the series that it hits. -/
structure Lands (family : MetricFamily) (key : Option Bytes) (next : MetricFamily) : Prop where
  kind : next.kind = family.kind
  maxSeries : next.maxSeries = family.maxSeries
  ordered : OrderedMap.Ordered family.samples → OrderedMap.Ordered next.samples
  series : ∀ name, name ∈ next.series ↔ name ∈ family.series ∨ key = some name
  others : ∀ name, key ≠ some name → OrderedMap.find? name next.samples = OrderedMap.find? name family.samples
  bounded : family.samples.length ≤ family.maxSeries → next.samples.length ≤ family.maxSeries

section Lands

variable {family next : MetricFamily} {key : Bytes}

theorem lands_dropped (family : MetricFamily) (dropped : ℕ) : Lands family none { family with dropped } :=
  ⟨rfl, rfl, id, by simp [series], fun _ _ => rfl, id⟩

theorem lands_modify (present : key ∈ family.series) (change : Sample → Sample) :
    Lands family (some key) { family with samples := OrderedMap.modify key change family.samples } := by
  refine ⟨rfl, rfl, fun ordered => ordered.modify key change, ?_, ?_, ?_⟩
  · intro name
    rw [series, OrderedMap.keys_modify, Option.some_inj]
    exact ⟨.inl, fun either => either.elim id fun same => same ▸ present⟩
  · intro name other
    rw [Ne, Option.some_inj] at other
    rw [OrderedMap.find?_modify]
    simp only [if_neg (Ne.symm other), Option.map_id']
  · rw [OrderedMap.length_modify]
    exact id

theorem lands_tryEmplace (absent : key ∉ family.series) (room : family.samples.length < family.maxSeries) (sample : Sample) :
    Lands family (some key) { family with samples := OrderedMap.tryEmplace key sample family.samples } := by
  refine ⟨rfl, rfl, fun ordered => ordered.tryEmplace key sample, ?_, ?_, ?_⟩
  · intro name
    rw [series, OrderedMap.mem_keys_tryEmplace, Option.some_inj, or_comm, eq_comm, series]
  · intro name other
    rw [Ne, Option.some_inj] at other
    exact OrderedMap.find?_tryEmplace_of_ne (Ne.symm other) sample family.samples
  · rw [OrderedMap.length_tryEmplace sample absent]
    exact fun _ => room

/-- A series that is there is hit again. -/
theorem Lands.trans {middle : MetricFamily} (first : Lands family (some key) middle)
    (second : Lands middle (some key) next) : Lands family (some key) next := by
  refine ⟨second.kind.trans first.kind, second.maxSeries.trans first.maxSeries, second.ordered ∘ first.ordered, ?_, ?_, ?_⟩
  · intro name
    rw [second.series, first.series, or_assoc, or_self]
  · intro name other
    rw [second.others name other, first.others name other]
  · intro bounded
    rw [← first.maxSeries]
    exact second.bounded (first.maxSeries ▸ first.bounded bounded)

theorem hits_of_rendered (call : FamilyCall) (rendered : renderLabels call.labels (family.kind = .histogram) = .ok key) :
    family.hits call = if key ∈ family.series ∨ family.samples.length < family.maxSeries then some key else none := by
  rw [hits, rendered]

theorem find?_isSome_iff : (OrderedMap.find? key family.samples).isSome = true ↔ key ∈ family.series :=
  OrderedMap.find?_isSome

theorem find?_isNone_iff : (OrderedMap.find? key family.samples).isNone = true ↔ key ∉ family.series := by
  rw [← find?_isSome_iff, Option.not_isSome_iff_eq_none, Option.isNone_iff_eq_none]

theorem add_lands {labels : MetricLabels} {amount : Binary64} {set : Bool}
    (added : family.add labels amount set = .ok next) :
    ∃ key, renderLabels labels (family.kind = .histogram) = .ok key ∧
      Lands family (family.hits (.add labels amount set)) next := by
  obtain ⟨key, rendered, added⟩ := of_bind added
  refine ⟨key, rendered, ?_⟩
  rw [hits_of_rendered (.add labels amount set) rendered]
  split at added
  · next found =>
    have present := find?_isSome_iff.mp found
    cases added
    rw [if_pos (.inl present)]
    exact lands_modify present _
  · next missing =>
    rw [find?_isSome_iff] at missing
    split at added
    · next full =>
      cases added
      rw [if_neg (by simp [missing, full])]
      exact lands_dropped family _
    · next room =>
      cases added
      rw [if_pos (.inr (Nat.lt_of_not_le room))]
      exact lands_tryEmplace missing (Nat.lt_of_not_le room) _

theorem observe_lands {labels : MetricLabels} {value : Binary64} (ordered : OrderedMap.Ordered family.samples)
    (observed : family.observe labels value = .ok next) :
    ∃ key, renderLabels labels (family.kind = .histogram) = .ok key ∧
      Lands family (family.hits (.observe labels value)) next := by
  obtain ⟨key, rendered, observed⟩ := of_bind observed
  refine ⟨key, rendered, ?_⟩
  rw [hits_of_rendered (.observe labels value) rendered]
  dsimp only at observed
  split_ifs at observed with refused <;> rw [find?_isNone_iff] at refused
  · cases observed
    rw [if_neg (by simpa using refused)]
    exact lands_dropped family _
  · cases observed
    by_cases present : key ∈ family.series
    · rw [if_pos (.inl present), OrderedMap.tryEmplace_of_mem ordered _ present]
      exact lands_modify present _
    · have room : family.samples.length < family.maxSeries := by simpa [present] using refused
      have emplaced := lands_tryEmplace present room family.emptySample
      rw [if_pos (.inr room)]
      exact emplaced.trans (lands_modify ((emplaced.series key).mpr (.inr rfl)) _)

theorem declare_lands {labels : MetricLabels} (declared : family.declare labels = .ok next) :
    ∃ key, renderLabels labels (family.kind = .histogram) = .ok key ∧ Lands family (family.hits (.declare labels)) next := by
  obtain ⟨key, rendered, declared⟩ := of_bind declared
  refine ⟨key, rendered, ?_⟩
  rw [hits_of_rendered (.declare labels) rendered]
  split_ifs at declared with present full <;> rw [find?_isSome_iff] at present
  · cases declared
    rw [if_pos (.inl present)]
    refine ⟨rfl, rfl, id, ?_, fun _ _ => rfl, id⟩
    intro name
    rw [Option.some_inj]
    exact ⟨.inl, fun either => either.elim id fun same => same ▸ present⟩
  · cases declared
    rw [if_neg (by simp [present, full])]
    exact lands_dropped family _
  · cases declared
    rw [if_pos (.inr (Nat.lt_of_not_le full))]
    exact lands_tryEmplace present (Nat.lt_of_not_le full) _

/-- What every call does. -/
theorem step_lands {call : FamilyCall} (ordered : OrderedMap.Ordered family.samples)
    (step : familyMachine.step family call = some next) :
    ∃ key, renderLabels call.labels (family.kind = .histogram) = .ok key ∧ Lands family (family.hits call) next := by
  have applied : call.apply family = .ok next := by
    change (call.apply family).toOption = some next at step
    cases result : call.apply family with
    | error message => rw [result] at step; cases step
    | ok value => rw [result] at step; cases step; rfl
  cases call with
  | add labels amount set => exact add_lands applied
  | observe labels value => exact observe_lands ordered applied
  | declare labels => exact declare_lands applied

end Lands

/-! ## Runs of calls -/

section Runs

variable {fresh middle family : MetricFamily} {calls : List FamilyCall}

/-- Along a run the series only become more, within the cap. -/
structure Grown (fresh family : MetricFamily) : Prop where
  kind : family.kind = fresh.kind
  maxSeries : family.maxSeries = fresh.maxSeries
  ordered : OrderedMap.Ordered fresh.samples → OrderedMap.Ordered family.samples
  series : fresh.series ⊆ family.series
  bounded : fresh.samples.length ≤ fresh.maxSeries → family.samples.length ≤ family.maxSeries

theorem Lands.grown {key : Option Bytes} (lands : Lands fresh key family) : Grown fresh family := by
  refine ⟨lands.kind, lands.maxSeries, lands.ordered, fun name member => (lands.series name).mpr (.inl member), ?_⟩
  rw [lands.maxSeries]
  exact lands.bounded

theorem Grown.refl (family : MetricFamily) : Grown family family := ⟨rfl, rfl, id, List.Subset.refl _, id⟩

theorem Grown.trans (first : Grown fresh middle) (second : Grown middle family) : Grown fresh family :=
  ⟨second.kind.trans first.kind, second.maxSeries.trans first.maxSeries, second.ordered ∘ first.ordered,
    List.Subset.trans first.series second.series, second.bounded ∘ first.bounded⟩

theorem run_grown (ordered : OrderedMap.Ordered fresh.samples) (reached : familyMachine.run fresh calls = some family) :
    Grown fresh family := by
  have whole := familyMachine.invariant_of_run (fun family => Grown fresh family) (fun source call target grown step => by
    obtain ⟨_, _, lands⟩ := step_lands (grown.ordered ordered) step
    exact grown.trans lands.grown) (Grown.refl fresh) reached
  exact whole

/-- The series that the admitted calls of a run hit are renderings of their labels, and are there at its end. -/
theorem admitted_facts (ordered : OrderedMap.Ordered fresh.samples) (reached : familyMachine.run fresh calls = some family) :
    ∀ entry ∈ fresh.admitted calls,
      renderLabels entry.1.labels (fresh.kind = .histogram) = .ok entry.2 ∧ entry.2 ∈ family.series := by
  induction calls generalizing fresh with
  | nil => exact fun entry member => absurd member List.not_mem_nil
  | cons call rest ih =>
    obtain ⟨next, step, reached⟩ := familyMachine.run_cons_eq_some.mp reached
    obtain ⟨key, rendered, lands⟩ := step_lands ordered step
    have later := ih (lands.ordered ordered) reached
    intro entry member
    rw [admitted, step] at member
    rcases List.mem_append.mp member with first | member
    · obtain ⟨name, hit, rfl⟩ := List.mem_map.mp first
      rw [Option.mem_toList] at hit
      have own : name = key := by
        rw [hits_of_rendered call rendered] at hit
        split_ifs at hit
        exact (Option.some.inj hit).symm
      refine ⟨own ▸ rendered, (run_grown (lands.ordered ordered) reached).series ?_⟩
      exact (lands.series name).mpr (.inr hit)
    · rw [← lands.kind]
      exact later entry member

/-- Renderings are those of label sets. Over every run of calls on a family that starts without a series there
are no more series than its cap; a call is dropped, or changes the series that it hits and no other; calls that
are admitted hit the same series exactly if they have the same labels; and no series is lost. -/
theorem label_sets_identified (fresh : MetricFamily) (calls : List FamilyCall) (family : MetricFamily)
    (empty : fresh.samples = []) (reached : familyMachine.run fresh calls = some family) :
    (∀ first second histogram histogram' text text', renderLabels first histogram = .ok text →
      renderLabels second histogram' = .ok text' → (text = text' ↔ first.Perm second)) ∧
    (∀ labels histogram text, renderLabels labels histogram = .ok text → '\n'.toUInt8 ∉ text) ∧
    family.samples.length ≤ family.maxSeries ∧ family.maxSeries = fresh.maxSeries ∧
    (∀ first ∈ fresh.admitted calls, ∀ second ∈ fresh.admitted calls,
      (first.2 = second.2 ↔ SameLabels first.1.labels second.1.labels)) ∧
    (∀ entry ∈ fresh.admitted calls, entry.2 ∈ family.series) ∧
    ∀ early late middle, calls = early ++ late → familyMachine.run fresh early = some middle →
      middle.series ⊆ family.series ∧
      ∀ call next, familyMachine.step middle call = some next →
        (∀ name, name ∈ next.series ↔ name ∈ middle.series ∨ middle.hits call = some name) ∧
        ∀ name, middle.hits call ≠ some name →
          OrderedMap.find? name next.samples = OrderedMap.find? name middle.samples := by
  have ordered : OrderedMap.Ordered fresh.samples := by
    rw [empty]
    exact OrderedMap.ordered_nil
  have grown := run_grown ordered reached
  have hit := admitted_facts ordered reached
  refine ⟨?_, ?_, ?_, grown.maxSeries, ?_, fun entry member => (hit entry member).2, ?_⟩
  · intro first second histogram histogram' text text' rendered rendered'
    rw [renderLabels_eq_iff rendered rendered']
    exact ⟨perm_of_sameLabels rendered rendered', sameLabels_of_perm⟩
  · exact fun labels histogram text rendered => newline_notMem_renderLabels rendered
  · apply grown.bounded
    rw [empty]
    exact Nat.zero_le _
  · exact fun first member second member' => renderLabels_eq_iff (hit first member).1 (hit second member').1
  · rintro early late middle rfl before
    have after : familyMachine.run middle late = some family := by
      rwa [familyMachine.run_append, before, Option.bind_some] at reached
    have ordered' := (run_grown ordered before).ordered ordered
    refine ⟨(run_grown ordered' after).series, fun call next step => ?_⟩
    obtain ⟨_, _, lands⟩ := step_lands ordered' step
    exact ⟨lands.series, lands.others⟩

open Bytes (ascii) in
/-- Two orders of the same labels, then others: a counter with room for one series has it hit twice, and drops
the third call. -/
theorem label_sets_identified_full :
    let labels := [(ascii "b", ascii "1"), (ascii "a", ascii "\"\n")]
    let fresh : MetricFamily := { name := ascii "jobs", help := [], kind := .counter, buckets := [], maxSeries := 1 }
    let calls := [FamilyCall.declare labels, .declare labels.reverse, .declare []]
    ∃ family, familyMachine.run fresh calls = some family ∧ family.dropped = 1 ∧
      (fresh.admitted calls).length = 2 ∧ family.samples.length ≤ 1 := by
  intro labels fresh calls
  have runs : (familyMachine.run fresh calls).isSome = true := by decide
  obtain ⟨family, reached⟩ := Option.isSome_iff_exists.mp runs
  have last : (familyMachine.run fresh calls).map MetricFamily.dropped = some 1 := by decide
  have facts := label_sets_identified fresh calls family rfl reached
  refine ⟨family, reached, ?_, by decide, ?_⟩
  · rw [reached] at last
    exact Option.some.inj last
  · have bound := facts.2.2.1
    rw [facts.2.2.2.1] at bound
    exact bound

end Runs

end MetricFamily

end OpalCpp.Server.Metrics

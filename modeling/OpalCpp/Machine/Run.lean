import Mathlib.Data.List.Basic

/-! # Labeled machines, their runs, and invariants of guarded runs

A machine is a partial step function on states; a label is refused where the step is `none`.
A run replays a finite tape of labels. Guards are conditions on the source state and label of
each step, and a property holds throughout a run when it holds at every state the tape passes.
The rules here are all a development needs: a step lemma gives an invariant of every run, a
guarded step lemma gives it for every guarded run, and a guard whose violation is visible at
once characterizes the runs on which the property holds.
-/

namespace OpalCpp

/-- A deterministic labeled machine; nondeterminism is carried by the choice of labels. -/
structure Machine (State Label : Type*) where
  step : State → Label → Option State

namespace Machine

variable {State Label : Type*} (machine : Machine State Label)

/-- Replay a tape of labels; the run fails where one of them is refused. -/
def run : State → List Label → Option State
  | source, [] => some source
  | source, label :: rest => (machine.step source label).bind fun next => run next rest

/-- Every step of the tape meets the guard at its own source state. -/
def Along (guard : State → Label → Prop) : State → List Label → Prop
  | _, [] => True
  | source, label :: rest =>
      guard source label ∧ ∀ next ∈ machine.step source label, Along guard next rest

/-- The property holds at every state the tape passes, the first and the last included. -/
def Throughout (property : State → Prop) : State → List Label → Prop
  | source, [] => property source
  | source, label :: rest =>
      property source ∧ ∀ next ∈ machine.step source label, Throughout property next rest

@[simp] theorem run_nil (source : State) : machine.run source [] = some source := rfl

@[simp] theorem along_nil (guard : State → Label → Prop) (source : State) :
    machine.Along guard source [] := trivial

theorem run_cons_eq_some {source target : State} {label : Label} {rest : List Label} :
    machine.run source (label :: rest) = some target ↔
      ∃ next, machine.step source label = some next ∧ machine.run next rest = some target :=
  Option.bind_eq_some_iff

/-- A tape read in two parts: the second part starts where the first one ends. -/
theorem run_append (source : State) (early late : List Label) :
    machine.run source (early ++ late) = (machine.run source early).bind (machine.run · late) := by
  induction early generalizing source with
  | nil => rfl
  | cons label rest ih =>
    simp only [List.cons_append, run, Option.bind_assoc]
    exact congrArg _ (funext ih)

/-- A guard on labels alone is met along a run when every label of the tape meets it. -/
theorem along_of_forall {guard : Label → Prop} {labels : List Label} (each : ∀ label ∈ labels, guard label)
    (source : State) : machine.Along (fun _ label => guard label) source labels := by
  induction labels generalizing source with
  | nil => trivial
  | cons label rest ih =>
    refine ⟨each label (List.mem_cons_self ..), fun next _ => ?_⟩
    exact ih (fun later member => each later (List.mem_cons_of_mem _ member)) next

instance decidableAlong (guard : State → Label → Prop) [∀ source label, Decidable (guard source label)] :
    ∀ source labels, Decidable (machine.Along guard source labels)
  | _, [] => isTrue trivial
  | source, label :: rest =>
    have (next : State) : Decidable (machine.Along guard next rest) := decidableAlong guard next rest
    inferInstanceAs (Decidable (guard source label ∧
      ∀ next ∈ machine.step source label, machine.Along guard next rest))

/-- The guarded invariant rule: what every guarded step preserves, every guarded run preserves. -/
theorem invariant_of_along {guard : State → Label → Prop} (invariant : State → Prop)
    (preserved : ∀ source label target, invariant source → guard source label →
      machine.step source label = some target → invariant target)
    {source target : State} {labels : List Label} (start : invariant source)
    (guarded : machine.Along guard source labels) (reached : machine.run source labels = some target) :
    invariant target := by
  induction labels generalizing source with
  | nil => cases reached; exact start
  | cons label rest ih =>
    obtain ⟨next, step, tail⟩ := machine.run_cons_eq_some.mp reached
    exact ih (preserved source label next start guarded.1 step) (guarded.2 next step) tail

/-- The invariant rule: what every step preserves, every run preserves. -/
theorem invariant_of_run (invariant : State → Prop)
    (preserved : ∀ source label target, invariant source →
      machine.step source label = some target → invariant target)
    {source target : State} {labels : List Label} (start : invariant source)
    (reached : machine.run source labels = some target) : invariant target := by
  induction labels generalizing source with
  | nil => cases reached; exact start
  | cons label rest ih =>
    obtain ⟨next, step, tail⟩ := machine.run_cons_eq_some.mp reached
    exact ih (preserved source label next start step) tail

theorem Throughout.source {property : State → Prop} {source : State} {labels : List Label}
    (holds : machine.Throughout property source labels) : property source := by
  cases labels with
  | nil => exact holds
  | cons label rest => exact holds.1

/-- Under an assumption on the steps, a guard that keeps the invariant, and whose violation breaks
the property at once, describes exactly the tapes on which the property holds at every state. -/
theorem throughout_iff_along_of_assumed {assumed guard : State → Label → Prop} {property : State → Prop}
    (invariant : State → Prop)
    (preserved : ∀ source label target, invariant source → assumed source label → guard source label →
      machine.step source label = some target → invariant target)
    (sound : ∀ source, invariant source → property source)
    (visible : ∀ source label target, invariant source → assumed source label →
      machine.step source label = some target → property target → guard source label)
    {source target : State} {labels : List Label} (start : invariant source)
    (assumption : machine.Along assumed source labels)
    (reached : machine.run source labels = some target) :
    machine.Throughout property source labels ↔ machine.Along guard source labels := by
  induction labels generalizing source with
  | nil => exact ⟨fun _ => trivial, fun _ => sound source start⟩
  | cons label rest ih =>
    obtain ⟨next, step, tail⟩ := machine.run_cons_eq_some.mp reached
    obtain ⟨here, assumption⟩ := assumption
    simp only [Throughout, Along, step, Option.mem_some_iff, forall_eq'] at assumption ⊢
    constructor
    · rintro ⟨_, later⟩
      have met := visible source label next start here step (later.source)
      exact ⟨met, (ih (preserved source label next start here met step) assumption tail).mp later⟩
    · rintro ⟨met, later⟩
      exact ⟨sound source start,
        (ih (preserved source label next start here met step) assumption tail).mpr later⟩

/-- The same without an assumption. -/
theorem throughout_iff_along {guard : State → Label → Prop} {property : State → Prop}
    (invariant : State → Prop)
    (preserved : ∀ source label target, invariant source → guard source label →
      machine.step source label = some target → invariant target)
    (sound : ∀ source, invariant source → property source)
    (visible : ∀ source label target, invariant source → machine.step source label = some target →
      property target → guard source label)
    {source target : State} {labels : List Label} (start : invariant source)
    (reached : machine.run source labels = some target) :
    machine.Throughout property source labels ↔ machine.Along guard source labels :=
  machine.throughout_iff_along_of_assumed invariant
    (fun source label target held _ => preserved source label target held) sound
    (fun source label target held _ => visible source label target held) start
    (machine.along_of_forall (fun _ _ => trivial) source) reached

end Machine

end OpalCpp

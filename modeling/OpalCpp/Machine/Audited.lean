import OpalCpp.Machine.Traced

/-! # Audited computations

A computation that may fail and leaves a trace is set against an outcome of a simpler kind: the same
failure, or the same value with a state that the world it ends in stands for. What the trace may hold
is a parameter. The rules follow the way the computation is put together.
-/

namespace OpalCpp

universe u

/-- A computation over a world that may fail, with its events. -/
abbrev Audited (Failure Event World : Type u) (α : Type u) : Type _ := ExceptT Failure (Traced Event World) α

namespace Audited

variable {Failure Event World State α β : Type u}

def note (event : Event) : Audited Failure Event World PUnit := ExceptT.mk fun world => (.ok ⟨⟩, world, [event])

def look : Audited Failure Event World World := ExceptT.mk fun world => (.ok world, world, [])

def move (next : World) : Audited Failure Event World PUnit := ExceptT.mk fun _ => (.ok ⟨⟩, next, [])

/-- An outcome that is known. -/
def lift : Except Failure α → Audited Failure Event World α
  | .error failure => throw failure
  | .ok value => pure value

/-- A result at the end and the outcome it stands for. -/
inductive Agrees (stands : World → State → Prop) : Except Failure α → World → Except Failure (α × State) → Prop
  | failed {failure after} : Agrees stands (.error failure) after (.error failure)
  | reached {value after state} : stands after state → Agrees stands (.ok value) after (.ok (value, state))

/-- The events are allowed ones, and the result agrees with the outcome. -/
def Realizes (allowed : Event → Prop) (stands : World → State → Prop) (run : Audited Failure Event World α)
    (world : World) (outcome : Except Failure (α × State)) : Prop :=
  ∃ result after events, Traced.Runs run.run world result after events ∧ (∀ event ∈ events, allowed event) ∧
    Agrees stands result after outcome

variable {allowed : Event → Prop} {stands : World → State → Prop} {world : World}

theorem realizes_pure {value : α} {state : State} (standing : stands world state) :
    Realizes allowed stands (pure value : Audited Failure Event World α) world (.ok (value, state)) :=
  ⟨_, _, _, rfl, List.forall_mem_nil _, .reached standing⟩

theorem realizes_throw {failure : Failure} :
    Realizes allowed stands (throw failure : Audited Failure Event World α) world (.error failure) :=
  ⟨_, _, _, rfl, List.forall_mem_nil _, .failed⟩

theorem realizes_lift {outcome : Except Failure α} {state : State} (standing : stands world state) :
    Realizes allowed stands (lift outcome : Audited Failure Event World α) world
      (outcome.bind fun value => .ok (value, state)) := by
  cases outcome with
  | error failure => exact realizes_throw
  | ok value => exact realizes_pure standing

section Sequence

variable {run : Audited Failure Event World α} {next : α → Audited Failure Event World β} {between after : World}
  {earlier later : List Event}

theorem runs_of_ok {value : α} {result : Except Failure β} (ran : Traced.Runs run.run world (.ok value) between earlier)
    (continued : Traced.Runs (next value).run between result after later) :
    Traced.Runs (run >>= next).run world result after (earlier ++ later) := by
  change Traced.Runs (run.run >>= ExceptT.bindCont next) world result after (earlier ++ later)
  apply Traced.runs_bind.mpr
  exact ⟨_, _, _, _, ran, continued, rfl⟩

theorem runs_of_error {failure : Failure} (ran : Traced.Runs run.run world (.error failure) between earlier) :
    Traced.Runs (run >>= next).run world (.error failure) between earlier := by
  change Traced.Runs (run.run >>= ExceptT.bindCont next) world (.error failure) between earlier
  apply Traced.runs_bind.mpr
  exact ⟨_, _, _, _, ran, Traced.runs_pure.mpr ⟨rfl, rfl, rfl⟩, (List.append_nil earlier).symm⟩

theorem Realizes.bind {first : Except Failure (α × State)} {continue_ : α × State → Except Failure (β × State)}
    (realizes : Realizes allowed stands run world first)
    (continues : ∀ value state after, first = .ok (value, state) → stands after state →
      Realizes allowed stands (next value) after (continue_ (value, state))) :
    Realizes allowed stands (run >>= next) world (first.bind continue_) := by
  obtain ⟨result, between, earlier, ran, fine, agrees⟩ := realizes
  cases agrees with
  | failed => exact ⟨_, between, earlier, runs_of_error ran, fine, .failed⟩
  | reached standing =>
    obtain ⟨last, after, later, continued, more, agrees⟩ := continues _ _ _ rfl standing
    exact ⟨last, after, _, runs_of_ok ran continued, List.forall_mem_append.mpr ⟨fine, more⟩, agrees⟩

variable {outcome : Except Failure (β × State)}

/-- A part that the outcome has no sequence for. -/
theorem Realizes.then_ {first : Except Failure (α × State)} (realizes : Realizes allowed stands run world first)
    (fails : ∀ failure, first = .error failure → outcome = .error failure)
    (continues : ∀ value state after, first = .ok (value, state) → stands after state →
      Realizes allowed stands (next value) after outcome) :
    Realizes allowed stands (run >>= next) world outcome := by
  have same : outcome = first.bind fun _ => outcome := by
    cases reached : first with
    | error failure => exact fails failure reached
    | ok value => rfl
  rw [same]
  exact realizes.bind continues

end Sequence

variable {outcome : Except Failure (β × State)}

theorem Realizes.note_bind {event : Event} {next : PUnit → Audited Failure Event World β} (allows : allowed event)
    (realizes : Realizes allowed stands (next ⟨⟩) world outcome) :
    Realizes allowed stands (note event >>= next) world outcome := by
  obtain ⟨result, after, events, ran, fine, agrees⟩ := realizes
  have noted : Traced.Runs (note event : Audited Failure Event World PUnit).run world (.ok ⟨⟩) world [event] := rfl
  exact ⟨result, after, _, runs_of_ok noted ran,
    List.forall_mem_append.mpr ⟨List.forall_mem_singleton.mpr allows, fine⟩, agrees⟩

theorem Realizes.look_bind {next : World → Audited Failure Event World β}
    (realizes : Realizes allowed stands (next world) world outcome) :
    Realizes allowed stands (look >>= next) world outcome := by
  obtain ⟨result, after, events, ran, fine, agrees⟩ := realizes
  have looked : Traced.Runs (look : Audited Failure Event World World).run world (.ok world) world [] := rfl
  exact ⟨result, after, _, runs_of_ok looked ran, fine, agrees⟩

end Audited

end OpalCpp

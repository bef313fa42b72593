import Mathlib.Data.List.Basic

/-! # Computations that leave a trace

A computation over a world gives a result, the world it leaves and the events on the way, in order. The
events of two that follow each other are put together.
-/

namespace OpalCpp

universe u

/-- A computation over a world, with its events. -/
def Traced (Event World : Type*) (α : Type u) : Type _ := World → α × World × List Event

namespace Traced

variable {Event World : Type*} {α β : Type u}

instance : Monad (Traced Event World) where
  pure value world := (value, world, [])
  bind first next world :=
    let (value, between, events) := first world
    let (result, after, later) := next value between
    (result, after, events ++ later)

/-- An event, and nothing else. -/
def emit (event : Event) : Traced Event World Unit := fun world => ((), world, [event])

/-- A step of the world without an event of its own. -/
def silent (act : World → α × World) : Traced Event World α := fun world => ((act world).1, (act world).2, [])

/-- The computation goes from the world to the other with a result and its events. -/
def Runs (computation : Traced Event World α) (world : World) (result : α) (after : World) (events : List Event) : Prop :=
  computation world = (result, after, events)

theorem runs_self (computation : Traced Event World α) (world : World) :
    Runs computation world (computation world).1 (computation world).2.1 (computation world).2.2 := rfl

theorem runs_pure {value result : α} {world after : World} {events : List Event} :
    Runs (pure value : Traced Event World α) world result after events ↔ result = value ∧ after = world ∧ events = [] := by
  constructor
  · intro runs
    cases runs
    exact ⟨rfl, rfl, rfl⟩
  · rintro ⟨rfl, rfl, rfl⟩
    rfl

theorem runs_emit {event : Event} {result : Unit} {world after : World} {events : List Event} :
    Runs (emit event) world result after events ↔ after = world ∧ events = [event] := by
  constructor
  · intro runs
    cases runs
    exact ⟨rfl, rfl⟩
  · rintro ⟨rfl, rfl⟩
    rfl

theorem runs_silent {act : World → α × World} {result : α} {world after : World} {events : List Event} :
    Runs (silent act) world result after events ↔ act world = (result, after) ∧ events = [] := by
  constructor
  · intro runs
    cases runs
    exact ⟨rfl, rfl⟩
  · rintro ⟨acted, rfl⟩
    rw [Runs, silent, acted]

/-- What two computations in sequence do, the second with the result of the first. -/
theorem runs_bind {first : Traced Event World α} {next : α → Traced Event World β} {world after : World} {result : β}
    {events : List Event} :
    Runs (first >>= next) world result after events ↔ ∃ value between earlier later,
      Runs first world value between earlier ∧ Runs (next value) between result after later ∧ events = earlier ++ later := by
  constructor
  · intro runs
    cases runs
    exact ⟨_, _, _, _, runs_self first world, runs_self _ _, rfl⟩
  · rintro ⟨value, between, earlier, later, ran, continued, rfl⟩
    change (let (value, between, events) := first world
      let (result, after, later) := next value between
      (result, after, events ++ later)) = _
    rw [show first world = _ from ran]
    dsimp only
    rw [show next value between = _ from continued]

end Traced

end OpalCpp

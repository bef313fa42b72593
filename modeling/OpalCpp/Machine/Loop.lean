import Mathlib.Order.Basic

/-! # Loops and recursion

A loop by its body, which goes on with another state or leaves with a result, and a recursive function by one step of
it, which has the function itself at hand. What an invariant says of the states and a variant counts down to, the loop
comes to; and where a step looks at smaller arguments only, the function is what its step makes of it.
-/

namespace OpalCpp

/-! ## Loops -/

namespace Loop

variable {State Result : Type*} {body : State → State ⊕ Result} {state : State}

/-- As many rounds as there is fuel. -/
def run (body : State → State ⊕ Result) : ℕ → State → Option Result
  | 0, _ => none
  | fuel + 1, state =>
    match body state with
    | .inl next => run body fuel next
    | .inr result => some result

/-- The rule of total correctness: where every round keeps the invariant and brings the variant down, and what
it leaves with is as wanted, fuel beyond the variant is enough. -/
theorem run_of_variant (invariant : State → Prop) (wanted : Result → Prop) (variant : State → ℕ)
    (goesOn : ∀ state next, invariant state → body state = .inl next → invariant next ∧ variant next < variant state)
    (leaves : ∀ state result, invariant state → body state = .inr result → wanted result) (start : invariant state) :
    ∃ result, wanted result ∧ ∀ fuel, variant state < fuel → run body fuel state = some result := by
  induction size : variant state using Nat.strongRecOn generalizing state with
  | ind size ih =>
    cases round : body state with
    | inl next =>
      obtain ⟨kept, less⟩ := goesOn state next start round
      obtain ⟨result, good, later⟩ := ih (variant next) (size ▸ less) kept rfl
      refine ⟨result, good, fun fuel enough => ?_⟩
      obtain ⟨fuel, rfl⟩ := Nat.exists_eq_add_of_lt enough
      simp only [run, round]
      exact later _ (by omega)
    | inr result =>
      refine ⟨result, leaves state result start round, fun fuel enough => ?_⟩
      obtain ⟨fuel, rfl⟩ := Nat.exists_eq_add_of_lt enough
      simp only [run, round]

end Loop

/-! ## Recursion that descends

As much fuel as a measure of the argument says is enough.
-/

namespace Descent

universe u v

variable {Argument : Type u} {Result : Type v} (step : (Argument → Result) → Argument → Result) (stuck : Result)
  (measure_ : Argument → ℕ)

def fueled : ℕ → Argument → Result
  | 0, _ => stuck
  | fuel + 1, argument => step (fueled fuel) argument

/-- The function, with the fuel its measure asks for. -/
def run (argument : Argument) : Result := fueled step stuck (measure_ argument + 1) argument

/-- A step depends on the results for smaller arguments only. -/
def Local : Prop :=
  ∀ first second argument, (∀ smaller, measure_ smaller < measure_ argument → first smaller = second smaller) →
    step first argument = step second argument

variable {step stuck measure_}

/-- More fuel does not change the result. -/
theorem Local.fueled_eq (descends : Local step measure_) {first second : ℕ} {argument : Argument}
    (enough : measure_ argument < first) (also : measure_ argument < second) :
    fueled step stuck first argument = fueled step stuck second argument := by
  induction first generalizing second argument with
  | zero => exact (Nat.not_lt_zero _ enough).elim
  | succ first ih =>
    cases second with
    | zero => exact (Nat.not_lt_zero _ also).elim
    | succ second =>
      apply descends
      intro smaller less
      exact ih (Nat.lt_of_lt_of_le less (Nat.le_of_lt_succ enough)) (Nat.lt_of_lt_of_le less (Nat.le_of_lt_succ also))

/-- The function is a fixed point of its step. -/
theorem Local.run_eq (descends : Local step measure_) (argument : Argument) :
    run step stuck measure_ argument = step (run step stuck measure_) argument := by
  apply descends
  intro smaller less
  exact descends.fueled_eq less (Nat.lt_succ_self _)

end Descent

end OpalCpp

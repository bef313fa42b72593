import Mathlib.Data.List.Forall2
import Mathlib.Data.UInt

/-! # Computations over random words

A computation that draws words from an engine, one after the other. What it can come to over all engines and their
states is a relation with a rule for each way to put computations together; it is what the runs come to.
-/

namespace OpalCpp

/-- A computation is done, is undefined, or goes on with the next word. -/
inductive Draws (α : Type) where
  | done (result : α)
  | stuck
  | draw (next : UInt32 → Draws α)

namespace Draws

variable {α β : Type}

protected def bind (first : Draws α) (next : α → Draws β) : Draws β :=
  match first with
  | done result => next result
  | stuck => stuck
  | draw more => draw fun word => (more word).bind next

instance : Monad Draws where
  pure := done
  bind := Draws.bind

instance : LawfulMonad Draws := .mk' Draws
  (fun computation => by
    induction computation with
    | done result => rfl
    | stuck => rfl
    | draw next ih => exact congrArg draw (funext ih))
  (fun _ _ => rfl)
  (fun first f g => by
    induction first with
    | done result => rfl
    | stuck => rfl
    | draw next ih => exact congrArg draw (funext ih))

/-- The next word. -/
def word : Draws UInt32 := draw done

/-- The result with the words of an engine, and the state the engine is left in. -/
def run {State : Type} (engine : State → UInt32 × State) : Draws α → State → Option (α × State)
  | done result, state => some (result, state)
  | stuck, _ => none
  | draw next, state => (next (engine state).1).run engine (engine state).2

/-- What a computation comes to with some words. -/
inductive Gives : Draws α → α → Prop
  | done (result : α) : Gives (done result) result
  | draw {next : UInt32 → Draws α} {result : α} (word : UInt32) (gives : Gives (next word) result) : Gives (draw next) result

theorem gives_of_run {State : Type} {engine : State → UInt32 × State} {computation : Draws α} {state rest : State}
    {result : α}
    (ran : computation.run engine state = some (result, rest)) : Gives computation result := by
  induction computation generalizing state with
  | done value =>
    cases ran
    exact .done _
  | stuck => cases ran
  | draw next ih => exact .draw _ (ih _ ran)

/-- The engine of which a state is the words it will give. -/
def stream (words : ℕ → UInt32) : UInt32 × (ℕ → UInt32) := (words 0, fun place => words (place + 1))

theorem exists_run {computation : Draws α} {result : α} (gives : Gives computation result) :
    ∃ words rest, computation.run stream words = some (result, rest) := by
  induction gives with
  | done value => exact ⟨fun _ => 0, _, rfl⟩
  | draw word _ ih =>
    obtain ⟨words, rest, ran⟩ := ih
    exact ⟨fun place => Nat.casesOn (motive := fun _ => UInt32) place word words, rest, ran⟩

/-! ## Rules -/

theorem gives_pure {value result : α} : Gives (pure value) result ↔ result = value := by
  constructor
  · rintro ⟨⟩
    rfl
  · rintro rfl
    exact .done result

theorem not_gives_stuck {result : α} : ¬ Gives stuck result := by
  rintro ⟨⟩

theorem gives_bind {first : Draws α} {next : α → Draws β} {result : β} :
    Gives (first >>= next) result ↔ ∃ value, Gives first value ∧ Gives (next value) result := by
  constructor
  · intro gives
    induction first with
    | done value => exact ⟨value, .done value, gives⟩
    | stuck => cases gives
    | draw more ih =>
      obtain _ | ⟨word, gives⟩ := gives
      obtain ⟨value, gave, gives⟩ := ih word gives
      exact ⟨value, .draw word gave, gives⟩
  · rintro ⟨value, gave, gives⟩
    induction gave with
    | done value => exact gives
    | draw word _ ih => exact .draw word (ih gives)

theorem gives_word {word : UInt32} : Gives Draws.word word := .draw word (.done word)

theorem gives_map {first : Draws α} {f : α → β} {result : β} :
    Gives (f <$> first) result ↔ ∃ value, Gives first value ∧ result = f value := by
  rw [show f <$> first = first >>= fun value => pure (f value) from rfl, gives_bind]
  simp only [gives_pure]

theorem forall_gives_map {first : Draws α} {f : α → β} {property : β → Prop} :
    (∀ result, Gives (f <$> first) result → property result) ↔ ∀ value, Gives first value → property (f value) := by
  simp only [gives_map, forall_exists_index, and_imp]
  exact ⟨fun all value gives => all _ value gives rfl, fun all result value gives same => same ▸ all value gives⟩

/-- A word, and what follows it. -/
theorem gives_word_bind {next : UInt32 → Draws β} {result : β} :
    Gives (Draws.word >>= next) result ↔ ∃ word, Gives (next word) result := by
  rw [gives_bind]
  exact exists_congr fun _ => and_iff_right gives_word

theorem gives_mapM {step : α → Draws β} {items : List α} {results : List β} :
    Gives (items.mapM step) results ↔ List.Forall₂ (fun item result => Gives (step item) result) items results := by
  induction items generalizing results with
  | nil => rw [List.mapM_nil, gives_pure, List.forall₂_nil_left_iff]
  | cons item items ih =>
    simp only [List.mapM_cons, gives_bind, gives_pure, ih, List.forall₂_cons_left_iff]
    constructor
    · rintro ⟨first, gave, others, rest, rfl⟩
      exact ⟨first, others, gave, rest, rfl⟩
    · rintro ⟨first, others, gave, rest, rfl⟩
      exact ⟨first, gave, others, rest, rfl⟩

/-- Each result is given in its place. -/
theorem gives_mapM_getElem? {step : α → Draws β} {items : List α} {results : List β} :
    Gives (items.mapM step) results ↔ results.length = items.length ∧
      ∀ (place : ℕ) item result, items[place]? = some item → results[place]? = some result → Gives (step item) result := by
  rw [gives_mapM, List.forall₂_iff_get]
  constructor
  · rintro ⟨length, each⟩
    refine ⟨length.symm, ?_⟩
    intro place item result at_ at'
    obtain ⟨inside, rfl⟩ := List.getElem?_eq_some_iff.mp at_
    obtain ⟨inside', rfl⟩ := List.getElem?_eq_some_iff.mp at'
    exact each place inside inside'
  · rintro ⟨length, each⟩
    exact ⟨length.symm, fun place inside inside' =>
      each place _ _ (List.getElem?_eq_getElem inside) (List.getElem?_eq_getElem inside')⟩

theorem gives_mapM_range {step : ℕ → Draws β} {n : ℕ} {results : List β} :
    Gives ((List.range n).mapM step) results ↔ results.length = n ∧
      ∀ (place : ℕ) result, results[place]? = some result → Gives (step place) result := by
  rw [gives_mapM_getElem?, List.length_range]
  apply and_congr_right
  intro length
  constructor
  · intro each place result at_
    obtain ⟨inside, -⟩ := List.getElem?_eq_some_iff.mp at_
    exact each place place result (List.getElem?_range (length ▸ inside)) at_
  · intro each place item result inside at_
    obtain ⟨-, rfl⟩ := List.getElem?_eq_some_iff.mp inside
    rw [List.getElem_range]
    exact each place result at_

theorem exists_mapM {step : α → Draws β} {items : List α} (each : ∀ item ∈ items, ∃ result, Gives (step item) result) :
    ∃ results, Gives (items.mapM step) results := by
  simp only [gives_mapM]
  induction items with
  | nil => exact ⟨[], .nil⟩
  | cons first items ih =>
    rw [List.forall_mem_cons] at each
    obtain ⟨head, gives⟩ := each.1
    obtain ⟨results, all⟩ := ih each.2
    exact ⟨head :: results, .cons gives all⟩

/-- Where each step comes to something, one of them may come to anything that it can. -/
theorem exists_mapM_of_gives {step : α → Draws β} {items : List α}
    (each : ∀ item ∈ items, ∃ result, Gives (step item) result)
    {place : ℕ} {item : α} (at_ : items[place]? = some item) {result : β} (gives : Gives (step item) result) :
    ∃ results, Gives (items.mapM step) results ∧ results[place]? = some result := by
  induction items generalizing place with
  | nil => cases at_
  | cons first items ih =>
    rw [List.forall_mem_cons] at each
    cases place with
    | zero =>
      obtain rfl : first = item := Option.some.inj at_
      obtain ⟨results, all⟩ := exists_mapM each.2
      exact ⟨result :: results, gives_mapM.mpr (.cons gives (gives_mapM.mp all)), rfl⟩
    | succ place =>
      obtain ⟨head, headGives⟩ := each.1
      obtain ⟨results, all, inside⟩ := ih each.2 at_
      exact ⟨head :: results, gives_mapM.mpr (.cons headGives (gives_mapM.mp all)), inside⟩

end Draws

end OpalCpp

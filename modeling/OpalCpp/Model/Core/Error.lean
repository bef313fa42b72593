import Mathlib.Data.List.Basic

/-! # Errors and outcomes

`Outcome<T>` carries a value or an `Error`; every failure of the runtime is a value of this type.
The typed `detail()` payload is left out: equality ignores it and nothing modelled here reads it.
-/

namespace OpalCpp

inductive ErrorKind where
  | transport | serialization | validation | modeled | unknown
deriving DecidableEq, Repr

structure Error where
  kind : ErrorKind := .unknown
  code : String := "UnknownError"
  message : String := ""
  retryable : Bool := false
deriving DecidableEq, Repr

namespace Error

def Transport (message : String) (retryable : Bool := true) : Error :=
  ⟨.transport, "TransportError", message, retryable⟩

/-- A deadline the caller set expired; a transport failure with a code of its own. -/
def Timeout (message : String) : Error := ⟨.transport, "TimeoutError", message, true⟩

def Serialization (message : String) : Error := ⟨.serialization, "SerializationError", message, false⟩

def Validation (message : String) : Error := ⟨.validation, "ValidationError", message, false⟩

end Error

abbrev Outcome (α : Type*) := Except Error α

/-- A sequence succeeds when both its parts do. -/
theorem Outcome.bind_eq_ok {α β : Type*} {first : Outcome α} {next : α → Outcome β} {result : β} :
    first.bind next = .ok result ↔ ∃ value, first = .ok value ∧ next value = .ok result := by
  cases first with
  | error error => simp [Except.bind]
  | ok value => simp [Except.bind]

theorem Outcome.map_eq_ok {α β : Type*} {f : α → β} {first : Outcome α} {result : β} :
    first.map f = .ok result ↔ ∃ value, first = .ok value ∧ f value = result := by
  cases first with
  | error error => simp [Except.map]
  | ok value => simp [Except.map]

end OpalCpp

import OpalCpp.Model.Codegen.JsonRpc2

/-! # The checks of a validator

What the validation generator emits for the constraint traits of a value, and what the emitted code does.
-/

namespace OpalCpp.Codegen

open Bytes (ascii)
open Decimal (decimal)
open JsonRpc2 (ValidationFailure)

structure LengthTrait where
  min : Option ℕ := none
  max : Option ℕ := none
deriving DecidableEq, Repr

/-- An emitted check of `member_length`: the comparisons, of which one is enough for a failure, and the text
of the constraint. -/
structure LengthCheck where
  less : Option ℕ
  greater : Option ℕ
  constraintText : Bytes

/-- No check where nothing can fail it: a lower bound of 0 is left out, but for its place in the text. -/
def writeLengthCheck (length : LengthTrait) : Option LengthCheck :=
  let minCanFail := length.min.any (· ≠ 0)
  match length.min, length.max with
  | none, none => none
  | some min, none =>
    if minCanFail then
      some { less := some min, greater := none,
             constraintText := ascii "Member must have length greater than or equal to " ++ decimal min }
    else none
  | none, some max =>
    some { less := none, greater := some max,
           constraintText := ascii "Member must have length less than or equal to " ++ decimal max }
  | some min, some max =>
    some { less := if minCanFail then some min else none, greater := some max,
           constraintText :=
            ascii "Member must have length between " ++ decimal min ++ ascii " and " ++ decimal max ++ ascii ", inclusive" }

namespace LengthCheck

variable (check : LengthCheck)

def fails (memberLength : ℕ) : Bool :=
  check.less.any (fun min => memberLength < min) || check.greater.any (fun max => max < memberLength)

/-- The block of the check, in the validator. -/
def run (memberLength : ℕ) (path : Bytes) : List ValidationFailure :=
  if check.fails memberLength then
    [{ path, message := ascii "Value with length " ++ decimal memberLength ++ ascii " at '" ++ path ++
        ascii "' failed to satisfy constraint: " ++ check.constraintText }]
  else []

end LengthCheck

/-- The failures of a string under its `@length`. -/
def checkStringLength (length : LengthTrait) (text path : Bytes) : List ValidationFailure :=
  ((writeLengthCheck length).toList).flatMap fun check => check.run (utf8CodePointCount text) path

end OpalCpp.Codegen

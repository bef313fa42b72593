import OpalCpp.Machine.Binary64
import OpalCpp.Model.Core.Error

/-! # Timestamps

Milliseconds since the epoch, and the conversions from and to seconds as a double. The arithmetic on
doubles is IEEE 754's: a conversion, a quotient or a product is the double nearest to the exact one.
-/

namespace OpalCpp

inductive TimestampFormat where
  | epochSeconds | dateTime | httpDate
deriving DecidableEq, Repr

structure Timestamp where
  ms : Int64 := 0
deriving DecidableEq, Repr

/-- A timestamp together with the wire format it should serialize to. -/
structure TimestampValue where
  value : Timestamp
  format : TimestampFormat := .epochSeconds
deriving DecidableEq, Repr

namespace Timestamp

/-- 0000-01-01T00:00:00.000Z -/
def kMinRepresentableMs : ℤ := -62167219200000

/-- 9999-12-31T23:59:59.999Z -/
def kMaxRepresentableMs : ℤ := 253402300799999

def kMinSeconds : ℚ := -62167219200

/-- Just past the year 9999. -/
def kMaxSeconds : ℚ := 253402300800

/-- `static_cast<double>(value)`. -/
def toDouble (value : Int64) : Binary64 := .nearest value.toInt

/-- `std::llround` of a finite double within the range of the result. -/
def llround (x : Binary64) : Int64 := Int64.ofInt (Binary64.roundHalfAway (x.value?.getD 0))

/-- `static_cast<double>(ms) / 1000.0`; every 64-bit integer is converted to a finite double. -/
def epochSeconds (ts : Timestamp) : Binary64 := .nearest ((toDouble ts.ms).value?.getD 0 / 1000)

def checkedFromMs (ms : Int64) : Outcome Timestamp :=
  if ms.toInt < kMinRepresentableMs ∨ kMaxRepresentableMs < ms.toInt then
    .error (.Serialization "timestamp: instant out of representable range (year 0000-9999)")
  else .ok ⟨ms⟩

def fromEpochSecondsChecked (seconds : Binary64) : Outcome Timestamp :=
  match seconds.value? with
  | none => .error (.Serialization "timestamp: epoch-seconds is not finite")
  | some value =>
    if value < kMinSeconds ∨ kMaxSeconds < value then
      .error (.Serialization "timestamp: epoch-seconds out of representable range (year 0000-9999)")
    else checkedFromMs (llround (.nearest (value * 1000)))

end Timestamp

end OpalCpp

import OpalCpp.Machine.FloatFormat
import OpalCpp.Model.Core.Base64
import OpalCpp.Model.Core.Document
import OpalCpp.Model.Core.TimestampText

/-! # Documents read as typed values

The helpers of generated deserializers. They take what either codec decodes: texts and numbers of JSON,
typed nodes of CBOR.
-/

namespace OpalCpp

open Bytes (ascii)

namespace Document

/-- `AsNumber`, of an integer or a double. -/
def asNumber? : Document → Option Binary64
  | .int value => some (Timestamp.toDouble value)
  | .double value => some value
  | _ => none

def isNull (doc : Document) : Bool := doc matches .null

end Document

def timestampFromDocument (doc : Document) (format : TimestampFormat) : Outcome Timestamp :=
  match doc with
  | .timestamp stamp => .ok stamp.value
  | .string text =>
    if format = .epochSeconds then .error (.Serialization "timestamp: string value for an epoch-seconds timestamp")
    else Timestamp.parse text format
  | _ =>
    match doc.asNumber? with
    | some number =>
      if format ≠ .epochSeconds then
        .error (.Serialization "timestamp: numeric value for a string-formatted timestamp")
      else Timestamp.fromEpochSecondsChecked number
    | none => .error (.Serialization "timestamp: expected a timestamp, number, or string")

def blobFromDocument (doc : Document) : Outcome Bytes :=
  match doc with
  | .blob bytes => .ok bytes
  | .string text => base64Decode text
  | _ => .error (.Serialization "blob: expected a byte string or base64 text")

def doubleFromDocument (doc : Document) : Outcome Binary64 :=
  let wrong := Error.Serialization "number: expected a number or NaN/Infinity/-Infinity"
  match doc with
  | .string text =>
    if text = ascii "NaN" then .ok .quietNaN
    else if text = ascii "Infinity" then .ok .infinity
    else if text = ascii "-Infinity" then .ok Binary64.infinity.neg
    else .error wrong
  | _ =>
    match doc.asNumber? with
    | some number => .ok number
    | none => .error wrong

/-- 2^128 - 2^103 -/
def kFloatOverflowBound : ℚ := 2 ^ 128 - 2 ^ 103

def floatFromDouble (value : Binary64) : Outcome Binary32 :=
  match value.value? with
  | some number =>
    if number ≤ -kFloatOverflowBound ∨ kFloatOverflowBound ≤ number then
      .error (.Serialization "number: value out of float range")
    else .ok (.ofBinary64 value)
  | none => .ok (.ofBinary64 value)

end OpalCpp

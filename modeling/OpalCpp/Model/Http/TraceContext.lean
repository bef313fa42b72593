import OpalCpp.Model.Core.Bytes

/-! # Trace contexts

The parser and the printer of a `traceparent` header, and the contexts that are minted where there is none.
-/

namespace OpalCpp.Http

open Bytes (ascii)

structure TraceContext where
  traceId : Bytes
  parentId : Bytes
  sampled : Bool := true
deriving DecidableEq

def isLowerHex (text : Bytes) : Bool :=
  text.all fun c => ('0'.toUInt8 ≤ c && c ≤ '9'.toUInt8) || ('a'.toUInt8 ≤ c && c ≤ 'f'.toUInt8)

def allZeros (text : Bytes) : Bool := text.all (· = '0'.toUInt8)

def parseTraceparent (value : Bytes) : Option TraceContext :=
  let dash (index : ℕ) : Bool := value[index]? = some '-'.toUInt8
  if value.length < 55 ∨ !dash 2 ∨ !dash 35 ∨ !dash 52 then none
  else if 55 < value.length ∧ !dash 55 then none
  else
    let version := value.substr 0 2
    let traceId := value.substr 3 32
    let parentId := value.substr 36 16
    let flags := value.substr 53 2
    if !isLowerHex version ∨ version = ascii "ff" ∨ !isLowerHex traceId ∨ !isLowerHex parentId ∨ !isLowerHex flags then none
    else if allZeros traceId ∨ allZeros parentId then none
    else
      let low := flags.getD 1 0
      let lowValue := if low ≤ '9'.toUInt8 then low - '0'.toUInt8 else low - 'a'.toUInt8 + 10
      some { traceId, parentId, sampled := lowValue &&& 1 ≠ 0 }

/-- `FormatTraceparent` -/
def formatTraceparent (context : TraceContext) : Bytes :=
  ascii "00-" ++ context.traceId ++ ascii "-" ++ context.parentId ++ (if context.sampled then ascii "-01" else ascii "-00")

/-- `RandomHex`, of sixteen digits for each word of the engine, the low ones first. -/
def randomHex (words : List UInt64) : Bytes :=
  let kHex := ascii "0123456789abcdef"
  words.flatMap fun bits => (List.range 16).map fun i => kHex.getD ((bits >>> UInt64.ofNat (4 * i)) &&& 0xF).toNat 0

/-- `GenerateSpanId` on the words of the engine, with those that are left; nothing where they run out. -/
def generateSpanId : List UInt64 → Option (Bytes × List UInt64)
  | [] => none
  | bits :: words => if allZeros (randomHex [bits]) then generateSpanId words else some (randomHex [bits], words)

def generateTraceId : List UInt64 → Option (Bytes × List UInt64)
  | bits :: more :: words =>
    if allZeros (randomHex [bits, more]) then generateTraceId words else some (randomHex [bits, more], words)
  | _ => none

/-- `GenerateTraceContext` -/
def generateTraceContext (words : List UInt64) : Option TraceContext := do
  let (traceId, words) ← generateTraceId words
  let (parentId, _) ← generateSpanId words
  return { traceId, parentId }

end OpalCpp.Http

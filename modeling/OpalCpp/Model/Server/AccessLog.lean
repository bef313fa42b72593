import OpalCpp.Model.Http.Forwarded
import OpalCpp.Model.Http.TraceContext
import OpalCpp.Model.Server.Metrics

/-! # The access log

One observation of a request and the caller's extra fields in, one line of JSON out.
-/

namespace OpalCpp.Server.AccessLog

open Bytes (ascii)
open Http (parseTraceparent TraceContext)
open Http.Forwarded (DerivedClient Source)
open Metrics (kUnmatchedRoute signed)

structure RequestObservation where
  method : Bytes
  target : Bytes
  operation : Bytes
  traceParent : Bytes := []
  status : Int32 := 0
  /-- In microseconds. -/
  duration : Int64 := 0
  requestBytes : UInt64 := 0
  responseBytes : UInt64 := 0
  client : DerivedClient := {}
  handlerThrew : Bool := false

abbrev AccessLogFields := List (Bytes × Bytes)

/-! ## Keys -/

def kMethod : Bytes := ascii "http_method"
def kTarget : Bytes := ascii "target"
def kRoute : Bytes := ascii "route"
def kStatus : Bytes := ascii "status"
def kDurationUs : Bytes := ascii "duration_us"
def kRequestBytes : Bytes := ascii "request_bytes"
def kResponseBytes : Bytes := ascii "response_bytes"
def kClient : Bytes := ascii "client"
def kClientSource : Bytes := ascii "client_source"
def kHandlerThrew : Bytes := ascii "handler_threw"
def kTraceId : Bytes := ascii "trace_id"

def kBuiltInKeys : List Bytes :=
  [kMethod, kTarget, kRoute, kStatus, kDurationUs, kRequestBytes, kResponseBytes, kClient, kClientSource, kHandlerThrew,
    kTraceId]

def sourceName : Source → Bytes
  | .directPeer => ascii "direct_peer"
  | .untrustedHeaderIgnored => ascii "untrusted_header_ignored"
  | .forwarded => ascii "forwarded"
  | .trustedTier => ascii "trusted_tier"
  | .unknown => ascii "unknown"

/-! ## Strings -/

/-- The length of a sequence by its lead, 0 where none can start, and the range of its second byte. -/
def leadRange (lead : UInt8) : ℕ × UInt8 × UInt8 :=
  if 0xC2 ≤ lead ∧ lead ≤ 0xDF then (2, 0x80, 0xBF)
  else if 0xE0 ≤ lead ∧ lead ≤ 0xEF then
    (3, if lead = 0xE0 then 0xA0 else 0x80, if lead = 0xED then 0x9F else 0xBF)
  else if 0xF0 ≤ lead ∧ lead ≤ 0xF4 then
    (4, if lead = 0xF0 then 0x90 else 0x80, if lead = 0xF4 then 0x8F else 0xBF)
  else (0, 0x80, 0xBF)

/-- The length of the well-formed sequence at the front of a text, or 0. -/
def utf8SequenceLength (text : Bytes) : ℕ :=
  let byte (k : ℕ) := text.getD k 0
  let (length, secondMin, secondMax) := leadRange (byte 0)
  if length = 0 then 0
  else if text.length < length then 0
  else if byte 1 < secondMin ∨ secondMax < byte 1 then 0
  else if ((text.take length).drop 2).any (fun c => c < 0x80 ∨ 0xBF < c) then 0
  else length

def kHex : Bytes := ascii "0123456789abcdef"

/-- The switch over a byte below 0x80. -/
def escapedByte (c : UInt8) : Bytes :=
  if c = '"'.toUInt8 then ascii "\\\""
  else if c = '\\'.toUInt8 then ascii "\\\\"
  else if c = 0x08 then ascii "\\b"
  else if c = 0x0C then ascii "\\f"
  else if c = '\n'.toUInt8 then ascii "\\n"
  else if c = '\r'.toUInt8 then ascii "\\r"
  else if c = '\t'.toUInt8 then ascii "\\t"
  else if c < 0x20 then ascii "\\u00" ++ [kHex.getD (c >>> 4).toNat 0, kHex.getD (c &&& 0xF).toNat 0]
  else [c]

/-- The loop over a value, which is what is left of it. -/
def escapedLoop : Bytes → Bytes
  | [] => []
  | c :: rest =>
    if 0x80 ≤ c then
      let length := utf8SequenceLength (c :: rest)
      if length = 0 then [0xEF, 0xBF, 0xBD] ++ escapedLoop rest
      else (c :: rest).take length ++ escapedLoop (rest.drop (length - 1))
    else escapedByte c ++ escapedLoop rest
termination_by value => value.length
decreasing_by
  all_goals
    simp only [List.length_cons, List.length_drop]
    omega

def appendEscaped (out value : Bytes) : Bytes := out ++ ['"'.toUInt8] ++ escapedLoop value ++ ['"'.toUInt8]

def appendKey (out key : Bytes) : Bytes :=
  let out := if 1 < out.length then out ++ [','.toUInt8] else out
  appendEscaped out key ++ [':'.toUInt8]

def appendString (out key value : Bytes) : Bytes := appendEscaped (appendKey out key) value

def appendInteger (out key : Bytes) (value : ℤ) : Bytes := appendKey out key ++ signed value

/-! ## Extra fields -/

/-- The loop over the bytes of a key. -/
def wellFormedKey : Bytes → Bool
  | [] => true
  | c :: rest =>
    if c < 0x80 then wellFormedKey rest
    else
      let length := utf8SequenceLength (c :: rest)
      if length = 0 then false else wellFormedKey (rest.drop (length - 1))
termination_by key => key.length
decreasing_by
  all_goals
    simp only [List.length_cons, List.length_drop]
    omega

/-- The loop over the fields, with the keys of those before. -/
def checkKeys (before : List Bytes) : AccessLogFields → Except String Unit
  | [] => .ok ()
  | (key, _) :: extra =>
    if key = [] then .error "opal::server::FormatAccessLog: extra field key is empty"
    else if !wellFormedKey key then
      .error ("opal::server::FormatAccessLog: extra field key '" ++ key.text ++ "' is not well-formed UTF-8")
    else if key ∈ kBuiltInKeys then
      .error ("opal::server::FormatAccessLog: extra field '" ++ key.text ++ "' shadows a built-in field")
    else if key ∈ before then .error ("opal::server::FormatAccessLog: extra field '" ++ key.text ++ "' is given twice")
    else checkKeys (before ++ [key]) extra

def checkExtraKeys (extra : AccessLogFields) : Except String Unit := checkKeys [] extra

/-! ## The line -/

def formatAccessLog (o : RequestObservation) (extra : AccessLogFields) : Except String Bytes := do
  checkExtraKeys extra
  let out := ['\x7b'.toUInt8]
  let out := appendString out kMethod o.method
  let out := appendString out kTarget o.target
  let out := appendString out kRoute (if o.operation = [] then kUnmatchedRoute else o.operation)
  let out := appendInteger out kStatus o.status.toInt
  let out := appendInteger out kDurationUs o.duration.toInt
  let out := appendInteger out kRequestBytes o.requestBytes.toNat
  let out := appendInteger out kResponseBytes o.responseBytes.toNat
  let out := appendString out kClient o.client.address
  let out := appendString out kClientSource (sourceName o.client.source)
  let out := appendKey out kHandlerThrew ++ if o.handlerThrew then ascii "true" else ascii "false"
  let out := appendString out kTraceId (((parseTraceparent o.traceParent).map TraceContext.traceId).getD [])
  let out := extra.foldl (fun out (key, value) => appendString out key value) out
  return out ++ ['\x7d'.toUInt8]

end OpalCpp.Server.AccessLog

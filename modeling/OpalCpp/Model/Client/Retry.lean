import OpalCpp.Machine.Binary64
import OpalCpp.Model.Http.Http1
import OpalCpp.Model.Http.Transport

/-! # Retries of a client

The delays and the loop over the attempts. The interceptors, the transport, the clock and the callbacks
of the policy share a world, which each of them may read and change. Durations are in milliseconds.
-/

namespace OpalCpp.Client

open Bytes (ascii)
open Http (Headers HttpRequest HttpResponse HttpClient BodySink TransportEvent)

/-- The hooks around an attempt. -/
structure Interceptor (World : Type*) where
  modifyBeforeTransmit : HttpRequest → ℤ → World → HttpRequest × World
  readAfterTransmit : HttpRequest → Outcome HttpResponse → ℤ → World → World

/-- A null callback stands for a real sleep and for the uniform jitter. -/
structure RetryPolicy (World : Type*) where
  maxAttempts : ℤ := 3
  initialBackoff : ℤ := 100
  maxBackoff : ℤ := 20000
  retryAfterCap : ℤ := 60000
  sleep : Option (ℤ → World → World) := none
  jitter : Option (World → Binary64 × World) := none

/-- What the client takes from its platform. -/
structure Platform (World : Type*) where
  sleepFor : ℤ → World → World
  uniformJitter : World → Binary64 × World
  now : World → Timestamp × World

/-! ## Delays -/

/-- The product of a duration and a double, as an integer. A product that no `int64` holds is undefined
in the source. -/
def scaled (duration : ℤ) (jitter01 : Binary64) : ℤ :=
  match (Binary64.nearest duration).value?, jitter01.value? with
  | some duration, some jitter => ((Binary64.nearest (duration * jitter)).value?.map Binary64.truncate).getD 0
  | _, _ => 0

/-- The exponent is capped, so that the shift does not overflow. The product wraps where it does. -/
def retryDelay {World : Type*} (policy : RetryPolicy World) (retry : ℤ) (jitter01 : Binary64) : ℤ :=
  let exponent := min (retry - 1) 20
  let ceiling := min policy.maxBackoff (Int64.ofInt (policy.initialBackoff * 2 ^ exponent.toNat)).toInt
  scaled ceiling jitter01

/-- The largest duration. -/
def maxMilliseconds : ℤ := 2 ^ 63 - 1

/-- The largest difference of two instants that a duration holds. -/
def kRepresentable : UInt64 := 0x7FFFFFFFFFFFFFFF

/-- The delay a response asks for, by its seconds or by its date. Of two instants in order the unsigned difference
is exact. -/
def retryAfterDelay (headers : Headers) (now : Timestamp) (calendar : Calendar := .narrow) : Option ℤ := do
  let value ← headers.get? (ascii "retry-after")
  guard (value ≠ [])
  if value.all Decimal.isDigit then
    let seconds := Http.strtoull value
    return if maxMilliseconds / 1000 < seconds then maxMilliseconds else (Int64.ofNat seconds * 1000).toInt
  else
    let when_ ← Http.parseHttpDate value now calendar
    let ahead := when_.ms.toUInt64 - now.ms.toUInt64
    return if when_.ms ≤ now.ms then 0 else (if kRepresentable < ahead then kRepresentable else ahead).toInt64.toInt

def retryableStatus (status : ℤ) : Bool :=
  status = 429 || status = 500 || status = 502 || status = 503 || status = 504

/-- Whether the loop goes on after an outcome. -/
def retryable : Outcome HttpResponse → Bool
  | .ok response => retryableStatus response.status
  | .error error => error.retryable

/-- What an outcome asks for, by the clock where there are headers to ask with. -/
def asked (outcome : Outcome HttpResponse) (now : Timestamp) : Option ℤ :=
  match outcome with
  | .ok response => retryAfterDelay response.headers now
  | .error _ => none

/-- A wait between two attempts: the jitter and the time it was computed with, and how long it is. -/
structure Wait where
  jitter01 : Binary64
  now : Timestamp
  delay : ℤ
deriving DecidableEq

/-- The backoff, raised to what the response asked for as far as the policy trusts it. -/
def delayBefore {World : Type*} (policy : RetryPolicy World) (retry : ℤ) (jitter01 : Binary64)
    (outcome : Outcome HttpResponse) (now : Timestamp) : ℤ :=
  let backoff := retryDelay policy retry jitter01
  match asked outcome now with
  | none => backoff
  | some asked => max backoff (min asked policy.retryAfterCap)

/-! ## The loop -/

/-- One attempt: where it starts, what is sent and from where, what the transport does, and what comes of it. -/
structure Attempt (World : Type*) where
  number : ℤ
  start : World
  request : HttpRequest
  prepared : World
  trace : List TransportEvent
  outcome : Outcome HttpResponse

inductive RetryEvent (World : Type*) where
  | attempted (attempt : Attempt World)
  | waited (wait : Wait)

section Loop

variable {World : Type*} (platform : Platform World)
    (send : HttpRequest → Traced TransportEvent World (Outcome HttpResponse))
  (request : HttpRequest) (policy : RetryPolicy World) (interceptors : List (Interceptor World))

/-- The interceptors on a copy of the request, in the order of their registration. -/
def modified (number : ℤ) (world : World) : HttpRequest × World :=
  interceptors.foldl (fun (outgoing, world) interceptor => interceptor.modifyBeforeTransmit outgoing number world)
    (request, world)

/-- `attempt_send`. -/
def attemptSend (number : ℤ) : Traced (RetryEvent World) World (Outcome HttpResponse) := fun start =>
  if interceptors.isEmpty then
    let (outcome, after, trace) := send request start
    (outcome, after, [.attempted { number, start, request, prepared := start, trace, outcome }])
  else
    let (outgoing, prepared) := modified request interceptors number start
    let (outcome, after, trace) := send outgoing prepared
    (outcome, interceptors.foldl (fun world interceptor =>
      interceptor.readAfterTransmit outgoing outcome number world) after,
      [.attempted { number, start, request := outgoing, prepared, trace, outcome }])

/-- The clock, which is read for a response only. -/
def readClock (outcome : Outcome HttpResponse) : Traced (RetryEvent World) World Timestamp :=
  match outcome with
  | .ok _ => Traced.silent platform.now
  | .error _ => pure {}

/-- The wait before a retry. -/
def waitBefore (retry : ℤ) (outcome : Outcome HttpResponse) : Traced (RetryEvent World) World Unit := do
  let jitter01 ← Traced.silent (policy.jitter.getD platform.uniformJitter)
  let now ← readClock platform outcome
  let delay := delayBefore policy retry jitter01 outcome now
  Traced.emit (.waited { jitter01, now, delay })
  Traced.silent fun world => ((), policy.sleep.getD platform.sleepFor delay world)

/-- The loop, by the retries that are left. -/
def retryLoop : ℕ → ℤ → Outcome HttpResponse → Traced (RetryEvent World) World (Outcome HttpResponse)
  | 0, _, outcome => pure outcome
  | left + 1, retry, outcome =>
    if retryable outcome then do
      waitBefore platform policy retry outcome
      let outcome ← attemptSend send request interceptors (retry + 1)
      retryLoop left (retry + 1) outcome
    else pure outcome

/-- The loop over the attempts, with the closure that sends. -/
def sendAttempts : Traced (RetryEvent World) World (Outcome HttpResponse) := do
  let attempts := max policy.maxAttempts 1
  let outcome ← attemptSend send request interceptors 1
  retryLoop platform send request policy interceptors (attempts - 1).toNat 1 outcome

end Loop

section Send

variable {World : Type*} (platform : Platform World) (transport : HttpClient World) (request : HttpRequest)
  (policy : RetryPolicy World) (interceptors : List (Interceptor World))

/-- With retries, a retryable status is kept away from the sink. -/
def guarded (sink : BodySink World) : BodySink World :=
  if 1 < max policy.maxAttempts 1 then
    { sink with
      accept := sink.accept.map fun accept status headers world =>
        if retryableStatus status then (.ok false, world) else accept status headers world }
  else sink

/-- The closure that sends: to the sink where there is one. -/
def sender (sink : Option (BodySink World)) (outgoing : HttpRequest) : Traced TransportEvent World (Outcome HttpResponse) :=
  match sink with
  | none => transport.send outgoing
  | some sink => transport.sendStreaming outgoing (guarded policy sink)

/-- Both overloads: a call without a sink, and one with. -/
def sendWithRetries (sink : Option (BodySink World)) : Traced (RetryEvent World) World (Outcome HttpResponse) :=
  sendAttempts platform (sender transport policy sink) request policy interceptors

end Send

end OpalCpp.Client

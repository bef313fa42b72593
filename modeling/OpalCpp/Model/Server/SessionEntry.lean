import Mathlib.Algebra.Order.Monoid.Unbundled.WithTop
import OpalCpp.Machine.Deque
import OpalCpp.Model.Core.Error
import Mathlib.Data.List.Basic
import Mathlib.Order.WithBot

/-! # One registry entry: its queue, its flags, and every critical section that edits them

`SessionRegistry::Entry` and the bodies of its lock holds, as pure functions of the entry. Each
definition below is one hold of `entry->mutex`; what the source does after releasing the lock
(the sends, the spawned threads) belongs to the machine built on top of these functions.

A `std::thread` member is the id of a joinable thread or nothing; the id of a thread about to be
spawned is supplied by the caller. The steady clock is a natural number of ticks, and the forged
`time_point::max()` of an immediate expiry is the top element above it.
-/

namespace OpalCpp.Server

/-- How an event competes for room in a session's bounded queue. -/
inductive DeliveryClass.Kind where
  | reliable | droppable | coalesce
deriving DecidableEq, Repr

structure DeliveryClass where
  kind : DeliveryClass.Kind := .reliable
  key : String := ""
deriving DecidableEq, Repr

namespace DeliveryClass

def Reliable : DeliveryClass := {}
def Droppable : DeliveryClass := { kind := .droppable, key := "" }
def Coalesce (key : String) : DeliveryClass := { kind := .coalesce, key }

/-- The event holds latest-wins state under this key. -/
def coalesces (delivery : DeliveryClass) (key : String) : Bool :=
  delivery.kind == .coalesce && delivery.key == key

end DeliveryClass

/-- The options the registry reads. Callbacks are application code: only whether one is set matters. -/
structure Options where
  queueCapacity : ℕ := 64
  onSlowConsumer : Bool := false
  asyncDelivery : Bool := false
  gracePeriod : ℤ := 0
  onExpired : Bool := false
  queueWhileDetached : Bool := false
deriving DecidableEq, Repr

def Options.normalize (options : Options) : Options :=
  { options with
    queueCapacity := if options.queueCapacity < 1 then 1 else options.queueCapacity
    gracePeriod := if options.gracePeriod < 0 then 0 else options.gracePeriod }

structure Queued (Tx : Type*) where
  event : Tx
  delivery : DeliveryClass
deriving DecidableEq, Repr

structure Entry (Handle Tx : Type*) where
  handle : Handle
  queue : List (Queued Tx) := []
  stopping : Bool := false
  done : Bool := false
  asyncMode : Bool := false
  delivering : Bool := false
  detached : Bool := false
  deadline : ℕ := 0
  writer : Option ℕ := none
deriving DecidableEq, Repr

namespace Entry

variable {Handle Tx : Type*}

/-- Slots off limits to placement: while `delivering`, the front is the chain's in-flight event. -/
def inFlight (entry : Entry Handle Tx) : ℕ :=
  if entry.delivering && !entry.queue.isEmpty then 1 else 0

/-- The queued events that coalescing and eviction may touch. -/
def pending (entry : Entry Handle Tx) : List (Queued Tx) := entry.queue.drop entry.inFlight

inductive Placement where
  | queued | dropped | full
deriving DecidableEq, Repr

/-- Where `PlaceLocked` puts an event: onto a queued match, into the room of an evicted event,
at the back, or nowhere. -/
inductive Site where
  | replace (index : ℕ)
  | evict (index : ℕ)
  | append
  | refuse
deriving DecidableEq, Repr

/-- The first `find_if` of `PlaceLocked`: a pending event that a coalesce event replaces. -/
def matching (entry : Entry Handle Tx) (delivery : DeliveryClass) : Option ℕ :=
  if delivery.kind = .coalesce then
    findFrom entry.inFlight (fun queued => queued.delivery.coalesces delivery.key) entry.queue
  else none

/-- The second one: the oldest pending droppable event. -/
def victim (entry : Entry Handle Tx) : Option ℕ :=
  findFrom entry.inFlight (fun queued => queued.delivery.kind == .droppable) entry.queue

def site (capacity : ℕ) (entry : Entry Handle Tx) (delivery : DeliveryClass) : Site :=
  match entry.matching delivery with
  | some index => .replace index
  | none =>
    if capacity ≤ entry.queue.length then
      match entry.victim with
      | some index => .evict index
      | none => .refuse
    else .append

def placeLocked (capacity : ℕ) (entry : Entry Handle Tx) (event : Tx) (delivery : DeliveryClass) :
    Entry Handle Tx × Placement :=
  match entry.site capacity delivery with
  | .replace index =>
    ({ entry with queue := entry.queue.modify index fun queued => { queued with event } }, .queued)
  | .evict index =>
    ({ entry with queue := entry.queue.eraseIdx index ++ [⟨event, delivery⟩] }, .queued)
  | .append => ({ entry with queue := entry.queue ++ [⟨event, delivery⟩] }, .queued)
  | .refuse => (entry, if delivery.kind = .droppable then .dropped else .full)

/-- Claim the front for the chain, or mark the chain idle when there is nothing to send. -/
def claimLocked (entry : Entry Handle Tx) : Entry Handle Tx × Option Tx :=
  match entry.queue with
  | [] => ({ entry with delivering := false }, none)
  | front :: _ =>
    if entry.stopping then ({ entry with delivering := false }, none)
    else ({ entry with delivering := true }, some front.event)

/-- What `Enqueue` goes on to do once it has released the entry lock. -/
inductive Enqueued (Tx : Type*) where
  /-- Report false; no policy runs. -/
  | refused
  /-- Report true, after submitting the claimed event if there is one. -/
  | queued (claimed : Option Tx)
  /-- Run the slow-consumer policy, then report false. -/
  | full
deriving DecidableEq, Repr

def Enqueued.reported : Enqueued Tx → Bool
  | .queued _ => true
  | _ => false

def enqueue (options : Options) (entry : Entry Handle Tx) (event : Tx) (delivery : DeliveryClass) :
    Entry Handle Tx × Enqueued Tx :=
  if entry.detached then
    -- Tested before `stopping`: retention must win over the refusal of a stopped entry.
    if options.queueWhileDetached then
      match entry.placeLocked options.queueCapacity event delivery with
      | (placed, .queued) => (placed, .queued none)
      | (placed, _) => (placed, .refused)
    else (entry, .refused)
  else if entry.stopping then (entry, .refused)
  else
    match entry.placeLocked options.queueCapacity event delivery with
    | (placed, .queued) =>
      if placed.asyncMode && !placed.delivering then
        let (claiming, claimed) := placed.claimLocked
        (claiming, .queued claimed)
      else (placed, .queued none)
    | (placed, .dropped) => (placed, .refused)
    | (placed, .full) => (placed, .full)

/-- What a `SendAsync` completion goes on to do: send the next event, start a writer, or rest. -/
inductive ChainStep (Tx : Type*) where
  | submit (event : Tx)
  | spawn
  | idle
deriving DecidableEq, Repr

/-- The completion callback of `SubmitAsync`. -/
def complete (fresh : ℕ) (entry : Entry Handle Tx) (sent : Outcome Unit) :
    Entry Handle Tx × ChainStep Tx :=
  match sent with
  | .ok _ =>
    -- The pop is guarded: the queue may have been cleared while the event was in flight.
    match { entry with queue := entry.queue.tail }.claimLocked with
    | (claiming, some event) => (claiming, .submit event)
    | (claiming, none) => (claiming, .idle)
  | .error error =>
    if error.kind = .validation then
      -- Refused, not failed: fall back to a writer thread unless one exists or delivery is over.
      if !entry.stopping && entry.writer.isNone then
        ({ entry with delivering := false, asyncMode := false, writer := some fresh }, .spawn)
      else ({ entry with delivering := false }, .idle)
    else
      ({ entry with
          stopping := true
          queue := if entry.detached then entry.queue else []
          delivering := false }, .idle)

/-- The writer's wait predicate. -/
def writerRunnable (entry : Entry Handle Tx) : Bool := entry.stopping || !entry.queue.isEmpty

/-- The writer's first critical section: leave the loop, or take the front off the queue. -/
def writerTake (entry : Entry Handle Tx) : Entry Handle Tx × Option Tx :=
  if entry.stopping then (entry, none)
  else
    match entry.queue with
    | [] => (entry, none)
    | front :: rest => ({ entry with queue := rest }, some front.event)

/-- The writer's failure branch: a detached entry may be retaining its queue for the resume. -/
def writerFailed (entry : Entry Handle Tx) : Entry Handle Tx :=
  { entry with stopping := true, queue := if entry.detached then entry.queue else [] }

def writerDone (entry : Entry Handle Tx) : Entry Handle Tx := { entry with done := true }

/-- `RequestStop`, and the identical hold inside `Remove`. -/
def requestStop (entry : Entry Handle Tx) : Entry Handle Tx :=
  { entry with stopping := true, queue := [] }

/-- `Detach`'s critical section, on an entry that is not detached yet. -/
def detach (options : Options) (now : ℕ) (entry : Entry Handle Tx) : Entry Handle Tx :=
  { entry with
    detached := true
    deadline := now + options.gracePeriod.toNat
    stopping := true
    queue := if options.queueWhileDetached then entry.queue else [] }

/-- `Resume` goes on to its wait: the entry is detached and still within grace. -/
def resumable (options : Options) (now : ℕ) (entry : Entry Handle Tx) : Bool :=
  options.gracePeriod != 0 && entry.detached && decide (now < entry.deadline)

/-- `Resume`'s wait predicate: the old writer exited and no chain completion is outstanding. -/
def quiescent (entry : Entry Handle Tx) : Bool :=
  (entry.writer.isNone || entry.done) && !entry.delivering

/-- `Resume` after its wait: join the writer, swap the handle, re-arm delivery. -/
def resumeSwap (fresh : ℕ) (handle : Handle) (asyncMode : Bool) (entry : Entry Handle Tx) :
    Entry Handle Tx × Option Tx :=
  let swapped : Entry Handle Tx :=
    { entry with handle, detached := false, stopping := false, done := false, asyncMode, writer := none }
  if asyncMode then swapped.claimLocked
  else ({ swapped with writer := some fresh }, none)

/-- The expiry claim of `TakeExpiredLocked`. -/
def expired (now : WithTop ℕ) (entry : Entry Handle Tx) : Bool :=
  entry.detached && decide ((entry.deadline : WithTop ℕ) ≤ now)

/-- The entry `Add` registers; its writer, if it has one, is thread `fresh`. -/
def added (fresh : ℕ) (options : Options) (handle : Handle) (supportsAsync : Bool) : Entry Handle Tx :=
  let asyncMode := options.asyncDelivery && supportsAsync
  { handle, asyncMode, writer := if asyncMode then none else some fresh }

end Entry

end OpalCpp.Server

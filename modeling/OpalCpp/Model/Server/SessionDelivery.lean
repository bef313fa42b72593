import OpalCpp.Machine.Run
import OpalCpp.Model.Server.SessionEntry

/-! # The delivery machine of one entry

Everything that happens to one entry between `Add` and teardown, one critical section or one call
outside the lock at a time. Enqueuers, the completion chain, writer threads, `Detach`, the two
halves of `Resume`, and the registry's removals interleave freely; a send and its completion are
separate steps, and so are taking an event off the queue and sending it.

The environment part of the state holds what the source keeps on thread stacks: claimed events on
their way through `SendAsync`, every writer thread ever spawned, and a `Resume` that is waiting
with the registry lock held. The history part is never read by the code. It numbers the enqueues,
records which were accepted, and logs each hand-over and each outcome; a slot is the place in line
an event stands in, which a coalesced event takes over from the one it replaces.
-/

namespace OpalCpp.Server

/-- An event with its history: its class, the enqueue that brought it, and its place in line. -/
structure Stamped (Tx : Type*) where
  event : Tx
  delivery : DeliveryClass
  stamp : ℕ
  slot : ℕ
deriving DecidableEq, Repr

/-- A claimed event between `ClaimLocked` and the end of its `SendAsync` completion. -/
structure ChainOp (Tx : Type*) where
  event : Stamped Tx
  /-- `SendAsync` has been called and its completion has not run yet. -/
  sent : Bool := false
  /-- How many handle swaps preceded the claim. -/
  epoch : ℕ
  /-- The queue was cleared since the claim, when this many events had been accepted. -/
  cleared : Option ℕ := none
deriving DecidableEq, Repr

/-- Where a writer thread stands in `WriterLoop`. -/
inductive WriterPc (Tx : Type*) where
  /-- Before or inside the wait for work. -/
  | waiting
  /-- An event is off the queue and about to be sent. -/
  | popped (event : Stamped Tx) (epoch : ℕ)
  /-- Inside the blocking `Send`. -/
  | sending (event : Stamped Tx) (epoch : ℕ)
  /-- `Send` failed; about to take the lock. -/
  | failed
  /-- Out of the loop; about to report `done`. -/
  | exiting
  | exited
deriving DecidableEq, Repr

/-- One `Send` or `SendAsync` call: its event, the handle it used, and the swap counts at the
time the event was taken and at the time of the call. -/
structure Handover (Handle Tx : Type*) where
  event : Stamped Tx
  handle : Handle
  taken : ℕ
  epoch : ℕ
deriving DecidableEq, Repr

structure Delivery (Handle Tx : Type*) where
  entry : Entry Handle (Stamped Tx)
  registered : Bool := true
  chain : List (ChainOp Tx) := []
  threads : List (WriterPc Tx) := []
  resuming : Option (Handle × Bool) := none
  enqueues : ℕ := 0
  accepted : List (Stamped Tx) := []
  handed : List (Handover Handle Tx) := []
  settled : List (Stamped Tx × Bool) := []
  earlier : List Handle := []
deriving DecidableEq, Repr

/-- Every step anyone can take on an entry. Numbers name a chain operation or a writer thread. -/
inductive DeliveryLabel (Handle Tx : Type*) where
  | enqueue (event : Tx) (delivery : DeliveryClass)
  | submit (op : ℕ)
  | complete (op : ℕ) (sent : Outcome Unit)
  | writerTake (thread : ℕ)
  | writerSend (thread : ℕ)
  | writerReturn (thread : ℕ) (sent : Outcome Unit)
  | writerFailed (thread : ℕ)
  | writerDone (thread : ℕ)
  | detach (now : ℕ)
  | resume (handle : Handle) (supportsAsync : Bool) (now : ℕ)
  | resumeFinish
  | remove
  | expire (now : WithTop ℕ)
  | unregister
  | requestStop
  | join

namespace Delivery

variable {Handle Tx : Type*}

/-- How many successful resumes the entry has had. -/
def epoch (state : Delivery Handle Tx) : ℕ := state.earlier.length

/-- The operations in flight, marked with the queue being cleared under them. -/
def markCleared (state : Delivery Handle Tx) : List (ChainOp Tx) :=
  state.chain.map fun op => { op with cleared := some state.accepted.length }

def claimOp (epoch : ℕ) (event : Stamped Tx) : ChainOp Tx := { event, epoch }

/-- The event an enqueue offers: a coalesced event will stand where the one it replaces stood. -/
def offered (options : Options) (state : Delivery Handle Tx) (event : Tx) (delivery : DeliveryClass) :
    Stamped Tx :=
  let slot :=
    match state.entry.site options.queueCapacity delivery with
    | .replace index => (state.entry.queue[index]?.map (·.event.slot)).getD state.enqueues
    | _ => state.enqueues
  { event, delivery, stamp := state.enqueues, slot }

/-- `Add` on a fresh id: a writer is running, or the chain is armed by the first enqueue. -/
def added (options : Options) (handle : Handle) (supportsAsync : Bool) : Delivery Handle Tx :=
  { entry := Entry.added 0 options.normalize handle supportsAsync
    threads := if options.asyncDelivery && supportsAsync then [] else [.waiting] }

def enqueue (options : Options) (state : Delivery Handle Tx) (event : Tx) (delivery : DeliveryClass) :
    Delivery Handle Tx :=
  let stamped := state.offered options event delivery
  let (entry, outcome) := state.entry.enqueue options stamped delivery
  let state := { state with entry, enqueues := state.enqueues + 1 }
  match outcome with
  | .queued claimed =>
    { state with
      accepted := state.accepted ++ [stamped]
      chain := state.chain ++ claimed.toList.map (claimOp state.epoch) }
  | _ => state

/-- `SubmitAsync`: the handle is read when the call is made. -/
def submit (state : Delivery Handle Tx) (index : ℕ) : Option (Delivery Handle Tx) :=
  match state.chain[index]? with
  | some op =>
    if op.sent then none
    else some { state with
      chain := state.chain.set index { op with sent := true }
      handed := state.handed ++ [⟨op.event, state.entry.handle, op.epoch, state.epoch⟩] }
  | none => none

def complete (state : Delivery Handle Tx) (index : ℕ) (sent : Outcome Unit) :
    Option (Delivery Handle Tx) :=
  match state.chain[index]? with
  | some op =>
    if op.sent then
      let (entry, outcome) := state.entry.complete state.threads.length sent
      let settled := if sent.isOk then state.settled ++ [(op.event, true)] else state.settled
      let state := { state with entry, settled, chain := state.chain.eraseIdx index }
      match outcome with
      | .submit event => some { state with chain := state.chain ++ [claimOp state.epoch event] }
      | .spawn => some { state with threads := state.threads ++ [.waiting] }
      | .idle => some state
    else none
  | none => none

def writerTake (state : Delivery Handle Tx) (thread : ℕ) : Option (Delivery Handle Tx) :=
  match state.threads[thread]? with
  | some .waiting =>
    if state.entry.writerRunnable then
      match state.entry.writerTake with
      | (entry, none) => some { state with entry, threads := state.threads.set thread .exiting }
      | (entry, some event) =>
        some { state with entry, threads := state.threads.set thread (.popped event state.epoch) }
    else none
  | _ => none

def writerSend (state : Delivery Handle Tx) (thread : ℕ) : Option (Delivery Handle Tx) :=
  match state.threads[thread]? with
  | some (.popped event taken) =>
    some { state with
      threads := state.threads.set thread (.sending event taken)
      handed := state.handed ++ [⟨event, state.entry.handle, taken, state.epoch⟩] }
  | _ => none

def writerReturn (state : Delivery Handle Tx) (thread : ℕ) (sent : Outcome Unit) :
    Option (Delivery Handle Tx) :=
  match state.threads[thread]? with
  | some (.sending event _) =>
    some { state with
      threads := state.threads.set thread (if sent.isOk then .waiting else .failed)
      settled := state.settled ++ [(event, sent.isOk)] }
  | _ => none

def writerFailed (state : Delivery Handle Tx) (thread : ℕ) : Option (Delivery Handle Tx) :=
  match state.threads[thread]? with
  | some .failed =>
    some { state with
      entry := state.entry.writerFailed
      chain := if state.entry.detached then state.chain else state.markCleared
      threads := state.threads.set thread .exiting }
  | _ => none

def writerDone (state : Delivery Handle Tx) (thread : ℕ) : Option (Delivery Handle Tx) :=
  match state.threads[thread]? with
  | some .exiting =>
    some { state with entry := state.entry.writerDone, threads := state.threads.set thread .exited }
  | _ => none

/-- The registry lock is free for this entry: it is in the map and no `Resume` of it is waiting. -/
def reachable (state : Delivery Handle Tx) : Bool := state.registered && state.resuming.isNone

def detach (options : Options) (state : Delivery Handle Tx) (now : ℕ) : Option (Delivery Handle Tx) :=
  if state.reachable && options.gracePeriod != 0 && !state.entry.detached then
    some { state with
      entry := state.entry.detach options now
      chain := if options.queueWhileDetached then state.chain else state.markCleared }
  else none

/-- The first half of `Resume`, up to its wait. A wait whose predicate already holds returns
without releasing the lock: that is the second half following at once. -/
def resume (options : Options) (state : Delivery Handle Tx) (handle : Handle) (supportsAsync : Bool)
    (now : ℕ) : Option (Delivery Handle Tx) :=
  if state.reachable && state.entry.resumable options now then
    some { state with resuming := some (handle, options.asyncDelivery && supportsAsync) }
  else none

/-- The second half of `Resume`: the wait is over, the writer is joined, the handle is swapped. -/
def resumeFinish (state : Delivery Handle Tx) : Option (Delivery Handle Tx) :=
  match state.resuming with
  | some (handle, asyncMode) =>
    if state.entry.quiescent then
      let (entry, claimed) := state.entry.resumeSwap state.threads.length handle asyncMode
      let earlier := state.earlier ++ [state.entry.handle]
      some { state with
        entry, earlier
        resuming := none
        threads := if asyncMode then state.threads else state.threads ++ [.waiting]
        chain := state.chain ++ claimed.toList.map (claimOp earlier.length) }
    else none
  | none => none

def stopped (state : Delivery Handle Tx) : Delivery Handle Tx :=
  { state with entry := state.entry.requestStop, chain := state.markCleared }

def remove (state : Delivery Handle Tx) : Option (Delivery Handle Tx) :=
  if state.reachable then some { state.stopped with registered := false } else none

def expire (state : Delivery Handle Tx) (now : WithTop ℕ) : Option (Delivery Handle Tx) :=
  if state.reachable && state.entry.expired now then some { state with registered := false } else none

/-- The destructor takes the entry out of the map; its `RequestStop` follows. -/
def unregister (state : Delivery Handle Tx) : Option (Delivery Handle Tx) :=
  if state.reachable then some { state with registered := false } else none

def requestStop (state : Delivery Handle Tx) : Option (Delivery Handle Tx) :=
  if state.registered then none else some state.stopped

/-- `ReapLocked` or the destructor joins a finished writer of an entry that has left the map. -/
def join (state : Delivery Handle Tx) : Option (Delivery Handle Tx) :=
  if !state.registered && state.entry.writer.isSome && state.entry.done then
    some { state with entry := { state.entry with writer := none } }
  else none

/-- One step of the machine; the options are the normalized ones the registry stores. -/
def step (options : Options) (state : Delivery Handle Tx) :
    DeliveryLabel Handle Tx → Option (Delivery Handle Tx)
  | .enqueue event delivery => some (state.enqueue options event delivery)
  | .submit op => state.submit op
  | .complete op sent => state.complete op sent
  | .writerTake thread => state.writerTake thread
  | .writerSend thread => state.writerSend thread
  | .writerReturn thread sent => state.writerReturn thread sent
  | .writerFailed thread => state.writerFailed thread
  | .writerDone thread => state.writerDone thread
  | .detach now => state.detach options now
  | .resume handle supportsAsync now => state.resume options handle supportsAsync now
  | .resumeFinish => state.resumeFinish
  | .remove => state.remove
  | .expire now => state.expire now
  | .unregister => state.unregister
  | .requestStop => state.requestStop
  | .join => state.join

end Delivery

/-- The delivery machine of a registry constructed with these options. -/
def delivery (Handle Tx : Type*) (options : Options) :
    Machine (Delivery Handle Tx) (DeliveryLabel Handle Tx) where
  step := Delivery.step options.normalize

end OpalCpp.Server

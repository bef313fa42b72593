import OpalCpp.Model.Server.SessionDelivery
import Mathlib.Data.List.Sort

/-! # The registry: its map, its retired writers, and the expiry of detached sessions

The session map is a list of ids in key order with references into a heap of entries; a
`shared_ptr` to an entry is such a reference, so an entry outlives its place in the map. One step
of the registry is one hold of `mutex_` or one action outside it. `Resume` keeps the lock while it
waits: every other holder of `mutex_` is refused until it has finished. Entries take their own
steps in between, whoever holds the registry lock.

The parts played by the expiry thread, by callers of `Drain` and by the destructor are program
counters with the batch of claims each of them still has to fire. The history numbers the detach
episodes (each successful `Detach` opens one), and records how each ended and which ones
`on_expired` has been called for.
-/

namespace OpalCpp.Server

/-- How a detach episode ends. -/
inductive Ending where
  | resumed | removed | expired
deriving DecidableEq, Repr

/-- An entry on the heap, with the number of the detach episode it is in. -/
structure Cell (Handle Tx : Type*) where
  delivery : Delivery Handle Tx
  episode : Option ℕ := none
deriving DecidableEq, Repr

/-- One pair of `TakeExpiredLocked`'s result: the id, the entry, and the episode claimed. -/
structure Claim (Id : Type*) where
  id : Id
  ref : ℕ
  episode : Option ℕ
deriving DecidableEq, Repr

/-- The expiry thread: not started, in its loop, inside `FireExpiries`, or out of the loop. -/
inductive ExpiryPc (Id : Type*) where
  | absent
  | looping
  | firing (claims : List (Claim Id))
  | exited
deriving DecidableEq, Repr

/-- The destructor, step by step. -/
inductive TeardownPc (Id : Type*) where
  | alive
  /-- `StopExpiry` has set the flag and joins the thread. -/
  | stopExpiry
  /-- About to expire what is still detached. -/
  | expire
  | firing (claims : List (Claim Id))
  /-- The map and the retired list have been taken; these entries are still to be stopped. -/
  | stop (refs all : List ℕ)
  /-- These writers are still to be joined. -/
  | join (refs : List ℕ)
deriving DecidableEq, Repr

structure Registry (Id Handle Tx : Type*) where
  sessions : List (Id × ℕ) := []
  retired : List ℕ := []
  heap : List (Cell Handle Tx) := []
  /-- The entry whose `Resume` holds `mutex_` while it waits. -/
  resuming : Option ℕ := none
  expiry : ExpiryPc Id := .absent
  expiryStop : Bool := false
  drains : List (List (Claim Id)) := []
  teardown : TeardownPc Id := .alive
  detaches : List Id := []
  ended : List (ℕ × Ending) := []
  fired : List (Claim Id) := []
deriving DecidableEq, Repr

inductive RegistryLabel (Id Handle Tx : Type*) where
  | add (id : Id) (handle : Handle) (supportsAsync : Bool)
  | remove (id : Id)
  | detach (id : Id) (now : ℕ)
  | resume (id : Id) (handle : Handle) (supportsAsync : Bool) (now : ℕ)
  | resumeFinish
  /-- A sender, the chain, or the writer of an entry moves on. -/
  | entry (ref : ℕ) (label : DeliveryLabel Handle Tx)
  | expiryTake (now : ℕ)
  | expiryFire
  | expiryExit
  | drain
  | drainFire (caller : ℕ)
  | destroy
  | destroyJoinExpiry
  | destroyExpire
  | destroyFire
  | destroyCollect
  | destroyStop
  | destroyJoin

/-- The steps that senders, completions and writers take on an entry without the registry. -/
def DeliveryLabel.internal {Handle Tx : Type*} : DeliveryLabel Handle Tx → Bool
  | .enqueue _ _ | .submit _ | .complete _ _ | .writerTake _ | .writerSend _ | .writerReturn _ _
  | .writerFailed _ | .writerDone _ => true
  | _ => false

namespace Registry

variable {Id Handle Tx : Type*}

def lookup [DecidableEq Id] (registry : Registry Id Handle Tx) (id : Id) : Option ℕ :=
  (registry.sessions.find? (·.1 == id)).map (·.2)

/-- `sessions_.emplace` of an id that is not in the map yet. -/
def emplace [LinearOrder Id] (sessions : List (Id × ℕ)) (id : Id) (ref : ℕ) : List (Id × ℕ) :=
  sessions.orderedInsert (fun first second => first.1 ≤ second.1) (id, ref)

def erase [DecidableEq Id] (sessions : List (Id × ℕ)) (id : Id) : List (Id × ℕ) :=
  sessions.filter (·.1 != id)

/-- Put an entry back on the heap; its episode, if it was in one, goes on. -/
def update (registry : Registry Id Handle Tx) (ref : ℕ) (cell : Cell Handle Tx)
    (delivery : Delivery Handle Tx) : Registry Id Handle Tx :=
  { registry with heap := registry.heap.set ref { cell with delivery } }

/-- Put an entry back on the heap at the end of its episode, if it was in one. -/
def finish (registry : Registry Id Handle Tx) (ref : ℕ) (cell : Cell Handle Tx)
    (delivery : Delivery Handle Tx) (ending : Ending) : Registry Id Handle Tx :=
  { registry with
    heap := registry.heap.set ref { delivery, episode := none }
    ended := registry.ended ++ cell.episode.toList.map (·, ending) }

/-- One round of the loop of `ReapLocked`. -/
def reapOne (registry : Registry Id Handle Tx) (ref : ℕ) : Registry Id Handle Tx :=
  match registry.heap[ref]? with
  | some cell =>
    if cell.delivery.entry.writer.isNone then registry
    else
      match cell.delivery.join with
      | some delivery => registry.update ref cell delivery
      | none => { registry with retired := registry.retired ++ [ref] }
  | none => registry

def reapLocked (registry : Registry Id Handle Tx) : Registry Id Handle Tx :=
  registry.retired.foldl reapOne { registry with retired := [] }

def add [LinearOrder Id] (options : Options) (registry : Registry Id Handle Tx) (id : Id)
    (handle : Handle) (supportsAsync : Bool) : Registry Id Handle Tx × Bool :=
  let registry := registry.reapLocked
  match registry.lookup id with
  | some _ => (registry, false)
  | none =>
    ({ registry with
        sessions := emplace registry.sessions id registry.heap.length
        heap := registry.heap ++ [{ delivery := .added options handle supportsAsync }] }, true)

def remove [DecidableEq Id] (registry : Registry Id Handle Tx) (id : Id) : Registry Id Handle Tx × Bool :=
  match registry.lookup id with
  | none => (registry, false)
  | some ref =>
    match registry.heap[ref]? with
    | none => (registry, false)
    | some cell =>
      match cell.delivery.remove with
      | none => (registry, false)
      | some delivery =>
        let registry := registry.finish ref cell delivery .removed
        let retired := if delivery.entry.writer.isSome then registry.retired ++ [ref] else registry.retired
        ({ registry with sessions := erase registry.sessions id, retired }.reapLocked, true)

/-- `ArmExpiryLocked`: the first detach starts the thread. -/
def armExpiryLocked (registry : Registry Id Handle Tx) : Registry Id Handle Tx :=
  match registry.expiry with
  | .absent => { registry with expiry := .looping }
  | _ => registry

def detach [DecidableEq Id] (options : Options) (registry : Registry Id Handle Tx) (id : Id) (now : ℕ) :
    Registry Id Handle Tx × Bool :=
  match registry.lookup id with
  | none => (registry, false)
  | some ref =>
    match registry.heap[ref]? with
    | none => (registry, false)
    | some cell =>
      match cell.delivery.detach options now with
      | none => (registry, false)
      | some delivery =>
        ({ registry with
            heap := registry.heap.set ref { delivery, episode := some registry.detaches.length }
            detaches := registry.detaches ++ [id] }.armExpiryLocked, true)

/-- `Resume` up to its wait: false at once, or the lock is kept. -/
def resume [DecidableEq Id] (options : Options) (registry : Registry Id Handle Tx) (id : Id)
    (handle : Handle) (supportsAsync : Bool) (now : ℕ) : Registry Id Handle Tx :=
  match registry.lookup id with
  | none => registry
  | some ref =>
    match registry.heap[ref]? with
    | none => registry
    | some cell =>
      match cell.delivery.resume options handle supportsAsync now with
      | none => registry
      | some delivery => { registry.update ref cell delivery with resuming := some ref }

/-- `Resume` after its wait; it returns true. -/
def resumeFinish (registry : Registry Id Handle Tx) : Option (Registry Id Handle Tx) :=
  registry.resuming.bind fun ref =>
    registry.heap[ref]?.bind fun cell =>
      cell.delivery.resumeFinish.map fun delivery =>
        { registry.finish ref cell delivery .resumed with resuming := none }

def entry (options : Options) (registry : Registry Id Handle Tx) (ref : ℕ)
    (label : DeliveryLabel Handle Tx) : Option (Registry Id Handle Tx) :=
  if label.internal then
    registry.heap[ref]?.bind fun cell => (cell.delivery.step options label).map (registry.update ref cell)
  else none

/-- One round of the loop of `TakeExpiredLocked`, on one entry of the map. -/
def takeOne [DecidableEq Id] (now : WithTop ℕ) (taken : Registry Id Handle Tx × List (Claim Id))
    (session : Id × ℕ) : Registry Id Handle Tx × List (Claim Id) :=
  match taken.1.heap[session.2]? with
  | none => taken
  | some cell =>
    match cell.delivery.expire now with
    | none => taken
    | some delivery =>
      let registry := taken.1.finish session.2 cell delivery .expired
      let retired :=
        if delivery.entry.writer.isSome then registry.retired ++ [session.2] else registry.retired
      ({ registry with sessions := erase registry.sessions session.1, retired },
        taken.2 ++ [⟨session.1, session.2, cell.episode⟩])

def takeExpiredLocked [DecidableEq Id] (registry : Registry Id Handle Tx) (now : WithTop ℕ) :
    Registry Id Handle Tx × List (Claim Id) :=
  let taken := registry.sessions.foldl (takeOne now) (registry, [])
  if taken.2.isEmpty then taken else (taken.1.reapLocked, taken.2)

/-- One round of the loop of `FireExpiries`: the call to `on_expired`, if the option is set. -/
def fire (options : Options) (registry : Registry Id Handle Tx) (claim : Claim Id) : Registry Id Handle Tx :=
  if options.onExpired then { registry with fired := registry.fired ++ [claim] } else registry

/-- The expiry thread comes back from a wait; with nothing to claim it goes round its loop. -/
def expiryTake [DecidableEq Id] (registry : Registry Id Handle Tx) (now : ℕ) :
    Option (Registry Id Handle Tx) :=
  match registry.expiry with
  | .looping =>
    if registry.expiryStop then none
    else
      match registry.takeExpiredLocked now with
      | (_, []) => some registry
      | (registry, claims) => some { registry with expiry := .firing claims }
  | _ => none

def expiryFire (options : Options) (registry : Registry Id Handle Tx) : Option (Registry Id Handle Tx) :=
  match registry.expiry with
  | .firing [] => some { registry with expiry := .looping }
  | .firing (claim :: rest) => some { registry.fire options claim with expiry := .firing rest }
  | _ => none

def expiryExit (registry : Registry Id Handle Tx) : Option (Registry Id Handle Tx) :=
  match registry.expiry with
  | .looping => if registry.expiryStop then some { registry with expiry := .exited } else none
  | _ => none

/-- `ExpireDetachedNow` at the beginning of `Drain`; what follows it in `Drain` only waits. -/
def drain [DecidableEq Id] (registry : Registry Id Handle Tx) : Registry Id Handle Tx :=
  let (registry, claims) := registry.takeExpiredLocked ⊤
  { registry with drains := registry.drains ++ [claims] }

def drainFire (options : Options) (registry : Registry Id Handle Tx) (caller : ℕ) :
    Option (Registry Id Handle Tx) :=
  match registry.drains[caller]? with
  | some (claim :: rest) =>
    some { registry.fire options claim with drains := registry.drains.set caller rest }
  | _ => none

def destroy (registry : Registry Id Handle Tx) : Option (Registry Id Handle Tx) :=
  match registry.teardown with
  | .alive => some { registry with expiryStop := true, teardown := .stopExpiry }
  | _ => none

def destroyJoinExpiry (registry : Registry Id Handle Tx) : Option (Registry Id Handle Tx) :=
  match registry.teardown, registry.expiry with
  | .stopExpiry, .absent | .stopExpiry, .exited =>
    some { registry with expiry := .absent, teardown := .expire }
  | _, _ => none

def destroyExpire [DecidableEq Id] (registry : Registry Id Handle Tx) : Option (Registry Id Handle Tx) :=
  match registry.teardown with
  | .expire =>
    let (registry, claims) := registry.takeExpiredLocked ⊤
    some { registry with teardown := .firing claims }
  | _ => none

def destroyFire (options : Options) (registry : Registry Id Handle Tx) : Option (Registry Id Handle Tx) :=
  match registry.teardown with
  | .firing (claim :: rest) => some { registry.fire options claim with teardown := .firing rest }
  | _ => none

/-- An entry the destructor takes out of the map. -/
def collectOne (registry : Registry Id Handle Tx) (session : Id × ℕ) : Registry Id Handle Tx :=
  match registry.heap[session.2]? with
  | none => registry
  | some cell =>
    match cell.delivery.unregister with
    | none => registry
    | some delivery => registry.update session.2 cell delivery

def destroyCollect (registry : Registry Id Handle Tx) : Option (Registry Id Handle Tx) :=
  match registry.teardown with
  | .firing [] =>
    let all := registry.sessions.map (·.2) ++ registry.retired
    some { registry.sessions.foldl collectOne registry with
      sessions := [], retired := [], teardown := .stop all all }
  | _ => none

def destroyStop (registry : Registry Id Handle Tx) : Option (Registry Id Handle Tx) :=
  match registry.teardown with
  | .stop (ref :: rest) all =>
    match registry.heap[ref]? with
    | none => some { registry with teardown := .stop rest all }
    | some cell =>
      cell.delivery.requestStop.map fun delivery =>
        { registry.update ref cell delivery with teardown := .stop rest all }
  | .stop [] all => some { registry with teardown := .join all }
  | _ => none

def destroyJoin (registry : Registry Id Handle Tx) : Option (Registry Id Handle Tx) :=
  match registry.teardown with
  | .join (ref :: rest) =>
    match registry.heap[ref]? with
    | none => some { registry with teardown := .join rest }
    | some cell =>
      if cell.delivery.entry.writer.isNone then some { registry with teardown := .join rest }
      else
        cell.delivery.join.map fun delivery =>
          { registry.update ref cell delivery with teardown := .join rest }
  | _ => none

/-- A step under `mutex_`, which a waiting `Resume` keeps to itself. -/
def locking (registry : Registry Id Handle Tx) (step : Option (Registry Id Handle Tx)) :
    Option (Registry Id Handle Tx) :=
  if registry.resuming.isNone then step else none

def step [LinearOrder Id] (options : Options) (registry : Registry Id Handle Tx) :
    RegistryLabel Id Handle Tx → Option (Registry Id Handle Tx)
  | .add id handle supportsAsync => registry.locking (some (registry.add options id handle supportsAsync).1)
  | .remove id => registry.locking (some (registry.remove id).1)
  | .detach id now => registry.locking (some (registry.detach options id now).1)
  | .resume id handle supportsAsync now =>
    registry.locking (some (registry.resume options id handle supportsAsync now))
  | .resumeFinish => registry.resumeFinish
  | .entry ref label => registry.entry options ref label
  | .expiryTake now => registry.locking (registry.expiryTake now)
  | .expiryFire => registry.expiryFire options
  | .expiryExit => registry.locking registry.expiryExit
  | .drain => registry.locking (some registry.drain)
  | .drainFire caller => registry.drainFire options caller
  | .destroy => registry.locking registry.destroy
  | .destroyJoinExpiry => registry.destroyJoinExpiry
  | .destroyExpire => registry.locking registry.destroyExpire
  | .destroyFire => registry.destroyFire options
  | .destroyCollect => registry.locking registry.destroyCollect
  | .destroyStop => registry.destroyStop
  | .destroyJoin => registry.destroyJoin

end Registry

/-- A registry constructed with these options. -/
def sessionRegistry (Id Handle Tx : Type*) [LinearOrder Id] (options : Options) :
    Machine (Registry Id Handle Tx) (RegistryLabel Id Handle Tx) where
  step := Registry.step options.normalize

end OpalCpp.Server

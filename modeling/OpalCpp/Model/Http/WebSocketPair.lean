import OpalCpp.Model.Http.WsSession
import Mathlib.Logic.Function.Basic

/-! # The in-memory WebSocket pair and the lock holds of its methods

`PairState` is the session both ends share, and the methods of `PairEnd` are pure functions on it,
one for each stretch of code that runs under `mutex`. What happens before the lock is taken, after
it is let go, and while a thread sleeps on `changed` belongs to the machine built on these.

A parked callback is a number, as in the Beast session. The two queues are named by the end that
writes into them, so an end reads the queue of its peer.
-/

namespace OpalCpp.Http

/-- An end of the pair, by its send index. -/
inductive Side where
  | first | second
deriving DecidableEq, Repr

/-- The peer of an end, `1 - send_index_`. -/
def Side.other : Side → Side
  | .first => .second
  | .second => .first

structure PendingSend (Message : Type*) where
  message : Message
  callback : ℕ
deriving DecidableEq, Repr

structure PairState (Message : Type*) where
  queues : Side → List Message := fun _ => []
  pendingReceive : Side → Option ℕ := fun _ => none
  pendingSend : Side → Option (PendingSend Message) := fun _ => none
  receiveParkGeneration : Side → UInt64 := fun _ => 0
  blockedReceivers : Side → ℕ := fun _ => 0
  blockedSenders : Side → ℕ := fun _ => 0
  closed : Bool := false
  /-- The close the other end started, for the end that reads it. -/
  peerClose : Side → Option CloseReason := fun _ => none

namespace PairState

open Function (update)

variable {Message : Type*}

def kQueueDepth : ℕ := 8

def sessionClosed : Error := .Transport "websocket pair: session is closed"

def sendInFlight : Error := .Validation "websocket pair: a send is already in flight"

def receiveOutstanding : Error := .Validation "websocket pair: a receive is already outstanding"

def deadlinePassed : Error := .Timeout "websocket pair: no message within the receive deadline"

def cannotArm : Error := .Transport "websocket pair: cannot arm the receive deadline"

/-- The receive the peer has parked, taken to be handed a message. -/
def takePeerReceiverLocked (pair : PairState Message) (side : Side) : PairState Message × Option ℕ :=
  match pair.pendingReceive side.other with
  | none => (pair, none)
  | some callback =>
    ({ pair with pendingReceive := update pair.pendingReceive side.other none }, some callback)

/-- The send the peer has parked takes the place a receive has freed. -/
def absorbPeerPendingSendLocked (pair : PairState Message) (side : Side) :
    PairState Message × Option (PendingSend Message) :=
  match pair.pendingSend side.other with
  | none => (pair, none)
  | some parked =>
    if kQueueDepth ≤ (pair.queues side.other).length then (pair, none)
    else
      ({ pair with
         queues := update pair.queues side.other (pair.queues side.other ++ [parked.message])
         pendingSend := update pair.pendingSend side.other none }, some parked)

/-- The end of both sends: the message goes to the peer's parked receive, or into the queue. -/
def put (pair : PairState Message) (side : Side) (message : Message) : PairState Message × Option ℕ :=
  match pair.takePeerReceiverLocked side with
  | (taken, some callback) => (taken, some callback)
  | (_, none) =>
    ({ pair with queues := update pair.queues side (pair.queues side ++ [message]) }, none)

/-- A send decided under the lock. -/
inductive SendDecision where
  | refused (error : Error)
  | parked
  /-- Accepted, and handed to the peer's parked receive if there was one. -/
  | accepted (deliver : Option ℕ)
deriving DecidableEq, Repr

def accept (pair : PairState Message) (side : Side) (message : Message) :
    PairState Message × SendDecision :=
  let (pair, deliver) := pair.put side message
  (pair, .accepted deliver)

/-- `Send` counts itself before it waits. -/
def countSender (pair : PairState Message) (side : Side) : PairState Message :=
  { pair with blockedSenders := update pair.blockedSenders side (pair.blockedSenders side + 1) }

/-- The wait predicate of `Send`: a parked async send goes first. -/
def sendTurn (pair : PairState Message) (side : Side) : Bool :=
  ((pair.queues side).length < kQueueDepth && (pair.pendingSend side).isNone) || pair.closed

/-- `Send` after its wait. -/
def sendAfterWait (pair : PairState Message) (side : Side) (message : Message) :
    PairState Message × SendDecision :=
  let pair :=
    { pair with blockedSenders := update pair.blockedSenders side (pair.blockedSenders side - 1) }
  if pair.closed then (pair, .refused sessionClosed) else pair.accept side message

/-- The lock hold of `SendAsync`. -/
def sendAsync (pair : PairState Message) (side : Side) (message : Message) (callback : ℕ) :
    PairState Message × SendDecision :=
  if pair.closed then (pair, .refused sessionClosed)
  else if (pair.pendingSend side).isSome || 0 < pair.blockedSenders side then
    (pair, .refused sendInFlight)
  else if kQueueDepth ≤ (pair.queues side).length then
    ({ pair with pendingSend := update pair.pendingSend side (some { message, callback }) }, .parked)
  else pair.accept side message

/-- A receive decided under the lock. -/
inductive ReceiveDecision (Message : Type*) where
  | refused
  /-- A message, and the parked send that has taken its place in the queue. -/
  | message (message : Message) (absorbed : Option (PendingSend Message))
  | ended
  | timedOut
  | parked (generation : UInt64)
deriving DecidableEq, Repr

/-- The end of both receives that find a message: the queue is `message :: rest`. -/
def takeFront (pair : PairState Message) (side : Side) (message : Message) (rest : List Message) :
    PairState Message × ReceiveDecision Message :=
  let (pair, absorbed) :=
    { pair with queues := update pair.queues side.other rest }.absorbPeerPendingSendLocked side
  (pair, .message message absorbed)

def countReceiver (pair : PairState Message) (side : Side) : PairState Message :=
  { pair with blockedReceivers := update pair.blockedReceivers side (pair.blockedReceivers side + 1) }

/-- The wait predicate of `Receive`: a parked async receive owns the next arrival. -/
def arrived (pair : PairState Message) (side : Side) : Bool :=
  (!(pair.queues side.other).isEmpty && (pair.pendingReceive side).isNone) || pair.closed

/-- `ReceiveWithin` after its wait, which ended by the predicate or by the deadline. -/
def receiveAfterWait (pair : PairState Message) (side : Side) (ready : Bool) :
    PairState Message × ReceiveDecision Message :=
  let pair :=
    { pair with
      blockedReceivers := update pair.blockedReceivers side (pair.blockedReceivers side - 1) }
  if !ready then (pair, .timedOut)
  else
    match pair.queues side.other with
    | [] => (pair, .ended)
    | message :: rest => pair.takeFront side message rest

/-- The lock hold of `ReceiveAsyncWithin`. -/
def receiveAsync (pair : PairState Message) (side : Side) (timeout : Option ℤ) (callback : ℕ) :
    PairState Message × ReceiveDecision Message :=
  if (pair.pendingReceive side).isSome || 0 < pair.blockedReceivers side then (pair, .refused)
  else
    match pair.queues side.other with
    | message :: rest => pair.takeFront side message rest
    | [] =>
      if pair.closed then (pair, .ended)
      else if timeout.any (· ≤ 0) then (pair, .timedOut)
      else
        let generation := pair.receiveParkGeneration side + 1
        ({ pair with
           pendingReceive := update pair.pendingReceive side (some callback)
           receiveParkGeneration := update pair.receiveParkGeneration side generation },
         .parked generation)

/-- The park of this generation, taken back by its watchdog or because none could be spawned. -/
def takeParked (pair : PairState Message) (side : Side) (generation : UInt64) :
    PairState Message × Option ℕ :=
  if (pair.pendingReceive side).isNone || pair.receiveParkGeneration side != generation then
    (pair, none)
  else
    ({ pair with pendingReceive := update pair.pendingReceive side none }, pair.pendingReceive side)

/-- What `End` takes from one of the ends. -/
def waiters (pair : PairState Message) (side : Side) : TerminalWaiters where
  receive := pair.pendingReceive side
  send := (pair.pendingSend side).map PendingSend.callback

/-- The lock hold of `End`, which takes the `waiters` of both ends. -/
def endSession (pair : PairState Message) (side : Side) (why : CloseReason) : PairState Message :=
  { pair with
    peerClose :=
      if pair.closed then pair.peerClose else update pair.peerClose side.other (some why)
    closed := true
    pendingSend := fun _ => none
    pendingReceive := fun _ => none }

end PairState

end OpalCpp.Http

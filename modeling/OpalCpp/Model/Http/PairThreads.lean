import Mathlib.Algebra.Group.Nat.Defs
import OpalCpp.Machine.Run
import OpalCpp.Model.Http.WebSocketPair
import OpalCpp.Model.Http.WsConnection

/-! # The in-memory pair under its threads

Every thread has a stack of what it is doing in the pair, the innermost first; a callback of the
application is such an entry too, and may call into the pair again. The state mutex is owned by
the thread that holds it and is not recursive: a thread that reaches a lock it owns itself goes no
further. A hold of the mutex that calls no callback is one step. A refusal that `SendAsync` and
`ReceiveAsyncWithin` call from inside the scope of their lock leaves the mutex owned until it has
returned.

A thread that sleeps on `changed` may wake at any time its predicate holds, and a deadline may pass
at any time. The codec is a parameter: of `EncodeMessage` only whether it refuses matters here, as
the bytes are dropped. Callbacks are numbered in the order they are passed in. The last fields are
history: which callbacks were called, and for each direction, named by the end that sends, the
messages accepted and the messages handed out, in the order of the lock holds.
-/

namespace OpalCpp.Http

variable {Message Frame : Type*}

/-- A method of one of the ends, as the application calls it. -/
inductive PairCall (Message : Type*) where
  | send (side : Side) (message : Message)
  | sendAsync (side : Side) (message : Message)
  | receive (side : Side) (timeout : Option ℤ)
  | receiveAsync (side : Side) (timeout : Option ℤ)
  | close (side : Side)
  | kick (side : Side) (why : CloseReason)
  | peerCloseReason (side : Side)
deriving DecidableEq, Repr

/-- What a thread does as soon as it has the lock. -/
inductive Hold (Message : Type*) where
  | send (side : Side) (message : Message)
  | sendAsync (side : Side) (message : Message) (callback : ℕ)
  | receive (side : Side) (timed : Bool)
  | receiveAsync (side : Side) (timeout : Option ℤ) (callback : ℕ)
  | endSession (side : Side) (why : CloseReason)
  | peerCloseReason (side : Side)
  /-- No watchdog could be spawned for this park of `callback`. -/
  | takeBack (side : Side) (generation : UInt64) (callback : ℕ)
deriving DecidableEq, Repr

/-- An entry of a thread's stack. -/
inductive Activation (Message : Type*) where
  | locking (hold : Hold Message)
  /-- Asleep in the wait of `Send`. -/
  | sending (side : Side) (message : Message)
  /-- Asleep in the wait of `Receive`. -/
  | receiving (side : Side) (timed : Bool)
  /-- Parked `callback` with a deadline, which is armed next. -/
  | arming (side : Side) (generation : UInt64) (callback : ℕ)
  | watchdog (side : Side) (generation : UInt64) (callback : ℕ)
  /-- The lock is released and these are called next, in this order. -/
  | firing (calls : List (ℕ × Report Message))
  /-- Application code, in a callback. -/
  | callback
  /-- The scope of the lock in which a refusal was called. -/
  | refusing
deriving DecidableEq, Repr

/-- A park completed by its deadline: the generation and the callback the watchdog was armed for,
and those of the park it completed. -/
structure Expiry where
  generation : UInt64
  callback : ℕ
  parkGeneration : UInt64
  completed : ℕ
deriving DecidableEq, Repr

/-- What one hold of the lock leaves behind. -/
structure Held (Message : Type*) where
  pair : PairState Message
  /-- Where the thread goes on, above its callers. -/
  frames : List (Activation Message) := []
  /-- The lock is kept while a callback runs. -/
  keeps : Bool := false
  invoked : List (ℕ × Report Message) := []
  accepted : Side → List Message := fun _ => []
  handed : Side → List Message := fun _ => []
  ended : Side → Bool := fun _ => false
  parks : Side → ℕ := fun _ => 0
  expiries : List Expiry := []

namespace PairState

/-- The value at one of the sides, and nothing at the other. -/
def onSide {Value : Type*} (side : Side) (value : Value) : Side → List Value :=
  fun other => if other = side then [value] else []

/-- A send of `message` was accepted; `own` is what its caller is owed. -/
def sent (side : Side) (message : Message) (own : List (ℕ × Report Message))
    (pair : PairState Message) (deliver : Option ℕ) : Held Message where
  pair
  frames := [.firing (deliver.toList.map (·, .received (.message message)) ++ own)]
  accepted := onSide side message
  handed := if deliver.isSome then onSide side message else fun _ => []

def finishSend (pair : PairState Message) (side : Side) (message : Message) : Held Message :=
  match pair.sendAfterWait side message with
  | (pair, .accepted deliver) => sent side message [] pair deliver
  | (pair, _) => { pair }

/-- The callback is called with the lock held. -/
def refuse (pair : PairState Message) (callback : ℕ) (report : Report Message) : Held Message where
  pair
  frames := [.callback, .refusing]
  keeps := true
  invoked := [(callback, report)]

def finishSendAsync (pair : PairState Message) (side : Side) (message : Message) (callback : ℕ) :
    Held Message :=
  match pair.sendAsync side message callback with
  | (pair, .refused error) => refuse pair callback (.sent (.error error))
  | (pair, .parked) => { pair }
  | (pair, .accepted deliver) => sent side message [(callback, .sent (.ok ()))] pair deliver

/-- A receive got `message`; `own` is what its caller is owed. -/
def received (side : Side) (message : Message) (own : List (ℕ × Report Message))
    (pair : PairState Message) (absorbed : Option (PendingSend Message)) : Held Message where
  pair
  frames := [.firing (absorbed.toList.map (·.callback, .sent (.ok ())) ++ own)]
  accepted :=
    match absorbed with
    | some parked => onSide side.other parked.message
    | none => fun _ => []
  handed := onSide side.other message

def finishReceive (pair : PairState Message) (side : Side) (ready : Bool) : Held Message :=
  match pair.receiveAfterWait side ready with
  | (pair, .message message absorbed) => received side message [] pair absorbed
  | (pair, .ended) => { pair, ended := (· = side) }
  | (pair, _) => { pair }

def finishReceiveAsync (pair : PairState Message) (side : Side) (timeout : Option ℤ)
    (callback : ℕ) : Held Message :=
  match pair.receiveAsync side timeout callback with
  | (pair, .refused) => refuse pair callback (.received (.failed receiveOutstanding))
  | (pair, .message message absorbed) =>
    received side message [(callback, .received (.message message))] pair absorbed
  | (pair, .ended) =>
    { pair, ended := (· = side), frames := [.firing [(callback, .received .ended)]] }
  | (pair, .timedOut) => { pair, frames := [.firing [(callback, .received (.failed deadlinePassed))]] }
  | (pair, .parked generation) =>
    { pair
      parks := fun other => if other = side then 1 else 0
      frames := if timeout.isSome then [.arming side generation callback] else [] }

/-- `TerminalWaiters::Fire`: the send first. -/
def fire (waiters : TerminalWaiters) : List (ℕ × Report Message) :=
  waiters.send.toList.map (·, .sent (.error sessionClosed)) ++
    waiters.receive.toList.map (·, .received .ended)

def finishEnd (pair : PairState Message) (side : Side) (why : CloseReason) : Held Message where
  pair := pair.endSession side why
  frames := [.firing (fire (pair.waiters .first) ++ fire (pair.waiters .second))]
  ended other := (pair.pendingReceive other).isSome

/-- A park of this generation is completed with `error`, if it is still there. -/
def finishPark (pair : PairState Message) (side : Side) (generation : UInt64) (callback : ℕ)
    (error : Error) : Held Message :=
  match pair.takeParked side generation with
  | (pair, none) => { pair }
  | (taken, some completed) =>
    { pair := taken
      frames := [.firing [(completed, .received (.failed error))]]
      expiries := [⟨generation, callback, pair.receiveParkGeneration side, completed⟩] }

/-- The hold of a thread that gets the lock, or gets it back from a wait whose predicate holds. -/
def acquire (pair : PairState Message) : Activation Message → Option (Held Message)
  | .locking (.send side message) =>
    let pair := pair.countSender side
    if pair.sendTurn side then some (pair.finishSend side message)
    else some { pair, frames := [.sending side message] }
  | .sending side message =>
    if pair.sendTurn side then some (pair.finishSend side message) else none
  | .locking (.sendAsync side message callback) => some (pair.finishSendAsync side message callback)
  | .locking (.receive side timed) =>
    let pair := pair.countReceiver side
    if pair.arrived side then some (pair.finishReceive side true)
    else some { pair, frames := [.receiving side timed] }
  | .receiving side _ => if pair.arrived side then some (pair.finishReceive side true) else none
  | .locking (.receiveAsync side timeout callback) =>
    some (pair.finishReceiveAsync side timeout callback)
  | .locking (.endSession side why) => some (pair.finishEnd side why)
  | .locking (.peerCloseReason _) => some { pair }
  | .locking (.takeBack side generation callback) =>
    some (pair.finishPark side generation callback cannotArm)
  | _ => none

/-- The hold of a thread whose wait has reached its deadline. -/
def expire (pair : PairState Message) : Activation Message → Option (Held Message)
  | .receiving side true => if pair.arrived side then none else some (pair.finishReceive side false)
  | .watchdog side generation callback =>
    some (pair.finishPark side generation callback deadlinePassed)
  | _ => none

end PairState

structure PairThreads (Message : Type*) where
  pair : PairState Message := {}
  /-- The thread that owns the state mutex between two steps. -/
  owner : Option ℕ := none
  threads : List (List (Activation Message)) := []
  passed : ℕ := 0
  invoked : List (ℕ × Report Message) := []
  accepted : Side → List Message := fun _ => []
  handed : Side → List Message := fun _ => []
  /-- A receive of this end was told the clean end. -/
  ended : Side → Bool := fun _ => false
  parks : Side → ℕ := fun _ => 0
  expiries : List Expiry := []

inductive PairLabel (Message : Type*) where
  /-- The application starts a thread. -/
  | spawn
  | call (thread : ℕ) (call : PairCall Message)
  | acquire (thread : ℕ)
  | expire (thread : ℕ)
  /-- `ArmReceiveDeadline`, which may fail to spawn the watchdog. -/
  | arm (thread : ℕ) (spawns : Bool)
  | invoke (thread : ℕ)
  /-- A callback or a method returns. -/
  | leave (thread : ℕ)
deriving DecidableEq, Repr

namespace PairCall

/-- The process survives the call: `Kick` checks its reason. -/
def survives : PairCall Message → Bool
  | .kick _ why => checkCloseReason why
  | _ => true

def passes : PairCall Message → Bool
  | .sendAsync .. | .receiveAsync .. => true
  | _ => false

/-- Where the call starts: at the lock, unless the codec refuses the message. -/
def enter (encodeMessage : Message → Outcome Frame) (callback : ℕ) :
    PairCall Message → List (Activation Message)
  | .send side message =>
    match encodeMessage message with
    | .error _ => []
    | .ok _ => [.locking (.send side message)]
  | .sendAsync side message =>
    match encodeMessage message with
    | .error error => [.firing [(callback, .sent (.error error))]]
    | .ok _ => [.locking (.sendAsync side message callback)]
  | .receive side timeout => [.locking (.receive side timeout.isSome)]
  | .receiveAsync side timeout => [.locking (.receiveAsync side timeout callback)]
  | .close side => [.locking (.endSession side {})]
  | .kick side why => [.locking (.endSession side why)]
  | .peerCloseReason side => [.locking (.peerCloseReason side)]

end PairCall

namespace PairThreads

/-- Application code is running on the thread: it may call into the pair. -/
def inApplication : List (Activation Message) → Bool
  | [] => true
  | .callback :: _ => true
  | _ => false

/-- The thread has done its hold, with `rest` its callers. -/
def apply (state : PairThreads Message) (thread : ℕ) (rest : List (Activation Message))
    (held : Held Message) : PairThreads Message :=
  { state with
    pair := held.pair
    owner := bif held.keeps then some thread else none
    threads := state.threads.set thread (held.frames ++ rest)
    invoked := state.invoked ++ held.invoked
    accepted := fun side => state.accepted side ++ held.accepted side
    handed := fun side => state.handed side ++ held.handed side
    ended := fun side => state.ended side || held.ended side
    parks := fun side => state.parks side + held.parks side
    expiries := state.expiries ++ held.expiries }

def arm (state : PairThreads Message) (thread : ℕ) (spawns : Bool) : Option (PairThreads Message) :=
  match state.threads[thread]? with
  | some (.arming side generation callback :: rest) =>
    some { state with
      threads :=
        if spawns then state.threads.set thread rest ++ [[.watchdog side generation callback]]
        else state.threads.set thread (.locking (.takeBack side generation callback) :: rest) }
  | _ => none

def invoke (state : PairThreads Message) (thread : ℕ) : Option (PairThreads Message) :=
  match state.threads[thread]? with
  | some (.firing (call :: calls) :: rest) =>
    some { state with
      threads := state.threads.set thread (.callback :: .firing calls :: rest)
      invoked := state.invoked ++ [call] }
  | _ => none

def leave (state : PairThreads Message) (thread : ℕ) : Option (PairThreads Message) :=
  match state.threads[thread]? with
  | some (.callback :: rest) => some { state with threads := state.threads.set thread rest }
  | some (.firing [] :: rest) => some { state with threads := state.threads.set thread rest }
  | some (.refusing :: rest) =>
    some { state with threads := state.threads.set thread rest, owner := none }
  | _ => none

/-- One step, or `none` where the label is not enabled. -/
def step (encodeMessage : Message → Outcome Frame) (state : PairThreads Message) :
    PairLabel Message → Option (PairThreads Message)
  | .spawn => some { state with threads := state.threads ++ [[]] }
  | .call thread call =>
    match state.threads[thread]? with
    | some stack =>
      if inApplication stack && call.survives then
        some { state with
          threads := state.threads.set thread (call.enter encodeMessage state.passed ++ stack)
          passed := bif call.passes then state.passed + 1 else state.passed }
      else none
    | none => none
  | .acquire thread =>
    match state.owner, state.threads[thread]? with
    | none, some (top :: rest) => (state.pair.acquire top).map (state.apply thread rest)
    | _, _ => none
  | .expire thread =>
    match state.owner, state.threads[thread]? with
    | none, some (top :: rest) => (state.pair.expire top).map (state.apply thread rest)
    | _, _ => none
  | .arm thread spawns => state.arm thread spawns
  | .invoke thread => state.invoke thread
  | .leave thread => state.leave thread

/-- The machine of a pair over its codec. -/
def machine (encodeMessage : Message → Outcome Frame) :
    Machine (PairThreads Message) (PairLabel Message) where
  step := step encodeMessage

end PairThreads

end OpalCpp.Http

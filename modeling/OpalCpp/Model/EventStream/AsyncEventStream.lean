import OpalCpp.Model.Http.WsConnection

/-! # Coroutines of sessions

The awaitables of a session, and a detached coroutine that awaits one after the other of them on a WebSocket
connection. An awaitable passes a callback to the socket. The callback writes the result and then exchanges the
flag of the awaitable, as `await_suspend` does after the call of the socket: the one that finds the flag set goes
on with the coroutine, on its own thread.

One step is one access to what threads share: a step of the connection, the write of a result or an exchange.
The coroutine is what it awaits next for the results that it has been given. The last field is history: the
callbacks that were answered, and with what.
-/

namespace OpalCpp

/-- The connection calls a callback. -/
def Http.ConnectionLabel.invokes {Message Frame : Type*} : Http.ConnectionLabel Message Frame → Bool
  | .invoke _ => true
  | _ => false

namespace EventStream

open Http (Codec Connection ConnectionLabel Report Wire)

variable {Message Frame : Type*}

/-- What is awaited. An event that its encoder refuses is not sent. -/
inductive Await (Message : Type*) where
  | send (message : Outcome Message)
  | receive (timeout : Option ℤ)

/-- The results of the awaits so far decide on the next one, or on the end. -/
abbrev Coroutine (Message : Type*) := List (Report Message) → Option (Await Message)

/-- Where the coroutine is. -/
inductive Control where
  | running (thread : ℕ)
  /-- In `await_suspend`, after the call of the socket. -/
  | suspending (thread : ℕ)
  | suspended
  /-- Its frame is destroyed. -/
  | finished
deriving DecidableEq, Repr

/-- What a callback that was called still has to do. -/
inductive Callback (Message : Type*) where
  | idle
  | storing (thread : ℕ) (report : Report Message)
  | arriving (thread : ℕ)
deriving DecidableEq, Repr

structure AsyncSession (Message Frame : Type*) where
  connection : Connection Message Frame := {}
  control : Control
  /-- The callback of the awaitable in the frame. -/
  callback : Option ℕ := none
  arrived : Bool := false
  /-- A placeholder until the callback writes. -/
  result : Report Message := .received .ended
  completion : Callback Message := .idle
  replies : List (Report Message) := []
  answered : List (ℕ × Report Message) := []
deriving DecidableEq, Repr

inductive AsyncLabel (Message Frame : Type*) where
  /-- A step of the connection, or of those who share it. -/
  | connection (label : ConnectionLabel Message Frame)
  /-- The coroutine awaits; a post and a timer may fail. -/
  | await (posts arms : Bool)
  | suspend
  /-- A callback is called, on a thread. -/
  | invoke (index thread : ℕ)
  | store
  | arrive
  | finish
deriving DecidableEq, Repr

namespace AsyncSession

/-- The awaitable is in the frame and its callback passed to the socket. -/
def await (session : AsyncSession Message Frame) (thread : ℕ) (result : Report Message)
    (connection : Connection Message Frame) : AsyncSession Message Frame :=
  { session with
    connection
    control := .suspending thread
    callback := some session.connection.passed
    arrived := false
    result }

/-- `await_resume`, and the coroutine goes on. -/
def resume (session : AsyncSession Message Frame) (thread : ℕ) : AsyncSession Message Frame :=
  { session with
    control := .running thread
    callback := none
    replies := session.replies ++ [session.result]
    answered := session.answered ++ session.callback.toList.map (·, session.result) }

/-- One step, or `none` where the label is not enabled. -/
def step (codec : Codec Message Frame) (wire : Wire) (coroutine : Coroutine Message)
    (session : AsyncSession Message Frame) : AsyncLabel Message Frame → Option (AsyncSession Message Frame)
  | .connection label =>
    if label.invokes then none
    else (session.connection.step codec wire label).map ({ session with connection := · })
  | .await posts arms =>
    match session.control, coroutine session.replies with
    | .running _, some (.send (.error error)) =>
      some { session with replies := session.replies ++ [.sent (.error error)] }
    | .running thread, some (.send (.ok message)) =>
      (session.connection.step codec wire (.sendAsync message)).map (session.await thread (.sent (.ok ())))
    | .running thread, some (.receive timeout) =>
      (session.connection.step codec wire (.receiveAsync timeout posts arms)).map
        (session.await thread (.received .ended))
    | _, _ => none
  | .suspend =>
    match session.control with
    | .suspending thread =>
      if session.arrived then some (session.resume thread)
      else some { session with control := .suspended, arrived := true }
    | _ => none
  | .invoke index thread =>
    match session.connection.firing[index]? with
    | some (callback, report) =>
      (session.connection.step codec wire (.invoke index)).map fun connection =>
        { session with
          connection
          completion := if session.callback = some callback then .storing thread report else session.completion }
    | none => none
  | .store =>
    match session.completion with
    | .storing thread report => some { session with result := report, completion := .arriving thread }
    | _ => none
  | .arrive =>
    match session.completion with
    | .arriving thread =>
      let session := { session with completion := .idle }
      if session.arrived then some (session.resume thread) else some { session with arrived := true }
    | _ => none
  | .finish =>
    match session.control, coroutine session.replies with
    | .running _, none => some { session with control := .finished }
    | _, _ => none

/-- The coroutine and its connection. -/
def machine (codec : Codec Message Frame) (wire : Wire) (coroutine : Coroutine Message) :
    Machine (AsyncSession Message Frame) (AsyncLabel Message Frame) where
  step := step codec wire coroutine

end AsyncSession

end EventStream

end OpalCpp

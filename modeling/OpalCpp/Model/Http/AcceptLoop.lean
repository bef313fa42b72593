import OpalCpp.Machine.Run
import OpalCpp.Model.Http.WsSession

/-! # The accept loop of the server transport

`Accept`, `OnSessionClosed` and `RunSession` as far as they count connections, and the machine of
their callers. The accept state is confined to the acceptor's strand, so an accept completion or a
session-closed notification is one step. Sessions are destroyed on any thread at any time; what
that does to the loop is to post a notification.
-/

namespace OpalCpp.Http

structure AcceptState where
  maxConnections : ℕ
  openConnections : ℕ := 0
  acceptPaused : Bool := false
  stopping : Bool := false
deriving DecidableEq, Repr

namespace AcceptState

/-- `Accept`: true when it starts an `async_accept`. -/
def accept (state : AcceptState) : AcceptState × Bool :=
  if 0 < state.maxConnections ∧ state.maxConnections ≤ state.openConnections then
    ({ state with acceptPaused := true }, false)
  else (state, true)

/-- `OnSessionClosed`: true when it re-arms. -/
def onSessionClosed (state : AcceptState) : AcceptState × Bool :=
  let state := { state with openConnections := state.openConnections - 1 }
  if state.acceptPaused && !state.stopping then { state with acceptPaused := false }.accept
  else (state, false)

/-- `RunSession` counts the connection; reading from it is not part of the loop. -/
def runSession (state : AcceptState) : AcceptState :=
  { state with openConnections := state.openConnections + 1 }

end AcceptState

structure AcceptLoop where
  server : AcceptState
  /-- The `async_accept` operations outstanding. -/
  accepts : ℕ
  /-- Sessions started and not destroyed. -/
  sessions : ℕ := 0
  /-- Notifications posted and not run. -/
  posted : ℕ := 0
  started : ℕ := 0
  notified : ℕ := 0
deriving DecidableEq, Repr

inductive AcceptLabel where
  /-- An `async_accept` completes, with an error or a socket. -/
  | accepted (ec : Option WireError)
  /-- A session is destroyed; its notification is posted, or the post throws. -/
  | destroyed (posts : Bool)
  /-- A posted notification runs. -/
  | notified
  | stop
deriving DecidableEq, Repr

namespace AcceptLoop

def start (maxConnections : ℕ) : AcceptLoop :=
  let (server, arms) := AcceptState.accept { maxConnections }
  { server, accepts := if arms then 1 else 0 }

/-- The completion handler of `async_accept`. -/
def onAccept (loop : AcceptLoop) (ec : Option WireError) : AcceptLoop :=
  if ec.isSome || loop.server.stopping then loop
  else
    let (server, arms) := loop.server.runSession.accept
    { loop with
      server
      accepts := if arms then loop.accepts + 1 else loop.accepts
      sessions := loop.sessions + 1
      started := loop.started + 1 }

def onNotified (loop : AcceptLoop) : AcceptLoop :=
  let (server, arms) := loop.server.onSessionClosed
  { loop with
    server
    accepts := if arms then loop.accepts + 1 else loop.accepts
    notified := loop.notified + 1 }

/-- One step, or `none` where the label is not enabled. -/
def step (loop : AcceptLoop) : AcceptLabel → Option AcceptLoop
  | .accepted ec =>
    match loop.accepts with
    | 0 => none
    | accepts + 1 => some ({ loop with accepts }.onAccept ec)
  | .destroyed posts =>
    match loop.sessions with
    | 0 => none
    | sessions + 1 =>
      some { loop with sessions, posted := if posts then loop.posted + 1 else loop.posted }
  | .notified =>
    match loop.posted with
    | 0 => none
    | posted + 1 => some ({ loop with posted }.onNotified)
  | .stop => some { loop with server := { loop.server with stopping := true } }

def machine : Machine AcceptLoop AcceptLabel where
  step := step

end AcceptLoop

end OpalCpp.Http

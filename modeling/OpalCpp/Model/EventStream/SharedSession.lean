import OpalCpp.Machine.Run
import OpalCpp.Model.Http.WsSession

/-! # The revocable view of a stream's socket and the handles that pin it

`SharedSessionState` is what a stream shares with its handles. A handle takes a pin for each of its
calls into the socket and the stream's teardown, `SharedViewOwner::End`, takes the pointer away and
waits for the pins. The socket itself is code behind an interface: a call into it may take any time
to return, and the completion of a `SendAsync` is invoked once, before or after that call returns.

One step is one hold of the state's mutex or one move between the handle's code and the socket's.
A handle call is in the list from the moment it has got the socket; a call that got none leaves no
trace here, as it returns or calls back at once.
-/

namespace OpalCpp.EventStream

open Http (CloseReason checkCloseReason)

structure SharedSessionState where
  /-- The pointer is not null: the stream has not ended. -/
  socket : Bool := true
  active : ℤ := 0
  /-- `owner.lock()` gives the socket: the stream owns it. -/
  owner : Bool := false
deriving DecidableEq, Repr

/-- What one handle call holds the socket by. -/
structure Hold where
  owned : Bool := false
  socket : Bool := false
deriving DecidableEq, Repr

namespace SharedSessionState

def acquire (state : SharedSessionState) : SharedSessionState × Hold :=
  if !state.socket then (state, {})
  else if state.owner then (state, { owned := true, socket := true })
  else ({ state with active := state.active + 1 }, { socket := true })

def releasePin (state : SharedSessionState) : SharedSessionState :=
  { state with active := state.active - 1 }

def release (state : SharedSessionState) (hold : Hold) : SharedSessionState :=
  if hold.owned then state else state.releasePin

end SharedSessionState

/-- The methods of `EventStreamHandle`. -/
inductive HandleOp where
  | send | close | kick (why : CloseReason) | sendAsync | supportsAsync
deriving DecidableEq, Repr

namespace HandleOp

/-- The process survives the call: `Kick` checks its reason. -/
def survives : HandleOp → Bool
  | .kick why => checkCloseReason why
  | _ => true

/-- The two sends encode their event before they acquire. -/
def encodesFirst : HandleOp → Bool
  | .send | .sendAsync => true
  | _ => false

end HandleOp

/-- Where the calling thread is. -/
inductive Stage where
  /-- It has the socket and is about to call it. -/
  | acquired
  | inside
  /-- The socket has returned and the hold is to be released. -/
  | returned
  | finished
deriving DecidableEq, Repr

/-- The completion a `SendAsync` passed to the socket. -/
inductive Completion where
  | absent
  | outstanding
  /-- It runs and has released the pin. -/
  | released
  /-- It has called the application's callback. -/
  | called
deriving DecidableEq, Repr

structure HandleCall where
  op : HandleOp
  hold : Hold
  stage : Stage := .acquired
  completion : Completion := .absent
  /-- How often the hold of this call has been released. -/
  drops : ℕ := 0
deriving DecidableEq, Repr

/-- Where `End` is. -/
inductive EndStage where
  | idle | revoked | closing | waiting | returned
deriving DecidableEq, Repr

/-- A view, its handles' calls and its revocation; the socket is borrowed. -/
structure Revocation where
  view : SharedSessionState := {}
  calls : List HandleCall := []
  ending : EndStage := .idle
deriving DecidableEq, Repr

inductive RevocationLabel where
  /-- A handle method up to its `Acquire`; the handle may have been moved from, and the event may
  fail to encode. -/
  | call (op : HandleOp) (moved encodes : Bool)
  /-- The call goes into the socket. -/
  | enter (call : ℕ)
  /-- The socket returns. -/
  | leave (call : ℕ)
  | release (call : ℕ)
  /-- The socket invokes the completion. -/
  | complete (call : ℕ)
  | callback (call : ℕ)
  /-- `End` nulls the pointer. -/
  | revoke
  | close
  | closed
  /-- The wait of `End` finds `active` at zero. -/
  | drained
deriving DecidableEq, Repr

namespace Revocation

/-- One step of the call at an index, if it is one that can be taken there. -/
def move (state : Revocation) (call : ℕ) (step : HandleCall → Option (SharedSessionState × HandleCall)) :
    Option Revocation :=
  match state.calls[call]? with
  | none => none
  | some before =>
    (step before).map fun (view, after) => { state with view, calls := state.calls.set call after }

def enter (view : SharedSessionState) (call : HandleCall) : Option (SharedSessionState × HandleCall) :=
  if call.stage = .acquired then
    some (view, { call with
      stage := .inside
      completion := if call.op = .sendAsync then .outstanding else .absent })
  else none

/-- A `SendAsync` has nothing left to do when the socket returns; the others release. -/
def leave (view : SharedSessionState) (call : HandleCall) : Option (SharedSessionState × HandleCall) :=
  if call.stage = .inside then
    some (view, { call with stage := if call.op = .sendAsync then .finished else .returned })
  else none

def release (view : SharedSessionState) (call : HandleCall) : Option (SharedSessionState × HandleCall) :=
  if call.stage = .returned then
    some (view.release call.hold, { call with stage := .finished, drops := call.drops + 1 })
  else none

/-- The completion `SendAsync` passes: it releases the pin, then calls the application. -/
def complete (view : SharedSessionState) (call : HandleCall) : Option (SharedSessionState × HandleCall) :=
  if call.completion = .outstanding then
    some (view.release call.hold, { call with completion := .released, drops := call.drops + 1 })
  else none

def callback (view : SharedSessionState) (call : HandleCall) : Option (SharedSessionState × HandleCall) :=
  if call.completion = .released then some (view, { call with completion := .called }) else none

/-- One step, or `none` where the label is not enabled. -/
def step (state : Revocation) : RevocationLabel → Option Revocation
  | .call op moved encodes =>
    if !op.survives then none
    else if moved || (op.encodesFirst && !encodes) then some state
    else
      let (view, hold) := state.view.acquire
      if hold.socket then some { state with view, calls := state.calls ++ [{ op, hold }] }
      else some { state with view }
  | .enter call => state.move call (enter state.view)
  | .leave call => state.move call (leave state.view)
  | .release call => state.move call (release state.view)
  | .complete call => state.move call (complete state.view)
  | .callback call => state.move call (callback state.view)
  | .revoke =>
    if state.ending = .idle then
      some { state with view := { state.view with socket := false }, ending := .revoked }
    else none
  | .close => if state.ending = .revoked then some { state with ending := .closing } else none
  | .closed => if state.ending = .closing then some { state with ending := .waiting } else none
  | .drained =>
    if state.ending = .waiting ∧ state.view.active = 0 then some { state with ending := .returned }
    else none

def machine : Machine Revocation RevocationLabel where
  step := step

end Revocation

end OpalCpp.EventStream

import OpalCpp.Model.Core.Error
import Mathlib.Data.Int.Order.Basic

/-! # The WebSocket session object and the lock holds of its methods

`WsSession` as pure functions, one for each hold of `mutex_`: what the method decides and changes
while it has the lock, and what it goes on to do afterwards. Posting to the executor, starting an
operation on the wire and calling back into the application all happen outside the lock and belong
to the machine built on these functions.

A parked callback is a number. The event-stream codec and the header-free message of the raw-text
wire are parameters; which of them runs, and the text of each protocol violation, is as the source
has it.
-/

namespace OpalCpp.Http

inductive Wire where
  | binary | jsonFrames | rawText
deriving DecidableEq, Repr

structure CloseReason where
  code : UInt16 := 1000
  reason : String := ""
deriving DecidableEq, Repr

/-- `CheckCloseReason` lets the reason pass; otherwise it ends the process. -/
def checkCloseReason (why : CloseReason) : Bool :=
  !((why.code != 1000 && (why.code < 3000 || 4999 < why.code)) || 123 < why.reason.utf8ByteSize)

/-- The functions of the event-stream library the session calls. -/
structure Codec (Message Frame : Type*) where
  encodeMessage : Message → Outcome Frame
  encodeJsonFrame : Message → Outcome Frame
  encodeRawTextFrame : Message → Outcome Frame
  /-- The first frame of the bytes and how many of them it took, if there is a whole one. -/
  decodeMessage : Frame → Outcome (Option (Message × ℕ))
  decodeJsonFrame : Frame → Outcome Message
  rawMessage : Frame → Message
  size : Frame → ℕ

namespace Codec

variable {Message Frame : Type*}

def encodeForWire (codec : Codec Message Frame) (wire : Wire) (message : Message) : Outcome Frame :=
  match wire with
  | .jsonFrames => codec.encodeJsonFrame message
  | .rawText => codec.encodeRawTextFrame message
  | .binary => codec.encodeMessage message

/-- `OnRead`'s reading of one WebSocket message: the event-stream message it carries, or the
protocol violation it is. -/
def decodeFromWire (codec : Codec Message Frame) (wire : Wire) (gotBinary : Bool) (bytes : Frame) :
    Except String Message :=
  match wire with
  | .rawText =>
    if gotBinary then .error "binary message on a raw-text websocket" else .ok (codec.rawMessage bytes)
  | .jsonFrames =>
    if gotBinary then .error "binary message on a JSON-text event-stream socket"
    else
      match codec.decodeJsonFrame bytes with
      | .error error => .error error.message
      | .ok message => .ok message
  | .binary =>
    if !gotBinary then .error "text message on an event-stream socket"
    else
      match codec.decodeMessage bytes with
      | .error error => .error error.message
      | .ok none => .error "binary message is not exactly one event-stream frame"
      | .ok (some (message, consumed)) =>
        if consumed = codec.size bytes then .ok message
        else .error "binary message is not exactly one event-stream frame"

/-- A wire on which every number is a message and its own frame. -/
def plain : Codec ℕ ℕ where
  encodeMessage := .ok
  encodeJsonFrame := .ok
  encodeRawTextFrame := .ok
  decodeMessage frame := .ok (some (frame, 1))
  decodeJsonFrame := .ok
  rawMessage := id
  size _ := 1

end Codec

/-- An error code of the wire; `aborted` is `operation_aborted`. -/
structure WireError where
  aborted : Bool := false
  message : String
deriving DecidableEq, Repr

/-- How an `async_read` completes. -/
inductive ReadResult (Frame : Type*) where
  | closed (reason : CloseReason)
  | error (error : WireError)
  | message (gotBinary : Bool) (bytes : Frame)
deriving DecidableEq, Repr

structure WsSession (Message : Type*) where
  received : List Message := []
  pendingReceive : Option ℕ := none
  pendingSend : Option ℕ := none
  receiveParkGeneration : UInt64 := 0
  /-- The generation of the engaged deadline timer. -/
  receiveDeadline : Option UInt64 := none
  blockedReceivers : ℕ := 0
  readPaused : Bool := false
  peerClosed : Bool := false
  failed : Bool := false
  error : String := ""
  writeComplete : Bool := true
  writeError : String := ""
  wireWriteBusy : Bool := false
  closeRequested : Bool := false
  closeStarted : Bool := false
  closeReason : CloseReason := {}
  kickDeadline : Bool := false
  peerClose : Option CloseReason := none
deriving DecidableEq, Repr

/-- The parked completions a terminal transition took. -/
structure TerminalWaiters where
  receive : Option ℕ
  send : Option ℕ
deriving DecidableEq, Repr

namespace WsSession

variable {Message : Type*}

def kReceiveQueueDepth : ℕ := 8

/-- The session has ended, cleanly or not. -/
def terminal (session : WsSession Message) : Bool := session.failed || session.peerClosed

/-- No new send may start. -/
def sendClosed (session : WsSession Message) : Bool :=
  session.failed || session.peerClosed || session.closeRequested

/-- What a refused send is told. -/
def sendRefusal (session : WsSession Message) : String :=
  if session.failed then session.error else "session is closed"

def takeAsyncWaitersLocked (session : WsSession Message) : WsSession Message × TerminalWaiters :=
  ({ session with receiveDeadline := none, pendingReceive := none, pendingSend := none },
    { receive := session.pendingReceive, send := session.pendingSend })

/-- The first terminal transition names the error; later ones keep it. -/
def setFailed (session : WsSession Message) (reason : String) : WsSession Message :=
  if session.terminal then session else { session with failed := true, error := reason }

def fail (session : WsSession Message) (reason : String) : WsSession Message × TerminalWaiters :=
  (session.setFailed reason).takeAsyncWaitersLocked

/-- The lock hold of `FailAndClose`: true when it goes on to start the close. -/
def failAndClose (session : WsSession Message) (reason : String) :
    WsSession Message × TerminalWaiters × Bool :=
  let (session, waiters) := (session.setFailed reason).takeAsyncWaitersLocked
  let session := { session with closeReason := { code := 1002 }, closeRequested := true }
  if !session.closeStarted && !session.wireWriteBusy then
    ({ session with closeStarted := true }, waiters, true)
  else (session, waiters, false)

/-- `ResumeReadsIfPaused`, where `posts` says whether the executor takes the task: true when it
has been posted. -/
def resumeReadsIfPaused (session : WsSession Message) (posts : Bool) : WsSession Message × Bool :=
  if !session.readPaused || session.terminal || kReceiveQueueDepth ≤ session.received.length then
    (session, false)
  else if posts then ({ session with readPaused := false }, true)
  else
    ({ session with readPaused := false, failed := true, error := "cannot schedule the read" }, false)

/-- `PumpRead`: true when it goes on to start a read. -/
def pumpRead (session : WsSession Message) : WsSession Message × Bool :=
  if session.terminal || session.closeStarted then (session, false)
  else if kReceiveQueueDepth ≤ session.received.length then ({ session with readPaused := true }, false)
  else (session, true)

/-- `OnRead` of a close frame. -/
def onReadClosed (session : WsSession Message) (reason : CloseReason) :
    WsSession Message × TerminalWaiters :=
  { session with peerClosed := true, peerClose := some reason }.takeAsyncWaitersLocked

/-- Our own close displaced the read: its abort is no outcome. -/
def displaced (session : WsSession Message) (error : WireError) : Bool :=
  session.closeRequested && error.aborted

/-- `Deliver`'s lock hold: the parked callback that gets the message, if there is one. -/
def deliver (session : WsSession Message) (message : Message) : WsSession Message × Option ℕ :=
  match session.pendingReceive with
  | some callback => ({ session with pendingReceive := none, receiveDeadline := none }, some callback)
  | none => ({ session with received := session.received ++ [message] }, none)

/-- The refusal or the go-ahead of `StartWrite`. -/
inductive WriteStart where
  | refused (send : Option ℕ) (why : String)
  | started
deriving DecidableEq, Repr

def startWrite (session : WsSession Message) : WsSession Message × WriteStart :=
  if session.sendClosed then
    ({ session with writeComplete := true, writeError := session.sendRefusal, pendingSend := none },
      .refused session.pendingSend session.sendRefusal)
  else ({ session with wireWriteBusy := true }, .started)

/-- What a failed write is called: our own close cancelled it, or the error's own text. -/
def writeFailure (session : WsSession Message) (error : WireError) : String :=
  if session.displaced error then "session closed while a send was in flight" else error.message

/-- `OnWrite`'s lock hold: the send it completes, the text of the failure if it failed, and
whether the deferred close starts. -/
def onWrite (session : WsSession Message) (ec : Option WireError) :
    WsSession Message × Option ℕ × String × Bool :=
  let send := session.pendingSend
  let session := { session with wireWriteBusy := false, writeComplete := true, pendingSend := none }
  match ec with
  | some error =>
    let why := session.writeFailure error
    ({ session.setFailed why with writeError := why }, send, why, false)
  | none =>
    if session.closeRequested && !session.closeStarted then
      ({ session with closeStarted := true }, send, session.writeError, true)
    else (session, send, session.writeError, false)

/-- `RequestCloseLocked`: true when the close starts now; otherwise an in-flight write is
cancelled, or nothing is left to do. -/
def requestClose (session : WsSession Message) : WsSession Message × Bool :=
  if session.closeRequested || session.terminal then (session, false)
  else if session.wireWriteBusy then ({ session with closeRequested := true }, false)
  else ({ session with closeRequested := true, closeStarted := true }, true)

/-- The task `Kick` posts. -/
def kick (session : WsSession Message) (why : CloseReason) : WsSession Message × Bool :=
  if session.kickDeadline || session.peerClosed then (session, false)
  else
    { session with
      kickDeadline := true
      closeReason := if session.closeRequested then session.closeReason else why }.requestClose

/-- The completion of the close operation. -/
def onClose (session : WsSession Message) (ec : Option WireError) :
    WsSession Message × TerminalWaiters × Bool × String :=
  let session :=
    match ec with
    | some error => session.setFailed error.message
    | none => if session.terminal then session else { session with peerClosed := true }
  let (taken, waiters) := session.takeAsyncWaitersLocked
  (taken, waiters, !session.failed, session.error)

/-- The wait predicate of a blocking receive. -/
def receiveSettled (session : WsSession Message) : Bool :=
  (!session.received.isEmpty && session.pendingReceive.isNone) || session.terminal

/-- A receive decided under the lock: a message, the end, or an error. -/
inductive Received (Message : Type*) where
  | message (message : Message)
  | ended
  | failed (error : Error)
deriving DecidableEq, Repr

/-- A blocking receive after its wait, ready or timed out, and whether it posted the re-arm. -/
def receiveAfterWait (session : WsSession Message) (ready posts : Bool) :
    WsSession Message × Received Message × Bool :=
  let session := { session with blockedReceivers := session.blockedReceivers - 1 }
  if !ready then (session, .failed (.Timeout "websocket: no message within the receive deadline"), false)
  else
    match session.received, session.pendingReceive with
    | message :: rest, none =>
      let (session, posted) := { session with received := rest }.resumeReadsIfPaused posts
      (session, .message message, posted)
    | _, _ =>
      if session.peerClosed then (session, .ended, false)
      else (session, .failed (.Transport ("websocket: " ++ session.error)), false)

/-- What `ReceiveAsyncWithin` goes on to do. -/
inductive ReceiveAsync (Message : Type*) where
  /-- Call back inline: the one-outstanding refusal. -/
  | refused
  /-- Post the completion that carries the message. -/
  | ready (message : Message) (rearm : Bool)
  /-- Call back inline with the end, a timeout of zero, or an error. -/
  | immediate (received : Received Message)
  /-- Parked, with this deadline armed. -/
  | parked (deadline : Option UInt64)
  /-- The deadline could not be scheduled: unparked again, and refused. -/
  | unscheduled
deriving DecidableEq, Repr

/-- `ReceiveAsyncWithin` for callback number `callback`; `posts` and `arms` say whether the
executor takes a re-arm and a timer. -/
def receiveAsync (session : WsSession Message) (callback : ℕ) (timeout : Option ℤ) (posts arms : Bool) :
    WsSession Message × ReceiveAsync Message :=
  if session.pendingReceive.isSome || 0 < session.blockedReceivers then (session, .refused)
  else
    match session.received with
    | message :: rest =>
      let (session, posted) := { session with received := rest }.resumeReadsIfPaused posts
      (session, .ready message posted)
    | [] =>
      if session.peerClosed then (session, .immediate .ended)
      else if session.failed then
        (session, .immediate (.failed (.Transport ("websocket: " ++ session.error))))
      else
        let generation := session.receiveParkGeneration + 1
        let parked :=
          { session with pendingReceive := some callback, receiveParkGeneration := generation }
        match timeout with
        | none => (parked, .parked none)
        | some budget =>
          if budget ≤ 0 then
            (session, .immediate (.failed (.Timeout "websocket: no message within the receive deadline")))
          else if arms then ({ parked with receiveDeadline := some generation }, .parked (some generation))
          else ({ parked with pendingReceive := none }, .unscheduled)

/-- `OnReceiveDeadline`: the callback whose park has run out. -/
def onReceiveDeadline (session : WsSession Message) (generation : UInt64) :
    WsSession Message × Option ℕ :=
  if session.pendingReceive.isNone || session.receiveParkGeneration != generation then (session, none)
  else ({ session with pendingReceive := none }, session.pendingReceive)

/-- The reservation both sends make once nothing stands in their way. -/
def reserveSend (session : WsSession Message) (callback : Option ℕ) : WsSession Message :=
  { session with pendingSend := callback, writeComplete := false, writeError := "" }

/-- `Send` goes on from its wait for the slot. -/
def sendTurn (session : WsSession Message) : Bool :=
  (session.writeComplete && session.pendingSend.isNone) || session.sendClosed

/-- `SendAsync` could not post its write. -/
def sendAsyncUnposted (session : WsSession Message) : WsSession Message × Option ℕ :=
  ({ session with pendingSend := none, writeComplete := true }, session.pendingSend)

end WsSession

end OpalCpp.Http

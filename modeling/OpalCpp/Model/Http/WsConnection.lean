import OpalCpp.Machine.Run
import OpalCpp.Model.Http.WsSession

/-! # A WebSocket session with its callers, its executor and its wire

One step is one hold of the session's lock, or one action between two holds: a post, the start of
an operation on the wire, a call of an application callback. Callers run on any thread, so their
steps may come between any two others. Handlers run on the connection's executor one at a time: a
posted task, a wire completion or a deadline starts only while no handler is running, and what the
running one still has to do is its program counter.

Of Beast and asio only this is assumed: a started operation completes once, a posted task runs
once, a post or a timer may fail to be scheduled. Operations complete at any time, in any order and
with any outcome; cancelling or closing the socket therefore changes nothing here. Callers of
`Send` are serialized by `send_mutex_`, so there is one program counter for all of them.

Callbacks are numbered in the order they are passed in. The last fields are history: which
callbacks have been called, the messages decoded and the messages handed out in lock order, the
operations started, and what each receive that got no message was told and in which state.
-/

namespace OpalCpp.Http

variable {Message Frame : Type*}

/-- A task posted to the connection's executor. -/
inductive Task (Message Frame : Type*) where
  | startWrite (frame : Frame)
  | requestClose
  | kick (why : CloseReason)
  | socketClose
  | pumpRead
  | completeReceive (callback : ℕ) (message : Message)
deriving DecidableEq, Repr

/-- What the running handler does next, outside the lock. -/
inductive Handler (Frame : Type*) where
  | idle
  | pumpRead
  | asyncRead
  | asyncWrite (frame : Frame)
  | asyncClose
deriving DecidableEq, Repr

/-- The caller of `Send` that holds `send_mutex_`. -/
inductive Sender (Frame : Type*) where
  | idle
  /-- Waiting for the slot. -/
  | waiting (frame : Frame)
  /-- The slot is reserved and the write about to be posted. -/
  | posting (frame : Frame)
  /-- Waiting for the write to complete. -/
  | writing
deriving DecidableEq, Repr

/-- What a callback is called with. -/
inductive Report (Message : Type*) where
  | sent (outcome : Outcome Unit)
  | received (received : WsSession.Received Message)
deriving DecidableEq, Repr

/-- An armed deadline: the generation its handler captured, and the number of the park it bounds. -/
structure Deadline where
  generation : UInt64
  park : ℕ
deriving DecidableEq, Repr

/-- A receive told it gets no message, and what the session held when that was decided. -/
structure Verdict (Message : Type*) where
  report : WsSession.Received Message
  received : List Message
  parked : Bool
  blocked : ℕ
deriving DecidableEq, Repr

structure Connection (Message Frame : Type*) where
  session : WsSession Message := {}
  posted : List (Task Message Frame) := []
  /-- `Start` is running. -/
  handler : Handler Frame := .pumpRead
  reads : ℕ := 0
  writes : ℕ := 0
  closes : ℕ := 0
  sender : Sender Frame := .idle
  /-- Calls of `SendAsync` that have reserved the slot and are about to post the write. -/
  sendPosting : List Frame := []
  /-- Calls of `ReceiveAsync` that have taken a message and are about to post its completion. -/
  readyPosting : List (ℕ × Message) := []
  /-- The blocked receivers, and whether each has a deadline. -/
  receivers : List Bool := []
  deadlines : List Deadline := []
  /-- Callbacks that have been taken and are about to be called. -/
  firing : List (ℕ × Report Message) := []
  passed : ℕ := 0
  parks : ℕ := 0
  invoked : List (ℕ × Report Message) := []
  decoded : List Message := []
  handed : List Message := []
  verdicts : List (Verdict Message) := []
  /-- The park a deadline was armed for, and the one it completed. -/
  timedOut : List (ℕ × ℕ) := []
  written : List Frame := []
  closesStarted : ℕ := 0
deriving DecidableEq, Repr

inductive ConnectionLabel (Message Frame : Type*) where
  | send (message : Message)
  | sendReserve
  | sendPost (posts : Bool)
  | sendReturn
  | sendAsync (message : Message)
  | sendAsyncPost (call : ℕ) (posts : Bool)
  | receive (timed posts : Bool)
  | receiveWake (receiver : ℕ) (posts : Bool)
  | receiveTimeout (receiver : ℕ)
  | receiveAsync (timeout : Option ℤ) (posts arms : Bool)
  | receiveAsyncPost (call : ℕ) (posts : Bool)
  /-- `closes` says whether the executor takes the socket close of the `Abort` a failed post ends in. -/
  | close (posts closes : Bool)
  | kick (why : CloseReason) (posts closes : Bool)
  | abort (reason : String) (closes : Bool)
  /-- A posted task starts. -/
  | task (index : ℕ)
  /-- The running handler takes its next step. -/
  | proceed
  | onRead (result : ReadResult Frame)
  | onWrite (ec : Option WireError)
  | onClose (ec : Option WireError)
  | deadline (index : ℕ)
  | invoke (index : ℕ)
deriving DecidableEq, Repr

namespace Connection

open WsSession

/-- The one-outstanding refusal of `ReceiveAsync`. -/
def alreadyOutstanding : Error := .Validation "websocket: a receive is already outstanding"

def receiveTimedOut : Error := .Timeout "websocket: no message within the receive deadline"

/-- `CompleteAsyncWaiters`: the send first. -/
def completeAsyncWaiters (waiters : TerminalWaiters) (clean : Bool) (reason : String) :
    List (ℕ × Report Message) :=
  let sent : Outcome Unit :=
    .error (.Transport ("websocket: " ++ if clean then "session is closed" else reason))
  let received : Received Message :=
    if clean then .ended else .failed (.Transport ("websocket: " ++ reason))
  waiters.send.toList.map (·, .sent sent) ++ waiters.receive.toList.map (·, .received received)

/-- The verdicts with that of one more receive; a receive that gets a message leaves none. -/
def judge (verdicts : List (Verdict Message)) (session : WsSession Message) :
    Received Message → List (Verdict Message)
  | .message _ => verdicts
  | report =>
    verdicts ++
      [{ report
         received := session.received
         parked := session.pendingReceive.isSome
         blocked := session.blockedReceivers }]

/-- The messages handed out with that of one more receive, if it got one. -/
def handOut (handed : List Message) : Received Message → List Message
  | .message message => handed ++ [message]
  | _ => handed

/-- The end of a terminal transition: the waiters it took are called next. -/
def conclude (connection : Connection Message Frame) (session : WsSession Message)
    (waiters : TerminalWaiters) (clean : Bool) (reason : String) : Connection Message Frame :=
  { connection with
    session
    firing := connection.firing ++ completeAsyncWaiters waiters clean reason
    verdicts :=
      match waiters.receive with
      | none => connection.verdicts
      | some _ =>
        judge connection.verdicts connection.session
          (if clean then .ended else .failed (.Transport ("websocket: " ++ reason))) }

/-- `Fail`. -/
def failWith (connection : Connection Message Frame) (reason : String) : Connection Message Frame :=
  let (session, waiters) := connection.session.fail reason
  connection.conclude session waiters false session.error

def post (connection : Connection Message Frame) (posts : Bool) (task : Task Message Frame) :
    Connection Message Frame :=
  { connection with posted := bif posts then connection.posted ++ [task] else connection.posted }

def abort (connection : Connection Message Frame) (reason : String) (closes : Bool) :
    Connection Message Frame :=
  (connection.failWith reason).post closes .socketClose

/-- A receive goes on from its wait, with the lock held. -/
def finishReceive (connection : Connection Message Frame) (ready posts : Bool) :
    Connection Message Frame :=
  let (session, received, rearmed) := connection.session.receiveAfterWait ready posts
  { connection with
    session
    handed := handOut connection.handed received
    verdicts := judge connection.verdicts connection.session received }.post rearmed .pumpRead

/-- Counted among the receivers, and into the wait: a settled session ends it at once. -/
def startReceive (connection : Connection Message Frame) (timed posts : Bool) :
    Connection Message Frame :=
  let session :=
    { connection.session with blockedReceivers := connection.session.blockedReceivers + 1 }
  if session.receiveSettled then { connection with session }.finishReceive true posts
  else { connection with session, receivers := connection.receivers ++ [timed] }

def startSendAsync (codec : Codec Message Frame) (wire : Wire) (connection : Connection Message Frame)
    (message : Message) : Connection Message Frame :=
  let callback := connection.passed
  let connection := { connection with passed := callback + 1 }
  let refuse (error : Error) : Connection Message Frame :=
    { connection with firing := connection.firing ++ [(callback, .sent (.error error))] }
  match codec.encodeForWire wire message with
  | .error error => refuse error
  | .ok frame =>
    if connection.session.sendClosed then
      refuse (.Transport ("websocket: " ++ connection.session.sendRefusal))
    else if !connection.session.writeComplete || connection.session.pendingSend.isSome then
      refuse (.Validation "websocket: a send is already in flight")
    else
      { connection with
        session := connection.session.reserveSend (some callback)
        sendPosting := connection.sendPosting ++ [frame] }

def startReceiveAsync (connection : Connection Message Frame) (timeout : Option ℤ) (posts arms : Bool) :
    Connection Message Frame :=
  let callback := connection.passed
  let (session, decision) := connection.session.receiveAsync callback timeout posts arms
  let connection := { connection with passed := callback + 1 }
  let report (received : Received Message) : Connection Message Frame :=
    { connection with
      session
      firing := connection.firing ++ [(callback, .received received)]
      verdicts := judge connection.verdicts connection.session received }
  match decision with
  | .refused => report (.failed alreadyOutstanding)
  | .immediate received => report received
  | .unscheduled =>
    { report (.failed (.Transport "websocket: cannot schedule the receive deadline")) with
      parks := connection.parks + 1 }
  | .ready message rearmed =>
    { connection with
      session
      handed := connection.handed ++ [message]
      readyPosting := connection.readyPosting ++ [(callback, message)] }.post rearmed .pumpRead
  | .parked armed =>
    { connection with
      session
      parks := connection.parks + 1
      deadlines :=
        match armed with
        | none => connection.deadlines
        | some generation => connection.deadlines ++ [{ generation, park := connection.parks + 1 }] }

/-- A posted task, from its start to the point where it lets go of the lock. -/
def runTask (connection : Connection Message Frame) : Task Message Frame → Connection Message Frame
  | .startWrite frame =>
    let (session, start) := connection.session.startWrite
    match start with
    | .started => { connection with session, handler := .asyncWrite frame }
    | .refused send why =>
      { connection with
        session
        firing := connection.firing ++
          send.toList.map (·, .sent (.error (.Transport ("websocket: " ++ why)))) }
  | .requestClose =>
    let (session, starts) := connection.session.requestClose
    { connection with session, handler := if starts then .asyncClose else .idle }
  | .kick why =>
    let (session, starts) := connection.session.kick why
    { connection with session, handler := if starts then .asyncClose else .idle }
  | .socketClose => connection
  | .pumpRead => { connection with handler := .pumpRead }
  | .completeReceive callback message =>
    { connection with firing := connection.firing ++ [(callback, .received (.message message))] }

/-- The running handler: `PumpRead`'s hold of the lock, or the start of an operation. -/
def proceed (connection : Connection Message Frame) : Option (Connection Message Frame) :=
  match connection.handler with
  | .idle => none
  | .pumpRead =>
    let (session, reads) := connection.session.pumpRead
    some { connection with session, handler := if reads then .asyncRead else .idle }
  | .asyncRead => some { connection with reads := connection.reads + 1, handler := .idle }
  | .asyncWrite frame =>
    some { connection with
      writes := connection.writes + 1, written := connection.written ++ [frame], handler := .idle }
  | .asyncClose =>
    some { connection with
      closes := connection.closes + 1, closesStarted := connection.closesStarted + 1, handler := .idle }

/-- `Deliver`, which goes on to the pump. -/
def deliver (connection : Connection Message Frame) (message : Message) : Connection Message Frame :=
  let (session, receive) := connection.session.deliver message
  let connection :=
    { connection with session, handler := .pumpRead, decoded := connection.decoded ++ [message] }
  match receive with
  | none => connection
  | some callback =>
    { connection with
      handed := connection.handed ++ [message]
      firing := connection.firing ++ [(callback, .received (.message message))] }

def onRead (codec : Codec Message Frame) (wire : Wire) (connection : Connection Message Frame) :
    ReadResult Frame → Connection Message Frame
  | .closed reason =>
    let (session, waiters) := connection.session.onReadClosed reason
    connection.conclude session waiters true ""
  | .error error =>
    if connection.session.displaced error then connection else connection.failWith error.message
  | .message gotBinary bytes =>
    match codec.decodeFromWire wire gotBinary bytes with
    | .ok message => connection.deliver message
    | .error violation =>
      let (session, waiters, starts) := connection.session.failAndClose violation
      { connection.conclude session waiters false session.error with
        handler := if starts then .asyncClose else .idle }

def onWrite (connection : Connection Message Frame) (ec : Option WireError) : Connection Message Frame :=
  let (session, send, why, starts) := connection.session.onWrite ec
  { connection with
    session
    handler := if starts then .asyncClose else .idle
    firing := connection.firing ++ send.toList.map
      (·, .sent (if why.isEmpty then .ok () else .error (.Transport ("websocket: " ++ why)))) }

def onClose (connection : Connection Message Frame) (ec : Option WireError) : Connection Message Frame :=
  let (session, waiters, clean, why) := connection.session.onClose ec
  connection.conclude session waiters clean why

def onReceiveDeadline (connection : Connection Message Frame) (deadline : Deadline) :
    Connection Message Frame :=
  let (session, expired) := connection.session.onReceiveDeadline deadline.generation
  match expired with
  | none => { connection with session }
  | some callback =>
    { connection with
      session
      firing := connection.firing ++ [(callback, .received (.failed receiveTimedOut))]
      verdicts := judge connection.verdicts connection.session (.failed receiveTimedOut)
      timedOut := connection.timedOut ++ [(deadline.park, connection.parks)] }

/-- One step, or `none` where the label is not enabled. -/
def step (codec : Codec Message Frame) (wire : Wire) (connection : Connection Message Frame) :
    ConnectionLabel Message Frame → Option (Connection Message Frame)
  | .send message =>
    match connection.sender, codec.encodeForWire wire message with
    | .idle, .ok frame => some { connection with sender := .waiting frame }
    | _, .error _ => some connection
    | _, _ => none
  | .sendReserve =>
    match connection.sender with
    | .waiting frame =>
      if !connection.session.sendTurn then none
      else if connection.session.sendClosed then some { connection with sender := .idle }
      else some { connection with
        session := connection.session.reserveSend connection.session.pendingSend
        sender := .posting frame }
    | _ => none
  | .sendPost posts =>
    match connection.sender with
    | .posting frame =>
      if posts then some ({ connection with sender := .writing }.post true (.startWrite frame))
      else some { connection with sender := .idle }
    | _ => none
  | .sendReturn =>
    match connection.sender with
    | .writing =>
      if connection.session.writeComplete || connection.session.failed then
        some { connection with sender := .idle }
      else none
    | _ => none
  | .sendAsync message => some (connection.startSendAsync codec wire message)
  | .sendAsyncPost call posts =>
    match connection.sendPosting[call]? with
    | some frame =>
      let connection := { connection with sendPosting := connection.sendPosting.eraseIdx call }
      if posts then some (connection.post true (.startWrite frame))
      else
        let (session, send) := connection.session.sendAsyncUnposted
        some { connection with
          session
          firing := connection.firing ++
            send.toList.map (·, .sent (.error (.Transport "websocket: cannot schedule the write"))) }
    | none => none
  | .receive timed posts => some (connection.startReceive timed posts)
  | .receiveWake receiver posts =>
    match connection.receivers[receiver]? with
    | some _ =>
      if connection.session.receiveSettled then
        some ({ connection with receivers := connection.receivers.eraseIdx receiver }.finishReceive true posts)
      else none
    | none => none
  | .receiveTimeout receiver =>
    match connection.receivers[receiver]? with
    | some timed =>
      if timed && !connection.session.receiveSettled then
        some ({ connection with receivers := connection.receivers.eraseIdx receiver }.finishReceive false false)
      else none
    | none => none
  | .receiveAsync timeout posts arms => some (connection.startReceiveAsync timeout posts arms)
  | .receiveAsyncPost call posts =>
    match connection.readyPosting[call]? with
    | some (callback, message) =>
      let connection := { connection with readyPosting := connection.readyPosting.eraseIdx call }
      if posts then some (connection.post true (.completeReceive callback message))
      else
        let failure := .failed (.Transport "websocket: cannot schedule the completion")
        some { connection with
          firing := connection.firing ++ [(callback, .received failure)]
          verdicts := judge connection.verdicts connection.session failure }
    | none => none
  | .close posts closes =>
    if posts then some (connection.post true .requestClose)
    else some (connection.abort "websocket: cannot schedule the close" closes)
  | .kick why posts closes =>
    if !checkCloseReason why then none
    else if posts then some (connection.post true (.kick why))
    else some (connection.abort "websocket: cannot schedule the kick" closes)
  | .abort reason closes => some (connection.abort reason closes)
  | .task index =>
    match connection.handler, connection.posted[index]? with
    | .idle, some task =>
      some ({ connection with posted := connection.posted.eraseIdx index }.runTask task)
    | _, _ => none
  | .proceed => connection.proceed
  | .onRead result =>
    match connection.handler, connection.reads with
    | .idle, reads + 1 => some ({ connection with reads }.onRead codec wire result)
    | _, _ => none
  | .onWrite ec =>
    match connection.handler, connection.writes with
    | .idle, writes + 1 => some ({ connection with writes }.onWrite ec)
    | _, _ => none
  | .onClose ec =>
    match connection.handler, connection.closes with
    | .idle, closes + 1 => some ({ connection with closes }.onClose ec)
    | _, _ => none
  | .deadline index =>
    match connection.handler, connection.deadlines[index]? with
    | .idle, some deadline =>
      some ({ connection with deadlines := connection.deadlines.eraseIdx index }.onReceiveDeadline deadline)
    | _, _ => none
  | .invoke index =>
    match connection.firing[index]? with
    | some call =>
      some { connection with
        firing := connection.firing.eraseIdx index, invoked := connection.invoked ++ [call] }
    | none => none

/-- The machine of one connection, over its codec and its negotiated wire. -/
def machine (codec : Codec Message Frame) (wire : Wire) :
    Machine (Connection Message Frame) (ConnectionLabel Message Frame) where
  step := step codec wire

end Connection

end OpalCpp.Http

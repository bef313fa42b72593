import OpalCpp.Machine.Deque
import OpalCpp.Model.Http.WsConnection

/-! # Every step of a WebSocket connection, case by case

`Step` lists what one step can do to the session, the executor and the wire: one constructor for
each path through a hold of the lock. The rules about the wire, the send slot, the parked callbacks
and the received messages are all proved from this list.
-/

namespace OpalCpp.Http

variable {Message Frame : Type*}

/-- The blocking receives. -/
def ConnectionLabel.blocking : ConnectionLabel Message Frame → Bool
  | .receive _ _ | .receiveWake _ _ | .receiveTimeout _ => true
  | _ => false

/-- The calls that ask for the end of the session. -/
def ConnectionLabel.ending : ConnectionLabel Message Frame → Bool
  | .close _ _ | .kick _ _ _ | .abort _ _ => true
  | _ => false

/-- The posted tasks that request a close. -/
def Task.closing : Task Message Frame → Bool
  | .requestClose | .kick _ => true
  | _ => false

namespace WsSession

/-- The session as a terminal transition leaves it, its parked callbacks taken. -/
def ended (session : WsSession Message) (failed peerClosed : Bool) (error : String)
    (peerClose : Option CloseReason) : WsSession Message :=
  { session with
    failed, peerClosed, error, peerClose
    receiveDeadline := none, pendingReceive := none, pendingSend := none }

/-- The flags of a session that has ended, if not before then now. -/
structure Ends (session : WsSession Message) (failed peerClosed : Bool) : Prop where
  finished : (failed || peerClosed) = true
  failed : session.failed = true → failed = true
  peerClosed : session.peerClosed = true → peerClosed = true

/-- What taking a message out of the queue does to the paused read: nothing, post the re-arm,
or end the session because it cannot be posted. -/
inductive Rearm (session : WsSession Message) (rest : List Message) :
    Bool → Bool → String → Bool → Prop
  | quiet (still : session.readPaused = false ∨ session.terminal = true ∨ kReceiveQueueDepth ≤ rest.length) :
      Rearm session rest session.readPaused session.failed session.error false
  | posted (paused : session.readPaused = true) (live : session.terminal = false) :
      Rearm session rest false session.failed session.error true
  | failed (paused : session.readPaused = true) (live : session.terminal = false) :
      Rearm session rest false true "cannot schedule the read" false

theorem terminal_eq_false {session : WsSession Message} :
    session.terminal = false ↔ session.failed = false ∧ session.peerClosed = false := by
  simp [terminal]

theorem terminal_eq_true {session : WsSession Message} :
    session.terminal = true ↔ session.failed = true ∨ session.peerClosed = true := by
  simp [terminal]

theorem sendClosed_eq_false {session : WsSession Message} :
    session.sendClosed = false ↔ session.terminal = false ∧ session.closeRequested = false := by
  simp [sendClosed, terminal]

end WsSession

namespace Connection

open WsSession

/-- The parked callbacks, as a terminal transition takes them. -/
def waiters (session : WsSession Message) : TerminalWaiters :=
  ⟨session.pendingReceive, session.pendingSend⟩

/-- The step relation with all guards and effects spelled out. -/
inductive Step (state : Connection Message Frame) :
    ConnectionLabel Message Frame → Connection Message Frame → Prop
  | sendInvalid {message : Message} : Step state (.send message) state
  | sendWait {message : Message} {frame : Frame} (free : state.sender = .idle) :
      Step state (.send message) { state with sender := .waiting frame }
  | sendRefused {frame : Frame} (turn : state.sender = .waiting frame)
      (shut : state.session.sendClosed = true) :
      Step state .sendReserve { state with sender := .idle }
  | sendReserved {frame : Frame} (turn : state.sender = .waiting frame)
      (opened : state.session.sendClosed = false) (complete : state.session.writeComplete = true)
      (alone : state.session.pendingSend = none) :
      Step state .sendReserve
        { state with
          session := { state.session with writeComplete := false, writeError := "" }
          sender := .posting frame }
  | sendPosted {frame : Frame} (turn : state.sender = .posting frame) :
      Step state (.sendPost true)
        { state with sender := .writing, posted := state.posted ++ [.startWrite frame] }
  | sendUnposted {frame : Frame} (turn : state.sender = .posting frame) :
      Step state (.sendPost false) { state with sender := .idle }
  | sendReturned (turn : state.sender = .writing)
      (finished : state.session.writeComplete = true ∨ state.session.failed = true) :
      Step state .sendReturn { state with sender := .idle }
  | sendAsyncRefused {message : Message} {error : Error} :
      Step state (.sendAsync message)
        { state with
          passed := state.passed + 1
          firing := state.firing ++ [(state.passed, .sent (.error error))] }
  | sendAsyncReserved {message : Message} {frame : Frame}
      (opened : state.session.sendClosed = false) (complete : state.session.writeComplete = true)
      (alone : state.session.pendingSend = none) :
      Step state (.sendAsync message)
        { state with
          passed := state.passed + 1
          session := { state.session with
            pendingSend := some state.passed, writeComplete := false, writeError := "" }
          sendPosting := state.sendPosting ++ [frame] }
  | sendAsyncPosted {frame : Frame} {before after : List Frame}
      (calls : state.sendPosting = before ++ frame :: after) :
      Step state (.sendAsyncPost before.length true)
        { state with sendPosting := before ++ after, posted := state.posted ++ [.startWrite frame] }
  | sendAsyncUnposted {frame : Frame} {before after : List Frame} {error : Error}
      (calls : state.sendPosting = before ++ frame :: after) :
      Step state (.sendAsyncPost before.length false)
        { state with
          sendPosting := before ++ after
          session := { state.session with pendingSend := none, writeComplete := true }
          firing := state.firing ++ state.session.pendingSend.toList.map (·, .sent (.error error)) }
  | receiveBlocked {timed posts : Bool} (unsettled : state.session.receiveSettled = false) :
      Step state (.receive timed posts)
        { state with
          session := { state.session with blockedReceivers := state.session.blockedReceivers + 1 }
          receivers := state.receivers ++ [timed] }
  | receiveTook {label : ConnectionLabel Message Frame} {message : Message} {rest : List Message}
      {blocked : ℕ} {receivers : List Bool} {readPaused failed rearmed : Bool} {error : String}
      (blocking : label.blocking = true)
      (free : state.session.pendingReceive = none) (front : state.session.received = message :: rest)
      (rearm : Rearm state.session rest readPaused failed error rearmed) :
      Step state label
        { state with
          session := { state.session with
            received := rest, blockedReceivers := blocked, readPaused, failed, error }
          receivers
          handed := state.handed ++ [message]
          posted := bif rearmed then state.posted ++ [.pumpRead] else state.posted }
  | receiveNothing {label : ConnectionLabel Message Frame} (report : Received Message)
      {blocked : ℕ} (counted : ℕ) {receivers : List Bool} (blocking : label.blocking = true)
      (nothing : state.session.received = [] ∨ state.session.pendingReceive.isSome = true) :
      Step state label
        { state with
          session := { state.session with blockedReceivers := blocked }
          receivers
          verdicts := judge state.verdicts { state.session with blockedReceivers := counted } report }
  | receiveAsyncRefused {timeout : Option ℤ} {posts arms : Bool}
      (outstanding : state.session.pendingReceive.isSome = true ∨ 0 < state.session.blockedReceivers) :
      Step state (.receiveAsync timeout posts arms)
        { state with
          passed := state.passed + 1
          firing := state.firing ++ [(state.passed, .received (.failed alreadyOutstanding))]
          verdicts := judge state.verdicts state.session (.failed alreadyOutstanding) }
  | receiveAsyncReady {timeout : Option ℤ} {posts arms : Bool} {message : Message}
      {rest : List Message} {readPaused failed rearmed : Bool} {error : String} (free : state.session.pendingReceive = none)
      (front : state.session.received = message :: rest)
      (rearm : Rearm state.session rest readPaused failed error rearmed) :
      Step state (.receiveAsync timeout posts arms)
        { state with
          passed := state.passed + 1
          session := { state.session with received := rest, readPaused, failed, error }
          handed := state.handed ++ [message]
          readyPosting := state.readyPosting ++ [(state.passed, message)]
          posted := bif rearmed then state.posted ++ [.pumpRead] else state.posted }
  | receiveAsyncImmediate {timeout : Option ℤ} {posts arms : Bool} (report : Received Message)
      (free : state.session.pendingReceive = none) (empty : state.session.received = []) :
      Step state (.receiveAsync timeout posts arms)
        { state with
          passed := state.passed + 1
          firing := state.firing ++ [(state.passed, .received report)]
          verdicts := judge state.verdicts state.session report }
  | receiveAsyncUnscheduled {timeout : Option ℤ} {posts arms : Bool} (report : Received Message)
      (free : state.session.pendingReceive = none) (empty : state.session.received = []) :
      Step state (.receiveAsync timeout posts arms)
        { state with
          passed := state.passed + 1
          parks := state.parks + 1
          session := { state.session with
            pendingReceive := none
            receiveParkGeneration := state.session.receiveParkGeneration + 1 }
          firing := state.firing ++ [(state.passed, .received report)]
          verdicts := judge state.verdicts state.session report }
  | receiveAsyncParked {timeout : Option ℤ} {posts arms : Bool} {deadline : Option UInt64}
      (timed : Bool) (free : state.session.pendingReceive = none)
      (empty : state.session.received = []) (live : state.session.terminal = false) :
      Step state (.receiveAsync timeout posts arms)
        { state with
          passed := state.passed + 1
          parks := state.parks + 1
          session := { state.session with
            pendingReceive := some state.passed
            receiveParkGeneration := state.session.receiveParkGeneration + 1
            receiveDeadline := deadline }
          deadlines := bif timed then
              state.deadlines ++ [⟨state.session.receiveParkGeneration + 1, state.parks + 1⟩]
            else state.deadlines }
  | receiveAsyncPosted {callback : ℕ} {message : Message} {before after : List (ℕ × Message)}
      (calls : state.readyPosting = before ++ (callback, message) :: after) :
      Step state (.receiveAsyncPost before.length true)
        { state with
          readyPosting := before ++ after
          posted := state.posted ++ [.completeReceive callback message] }
  | receiveAsyncUnposted {callback : ℕ} {message : Message} {before after : List (ℕ × Message)}
      (report : Received Message) (calls : state.readyPosting = before ++ (callback, message) :: after) :
      Step state (.receiveAsyncPost before.length false)
        { state with
          readyPosting := before ++ after
          firing := state.firing ++ [(callback, .received report)]
          verdicts := judge state.verdicts state.session report }
  | closePosted {label : ConnectionLabel Message Frame} {task : Task Message Frame}
      (ending : label.ending = true) (closing : task.closing = true) :
      Step state label { state with posted := state.posted ++ [task] }
  | aborted {label : ConnectionLabel Message Frame} {failed : Bool} {error reason : String}
      {closes : Bool} (ending : label.ending = true)
      (ends : Ends state.session failed state.session.peerClosed) :
      Step state label
        { state.conclude (state.session.ended failed state.session.peerClosed error state.session.peerClose)
            (waiters state.session) false reason with
          posted := bif closes then state.posted ++ [.socketClose] else state.posted }
  | writeRefused {frame : Frame} {before after : List (Task Message Frame)} {error : Error}
      (idle : state.handler = .idle) (queued : state.posted = before ++ .startWrite frame :: after)
      (shut : state.session.sendClosed = true) :
      Step state (.task before.length)
        { state with
          posted := before ++ after
          session := { state.session with
            writeComplete := true, writeError := state.session.sendRefusal, pendingSend := none }
          firing := state.firing ++ state.session.pendingSend.toList.map (·, .sent (.error error)) }
  | writeAdmitted {frame : Frame} {before after : List (Task Message Frame)}
      (idle : state.handler = .idle) (queued : state.posted = before ++ .startWrite frame :: after)
      (opened : state.session.sendClosed = false) :
      Step state (.task before.length)
        { state with
          posted := before ++ after
          session := { state.session with wireWriteBusy := true }
          handler := .asyncWrite frame }
  | closeIgnored {task : Task Message Frame} {before after : List (Task Message Frame)}
      {kicked : Bool} {why : CloseReason} (idle : state.handler = .idle)
      (queued : state.posted = before ++ task :: after) (closing : task.closing = true) :
      Step state (.task before.length)
        { state with
          posted := before ++ after
          session := { state.session with kickDeadline := kicked, closeReason := why }
          handler := .idle }
  | closeDeferred {task : Task Message Frame} {before after : List (Task Message Frame)}
      {kicked : Bool} {why : CloseReason} (idle : state.handler = .idle)
      (queued : state.posted = before ++ task :: after) (closing : task.closing = true)
      (unrequested : state.session.closeRequested = false) (live : state.session.terminal = false)
      (busy : state.session.wireWriteBusy = true) :
      Step state (.task before.length)
        { state with
          posted := before ++ after
          session := { state.session with
            kickDeadline := kicked, closeReason := why, closeRequested := true }
          handler := .idle }
  | closeBegun {task : Task Message Frame} {before after : List (Task Message Frame)}
      {kicked : Bool} {why : CloseReason} (idle : state.handler = .idle)
      (queued : state.posted = before ++ task :: after) (closing : task.closing = true)
      (unrequested : state.session.closeRequested = false) (live : state.session.terminal = false)
      (quiet : state.session.wireWriteBusy = false) :
      Step state (.task before.length)
        { state with
          posted := before ++ after
          session := { state.session with
            kickDeadline := kicked, closeReason := why, closeRequested := true, closeStarted := true }
          handler := .asyncClose }
  | socketClosed {before after : List (Task Message Frame)} (idle : state.handler = .idle)
      (queued : state.posted = before ++ .socketClose :: after) :
      Step state (.task before.length) { state with posted := before ++ after }
  | rearmed {before after : List (Task Message Frame)} (idle : state.handler = .idle)
      (queued : state.posted = before ++ .pumpRead :: after) :
      Step state (.task before.length) { state with posted := before ++ after, handler := .pumpRead }
  | completed {callback : ℕ} {message : Message} {before after : List (Task Message Frame)}
      (idle : state.handler = .idle)
      (queued : state.posted = before ++ .completeReceive callback message :: after) :
      Step state (.task before.length)
        { state with
          posted := before ++ after
          firing := state.firing ++ [(callback, .received (.message message))] }
  | pumpStopped (running : state.handler = .pumpRead) :
      Step state .proceed { state with handler := .idle }
  | pumpPaused (running : state.handler = .pumpRead)
      (full : kReceiveQueueDepth ≤ state.session.received.length) :
      Step state .proceed
        { state with session := { state.session with readPaused := true }, handler := .idle }
  | pumpArmed (running : state.handler = .pumpRead)
      (room : state.session.received.length < kReceiveQueueDepth) :
      Step state .proceed { state with handler := .asyncRead }
  | readStarted (running : state.handler = .asyncRead) :
      Step state .proceed { state with reads := state.reads + 1, handler := .idle }
  | writeStarted {frame : Frame} (running : state.handler = .asyncWrite frame) :
      Step state .proceed
        { state with
          writes := state.writes + 1, written := state.written ++ [frame], handler := .idle }
  | closeStarted (running : state.handler = .asyncClose) :
      Step state .proceed
        { state with
          closes := state.closes + 1, closesStarted := state.closesStarted + 1, handler := .idle }
  | readClosed {reads : ℕ} {why : CloseReason} (idle : state.handler = .idle)
      (pending : state.reads = reads + 1) :
      Step state (.onRead (.closed why))
        { state.conclude (state.session.ended state.session.failed true state.session.error (some why))
            (waiters state.session) true "" with reads }
  | readFailed {reads : ℕ} {ec : WireError} {failed : Bool} {error reason : String}
      (idle : state.handler = .idle) (pending : state.reads = reads + 1)
      (ends : Ends state.session failed state.session.peerClosed) :
      Step state (.onRead (.error ec))
        { state.conclude (state.session.ended failed state.session.peerClosed error state.session.peerClose)
            (waiters state.session) false reason with reads }
  | readSwallowed {reads : ℕ} {ec : WireError} (idle : state.handler = .idle)
      (pending : state.reads = reads + 1) (displaced : state.session.displaced ec = true) :
      Step state (.onRead (.error ec)) { state with reads }
  | delivered {reads callback : ℕ} {gotBinary : Bool} {bytes : Frame} {message : Message}
      (idle : state.handler = .idle) (pending : state.reads = reads + 1)
      (parked : state.session.pendingReceive = some callback) :
      Step state (.onRead (.message gotBinary bytes))
        { state with
          reads
          session := { state.session with pendingReceive := none, receiveDeadline := none }
          handler := .pumpRead
          decoded := state.decoded ++ [message]
          handed := state.handed ++ [message]
          firing := state.firing ++ [(callback, .received (.message message))] }
  | queued {reads : ℕ} {gotBinary : Bool} {bytes : Frame} {message : Message}
      (idle : state.handler = .idle) (pending : state.reads = reads + 1)
      (free : state.session.pendingReceive = none) :
      Step state (.onRead (.message gotBinary bytes))
        { state with
          reads
          session := { state.session with received := state.session.received ++ [message] }
          handler := .pumpRead
          decoded := state.decoded ++ [message] }
  | violated {reads : ℕ} {gotBinary : Bool} {bytes : Frame} {failed : Bool} {error reason : String}
      (idle : state.handler = .idle) (pending : state.reads = reads + 1)
      (ends : Ends state.session failed state.session.peerClosed)
      (taken : state.session.closeStarted = true ∨ state.session.wireWriteBusy = true) :
      Step state (.onRead (.message gotBinary bytes))
        { state.conclude
            { state.session.ended failed state.session.peerClosed error state.session.peerClose with
              closeReason := { code := 1002 }, closeRequested := true }
            (waiters state.session) false reason with reads, handler := .idle }
  | violatedClosing {reads : ℕ} {gotBinary : Bool} {bytes : Frame} {failed : Bool}
      {error reason : String} (idle : state.handler = .idle) (pending : state.reads = reads + 1)
      (ends : Ends state.session failed state.session.peerClosed)
      (unstarted : state.session.closeStarted = false) (quiet : state.session.wireWriteBusy = false) :
      Step state (.onRead (.message gotBinary bytes))
        { state.conclude
            { state.session.ended failed state.session.peerClosed error state.session.peerClose with
              closeReason := { code := 1002 }, closeRequested := true, closeStarted := true }
            (waiters state.session) false reason with reads, handler := .asyncClose }
  | wrote {writes : ℕ} {outcome : Outcome Unit} (idle : state.handler = .idle)
      (pending : state.writes = writes + 1) :
      Step state (.onWrite none)
        { state with
          writes
          session := { state.session with
            wireWriteBusy := false, writeComplete := true, pendingSend := none }
          handler := .idle
          firing := state.firing ++ state.session.pendingSend.toList.map (·, .sent outcome) }
  | wroteClosing {writes : ℕ} {outcome : Outcome Unit} (idle : state.handler = .idle)
      (pending : state.writes = writes + 1) (requested : state.session.closeRequested = true)
      (unstarted : state.session.closeStarted = false) :
      Step state (.onWrite none)
        { state with
          writes
          session := { state.session with
            wireWriteBusy := false, writeComplete := true, pendingSend := none, closeStarted := true }
          handler := .asyncClose
          firing := state.firing ++ state.session.pendingSend.toList.map (·, .sent outcome) }
  | writeFailed {writes : ℕ} {ec : WireError} {outcome : Outcome Unit} {failed : Bool}
      {error why : String} (idle : state.handler = .idle) (pending : state.writes = writes + 1)
      (ends : Ends state.session failed state.session.peerClosed) :
      Step state (.onWrite (some ec))
        { state with
          writes
          session := { state.session with
            wireWriteBusy := false, writeComplete := true, pendingSend := none
            failed, error, writeError := why }
          handler := .idle
          firing := state.firing ++ state.session.pendingSend.toList.map (·, .sent outcome) }
  | closed {closes : ℕ} {ec : Option WireError} {failed peerClosed clean : Bool}
      {error reason : String} (idle : state.handler = .idle) (pending : state.closes = closes + 1)
      (ends : Ends state.session failed peerClosed) :
      Step state (.onClose ec)
        { state.conclude (state.session.ended failed peerClosed error state.session.peerClose)
            (waiters state.session) clean reason with closes }
  | deadlineStale {deadline : Deadline} {before after : List Deadline} (idle : state.handler = .idle)
      (armed : state.deadlines = before ++ deadline :: after) :
      Step state (.deadline before.length) { state with deadlines := before ++ after }
  | deadlineExpired {callback : ℕ} {deadline : Deadline} {before after : List Deadline}
      (idle : state.handler = .idle) (armed : state.deadlines = before ++ deadline :: after)
      (parked : state.session.pendingReceive = some callback)
      (current : state.session.receiveParkGeneration = deadline.generation) :
      Step state (.deadline before.length)
        { state with
          deadlines := before ++ after
          session := { state.session with pendingReceive := none }
          firing := state.firing ++ [(callback, .received (.failed receiveTimedOut))]
          verdicts := judge state.verdicts state.session (.failed receiveTimedOut)
          timedOut := state.timedOut ++ [(deadline.park, state.parks)] }
  | called {call : ℕ × Report Message} {before after : List (ℕ × Report Message)}
      (due : state.firing = before ++ call :: after) :
      Step state (.invoke before.length)
        { state with firing := before ++ after, invoked := state.invoked ++ [call] }

section Holds

variable (session : WsSession Message)

theorem ends_of_setFailed (reason : String) :
    Ends session (session.setFailed reason).failed session.peerClosed := by
  cases failed : session.failed <;> cases closed : session.peerClosed <;>
    constructor <;> simp [setFailed, terminal, failed, closed]

theorem setFailed_eq (reason : String) :
    session.setFailed reason =
      { session with
        failed := (session.setFailed reason).failed, error := (session.setFailed reason).error } := by
  unfold setFailed
  split <;> rfl

theorem resumeReadsIfPaused_spec (rest : List Message) (blocked : ℕ) (posts : Bool) :
    ∃ (readPaused failed : Bool) (error : String) (rearmed : Bool),
      { session with received := rest, blockedReceivers := blocked }.resumeReadsIfPaused posts =
        ({ session with received := rest, blockedReceivers := blocked, readPaused, failed, error }, rearmed) ∧
      Rearm session rest readPaused failed error rearmed := by
  rw [resumeReadsIfPaused]
  split
  case isTrue still =>
    refine ⟨_, _, _, false, rfl, .quiet ?_⟩
    simpa [terminal, or_assoc] using still
  case isFalse moving =>
    simp only [Bool.or_eq_true, Bool.not_eq_true', decide_eq_true_eq, not_or, Bool.not_eq_false,
      Bool.not_eq_true] at moving
    obtain ⟨⟨paused, live⟩, _⟩ := moving
    cases posts with
    | true => exact ⟨_, _, _, true, rfl, .posted paused live⟩
    | false => exact ⟨_, _, _, false, rfl, .failed paused live⟩

/-- A blocking receive that goes on takes the front of the queue, or there is nothing for it to take. -/
theorem receiveAfterWait_spec (blocked : ℕ) {ready : Bool} (posts : Bool)
    (settled : session.receiveSettled = ready) :
    (∃ (message : Message) (rest : List Message) (readPaused failed : Bool) (error : String)
        (rearmed : Bool), session.pendingReceive = none ∧ session.received = message :: rest ∧
      { session with blockedReceivers := blocked }.receiveAfterWait ready posts =
        ({ session with
            received := rest, blockedReceivers := blocked - 1, readPaused, failed, error },
          .message message, rearmed) ∧
      Rearm session rest readPaused failed error rearmed) ∨
    (∃ report : Received Message, (session.received = [] ∨ session.pendingReceive.isSome = true) ∧
      (∀ message, report ≠ .message message) ∧
      { session with blockedReceivers := blocked }.receiveAfterWait ready posts =
        ({ session with blockedReceivers := blocked - 1 }, report, false)) := by
  cases ready with
  | false =>
    refine .inr ⟨.failed receiveTimedOut, ?_, fun _ => nofun, rfl⟩
    simp only [receiveSettled, Bool.or_eq_false_iff, Bool.and_eq_false_iff, Bool.not_eq_false',
      List.isEmpty_iff, Option.isNone_eq_false_iff] at settled
    exact settled.1
  | true =>
    by_cases taking : session.received ≠ [] ∧ session.pendingReceive = none
    · obtain ⟨some, free⟩ := taking
      obtain ⟨message, rest, front⟩ := List.exists_cons_of_ne_nil some
      obtain ⟨readPaused, failed, error, rearmed, resumed, rearm⟩ :=
        resumeReadsIfPaused_spec session rest (blocked - 1) posts
      refine .inl ⟨message, rest, readPaused, failed, error, rearmed, free, front, ?_, rearm⟩
      rw [free] at resumed
      simp [receiveAfterWait, front, free, resumed]
    · have nothing : session.received = [] ∨ session.pendingReceive.isSome = true := by
        rw [Option.isSome_iff_ne_none]
        tauto
      refine .inr ⟨if session.peerClosed then .ended
        else .failed (.Transport ("websocket: " ++ session.error)), nothing, ?_, ?_⟩
      · intro message
        split <;> nofun
      · simp only [receiveAfterWait, Bool.not_true, Bool.false_eq_true, ↓reduceIte]
        split
        case h_1 message rest front free => exact absurd ⟨front ▸ List.cons_ne_nil _ _, free⟩ taking
        case h_2 => split <;> rfl

end Holds

section Callers

variable {state : Connection Message Frame} {label : ConnectionLabel Message Frame}

theorem step_finishReceive {blocked : ℕ} {receivers : List Bool} {ready posts : Bool}
    (blocking : label.blocking = true) (settled : state.session.receiveSettled = ready) :
    Step state label
      ({ state with
        session := { state.session with blockedReceivers := blocked }
        receivers }.finishReceive ready posts) := by
  rw [finishReceive]
  obtain ⟨message, rest, readPaused, failed, error, rearmed, free, front, taken, rearm⟩ |
    ⟨report, nothing, none, taken⟩ := receiveAfterWait_spec state.session blocked posts settled
  · rw [taken]
    exact .receiveTook blocking free front rearm
  · rw [taken]
    cases report with
    | message message => exact absurd rfl (none message)
    | ended => exact .receiveNothing .ended blocked blocking nothing
    | failed error => exact .receiveNothing (.failed error) blocked blocking nothing

theorem step_startReceive (timed posts : Bool) :
    Step state (.receive timed posts) (state.startReceive timed posts) := by
  cases settled : state.session.receiveSettled with
  | true =>
    have taken : state.startReceive timed posts =
        { state with
          session := { state.session with blockedReceivers := state.session.blockedReceivers + 1 }
          receivers := state.receivers }.finishReceive true posts := if_pos settled
    rw [taken]
    exact step_finishReceive rfl settled
  | false =>
    have waits : state.startReceive timed posts =
        { state with
          session := { state.session with blockedReceivers := state.session.blockedReceivers + 1 }
          receivers := state.receivers ++ [timed] } := if_neg (by rw [Bool.not_eq_true]; exact settled)
    rw [waits]
    exact .receiveBlocked settled

theorem step_startSendAsync (codec : Codec Message Frame) (wire : Wire) (message : Message) :
    Step state (.sendAsync message) (state.startSendAsync codec wire message) := by
  unfold startSendAsync
  split
  · exact .sendAsyncRefused
  · dsimp only
    split_ifs with shut busy
    · exact .sendAsyncRefused
    · exact .sendAsyncRefused
    · simp only [Bool.or_eq_true, Bool.not_eq_true', not_or, Bool.not_eq_false, Bool.not_eq_true,
        Option.isSome_eq_false_iff, Option.isNone_iff_eq_none] at busy
      exact .sendAsyncReserved (Bool.eq_false_iff.mpr shut) busy.1 busy.2

theorem step_startReceiveAsync (timeout : Option ℤ) (posts arms : Bool) :
    Step state (.receiveAsync timeout posts arms) (state.startReceiveAsync timeout posts arms) := by
  by_cases outstanding : state.session.pendingReceive.isSome = true ∨ 0 < state.session.blockedReceivers
  · have decided : state.session.receiveAsync state.passed timeout posts arms =
        (state.session, .refused) := if_pos (by simpa using outstanding)
    rw [startReceiveAsync, decided]
    exact .receiveAsyncRefused outstanding
  rw [not_or, Bool.not_eq_true, Option.isSome_eq_false_iff, Option.isNone_iff_eq_none] at outstanding
  obtain ⟨free, unblocked⟩ := outstanding
  cases front : state.session.received with
  | cons message rest =>
    obtain ⟨readPaused, failed, error, rearmed, resumed, rearm⟩ :=
      resumeReadsIfPaused_spec state.session rest state.session.blockedReceivers posts
    have decided : state.session.receiveAsync state.passed timeout posts arms =
        ({ state.session with received := rest, readPaused, failed, error }, .ready message rearmed) := by
      rw [free] at resumed
      simp [receiveAsync, free, unblocked, front, resumed]
    rw [startReceiveAsync, decided]
    exact .receiveAsyncReady free front rearm
  | nil =>
    cases finished : state.session.terminal with
    | true =>
      obtain ⟨report, decided⟩ : ∃ report, state.session.receiveAsync state.passed timeout posts arms =
          (state.session, .immediate report) := by
        cases closed : state.session.peerClosed with
        | true => exact ⟨_, by simp [receiveAsync, free, unblocked, front, closed]; rfl⟩
        | false =>
          have failed : state.session.failed = true := by simpa [terminal, closed] using finished
          exact ⟨_, by simp [receiveAsync, free, unblocked, front, closed, failed]; rfl⟩
      rw [startReceiveAsync, decided]
      exact .receiveAsyncImmediate report free front
    | false =>
      have live := terminal_eq_false.mp finished
      cases timeout with
      | none =>
        have decided : state.session.receiveAsync state.passed none posts arms =
            ({ state.session with
                pendingReceive := some state.passed
                receiveParkGeneration := state.session.receiveParkGeneration + 1 }, .parked none) := by
          simp [receiveAsync, free, unblocked, front, live]
        rw [startReceiveAsync, decided]
        exact .receiveAsyncParked false free front finished
      | some budget =>
        by_cases spent : budget ≤ 0
        · have decided : state.session.receiveAsync state.passed (some budget) posts arms =
              (state.session, .immediate (.failed receiveTimedOut)) := by
            simp [receiveAsync, free, unblocked, front, live, spent, receiveTimedOut]
          rw [startReceiveAsync, decided]
          exact .receiveAsyncImmediate (.failed receiveTimedOut) free front
        cases arms with
        | true =>
          have decided : state.session.receiveAsync state.passed (some budget) posts true =
              ({ state.session with
                  pendingReceive := some state.passed
                  receiveParkGeneration := state.session.receiveParkGeneration + 1
                  receiveDeadline := some (state.session.receiveParkGeneration + 1) },
                .parked (some (state.session.receiveParkGeneration + 1))) := by
            simp [receiveAsync, free, unblocked, front, live, spent]
          rw [startReceiveAsync, decided]
          exact .receiveAsyncParked true free front finished
        | false =>
          have decided : state.session.receiveAsync state.passed (some budget) posts false =
              ({ state.session with
                  pendingReceive := none
                  receiveParkGeneration := state.session.receiveParkGeneration + 1 }, .unscheduled) := by
            simp [receiveAsync, free, unblocked, front, live, spent]
          rw [startReceiveAsync, decided]
          exact .receiveAsyncUnscheduled (.failed _) free front

theorem step_abort {reason : String} {closes : Bool} (ending : label.ending = true) :
    Step state label (state.abort reason closes) := by
  rw [abort, failWith, fail, setFailed_eq]
  exact .aborted ending (ends_of_setFailed state.session reason)

end Callers

section Handlers

variable {state : Connection Message Frame}

/-- A close request is ignored, deferred behind the write in flight, or begun. -/
inductive CloseRequest (session : WsSession Message) : WsSession Message → Bool → Prop
  | ignored {kicked : Bool} {why : CloseReason} :
      CloseRequest session { session with kickDeadline := kicked, closeReason := why } false
  | deferred {kicked : Bool} {why : CloseReason} (unrequested : session.closeRequested = false)
      (live : session.terminal = false) (busy : session.wireWriteBusy = true) :
      CloseRequest session
        { session with kickDeadline := kicked, closeReason := why, closeRequested := true } false
  | begun {kicked : Bool} {why : CloseReason} (unrequested : session.closeRequested = false)
      (live : session.terminal = false) (quiet : session.wireWriteBusy = false) :
      CloseRequest session
        { session with
          kickDeadline := kicked, closeReason := why, closeRequested := true, closeStarted := true } true

theorem closeRequest_requestClose (session : WsSession Message) (kicked : Bool) (why : CloseReason) :
    CloseRequest session
      ({ session with kickDeadline := kicked, closeReason := why } : WsSession Message).requestClose.1
      ({ session with kickDeadline := kicked, closeReason := why } : WsSession Message).requestClose.2 := by
  rw [requestClose]
  split_ifs with finished busy
  · exact .ignored
  all_goals simp only [Bool.or_eq_true, not_or, Bool.not_eq_true] at finished busy
  · exact .deferred finished.1 finished.2 busy
  · exact .begun finished.1 finished.2 busy

theorem closeRequest_kick (session : WsSession Message) (why : CloseReason) :
    CloseRequest session (session.kick why).1 (session.kick why).2 := by
  rw [WsSession.kick]
  split
  · exact .ignored
  · exact closeRequest_requestClose session true _

theorem step_closing {task : Task Message Frame} {before after : List (Task Message Frame)}
    {session : WsSession Message} {starts : Bool} (idle : state.handler = .idle)
    (queued : state.posted = before ++ task :: after) (closing : task.closing = true)
    (request : CloseRequest state.session session starts) :
    Step state (.task before.length)
      { state with
        posted := before ++ after, session, handler := if starts then .asyncClose else .idle } := by
  cases request with
  | ignored => exact .closeIgnored idle queued closing
  | deferred unrequested live busy => exact .closeDeferred idle queued closing unrequested live busy
  | begun unrequested live quiet => exact .closeBegun idle queued closing unrequested live quiet

theorem step_runTask {task : Task Message Frame} {before after : List (Task Message Frame)}
    (idle : state.handler = .idle) (queued : state.posted = before ++ task :: after) :
    Step state (.task before.length) ({ state with posted := before ++ after }.runTask task) := by
  cases task with
  | startWrite frame =>
    cases shut : state.session.sendClosed with
    | true =>
      have refused : state.session.startWrite =
          ({ state.session with
              writeComplete := true, writeError := state.session.sendRefusal, pendingSend := none },
            .refused state.session.pendingSend state.session.sendRefusal) := if_pos shut
      rw [runTask, refused]
      exact .writeRefused idle queued shut
    | false =>
      have started : state.session.startWrite = ({ state.session with wireWriteBusy := true }, .started) :=
        if_neg (Bool.eq_false_iff.mp shut)
      rw [runTask, started]
      exact .writeAdmitted idle queued shut
  | requestClose =>
    exact step_closing idle queued rfl
      (closeRequest_requestClose state.session state.session.kickDeadline state.session.closeReason)
  | kick why => exact step_closing idle queued rfl (closeRequest_kick state.session why)
  | socketClose => exact .socketClosed idle queued
  | pumpRead => exact .rearmed idle queued
  | completeReceive callback message => exact .completed idle queued

theorem pumpRead_cases (session : WsSession Message) :
    session.pumpRead = (session, false) ∨
    (kReceiveQueueDepth ≤ session.received.length ∧
      session.pumpRead = ({ session with readPaused := true }, false)) ∨
    (session.received.length < kReceiveQueueDepth ∧ session.pumpRead = (session, true)) := by
  rw [WsSession.pumpRead]
  split_ifs with finished full
  · exact .inl rfl
  · exact .inr (.inl ⟨full, rfl⟩)
  · exact .inr (.inr ⟨Nat.not_le.mp full, rfl⟩)

theorem step_proceed {target : Connection Message Frame} (stepped : state.proceed = some target) :
    Step state .proceed target := by
  cases running : state.handler with
  | idle => simp [proceed, running] at stepped
  | pumpRead =>
    simp only [proceed, running, Option.some.injEq] at stepped
    subst stepped
    obtain stopped | ⟨full, paused⟩ | ⟨room, armed⟩ := pumpRead_cases state.session
    · rw [stopped]
      exact .pumpStopped running
    · rw [paused]
      exact .pumpPaused running full
    · rw [armed]
      exact .pumpArmed running room
  | asyncRead =>
    simp only [proceed, running, Option.some.injEq] at stepped
    exact stepped ▸ .readStarted running
  | asyncWrite frame =>
    simp only [proceed, running, Option.some.injEq] at stepped
    exact stepped ▸ .writeStarted running
  | asyncClose =>
    simp only [proceed, running, Option.some.injEq] at stepped
    exact stepped ▸ .closeStarted running

theorem step_deliver {gotBinary : Bool} {bytes : Frame} {reads : ℕ} (message : Message)
    (idle : state.handler = .idle) (pending : state.reads = reads + 1) :
    Step state (.onRead (.message gotBinary bytes)) ({ state with reads }.deliver message) := by
  cases parked : state.session.pendingReceive with
  | none =>
    have queued : state.session.deliver message =
        ({ state.session with received := state.session.received ++ [message] }, none) := by
      simp [WsSession.deliver, parked]
    rw [deliver, queued]
    exact .queued idle pending parked
  | some callback =>
    have handed : state.session.deliver message =
        ({ state.session with pendingReceive := none, receiveDeadline := none }, some callback) := by
      rw [WsSession.deliver, parked]
    rw [deliver, handed]
    exact .delivered idle pending parked

theorem step_onRead (codec : Codec Message Frame) (wire : Wire) {result : ReadResult Frame} {reads : ℕ}
    (idle : state.handler = .idle) (pending : state.reads = reads + 1) :
    Step state (.onRead result) ({ state with reads }.onRead codec wire result) := by
  cases result with
  | closed why => exact .readClosed idle pending
  | error ec =>
    rw [onRead]
    split_ifs with displaced
    · exact .readSwallowed idle pending displaced
    · rw [failWith, fail, setFailed_eq]
      exact .readFailed idle pending (ends_of_setFailed state.session ec.message)
  | message gotBinary bytes =>
    rw [onRead]
    cases codec.decodeFromWire wire gotBinary bytes with
    | ok message => exact step_deliver message idle pending
    | error violation =>
      have ends := ends_of_setFailed state.session violation
      dsimp only
      by_cases quiet : state.session.closeStarted = false ∧ state.session.wireWriteBusy = false
      · have closing : state.session.failAndClose violation =
            ({ state.session.ended (state.session.setFailed violation).failed state.session.peerClosed
                  (state.session.setFailed violation).error state.session.peerClose with
                closeReason := { code := 1002 }, closeRequested := true, closeStarted := true },
              waiters state.session, true) := by
          rw [failAndClose, setFailed_eq]
          exact if_pos (by simp [quiet])
        rw [closing]
        exact .violatedClosing idle pending ends quiet.1 quiet.2
      · have deferred : state.session.failAndClose violation =
            ({ state.session.ended (state.session.setFailed violation).failed state.session.peerClosed
                  (state.session.setFailed violation).error state.session.peerClose with
                closeReason := { code := 1002 }, closeRequested := true },
              waiters state.session, false) := by
          rw [failAndClose, setFailed_eq]
          exact if_neg (by simpa [takeAsyncWaitersLocked] using quiet)
        rw [deferred]
        refine .violated idle pending ends ?_
        rw [not_and_or, Bool.not_eq_false, Bool.not_eq_false] at quiet
        exact quiet

theorem onWrite_failed (session : WsSession Message) (ec : WireError) :
    ∃ (failed : Bool) (error : String), Ends session failed session.peerClosed ∧
      session.onWrite (some ec) =
        ({ session with
            wireWriteBusy := false, writeComplete := true, pendingSend := none
            failed, error, writeError := session.writeFailure ec },
          session.pendingSend, session.writeFailure ec, false) := by
  rw [WsSession.onWrite, setFailed]
  dsimp only
  split
  case isTrue finished => exact ⟨_, _, ⟨finished, id, id⟩, rfl⟩
  case isFalse => exact ⟨true, _, ⟨rfl, fun _ => rfl, id⟩, rfl⟩

theorem step_onWrite {ec : Option WireError} {writes : ℕ} (idle : state.handler = .idle)
    (pending : state.writes = writes + 1) :
    Step state (.onWrite ec) ({ state with writes }.onWrite ec) := by
  cases ec with
  | none =>
    by_cases closing : state.session.closeRequested = true ∧ state.session.closeStarted = false
    · have begun : state.session.onWrite none =
          ({ state.session with
              wireWriteBusy := false, writeComplete := true, pendingSend := none, closeStarted := true },
            state.session.pendingSend, state.session.writeError, true) :=
        if_pos (by simpa using closing)
      rw [onWrite, begun]
      exact .wroteClosing idle pending closing.1 closing.2
    · have stays : state.session.onWrite none =
          ({ state.session with wireWriteBusy := false, writeComplete := true, pendingSend := none },
            state.session.pendingSend, state.session.writeError, false) :=
        if_neg (by simpa using closing)
      rw [onWrite, stays]
      exact .wrote idle pending
  | some ec =>
    obtain ⟨failed, error, ends, broken⟩ := onWrite_failed state.session ec
    rw [onWrite, broken]
    exact .writeFailed idle pending ends

theorem step_onClose {ec : Option WireError} {closes : ℕ} (idle : state.handler = .idle)
    (pending : state.closes = closes + 1) :
    Step state (.onClose ec) ({ state with closes }.onClose ec) := by
  cases ec with
  | some ec =>
    rw [onClose, WsSession.onClose]
    dsimp only
    rw [setFailed_eq]
    exact .closed idle pending (ends_of_setFailed state.session ec.message)
  | none =>
    rw [onClose, WsSession.onClose]
    dsimp only
    split_ifs with finished
    · exact .closed idle pending ⟨finished, id, id⟩
    · exact .closed idle pending ⟨Bool.or_true _, id, fun _ => rfl⟩

theorem step_onReceiveDeadline {deadline : Deadline} {before after : List Deadline}
    (idle : state.handler = .idle) (armed : state.deadlines = before ++ deadline :: after) :
    Step state (.deadline before.length)
      ({ state with deadlines := before ++ after }.onReceiveDeadline deadline) := by
  cases parked : state.session.pendingReceive with
  | none =>
    have stale : state.session.onReceiveDeadline deadline.generation = (state.session, none) :=
      if_pos (by simp [parked])
    rw [onReceiveDeadline, stale]
    exact .deadlineStale idle armed
  | some callback =>
    by_cases current : state.session.receiveParkGeneration = deadline.generation
    · have expired : state.session.onReceiveDeadline deadline.generation =
          ({ state.session with pendingReceive := none }, some callback) := by
        simp [WsSession.onReceiveDeadline, parked, current]
      rw [onReceiveDeadline, expired]
      exact .deadlineExpired idle armed parked current
    · have stale : state.session.onReceiveDeadline deadline.generation = (state.session, none) :=
        if_pos (by simp [parked, current])
      rw [onReceiveDeadline, stale]
      exact .deadlineStale idle armed

end Handlers

section Machine

variable {state target : Connection Message Frame} {codec : Codec Message Frame} {wire : Wire}

theorem step_sendReserve {frame : Frame} (turn : state.sender = .waiting frame)
    (stepped : step codec wire state .sendReserve = some target) : Step state .sendReserve target := by
  simp only [step, turn, sendTurn] at stepped
  cases shut : state.session.sendClosed with
  | true =>
    simp only [shut, Bool.or_true, Bool.not_true, Bool.false_eq_true, ↓reduceIte] at stepped
    exact Option.some.inj stepped ▸ .sendRefused turn shut
  | false =>
    simp only [shut, Bool.or_false, Bool.false_eq_true, ↓reduceIte] at stepped
    split at stepped
    case isTrue => cases stepped
    case isFalse free =>
      simp only [Bool.not_eq_true', Bool.not_eq_false, Bool.and_eq_true, Option.isNone_iff_eq_none] at free
      exact Option.some.inj stepped ▸ .sendReserved turn shut free.1 free.2

/-- Every step of the machine is one of the list. -/
theorem step_spec {label : ConnectionLabel Message Frame}
    (stepped : step codec wire state label = some target) : Step state label target := by
  cases label with
  | send message =>
    rw [step] at stepped
    split at stepped
    · cases stepped
      exact .sendWait ‹_›
    · cases stepped
      exact .sendInvalid
    · cases stepped
  | sendReserve =>
    cases turn : state.sender with
    | waiting frame => exact step_sendReserve turn stepped
    | _ => simp [step, turn] at stepped
  | sendPost posts =>
    rw [step] at stepped
    split at stepped
    case h_1 turn =>
      cases posts with
      | true => exact Option.some.inj stepped ▸ .sendPosted turn
      | false => exact Option.some.inj stepped ▸ .sendUnposted turn
    case h_2 => cases stepped
  | sendReturn =>
    rw [step] at stepped
    split at stepped
    case h_1 turn =>
      split at stepped
      case isTrue finished => exact Option.some.inj stepped ▸ .sendReturned turn (by simpa using finished)
      case isFalse => cases stepped
    case h_2 => cases stepped
  | sendAsync message => exact Option.some.inj stepped ▸ step_startSendAsync codec wire message
  | sendAsyncPost call posts =>
    rw [step] at stepped
    cases present : state.sendPosting[call]? with
    | none => simp [present] at stepped
    | some frame =>
      obtain ⟨before, after, calls, rfl, rest⟩ := exists_split_of_getElem? present
      simp only [present, rest] at stepped
      cases posts with
      | true => exact Option.some.inj stepped ▸ .sendAsyncPosted calls
      | false => exact Option.some.inj stepped ▸ .sendAsyncUnposted calls
  | receive timed posts => exact Option.some.inj stepped ▸ step_startReceive timed posts
  | receiveWake receiver posts =>
    rw [step] at stepped
    split at stepped
    · split at stepped
      case isTrue settled => exact Option.some.inj stepped ▸ step_finishReceive rfl settled
      case isFalse => cases stepped
    · cases stepped
  | receiveTimeout receiver =>
    rw [step] at stepped
    split at stepped
    · split at stepped
      case isTrue late =>
        simp only [Bool.and_eq_true, Bool.not_eq_true'] at late
        exact Option.some.inj stepped ▸ step_finishReceive rfl late.2
      case isFalse => cases stepped
    · cases stepped
  | receiveAsync timeout posts arms =>
    exact Option.some.inj stepped ▸ step_startReceiveAsync timeout posts arms
  | receiveAsyncPost call posts =>
    rw [step] at stepped
    cases present : state.readyPosting[call]? with
    | none => simp [present] at stepped
    | some ready =>
      obtain ⟨callback, message⟩ := ready
      obtain ⟨before, after, calls, rfl, rest⟩ := exists_split_of_getElem? present
      simp only [present, rest] at stepped
      cases posts with
      | true => exact Option.some.inj stepped ▸ .receiveAsyncPosted calls
      | false => exact Option.some.inj stepped ▸ .receiveAsyncUnposted (.failed _) calls
  | close posts closes =>
    cases posts with
    | true => exact Option.some.inj stepped ▸ .closePosted rfl rfl
    | false => exact Option.some.inj stepped ▸ step_abort rfl
  | kick why posts closes =>
    rw [step] at stepped
    split at stepped
    · cases stepped
    cases posts with
    | true => exact Option.some.inj stepped ▸ .closePosted rfl rfl
    | false => exact Option.some.inj stepped ▸ step_abort rfl
  | abort reason closes => exact Option.some.inj stepped ▸ step_abort rfl
  | task index =>
    rw [step] at stepped
    split at stepped
    case h_1 idle present =>
      obtain ⟨before, after, queued, rfl, rest⟩ := exists_split_of_getElem? present
      rw [rest] at stepped
      exact Option.some.inj stepped ▸ step_runTask idle queued
    case h_2 => cases stepped
  | proceed => exact step_proceed stepped
  | onRead result =>
    rw [step] at stepped
    split at stepped
    case h_1 idle pending => exact Option.some.inj stepped ▸ step_onRead codec wire idle pending
    case h_2 => cases stepped
  | onWrite ec =>
    rw [step] at stepped
    split at stepped
    case h_1 idle pending => exact Option.some.inj stepped ▸ step_onWrite idle pending
    case h_2 => cases stepped
  | onClose ec =>
    rw [step] at stepped
    split at stepped
    case h_1 idle pending => exact Option.some.inj stepped ▸ step_onClose idle pending
    case h_2 => cases stepped
  | deadline index =>
    rw [step] at stepped
    split at stepped
    case h_1 idle present =>
      obtain ⟨before, after, armed, rfl, rest⟩ := exists_split_of_getElem? present
      rw [rest] at stepped
      exact Option.some.inj stepped ▸ step_onReceiveDeadline idle armed
    case h_2 => cases stepped
  | invoke index =>
    rw [step] at stepped
    split at stepped
    case h_1 present =>
      obtain ⟨before, after, due, rfl, rest⟩ := exists_split_of_getElem? present
      rw [rest] at stepped
      exact Option.some.inj stepped ▸ .called due
    case h_2 => cases stepped

end Machine

end Connection

end OpalCpp.Http

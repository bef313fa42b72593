import Mathlib.Algebra.GroupWithZero.Nat
import OpalCpp.Proofs.Http.WsSteps

/-! # The right to read and the right to write

The right to read is one token: it is with the pump, a posted re-arm, the outstanding read or the
pause, and no step makes a second one. The right to write is the reserved send slot: reserved by a
call, kept while the write is posted, started and outstanding, and released when the write ends.
`SlotMove` says what a step can do to it.
-/

namespace OpalCpp.Http

variable {Message Frame : Type*}

/-- The handler is in the pump, or about to start the read. -/
def Handler.reading : Handler Frame → ℕ
  | .pumpRead | .asyncRead => 1
  | _ => 0

def Handler.writing : Handler Frame → ℕ
  | .asyncWrite _ => 1
  | _ => 0

def Handler.closing : Handler Frame → ℕ
  | .asyncClose => 1
  | _ => 0

/-- The caller of `Send` has reserved the slot and not posted the write yet. -/
def Sender.reserving : Sender Frame → ℕ
  | .posting _ => 1
  | _ => 0

def Task.reading : Task Message Frame → ℕ
  | .pumpRead => 1
  | _ => 0

def Task.writing : Task Message Frame → ℕ
  | .startWrite _ => 1
  | _ => 0

theorem Task.reading_of_closing {task : Task Message Frame} (closing : task.closing = true) :
    task.reading = 0 := by
  cases task with
  | requestClose | kick => rfl
  | _ => cases closing

theorem Task.writing_of_closing {task : Task Message Frame} (closing : task.closing = true) :
    task.writing = 0 := by
  cases task with
  | requestClose | kick => rfl
  | _ => cases closing

namespace Connection

open WsSession

def readTokens (state : Connection Message Frame) : ℕ :=
  state.reads + state.handler.reading + (state.posted.map Task.reading).sum +
    state.session.readPaused.toNat

def writeTokens (state : Connection Message Frame) : ℕ :=
  state.sender.reserving + state.sendPosting.length + (state.posted.map Task.writing).sum +
    state.handler.writing + state.writes

/-- What a step does to the send slot. -/
inductive SlotMove (state target : Connection Message Frame) (label : ConnectionLabel Message Frame) : Prop
  | keep (tokens : writeTokens target = writeTokens state)
      (complete : target.session.writeComplete = state.session.writeComplete)
      (sender : target.sender.reserving ≤ state.sender.reserving)
      (pending : target.session.pendingSend = state.session.pendingSend ∨
        target.session.pendingSend = none ∧ target.session.terminal = true)
  | reserve (tokens : writeTokens target = writeTokens state + 1)
      (free : state.session.writeComplete = true) (alone : state.session.pendingSend = none)
      (taken : target.session.writeComplete = false)
      (caller : target.session.pendingSend = none ∨ target.sender = state.sender)
  | release (tokens : writeTokens target + 1 = writeTokens state)
      (complete : target.session.writeComplete = true) (pending : target.session.pendingSend = none)
  /-- `Send` could not post its write, and returns. -/
  | leak (unposted : label = .sendPost false) (tokens : writeTokens target + 1 = writeTokens state)
      (session : target.session = state.session) (sender : state.sender.reserving = 1)

section Steps

variable {state target : Connection Message Frame} {label : ConnectionLabel Message Frame}

/-- No step makes a second token to read with. -/
theorem readTokens_step (step : Step state label target) : readTokens target ≤ readTokens state := by
  unfold readTokens
  cases step with
  | sendPosted turn => simp [Task.reading]
  | sendAsyncPosted calls => simp [Task.reading]
  | receiveTook blocking free front rearm => cases rearm <;> simp [Task.reading, *]; omega
  | receiveAsyncReady free front rearm => cases rearm <;> simp [Task.reading, *]; omega
  | receiveAsyncPosted calls => simp [Task.reading]
  | closePosted ending closing => simp [Task.reading_of_closing closing]
  | @aborted label failed error reason closes ending ends =>
    cases closes <;> simp [conclude, ended, Task.reading]
  | writeRefused idle queued shut => simp [queued]
  | writeAdmitted idle queued opened => simp [queued, idle, Handler.reading]
  | closeIgnored idle queued closing => simp [queued, idle, Handler.reading]
  | closeDeferred idle queued closing unrequested live busy => simp [queued, idle, Handler.reading]
  | closeBegun idle queued closing unrequested live quiet => simp [queued, idle, Handler.reading]
  | socketClosed idle queued => simp [queued]
  | rearmed idle queued => simp [queued, idle, Task.reading, Handler.reading]; omega
  | completed idle queued => simp [queued]
  | pumpStopped running => simp [running, Handler.reading]
  | pumpPaused running full => simp [running, Handler.reading]; omega
  | pumpArmed running room => simp [running, Handler.reading]
  | readStarted running => simp [running, Handler.reading]
  | writeStarted running => simp [running, Handler.reading]
  | closeStarted running => simp [running, Handler.reading]
  | readClosed idle pending => simp [conclude, ended, pending]
  | readFailed idle pending ends => simp [conclude, ended, pending]
  | readSwallowed idle pending displaced => simp [pending]
  | delivered idle pending parked => simp [pending, idle, Handler.reading]
  | queued idle pending free => simp [pending, idle, Handler.reading]
  | violated idle pending ends taken => simp [conclude, ended, pending, idle, Handler.reading]
  | violatedClosing idle pending ends unstarted quiet =>
    simp [conclude, ended, pending, idle, Handler.reading]
  | wrote idle pending => simp [idle]
  | wroteClosing idle pending requested unstarted => simp [idle, Handler.reading]
  | writeFailed idle pending ends => simp [idle]
  | closed idle pending ends => simp [conclude, ended]
  | _ => exact Nat.le_refl _

theorem slotMove_of_step (step : Step state label target) : SlotMove state target label := by
  cases step with
  | sendWait free =>
    exact .keep (by simp [writeTokens, free, Sender.reserving]) rfl (by simp [free, Sender.reserving]) (.inl rfl)
  | sendRefused turn shut =>
    exact .keep (by simp [writeTokens, turn, Sender.reserving]) rfl (by simp [turn, Sender.reserving]) (.inl rfl)
  | sendReserved turn opened complete alone =>
    exact .reserve (by simp [writeTokens, turn, Sender.reserving]; omega) complete alone rfl (.inl alone)
  | sendPosted turn =>
    exact .keep (by simp [writeTokens, turn, Sender.reserving, Task.writing]; omega) rfl
      (by simp [turn, Sender.reserving]) (.inl rfl)
  | sendUnposted turn =>
    exact .leak rfl (by simp [writeTokens, turn, Sender.reserving]; omega) rfl (by rw [turn]; rfl)
  | sendReturned turn finished =>
    exact .keep (by simp [writeTokens, turn, Sender.reserving]) rfl (by simp [turn, Sender.reserving]) (.inl rfl)
  | sendAsyncReserved opened complete alone =>
    exact .reserve (by simp [writeTokens]; omega) complete alone rfl (.inr rfl)
  | sendAsyncPosted calls =>
    exact .keep (by simp [writeTokens, calls, Task.writing]; omega) rfl (Nat.le_refl _) (.inl rfl)
  | sendAsyncUnposted calls => exact .release (by simp [writeTokens, calls]; omega) rfl rfl
  | receiveTook blocking free front rearm =>
    exact .keep (by cases rearm <;> simp [writeTokens, Task.writing]) rfl (Nat.le_refl _) (.inl rfl)
  | receiveAsyncReady free front rearm =>
    exact .keep (by cases rearm <;> simp [writeTokens, Task.writing]) rfl (Nat.le_refl _) (.inl rfl)
  | receiveAsyncPosted calls =>
    exact .keep (by simp [writeTokens, Task.writing]) rfl (Nat.le_refl _) (.inl rfl)
  | closePosted ending closing =>
    exact .keep (by simp [writeTokens, Task.writing_of_closing closing]) rfl (Nat.le_refl _) (.inl rfl)
  | @aborted label failed error reason closes ending ends =>
    exact .keep (by cases closes <;> simp [writeTokens, conclude, Task.writing]) rfl (Nat.le_refl _)
      (.inr ⟨rfl, ends.finished⟩)
  | writeRefused idle queued shut =>
    exact .release (by simp [writeTokens, queued, Task.writing]; omega) rfl rfl
  | writeAdmitted idle queued opened =>
    exact .keep (by simp [writeTokens, queued, idle, Task.writing, Handler.writing]; omega) rfl
      (Nat.le_refl _) (.inl rfl)
  | closeIgnored idle queued closing =>
    exact .keep (by simp [writeTokens, queued, idle, Task.writing_of_closing closing]) rfl
      (Nat.le_refl _) (.inl rfl)
  | closeDeferred idle queued closing unrequested live busy =>
    exact .keep (by simp [writeTokens, queued, idle, Task.writing_of_closing closing]) rfl
      (Nat.le_refl _) (.inl rfl)
  | closeBegun idle queued closing unrequested live quiet =>
    exact .keep (by simp [writeTokens, queued, idle, Task.writing_of_closing closing, Handler.writing]) rfl
      (Nat.le_refl _) (.inl rfl)
  | socketClosed idle queued =>
    exact .keep (by simp [writeTokens, queued, Task.writing]) rfl (Nat.le_refl _) (.inl rfl)
  | rearmed idle queued =>
    exact .keep (by simp [writeTokens, queued, idle, Task.writing, Handler.writing]) rfl
      (Nat.le_refl _) (.inl rfl)
  | completed idle queued =>
    exact .keep (by simp [writeTokens, queued, Task.writing]) rfl (Nat.le_refl _) (.inl rfl)
  | pumpStopped running =>
    exact .keep (by simp [writeTokens, running, Handler.writing]) rfl (Nat.le_refl _) (.inl rfl)
  | pumpPaused running full =>
    exact .keep (by simp [writeTokens, running, Handler.writing]) rfl (Nat.le_refl _) (.inl rfl)
  | pumpArmed running room =>
    exact .keep (by simp [writeTokens, running, Handler.writing]) rfl (Nat.le_refl _) (.inl rfl)
  | readStarted running =>
    exact .keep (by simp [writeTokens, running, Handler.writing]) rfl (Nat.le_refl _) (.inl rfl)
  | writeStarted running =>
    exact .keep (by simp [writeTokens, running, Handler.writing]; omega) rfl (Nat.le_refl _) (.inl rfl)
  | closeStarted running =>
    exact .keep (by simp [writeTokens, running, Handler.writing]) rfl (Nat.le_refl _) (.inl rfl)
  | readClosed idle pending =>
    exact .keep rfl rfl (Nat.le_refl _) (.inr ⟨rfl, Bool.or_true _⟩)
  | readFailed idle pending ends => exact .keep rfl rfl (Nat.le_refl _) (.inr ⟨rfl, ends.finished⟩)
  | delivered idle pending parked =>
    exact .keep (by simp [writeTokens, idle, Handler.writing]) rfl (Nat.le_refl _) (.inl rfl)
  | queued idle pending free =>
    exact .keep (by simp [writeTokens, idle, Handler.writing]) rfl (Nat.le_refl _) (.inl rfl)
  | violated idle pending ends taken =>
    exact .keep (by simp [writeTokens, conclude, idle]) rfl (Nat.le_refl _) (.inr ⟨rfl, ends.finished⟩)
  | violatedClosing idle pending ends unstarted quiet =>
    exact .keep (by simp [writeTokens, conclude, idle, Handler.writing]) rfl (Nat.le_refl _)
      (.inr ⟨rfl, ends.finished⟩)
  | wrote idle pending => exact .release (by simp [writeTokens, pending, idle]; omega) rfl rfl
  | wroteClosing idle pending requested unstarted =>
    exact .release (by simp [writeTokens, pending, idle, Handler.writing]; omega) rfl rfl
  | writeFailed idle pending ends => exact .release (by simp [writeTokens, pending, idle]; omega) rfl rfl
  | closed idle pending ends => exact .keep rfl rfl (Nat.le_refl _) (.inr ⟨rfl, ends.finished⟩)
  | _ => exact .keep rfl rfl (Nat.le_refl _) (.inl rfl)

/-- A session that has ended stays so. -/
theorem terminal_step (step : Step state label target) (finished : state.session.terminal = true) :
    target.session.terminal = true := by
  cases step with
  | receiveTook blocking free front rearm => cases rearm <;> simp_all [terminal]
  | receiveAsyncReady free front rearm => cases rearm <;> simp_all [terminal]
  | aborted ending ends => exact ends.finished
  | readClosed idle pending => exact Bool.or_true _
  | readFailed idle pending ends => exact ends.finished
  | violated idle pending ends taken => exact ends.finished
  | violatedClosing idle pending ends unstarted quiet => exact ends.finished
  | writeFailed idle pending ends => exact ends.finished
  | closed idle pending ends => exact ends.finished
  | _ => exact finished

/-- A close once requested stays so. -/
theorem closeRequested_step (step : Step state label target)
    (requested : state.session.closeRequested = true) : target.session.closeRequested = true := by
  cases step with
  | closeDeferred | closeBegun | violated | violatedClosing => rfl
  | _ => exact requested

end Steps

end Connection

end OpalCpp.Http

import OpalCpp.Proofs.Http.WsTokens

/-! # One operation at a time on the wire

Beast allows one read and one write-class operation at a time. `WriteSide` is the write side of a
connection on its own: what the running handler is about to start, what is outstanding, and the
flags that decide. Its moves keep writes and the close apart, and every step of the connection is
such a move.

Once a close has been requested no write starts. A write that passed `StartWrite`'s check may still
start after another thread has ended the session; nothing else may.
-/

namespace OpalCpp.Http

variable {Message Frame : Type*}

/-- The write-class operation the running handler is about to start. -/
inductive Outgoing (Frame : Type*) where
  | nothing
  | write (frame : Frame)
  | close

def Outgoing.writing : Outgoing Frame → ℕ
  | .write _ => 1
  | _ => 0

def Outgoing.closing : Outgoing Frame → ℕ
  | .close => 1
  | _ => 0

structure WriteSide (Frame : Type*) where
  next : Outgoing Frame
  writes : ℕ
  closes : ℕ
  closesStarted : ℕ
  busy : Bool
  closeRequested : Bool
  closeStarted : Bool
  written : List Frame

namespace WriteSide

/-- What a step can do to the write side; `finished` says that the session had ended before it. -/
inductive Move (finished : Bool) (side : WriteSide Frame) : WriteSide Frame → Prop
  | keep : Move finished side side
  | accept {frame : Frame} (live : finished = false) (idle : side.next = .nothing) (alone : side.writes = 0)
      (opened : side.closeRequested = false) :
      Move finished side { side with next := .write frame, busy := true }
  | write {frame : Frame} (running : side.next = .write frame) :
      Move finished side
        { side with next := .nothing, writes := side.writes + 1, written := side.written ++ [frame] }
  | wrote (idle : side.next = .nothing) (pending : side.writes = 1) :
      Move finished side { side with next := .nothing, writes := 0, busy := false }
  | wroteClosing (idle : side.next = .nothing) (pending : side.writes = 1)
      (requested : side.closeRequested = true) (unstarted : side.closeStarted = false) :
      Move finished side { side with next := .close, writes := 0, busy := false, closeStarted := true }
  | request (idle : side.next = .nothing) :
      Move finished side { side with next := .nothing, closeRequested := true }
  | begin (idle : side.next = .nothing) (quiet : side.busy = false) (unstarted : side.closeStarted = false) :
      Move finished side { side with next := .close, closeRequested := true, closeStarted := true }
  | close (running : side.next = .close) :
      Move finished side
        { side with
          next := .nothing, closes := side.closes + 1, closesStarted := side.closesStarted + 1 }
  | closed {closes : ℕ} (pending : side.closes = closes + 1) : Move finished side { side with closes }

/-- What keeps the write-class operations apart. -/
structure Exclusive (side : WriteSide Frame) : Prop where
  busy : side.busy.toNat = side.next.writing + side.writes
  started : side.closesStarted + side.next.closing = side.closeStarted.toNat
  closes : side.closes ≤ side.closesStarted
  requested : side.closeStarted = true → side.closeRequested = true
  quiet : side.closeStarted = true → side.busy = false
  /-- Only handlers request a close, so no request comes between a write's check and its start. -/
  unrequested : side.next.writing = 1 → side.closeRequested = false

variable {finished : Bool} {side next : WriteSide Frame}

theorem Exclusive.move (exclusive : Exclusive side) (move : Move finished side next) : Exclusive next := by
  obtain ⟨busy, started, closes, requested, quiet, unrequested⟩ := exclusive
  cases move with
  | keep => exact ⟨busy, started, closes, requested, quiet, unrequested⟩
  | accept live idle alone opened =>
    simp only [idle, Outgoing.closing] at started
    have unstarted : side.closeStarted ≠ true := by
      intro begun
      rw [requested begun] at opened
      cases opened
    exact ⟨by simp [alone, Outgoing.writing], started, closes, requested,
      fun begun => absurd begun unstarted, fun _ => opened⟩
  | write running =>
    simp only [running, Outgoing.writing, Outgoing.closing] at busy started
    exact ⟨by simp only [busy, Outgoing.writing]; omega, started, closes, requested, quiet, nofun⟩
  | wrote idle pending =>
    rw [idle] at started
    exact ⟨rfl, started, closes, requested, fun _ => rfl, nofun⟩
  | wroteClosing idle pending asked unstarted =>
    simp only [idle, unstarted, Outgoing.closing, Bool.toNat_false] at started
    refine ⟨rfl, ?_, closes, fun _ => asked, fun _ => rfl, nofun⟩
    simp only [Outgoing.closing, Bool.toNat_true]
    omega
  | request idle =>
    rw [idle] at busy started
    exact ⟨busy, started, closes, fun _ => rfl, quiet, nofun⟩
  | begin idle free unstarted =>
    simp only [idle, unstarted, Outgoing.closing, Bool.toNat_false] at started
    refine ⟨?_, ?_, closes, fun _ => rfl, fun _ => free, nofun⟩
    · simpa [idle, Outgoing.writing] using busy
    · simp only [Outgoing.closing, Bool.toNat_true]
      omega
  | close running =>
    simp only [running, Outgoing.writing, Outgoing.closing] at busy started
    exact ⟨busy, started, Nat.succ_le_succ closes, requested, quiet, nofun⟩
  | closed pending => exact ⟨busy, started, by dsimp only; omega, requested, quiet, unrequested⟩

/-- At most one write-class operation is outstanding, and the close is started at most once. -/
theorem Exclusive.bounds (exclusive : Exclusive side) :
    side.writes + side.closes ≤ 1 ∧ side.closesStarted ≤ 1 := by
  have busy := exclusive.busy
  have started := exclusive.started
  have closes := exclusive.closes
  have wide := Bool.toNat_le side.busy
  cases begun : side.closeStarted with
  | true =>
    simp only [exclusive.quiet begun, begun, Bool.toNat_false, Bool.toNat_true] at busy started
    omega
  | false =>
    simp only [begun, Bool.toNat_false] at started
    omega

/-- Once a close has been requested no write starts. -/
theorem Move.written_of_requested (move : Move finished side next) (exclusive : Exclusive side)
    (requested : side.closeRequested = true) : next.written = side.written := by
  cases move with
  | write running =>
    have free := exclusive.unrequested (by rw [running]; rfl)
    rw [requested] at free
    cases free
  | _ => rfl

/-- All that a session that had ended by `base` can still have started: the write it had admitted. -/
def Late (base side : WriteSide Frame) : Prop :=
  (side.next = base.next ∧ side.written = base.written) ∨
  (side.next.writing = 0 ∧ (side.written = base.written ∨
    ∃ frame, base.next = .write frame ∧ side.written = base.written ++ [frame]))

theorem Late.written {base : WriteSide Frame} (late : Late base side) :
    side.written = base.written ∨
      ∃ frame, base.next = .write frame ∧ side.written = base.written ++ [frame] := by
  obtain ⟨_, written⟩ | ⟨_, written⟩ := late
  · exact .inl written
  · exact written

theorem Late.move {base : WriteSide Frame} (late : Late base side) (move : Move true side next) :
    Late base next := by
  cases move with
  | keep => exact late
  | accept live => cases live
  | write running =>
    refine .inr ⟨rfl, .inr ?_⟩
    obtain ⟨same, written⟩ | ⟨silent, _⟩ := late
    · exact ⟨_, same ▸ running, by rw [written]⟩
    · simp [running, Outgoing.writing] at silent
  | wrote | wroteClosing | request | begin | close => exact .inr ⟨rfl, late.written⟩
  | closed => exact late

end WriteSide

def Handler.outgoing : Handler Frame → Outgoing Frame
  | .asyncWrite frame => .write frame
  | .asyncClose => .close
  | _ => .nothing

theorem Handler.eq_asyncWrite {handler : Handler Frame} {frame : Frame}
    (outgoing : handler.outgoing = .write frame) : handler = .asyncWrite frame := by
  cases handler with
  | asyncWrite other =>
    cases outgoing
    rfl
  | _ => cases outgoing

namespace Connection

open WsSession

/-- The write side of a connection. -/
def writeSide (state : Connection Message Frame) : WriteSide Frame where
  next := state.handler.outgoing
  writes := state.writes
  closes := state.closes
  closesStarted := state.closesStarted
  busy := state.session.wireWriteBusy
  closeRequested := state.session.closeRequested
  closeStarted := state.session.closeStarted
  written := state.written

section Steps

variable {state target : Connection Message Frame} {label : ConnectionLabel Message Frame}

/-- The slot allows one write: where one is posted, none is outstanding. -/
theorem writes_eq_zero (slot : writeTokens state ≤ 1) {frame : Frame}
    {before after : List (Task Message Frame)} (queued : state.posted = before ++ .startWrite frame :: after) :
    state.writes = 0 := by
  simp only [writeTokens, queued, List.map_append, List.map_cons, List.sum_append, List.sum_cons,
    Task.writing] at slot
  omega

/-- The slot allows one write: an outstanding one is the only one. -/
theorem writes_eq_one (slot : writeTokens state ≤ 1) {writes : ℕ} (pending : state.writes = writes + 1) :
    writes = 0 := by
  simp only [writeTokens, pending] at slot
  omega

private theorem move_keep {finished : Bool} (same : target.writeSide = state.writeSide) :
    WriteSide.Move finished state.writeSide target.writeSide :=
  same ▸ .keep

/-- Every step of the connection is a move of its write side. -/
theorem writeSide_move (slot : writeTokens state ≤ 1)
    (requested : state.session.closeStarted = true → state.session.closeRequested = true)
    (step : Step state label target) :
    WriteSide.Move state.session.terminal state.writeSide target.writeSide := by
  have next {handler : Handler Frame} (running : state.handler = handler) :
      state.writeSide.next = handler.outgoing := congrArg Handler.outgoing running
  cases step with
  | writeAdmitted idle queued opened =>
    obtain ⟨live, unrequested⟩ := sendClosed_eq_false.mp opened
    exact .accept live (next idle) (writes_eq_zero slot queued) unrequested
  | closeIgnored idle queued closing => exact move_keep (by simp [writeSide, idle])
  | closeDeferred idle queued closing unrequested live busy => exact .request (next idle)
  | closeBegun idle queued closing unrequested live quiet =>
    refine .begin (next idle) quiet (Bool.eq_false_iff.mpr fun begun => ?_)
    rw [requested begun] at unrequested
    cases unrequested
  | rearmed idle queued => exact move_keep (by simp [writeSide, idle, Handler.outgoing])
  | pumpStopped running => exact move_keep (by simp [writeSide, running, Handler.outgoing])
  | pumpPaused running full => exact move_keep (by simp [writeSide, running, Handler.outgoing])
  | pumpArmed running room => exact move_keep (by simp [writeSide, running, Handler.outgoing])
  | readStarted running => exact move_keep (by simp [writeSide, running, Handler.outgoing])
  | writeStarted running => exact .write (next running)
  | closeStarted running => exact .close (next running)
  | delivered idle pending parked => exact move_keep (by simp [writeSide, idle, Handler.outgoing])
  | queued idle pending free => exact move_keep (by simp [writeSide, idle, Handler.outgoing])
  | violated idle pending ends taken => exact .request (next idle)
  | violatedClosing idle pending ends unstarted quiet => exact .begin (next idle) quiet unstarted
  | wrote idle pending =>
    obtain rfl := writes_eq_one slot pending
    exact .wrote (next idle) pending
  | wroteClosing idle pending asked unstarted =>
    obtain rfl := writes_eq_one slot pending
    exact .wroteClosing (next idle) pending asked unstarted
  | writeFailed idle pending ends =>
    obtain rfl := writes_eq_one slot pending
    exact .wrote (next idle) pending
  | closed idle pending ends => exact .closed pending
  | _ => exact .keep

end Steps

/-- What every state a connection reaches has of the wire. -/
structure OneOperation (state : Connection Message Frame) : Prop where
  read : readTokens state ≤ 1
  /-- Whoever may write holds the slot. -/
  write : writeTokens state ≤ (!state.session.writeComplete).toNat
  exclusive : state.writeSide.Exclusive

section Runs

variable {state target : Connection Message Frame} {label : ConnectionLabel Message Frame}

theorem OneOperation.slot (inv : OneOperation state) : writeTokens state ≤ 1 :=
  Nat.le_trans inv.write (Bool.toNat_le _)

theorem OneOperation.move (inv : OneOperation state) (step : Step state label target) :
    WriteSide.Move state.session.terminal state.writeSide target.writeSide :=
  writeSide_move inv.slot inv.exclusive.requested step

private theorem write_step (inv : OneOperation state) (step : Step state label target) :
    writeTokens target ≤ (!target.session.writeComplete).toNat := by
  have held := inv.write
  cases slotMove_of_step step with
  | keep tokens complete sender pending => rwa [tokens, complete]
  | reserve tokens free alone taken caller =>
    rw [free] at held
    rw [tokens, taken]
    exact Nat.succ_le_succ held
  | release tokens complete pending =>
    have slot := inv.slot
    omega
  | leak unposted tokens session sender =>
    rw [session]
    omega

theorem OneOperation.step (inv : OneOperation state) (step : Step state label target) :
    OneOperation target where
  read := Nat.le_trans (readTokens_step step) inv.read
  write := write_step inv step
  exclusive := inv.exclusive.move (inv.move step)

theorem oneOperation_start : OneOperation ({} : Connection Message Frame) where
  read := Nat.le_refl _
  write := Nat.le_refl _
  exclusive := ⟨rfl, rfl, Nat.le_refl _, nofun, nofun, nofun⟩

variable {codec : Codec Message Frame} {wire : Wire}

theorem oneOperation_of_run {labels : List (ConnectionLabel Message Frame)}
    (reached : (machine codec wire).run {} labels = some state) : OneOperation state :=
  (machine codec wire).invariant_of_run OneOperation
    (fun _ _ _ inv stepped => inv.step (step_spec stepped)) oneOperation_start reached

theorem written_of_requested {later : List (ConnectionLabel Message Frame)} (inv : OneOperation state)
    (requested : state.session.closeRequested = true)
    (ran : (machine codec wire).run state later = some target) : target.written = state.written := by
  let invariant (passed : Connection Message Frame) : Prop :=
    OneOperation passed ∧ passed.session.closeRequested = true ∧ passed.written = state.written
  have kept : invariant target := by
    apply (machine codec wire).invariant_of_run invariant ?_ ⟨inv, requested, rfl⟩ ran
    rintro source label next ⟨apart, asked, written⟩ stepped
    have step := step_spec stepped
    refine ⟨apart.step step, closeRequested_step step asked, ?_⟩
    exact ((apart.move step).written_of_requested apart.exclusive asked).trans written
  exact kept.2.2

theorem late_of_run {later : List (ConnectionLabel Message Frame)} (inv : OneOperation state)
    (finished : state.session.terminal = true) (ran : (machine codec wire).run state later = some target) :
    WriteSide.Late state.writeSide target.writeSide := by
  let invariant (passed : Connection Message Frame) : Prop :=
    OneOperation passed ∧ passed.session.terminal = true ∧
      WriteSide.Late state.writeSide passed.writeSide
  have kept : invariant target := by
    apply (machine codec wire).invariant_of_run invariant ?_ ⟨inv, finished, .inl ⟨rfl, rfl⟩⟩ ran
    rintro source label next ⟨apart, ended, late⟩ stepped
    have step := step_spec stepped
    exact ⟨apart.step step, terminal_step step ended, late.move (ended ▸ apart.move step)⟩
  exact kept.2.2

/-- In every reachable state at most one read is outstanding, a posted re-arm included, and at most
one write-class operation; the close is started at most once. From a state where a close has been
requested no write ever starts, and from one where the session has ended only the write that had
passed its check before. -/
theorem one_operation_on_the_wire {labels : List (ConnectionLabel Message Frame)}
    (reached : (machine codec wire).run {} labels = some state) :
    state.reads + (state.posted.map Task.reading).sum ≤ 1 ∧ state.writes + state.closes ≤ 1 ∧
      state.closesStarted ≤ 1 ∧
      ∀ later target, (machine codec wire).run state later = some target →
        (state.session.closeRequested = true → target.written = state.written) ∧
        (state.session.terminal = true → target.written = state.written ∨
          ∃ frame, state.handler = .asyncWrite frame ∧ target.written = state.written ++ [frame]) := by
  have inv := oneOperation_of_run reached
  have read := inv.read
  obtain ⟨outstanding, once⟩ := inv.exclusive.bounds
  refine ⟨?_, outstanding, once, ?_⟩
  · unfold readTokens at read
    omega
  intro later target ran
  constructor
  · exact fun requested => written_of_requested inv requested ran
  · intro finished
    obtain written | ⟨frame, admitted, written⟩ := (late_of_run inv finished ran).written
    · exact .inl written
    · exact .inr ⟨frame, Handler.eq_asyncWrite admitted, written⟩

end Runs

/-- A `Send` passes `StartWrite`'s check, and another thread aborts before the write starts. -/
def abortedAdmission : List (ConnectionLabel ℕ ℕ) :=
  [.proceed, .proceed, .send 7, .sendReserve, .sendPost true, .task 0, .abort "stopping" true]

theorem one_operation_on_the_wire_aborted :
    ∃ state, (machine Codec.plain .rawText).run {} abortedAdmission = some state ∧
      (state.reads = 1 ∧ state.handler = .asyncWrite 7 ∧ state.session.terminal = true) ∧
      state.writes + state.closes ≤ 1 ∧
      ∀ later target, (machine Codec.plain .rawText).run state later = some target →
        target.written = state.written ∨
          ∃ frame, state.handler = .asyncWrite frame ∧ target.written = state.written ++ [frame] := by
  refine ⟨_, (Option.some_get (by decide)).symm, by decide, ?_⟩
  obtain ⟨_, outstanding, _, starts⟩ := one_operation_on_the_wire (Option.some_get _).symm
  exact ⟨outstanding, fun later target ran => (starts later target ran).2 (by decide)⟩

/-- The write starts in a session that has ended. -/
theorem write_starts_after_abort :
    ∃ state target, (machine Codec.plain .rawText).run {} abortedAdmission = some state ∧
      (state.session.closeRequested = true ∨ state.session.terminal = true) ∧
      (machine Codec.plain .rawText).run state [.proceed] = some target ∧
      state.written = [] ∧ target.written = [7] := by
  exact ⟨_, _, (Option.some_get (by decide)).symm, by decide, (Option.some_get (by decide)).symm,
    by decide, by decide⟩

end Connection

end OpalCpp.Http

import Mathlib.Data.List.Nodup
import Mathlib.Data.List.Perm.Basic
import OpalCpp.Proofs.Http.WsWire

/-! # The send slot

A reserved slot belongs to a write on its way: about to be posted, posted, or on the wire. The one
step that breaks this is a `Send` whose post fails: it returns without giving the slot back, where
`SendAsync` does give it back. The runs in which no live session meets that failure are exactly the
runs in which the slot is free whenever no write is on its way.
-/

namespace OpalCpp.Http.Connection

open WsSession

variable {Message Frame : Type*}

/-- Where no write is on its way, a live session takes the next send. -/
def SlotFree (state : Connection Message Frame) : Prop :=
  state.session.terminal = false → writeTokens state = 0 →
    state.session.writeComplete = true ∧ state.session.pendingSend = none

/-- A parked send has its write on the way. -/
def SendBacked (state : Connection Message Frame) : Prop :=
  state.session.pendingSend.isSome = true →
    state.session.writeComplete = false ∧ state.sender.reserving = 0 ∧ writeTokens state = 1

/-- A live session has reserved its slot for a write on the way. -/
def SlotBacked (state : Connection Message Frame) : Prop :=
  state.session.terminal = false → state.session.writeComplete = false → writeTokens state = 1

/-- A `Send` in a live session cannot post its write. -/
def SendUnposted (state : Connection Message Frame) (label : ConnectionLabel Message Frame) : Prop :=
  label = .sendPost false ∧ state.session.terminal = false

instance [DecidableEq Message] [DecidableEq Frame] (state : Connection Message Frame)
    (label : ConnectionLabel Message Frame) : Decidable (SendUnposted state label) :=
  inferInstanceAs (Decidable (_ ∧ _))

section Steps

variable {state target : Connection Message Frame} {label : ConnectionLabel Message Frame}

/-- A free slot has no write on its way. -/
theorem OneOperation.tokens_eq_zero (inv : OneOperation state)
    (free : state.session.writeComplete = true) : writeTokens state = 0 := by
  have held := inv.write
  rw [free] at held
  exact Nat.le_zero.mp held

theorem SendBacked.step (inv : OneOperation state) (backed : SendBacked state)
    (step : Step state label target) : SendBacked target := by
  intro parked
  cases slotMove_of_step step with
  | keep tokens complete sender pending =>
    obtain same | ⟨gone, _⟩ := pending
    · rw [same] at parked
      obtain ⟨reserved, posted, one⟩ := backed parked
      exact ⟨complete.trans reserved, by omega, tokens.trans one⟩
    · rw [gone] at parked
      cases parked
  | reserve tokens free alone taken caller =>
    have none := inv.tokens_eq_zero free
    obtain gone | same := caller
    · rw [gone] at parked
      cases parked
    · refine ⟨taken, ?_, by omega⟩
      rw [same]
      unfold writeTokens at none
      omega
  | release tokens complete pending =>
    rw [pending] at parked
    cases parked
  | leak unposted tokens session sender =>
    rw [session] at parked
    have posted := (backed parked).2.1
    omega

/-- A live session was live before the step. -/
theorem live_before (step : Step state label target) (live : target.session.terminal = false) :
    state.session.terminal = false := by
  by_contra finished
  rw [terminal_step step (by simpa using finished)] at live
  cases live

theorem SlotBacked.step (inv : OneOperation state) (backed : SlotBacked state)
    (posts : ¬ SendUnposted state label) (step : Step state label target) : SlotBacked target := by
  intro live reserved
  have before := live_before step live
  cases slotMove_of_step step with
  | keep tokens complete sender pending => exact tokens.trans (backed before (complete ▸ reserved))
  | reserve tokens free alone taken caller => rw [tokens, inv.tokens_eq_zero free]
  | release tokens complete pending =>
    rw [complete] at reserved
    cases reserved
  | leak unposted tokens session sender => exact absurd ⟨unposted, before⟩ posts

theorem slotFree_of_backed (send : SendBacked state) (slot : SlotBacked state) : SlotFree state := by
  intro live none
  have free : state.session.writeComplete = true := by
    by_contra reserved
    have one := slot live (by simpa using reserved)
    omega
  refine ⟨free, ?_⟩
  by_contra parked
  have reserved := (send (Option.isSome_iff_ne_none.mpr parked)).1
  rw [free] at reserved
  cases reserved

/-- The failed post leaves the slot reserved with no write on its way. -/
theorem not_slotFree_of_unposted (inv : OneOperation state) (unposted : SendUnposted state label)
    (step : Step state label target) : ¬ SlotFree target := by
  obtain ⟨rfl, live⟩ := unposted
  have held := inv.write
  intro free
  cases step with
  | sendUnposted turn =>
    simp only [writeTokens, turn, Sender.reserving] at held
    have none : writeTokens { state with sender := .idle } = 0 := by
      have bound := Bool.toNat_le (!state.session.writeComplete)
      simp only [writeTokens, Sender.reserving]
      omega
    have complete := (free live none).1
    simp only at complete
    rw [complete, Bool.not_true, Bool.toNat_false] at held
    omega
  | receiveTook blocking | receiveNothing report counted blocking => cases blocking
  | closePosted ending | aborted ending => cases ending

end Steps

variable {codec : Codec Message Frame} {wire : Wire}

/-- Exactly the runs in which no `Send` of a live session fails to post have the slot free in every
state with no write on its way. -/
theorem send_slot_free_iff {labels : List (ConnectionLabel Message Frame)}
    {state : Connection Message Frame} (reached : (machine codec wire).run {} labels = some state) :
    (machine codec wire).Throughout SlotFree {} labels ↔
      (machine codec wire).Along (fun state label => ¬ SendUnposted state label) {} labels := by
  apply (machine codec wire).throughout_iff_along
    (fun state => OneOperation state ∧ SendBacked state ∧ SlotBacked state) ?_ ?_ ?_
    ⟨oneOperation_start, nofun, nofun⟩ reached
  · rintro source label target ⟨inv, send, slot⟩ posts stepped
    have step := step_spec stepped
    exact ⟨inv.step step, send.step inv step, slot.step inv posts step⟩
  · rintro source ⟨_, send, slot⟩
    exact slotFree_of_backed send slot
  · rintro source label target ⟨inv, _, _⟩ stepped free unposted
    exact not_slotFree_of_unposted inv unposted (step_spec stepped) free

/-- A `SendAsync` that cannot post its write, then a `Send` that is written: the slot is given back
each time. -/
theorem send_slot_free_iff_refused :
    (machine Codec.plain .rawText).Throughout SlotFree {}
      [.proceed, .proceed, .sendAsync 3, .sendAsyncPost 0 false, .invoke 0, .send 7, .sendReserve,
        .sendPost true, .task 0, .proceed, .onWrite none, .sendReturn] := by
  rw [send_slot_free_iff (Option.some_get (by decide)).symm]
  decide

/-- A `Send` that cannot post its write keeps the slot: with nothing on its way to the wire the
session refuses every later send, or makes it wait. -/
theorem send_slot_kept_after_failed_post :
    ∃ state, (machine Codec.plain .rawText).run {} [.send 7, .sendReserve, .sendPost false] = some state ∧
      ¬ SlotFree state ∧ state.session.sendTurn = false := by
  refine ⟨_, (Option.some_get (by decide)).symm, fun free => ?_, by decide⟩
  have complete := (free (by decide) (by decide)).1
  revert complete
  decide

end OpalCpp.Http.Connection

/-! ## Asynchronous completions

Every callback passed to `SendAsync` or `ReceiveAsync` is in one place at a time: parked, on its way
through a posted completion, taken and about to be called, or called. So none is called twice.

A terminal transition calls what is parked. The failure of a write is the one that leaves a parked
receive to the outstanding read; where that read has already been swallowed as displaced by our own
close, or has not started, nobody calls it any more. Without that, a session that has ended and has
nothing outstanding has no callback parked.
-/

namespace OpalCpp.Http

variable {Message Frame : Type*}

/-- The callback a posted task is going to call. -/
def Task.callbacks : Task Message Frame → List ℕ
  | .completeReceive callback _ => [callback]
  | _ => []

theorem Task.callbacks_of_closing {task : Task Message Frame} (closing : task.closing = true) :
    task.callbacks = [] := by
  cases task with
  | requestClose | kick => rfl
  | _ => cases closing

namespace Connection

open WsSession

/-- Every callback, wherever it is. -/
def callbacks (state : Connection Message Frame) : List ℕ :=
  state.invoked.map Prod.fst ++ state.firing.map Prod.fst ++ state.session.pendingSend.toList ++
    state.session.pendingReceive.toList ++ state.readyPosting.map Prod.fst ++
    state.posted.flatMap Task.callbacks

/-- Nothing is outstanding on the wire or posted, no handler is running and no call is about to post. -/
structure Quiescent (state : Connection Message Frame) : Prop where
  reads : state.reads = 0
  writes : state.writes = 0
  closes : state.closes = 0
  posted : state.posted = []
  handler : state.handler = .idle
  sends : state.sendPosting = []
  receives : state.readyPosting = []

/-- The steps that leave a parked receive to nobody: a write fails while no read is outstanding, or
the read is swallowed as displaced by our own close after a write has failed. -/
def strands (state : Connection Message Frame) : ConnectionLabel Message Frame → Bool
  | .onWrite (some _) => state.session.pendingReceive.isSome && state.reads == 0
  | .onRead (.error ec) =>
    state.session.displaced ec && state.session.failed && state.session.pendingReceive.isSome
  | _ => false

/-- Who will call a parked receive once the session has ended. -/
structure Settling (state : Connection Message Frame) : Prop where
  closed : state.session.peerClosed = true → state.session.pendingReceive = none
  failed : state.session.failed = true → state.session.pendingReceive.isSome = true → 0 < state.reads

section Steps

variable {state target : Connection Message Frame} {label : ConnectionLabel Message Frame}

/-- The waiters a terminal transition takes are the ones it is about to call. -/
theorem map_fst_completeAsyncWaiters (session : WsSession Message) (clean : Bool) (reason : String) :
    (completeAsyncWaiters (waiters session) clean reason : List (ℕ × Report Message)).map Prod.fst =
      session.pendingSend.toList ++ session.pendingReceive.toList := by
  simp [completeAsyncWaiters, waiters, Function.comp_def]

/-- Callbacks are only moved about, as their numbers in each place show. -/
theorem perm_callbacks {extra : List ℕ}
    (counts : ∀ callback, target.callbacks.count callback =
      state.callbacks.count callback + extra.count callback) :
    target.callbacks.Perm (state.callbacks ++ extra) := by
  apply List.perm_iff_count.mpr
  intro callback
  rw [counts, List.count_append]

theorem callbacks_conclude {clean : Bool} {reason : String}
    (invoked : target.invoked = state.invoked)
    (firing : target.firing = state.firing ++ completeAsyncWaiters (waiters state.session) clean reason)
    (send : target.session.pendingSend = none) (receive : target.session.pendingReceive = none)
    (ready : target.readyPosting = state.readyPosting)
    (posted : target.posted.flatMap Task.callbacks = state.posted.flatMap Task.callbacks) :
    target.callbacks.Perm state.callbacks := by
  apply List.perm_iff_count.mpr
  intro callback
  simp only [callbacks, invoked, firing, send, receive, ready, posted, List.map_append,
    map_fst_completeAsyncWaiters, List.count_append, Option.toList_none, List.count_nil]
  omega

/-- A step moves callbacks from place to place, and a call passes in one more. -/
theorem callbacks_step (step : Step state label target) :
    (target.passed = state.passed ∧ target.callbacks.Perm state.callbacks) ∨
      (target.passed = state.passed + 1 ∧ target.callbacks.Perm (state.callbacks ++ [state.passed])) := by
  cases step with
  | sendPosted turn => exact .inl ⟨rfl, by simp [callbacks, Task.callbacks]⟩
  | sendAsyncRefused | receiveAsyncRefused | receiveAsyncImmediate =>
    refine .inr ⟨rfl, perm_callbacks fun callback => ?_⟩
    simp only [callbacks, List.map_append, List.map_cons, List.map_nil, List.count_append]
    omega
  | sendAsyncReserved opened complete alone =>
    refine .inr ⟨rfl, perm_callbacks fun callback => ?_⟩
    simp only [callbacks, alone, Option.toList_none, Option.toList_some, List.count_append, List.count_nil]
    omega
  | sendAsyncPosted calls => exact .inl ⟨rfl, by simp [callbacks, Task.callbacks]⟩
  | sendAsyncUnposted calls =>
    refine .inl ⟨rfl, List.perm_iff_count.mpr fun callback => ?_⟩
    simp [callbacks, Function.comp_def]
  | receiveTook blocking free front rearm =>
    exact .inl ⟨rfl, by cases rearm <;> simp [callbacks, Task.callbacks]⟩
  | receiveAsyncReady free front rearm =>
    refine .inr ⟨rfl, perm_callbacks fun callback => ?_⟩
    cases rearm <;> simp [callbacks, Task.callbacks, List.count_cons] <;> omega
  | receiveAsyncUnscheduled report free empty =>
    refine .inr ⟨rfl, perm_callbacks fun callback => ?_⟩
    simp only [callbacks, free, List.map_append, List.map_cons, List.map_nil, List.count_append]
    omega
  | receiveAsyncParked timed free empty live =>
    refine .inr ⟨rfl, perm_callbacks fun callback => ?_⟩
    simp only [callbacks, free, Option.toList_none, Option.toList_some, List.count_append, List.count_nil]
    omega
  | receiveAsyncPosted calls =>
    refine .inl ⟨rfl, List.perm_iff_count.mpr fun callback => ?_⟩
    simp [callbacks, calls, Task.callbacks, List.count_cons]
    omega
  | receiveAsyncUnposted report calls =>
    refine .inl ⟨rfl, List.perm_iff_count.mpr fun callback => ?_⟩
    simp [callbacks, calls, List.count_cons]
    omega
  | closePosted ending closing =>
    exact .inl ⟨rfl, by simp [callbacks, Task.callbacks_of_closing closing]⟩
  | @aborted label failed error reason closes ending ends =>
    refine .inl ⟨rfl, callbacks_conclude rfl rfl rfl rfl rfl ?_⟩
    cases closes <;> simp [Task.callbacks]
  | writeRefused idle queued shut =>
    refine .inl ⟨rfl, List.perm_iff_count.mpr fun callback => ?_⟩
    simp [callbacks, queued, Task.callbacks, Function.comp_def]
  | writeAdmitted idle queued opened => exact .inl ⟨rfl, by simp [callbacks, queued, Task.callbacks]⟩
  | closeIgnored idle queued closing | closeDeferred idle queued closing
  | closeBegun idle queued closing =>
    exact .inl ⟨rfl, by simp [callbacks, queued, Task.callbacks_of_closing closing]⟩
  | socketClosed idle queued => exact .inl ⟨rfl, by simp [callbacks, queued, Task.callbacks]⟩
  | rearmed idle queued => exact .inl ⟨rfl, by simp [callbacks, queued, Task.callbacks]⟩
  | completed idle queued =>
    refine .inl ⟨rfl, List.perm_iff_count.mpr fun callback => ?_⟩
    simp [callbacks, queued, Task.callbacks, List.count_cons]
    omega
  | readClosed | readFailed | violated | violatedClosing | closed =>
    exact .inl ⟨rfl, callbacks_conclude rfl rfl rfl rfl rfl rfl⟩
  | delivered idle pending parked =>
    refine .inl ⟨rfl, List.perm_iff_count.mpr fun callback => ?_⟩
    simp [callbacks, parked, List.count_cons]
    omega
  | wrote | wroteClosing | writeFailed =>
    refine .inl ⟨rfl, List.perm_iff_count.mpr fun callback => ?_⟩
    simp [callbacks, Function.comp_def]
  | deadlineExpired idle armed parked current =>
    refine .inl ⟨rfl, List.perm_iff_count.mpr fun callback => ?_⟩
    simp [callbacks, parked, List.count_cons]
    omega
  | called due =>
    refine .inl ⟨rfl, List.perm_iff_count.mpr fun callback => ?_⟩
    simp [callbacks, due, List.count_cons]
    omega
  | _ => exact .inl ⟨rfl, .refl _⟩

/-- Every callback passed in is in one place. -/
theorem ledger_step (ledger : state.callbacks.Perm (List.range state.passed))
    (step : Step state label target) : target.callbacks.Perm (List.range target.passed) := by
  obtain ⟨passed, moved⟩ | ⟨passed, moved⟩ := callbacks_step step
  · rw [passed]
    exact moved.trans ledger
  · rw [passed, List.range_succ]
    exact moved.trans (ledger.append_right _)

theorem Settling.step (settling : Settling state) (called : state.strands label = false)
    (step : Step state label target) : Settling target := by
  obtain ⟨closed, failed⟩ := settling
  cases step with
  | receiveTook blocking free front rearm | receiveAsyncReady free front rearm =>
    refine ⟨fun _ => free, fun _ parked => ?_⟩
    rw [free] at parked
    cases parked
  | receiveAsyncUnscheduled => exact ⟨fun _ => rfl, nofun⟩
  | receiveAsyncParked timed free empty live =>
    obtain ⟨working, unclosed⟩ := terminal_eq_false.mp live
    constructor
    · intro finished
      exact absurd (unclosed.symm.trans finished) nofun
    · intro finished
      exact absurd (working.symm.trans finished) nofun
  | aborted | readClosed | readFailed | violated | violatedClosing | closed | deadlineExpired
  | delivered => exact ⟨fun _ => rfl, nofun⟩
  | readStarted running => exact ⟨closed, fun _ _ => Nat.succ_pos _⟩
  | readSwallowed idle pending displaced =>
    refine ⟨closed, fun finished parked => ?_⟩
    rw [strands, displaced, finished, parked] at called
    cases called
  | queued idle pending free =>
    refine ⟨closed, fun _ parked => ?_⟩
    rw [free] at parked
    cases parked
  | writeFailed idle pending ends =>
    refine ⟨closed, fun _ parked => Nat.pos_of_ne_zero fun none => ?_⟩
    rw [strands, parked, none] at called
    cases called
  | _ => exact ⟨closed, failed⟩

/-- A session that has ended and has nothing outstanding has called, or is about to call, all it was
passed. -/
theorem settled_of_quiescent (ledger : state.callbacks.Perm (List.range state.passed))
    (backed : SendBacked state) (settling : Settling state) (finished : state.session.terminal = true)
    (quiet : Quiescent state) : state.session.pendingSend = none ∧ state.session.pendingReceive = none ∧
      ((state.invoked ++ state.firing).map Prod.fst).Perm (List.range state.passed) := by
  have send : state.session.pendingSend = none := by
    by_contra parked
    obtain ⟨_, posted, one⟩ := backed (Option.isSome_iff_ne_none.mpr parked)
    simp [writeTokens, posted, quiet.sends, quiet.posted, quiet.handler, quiet.writes,
      Handler.writing] at one
  have receive : state.session.pendingReceive = none := by
    obtain failed | closed := terminal_eq_true.mp finished
    · by_contra parked
      have reading := settling.failed failed (Option.isSome_iff_ne_none.mpr parked)
      rw [quiet.reads] at reading
      cases reading
    · exact settling.closed closed
  refine ⟨send, receive, ?_⟩
  simpa [callbacks, send, receive, quiet.posted, quiet.receives] using ledger

end Steps

theorem settling_start : Settling ({} : Connection Message Frame) := ⟨nofun, nofun⟩

section Runs

variable {codec : Codec Message Frame} {wire : Wire} {labels : List (ConnectionLabel Message Frame)}
  {state : Connection Message Frame}

theorem ledger_of_run (reached : (machine codec wire).run {} labels = some state) :
    state.callbacks.Perm (List.range state.passed) :=
  (machine codec wire).invariant_of_run (fun passed => passed.callbacks.Perm (List.range passed.passed))
    (fun _ _ _ ledger stepped => ledger_step ledger (step_spec stepped)) (.refl _) reached

theorem sendBacked_of_run (reached : (machine codec wire).run {} labels = some state) :
    SendBacked state := by
  let invariant (passed : Connection Message Frame) : Prop := OneOperation passed ∧ SendBacked passed
  have kept : invariant state := by
    apply (machine codec wire).invariant_of_run invariant ?_ ⟨oneOperation_start, nofun⟩ reached
    rintro source label target ⟨inv, backed⟩ stepped
    have step := step_spec stepped
    exact ⟨inv.step step, backed.step inv step⟩
  exact kept.2

/-- In every run no callback is called twice. In one that leaves no parked receive to nobody, a
session that has ended and has nothing outstanding has no callback parked, and has called or is
about to call each callback it was ever passed. -/
theorem completions_fire_once (reached : (machine codec wire).run {} labels = some state)
    (called : (machine codec wire).Along (fun state label => state.strands label = false) {} labels) :
    (state.invoked.map Prod.fst).Nodup ∧
      (state.session.terminal = true → Quiescent state →
        state.session.pendingSend = none ∧ state.session.pendingReceive = none ∧
          ((state.invoked ++ state.firing).map Prod.fst).Perm (List.range state.passed)) := by
  have ledger := ledger_of_run reached
  constructor
  · have distinct : state.callbacks.Nodup := ledger.nodup_iff.mpr (List.nodup_range ..)
    simp only [callbacks, List.append_assoc] at distinct
    exact distinct.of_append_left
  · intro finished quiet
    have settling : Settling state :=
      (machine codec wire).invariant_of_along Settling
        (fun _ _ _ settling called stepped => settling.step called (step_spec stepped))
        settling_start called reached
    exact settled_of_quiescent ledger (sendBacked_of_run reached) settling finished quiet

end Runs

/-- The peer closes while a receive is parked and a send is on the wire. -/
def peerCloses : List (ConnectionLabel ℕ ℕ) :=
  [.proceed, .proceed, .receiveAsync none true true, .sendAsync 7, .sendAsyncPost 0 true, .task 0,
    .proceed, .onRead (.closed {}), .onWrite (some ⟨false, "broken pipe"⟩), .invoke 0, .invoke 0]

theorem completions_fire_once_peer_closes :
    ∃ state, (machine Codec.plain .rawText).run {} peerCloses = some state ∧
      (state.session.terminal = true ∧ state.firing = [] ∧ state.passed = 2) ∧
      (state.invoked.map Prod.fst).Nodup ∧ (state.invoked.map Prod.fst).Perm [0, 1] := by
  refine ⟨_, (Option.some_get (by decide)).symm, by decide, ?_⟩
  have called : (machine Codec.plain .rawText).Along (fun state label => state.strands label = false) {}
      peerCloses := by decide
  obtain ⟨once, settled⟩ := completions_fire_once (Option.some_get (by decide)).symm called
  refine ⟨once, ?_⟩
  exact (settled (by decide) ⟨by decide, by decide, by decide, by decide, by decide, by decide, by decide⟩).2.2

/-- `Close` finds a write on the wire and cancels it: the aborted read is swallowed, the aborted write
fails the session, and nothing that is left calls the parked receive. -/
theorem parked_receive_never_called :
    ∃ state, (machine Codec.plain .rawText).run {}
        [.proceed, .proceed, .receiveAsync none true true, .send 7, .sendReserve, .sendPost true, .task 0,
          .proceed, .close true true, .task 0, .onRead (.error ⟨true, "Operation canceled"⟩),
          .onWrite (some ⟨true, "Operation canceled"⟩), .sendReturn] = some state ∧
      state.session.terminal = true ∧ Quiescent state ∧ state.session.pendingReceive = some 0 ∧
      state.invoked = [] ∧ state.firing = [] := by
  refine ⟨_, (Option.some_get (by decide)).symm, by decide, ?_, by decide⟩
  exact ⟨by decide, by decide, by decide, by decide, by decide, by decide, by decide⟩

end Connection

end OpalCpp.Http

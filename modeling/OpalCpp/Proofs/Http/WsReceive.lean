import OpalCpp.Proofs.Http.WsWire
import Mathlib.Data.Nat.ModEq

/-! # Received messages: none lost, none twice, none out of order

A parked receive takes the next message off the wire, so the queue is empty while one is parked.
The pump starts a read only where the queue has room for what it brings. The messages handed out,
in the order the lock was held, and those still queued are the messages decoded.

A receive that gets no message found none, or found one parked before it, or was refused because a
blocking receive was outstanding. A deadline ends no park of another generation.
-/

namespace OpalCpp.Http

variable {Message Frame : Type*}

/-- A receive told so had no message to get, or was not the only one outstanding. -/
def Verdict.Fair (verdict : Verdict Message) : Prop :=
  verdict.received = [] ∨ verdict.parked = true ∨
    (verdict.report = .failed Connection.alreadyOutstanding ∧ 0 < verdict.blocked)

/-- A ready completion cannot be posted. -/
def ConnectionLabel.readyUnposted : ConnectionLabel Message Frame → Bool
  | .receiveAsyncPost _ false => true
  | _ => false

namespace Connection

open WsSession

structure Queueing (state : Connection Message Frame) : Prop where
  parked : state.session.pendingReceive.isSome = true → state.session.received = []
  /-- A read on its way has room in the queue. -/
  room : 0 < state.reads ∨ state.handler = .asyncRead →
    state.session.received.length < kReceiveQueueDepth
  bounded : state.session.received.length ≤ kReceiveQueueDepth
  conserved : state.handed ++ state.session.received = state.decoded

/-- The generation counts the parks, and every deadline carries that of its own park. -/
structure Parking (state : Connection Message Frame) : Prop where
  generation : state.session.receiveParkGeneration = UInt64.ofNat state.parks
  deadlines : ∀ deadline ∈ state.deadlines,
    deadline.generation = UInt64.ofNat deadline.park ∧ deadline.park ≤ state.parks
  timedOut : ∀ armed completed, (armed, completed) ∈ state.timedOut →
    UInt64.ofNat armed = UInt64.ofNat completed ∧ armed ≤ state.parks ∧ completed ≤ state.parks

theorem kReceiveQueueDepth_pos : 0 < kReceiveQueueDepth := by decide

section Steps

variable {state target : Connection Message Frame} {label : ConnectionLabel Message Frame}

theorem fair_judge {verdicts : List (Verdict Message)} (session : WsSession Message)
    (report : Received Message) (fair : ∀ verdict ∈ verdicts, verdict.Fair)
    (new : Verdict.Fair
      ⟨report, session.received, session.pendingReceive.isSome, session.blockedReceivers⟩) :
    ∀ verdict ∈ judge verdicts session report, verdict.Fair := by
  cases report with
  | message message => exact fair
  | ended | failed =>
    rintro verdict member
    obtain old | last := List.mem_append.mp member
    · exact fair verdict old
    · exact List.mem_singleton.mp last ▸ new

/-- The verdict of a terminal transition is about the receive it found parked. -/
theorem fair_conclude {clean : Bool} {reason : String}
    (fair : ∀ verdict ∈ state.verdicts, verdict.Fair) :
    ∀ verdict ∈ (state.conclude state.session (waiters state.session) clean reason).verdicts,
      verdict.Fair := by
  unfold conclude waiters
  cases parked : state.session.pendingReceive with
  | none => exact fair
  | some callback => exact fair_judge _ _ fair (.inr (.inl (by simp [parked])))

theorem fair_step (fair : ∀ verdict ∈ state.verdicts, verdict.Fair) (posts : label.readyUnposted = false)
    (step : Step state label target) : ∀ verdict ∈ target.verdicts, verdict.Fair := by
  cases step with
  | receiveNothing report counted blocking nothing =>
    exact fair_judge { state.session with blockedReceivers := counted } report fair (nothing.imp id .inl)
  | receiveAsyncRefused outstanding =>
    exact fair_judge state.session (.failed alreadyOutstanding) fair
      (.inr (outstanding.imp id fun blocked => ⟨rfl, blocked⟩))
  | receiveAsyncImmediate report free empty | receiveAsyncUnscheduled report free empty =>
    exact fair_judge state.session report fair (.inl empty)
  | receiveAsyncUnposted report calls => cases posts
  | aborted | readClosed | readFailed | violated | violatedClosing | closed => exact fair_conclude fair
  | deadlineExpired idle armed parked current =>
    exact fair_judge state.session (.failed receiveTimedOut) fair (.inr (.inl (by simp [parked])))
  | _ => exact fair

/-- What a step does to the messages. -/
inductive QueueMove (state target : Connection Message Frame) : Prop
  | keep (received : target.session.received = state.session.received)
      (handed : target.handed = state.handed) (decoded : target.decoded = state.decoded)
      (parked : target.session.pendingReceive.isSome = true →
        state.session.pendingReceive.isSome = true ∨ state.session.received = [])
  | pop {message : Message} (front : state.session.received = message :: target.session.received)
      (handed : target.handed = state.handed ++ [message]) (decoded : target.decoded = state.decoded)
      (free : target.session.pendingReceive = none)
  | push {message : Message} {reads : ℕ} (pending : state.reads = reads + 1)
      (rest : target.reads = reads) (pump : target.handler = .pumpRead)
      (received : target.session.received = state.session.received ++ [message])
      (handed : target.handed = state.handed) (decoded : target.decoded = state.decoded ++ [message])
      (free : target.session.pendingReceive = none)
  | hand {message : Message} (parked : state.session.pendingReceive.isSome = true)
      (received : target.session.received = state.session.received)
      (handed : target.handed = state.handed ++ [message])
      (decoded : target.decoded = state.decoded ++ [message])
      (free : target.session.pendingReceive = none)

theorem queueMove_of_step (step : Step state label target) : QueueMove state target := by
  cases step with
  | receiveTook blocking free front rearm | receiveAsyncReady free front rearm =>
    exact .pop front rfl rfl free
  | receiveAsyncParked timed free empty live => exact .keep rfl rfl rfl fun _ => .inr empty
  | receiveAsyncUnscheduled report free empty => exact .keep rfl rfl rfl nofun
  | aborted | readClosed | readFailed | violated | violatedClosing | closed =>
    exact .keep rfl rfl rfl nofun
  | delivered idle pending parked => exact .hand (by simp [parked]) rfl rfl rfl rfl
  | queued idle pending free => exact .push pending rfl rfl rfl rfl rfl free
  | deadlineExpired idle armed parked current => exact .keep rfl rfl rfl nofun
  | _ => exact .keep rfl rfl rfl .inl

/-- A read on its way was so before the step, or the pump has found room for it. -/
theorem reading_step (step : Step state label target)
    (reading : 0 < target.reads ∨ target.handler = .asyncRead) :
    (0 < state.reads ∨ state.handler = .asyncRead) ∨
      target.session.received.length < kReceiveQueueDepth := by
  cases step with
  | pumpArmed running room => exact .inr room
  | readStarted running => exact .inl (.inr running)
  | writeAdmitted | closeIgnored | closeDeferred | closeBegun | rearmed | pumpStopped | pumpPaused
  | writeStarted | closeStarted | wrote | wroteClosing | writeFailed =>
    exact .inl (reading.imp_right nofun)
  | readClosed idle pending | readFailed idle pending | readSwallowed idle pending
  | delivered idle pending | queued idle pending | violated idle pending
  | violatedClosing idle pending => exact .inl (.inl (by omega))
  | _ => exact .inl reading

theorem Queueing.step (inv : OneOperation state) (queueing : Queueing state)
    (step : Step state label target) : Queueing target := by
  obtain ⟨parked, room, bounded, conserved⟩ := queueing
  have reading := reading_step step
  cases queueMove_of_step step with
  | keep received handed decoded waiting =>
    refine ⟨?_, ?_, ?_, ?_⟩
    · intro holds
      rw [received]
      exact (waiting holds).elim parked id
    · intro starts
      obtain before | space := reading starts
      · rw [received]
        exact room before
      · exact space
    · rwa [received]
    · rw [received, handed, decoded, conserved]
  | pop front handed decoded free =>
    rw [front] at room bounded conserved
    refine ⟨?_, ?_, ?_, ?_⟩
    · intro waiting
      rw [free] at waiting
      cases waiting
    · exact fun starts => (reading starts).elim (fun before => Nat.lt_of_succ_lt (room before)) id
    · exact Nat.le_of_succ_le bounded
    · rw [handed, decoded, ← conserved, List.append_assoc, List.singleton_append]
  | push pending rest pump received handed decoded free =>
    have token := inv.read
    unfold readTokens at token
    have space := room (.inl (by omega))
    refine ⟨?_, ?_, ?_, ?_⟩
    · intro waiting
      rw [free] at waiting
      cases waiting
    · rintro (starts | starts)
      · omega
      · rw [pump] at starts
        cases starts
    · rw [received, List.length_append]
      exact space
    · rw [received, handed, decoded, ← List.append_assoc, conserved]
  | hand waiting received handed decoded free =>
    have empty := parked waiting
    rw [empty, List.append_nil] at conserved
    refine ⟨?_, ?_, ?_, ?_⟩
    · intro holds
      rw [received, empty]
    · intro _
      rw [received, empty]
      exact kReceiveQueueDepth_pos
    · rw [received, empty]
      exact Nat.zero_le _
    · rw [received, empty, List.append_nil, handed, decoded, conserved]

/-- A park moves the generation on; the deadlines of the parks before it stay as they are. -/
theorem Parking.park (parking : Parking state)
    (generation : target.session.receiveParkGeneration = state.session.receiveParkGeneration + 1)
    (parks : target.parks = state.parks + 1)
    (deadlines : ∀ deadline ∈ target.deadlines, deadline ∈ state.deadlines ∨
      deadline = ⟨state.session.receiveParkGeneration + 1, state.parks + 1⟩)
    (timedOut : target.timedOut = state.timedOut) : Parking target := by
  have next : state.session.receiveParkGeneration + 1 = UInt64.ofNat (state.parks + 1) := by
    rw [parking.generation, UInt64.ofNat_add]
    rfl
  refine ⟨by rw [generation, next, parks], ?_, ?_⟩
  · intro deadline member
    rw [parks]
    obtain old | rfl := deadlines deadline member
    · obtain ⟨own, bound⟩ := parking.deadlines deadline old
      exact ⟨own, Nat.le_succ_of_le bound⟩
    · exact ⟨next, Nat.le_refl _⟩
  · intro armed completed member
    rw [timedOut] at member
    rw [parks]
    obtain ⟨same, first, second⟩ := parking.timedOut armed completed member
    exact ⟨same, Nat.le_succ_of_le first, Nat.le_succ_of_le second⟩

theorem Parking.step (parking : Parking state) (step : Step state label target) : Parking target := by
  cases step with
  | receiveAsyncUnscheduled report free empty => exact parking.park rfl rfl (fun _ => .inl) rfl
  | receiveAsyncParked timed free empty live =>
    refine parking.park rfl rfl ?_ rfl
    intro deadline member
    cases timed with
    | true => exact (List.mem_append.mp member).imp_right List.mem_singleton.mp
    | false => exact .inl member
  | deadlineStale idle armed =>
    obtain ⟨generation, deadlines, timedOut⟩ := parking
    refine ⟨generation, fun deadline member => deadlines deadline ?_, timedOut⟩
    rw [armed]
    exact List.mem_append.mpr ((List.mem_append.mp member).imp_right (List.mem_cons_of_mem _))
  | deadlineExpired idle armed parked current =>
    obtain ⟨generation, deadlines, timedOut⟩ := parking
    refine ⟨generation, fun deadline member => deadlines deadline ?_, fun first second member => ?_⟩
    · rw [armed]
      exact List.mem_append.mpr ((List.mem_append.mp member).imp_right (List.mem_cons_of_mem _))
    · obtain old | new := List.mem_append.mp member
      · exact timedOut first second old
      · obtain ⟨rfl, rfl⟩ := Prod.mk.inj (List.mem_singleton.mp new)
        obtain ⟨own, bound⟩ := deadlines _ (by rw [armed]; exact List.mem_append_right _ (List.mem_cons_self ..))
        exact ⟨own.symm.trans (current.symm.trans generation), bound, Nat.le_refl _⟩
  | _ => exact ⟨parking.generation, parking.deadlines, parking.timedOut⟩

end Steps

theorem queueing_start : Queueing ({} : Connection Message Frame) :=
  ⟨nofun, fun _ => kReceiveQueueDepth_pos, Nat.zero_le _, rfl⟩

theorem parking_start : Parking ({} : Connection Message Frame) := ⟨rfl, nofun, nofun⟩

section Runs

variable {codec : Codec Message Frame} {wire : Wire} {labels : List (ConnectionLabel Message Frame)}
  {state : Connection Message Frame}

theorem queueing_of_run (reached : (machine codec wire).run {} labels = some state) : Queueing state := by
  let invariant (passed : Connection Message Frame) : Prop := OneOperation passed ∧ Queueing passed
  have kept : invariant state := by
    apply (machine codec wire).invariant_of_run invariant ?_ ⟨oneOperation_start, queueing_start⟩ reached
    rintro source label target ⟨inv, queueing⟩ stepped
    have step := step_spec stepped
    exact ⟨inv.step step, queueing.step inv step⟩
  exact kept.2

theorem parking_of_run (reached : (machine codec wire).run {} labels = some state) : Parking state :=
  (machine codec wire).invariant_of_run Parking (fun _ _ _ parking stepped => parking.step (step_spec stepped))
    parking_start reached

/-- In every run a parked receive means an empty queue, the queue is bounded, the messages handed out and then those
queued are the messages decoded, and a deadline ends no park of another generation; and where the ready completions are
posted, every receive that got none was told so fairly. -/
theorem received_in_order (reached : (machine codec wire).run {} labels = some state) :
    (state.session.pendingReceive.isSome = true → state.session.received = []) ∧
      state.session.received.length ≤ kReceiveQueueDepth ∧
      state.handed ++ state.session.received = state.decoded ∧
      ((machine codec wire).Along (fun _ label => label.readyUnposted = false) {} labels →
        ∀ verdict ∈ state.verdicts, verdict.received = [] ∨ verdict.parked = true ∨
          (verdict.report = .failed alreadyOutstanding ∧ 0 < verdict.blocked)) ∧
      ∀ armed completed, (armed, completed) ∈ state.timedOut →
        armed ≡ completed [MOD 2 ^ 64] ∧ (state.parks < 2 ^ 64 → armed = completed) := by
  have queueing := queueing_of_run reached
  have fair (posts : (machine codec wire).Along (fun _ label => label.readyUnposted = false) {} labels) :
      ∀ verdict ∈ state.verdicts, verdict.Fair :=
    (machine codec wire).invariant_of_along (fun passed => ∀ verdict ∈ passed.verdicts, verdict.Fair)
      (fun _ _ _ fair posts stepped => fair_step fair posts (step_spec stepped))
      (List.forall_mem_nil _) posts reached
  refine ⟨queueing.parked, queueing.bounded, queueing.conserved, fair, ?_⟩
  intro armed completed member
  obtain ⟨same, first, second⟩ := (parking_of_run reached).timedOut armed completed member
  have congruent : armed ≡ completed [MOD 2 ^ 64] := by
    simpa [Nat.ModEq] using congrArg UInt64.toNat same
  refine ⟨congruent, fun small => ?_⟩
  exact congruent.eq_of_lt_of_lt (by omega) (by omega)

end Runs

/-- A timed receive gets its message before its deadline; the next timed park outlives that stale
deadline and ends with its own. -/
def staleDeadline : List (ConnectionLabel ℕ ℕ) :=
  [.proceed, .proceed, .receiveAsync (some 50) true true, .onRead (.message false 5), .proceed, .proceed,
    .onRead (.message false 6), .proceed, .proceed, .receiveAsync none true true,
    .receiveAsyncPost 0 true, .receiveAsync (some 50) true true, .deadline 0, .deadline 0]

theorem received_in_order_stale_deadline :
    ∃ state, (machine Codec.plain .rawText).run {} staleDeadline = some state ∧
      (state.handed = [5, 6] ∧ state.timedOut = [(2, 2)]) ∧
      state.handed ++ state.session.received = state.decoded ∧
      (∀ verdict ∈ state.verdicts, verdict.received = [] ∨ verdict.parked = true ∨
        (verdict.report = .failed alreadyOutstanding ∧ 0 < verdict.blocked)) ∧
      ∀ armed completed, (armed, completed) ∈ state.timedOut → armed ≡ completed [MOD 2 ^ 64] := by
  have shown : ((machine Codec.plain .rawText).run {} staleDeadline).map (fun state => (state.handed, state.timedOut)) =
      some ([5, 6], [(2, 2)]) := by decide
  obtain ⟨state, reached, told⟩ := Option.map_eq_some_iff.mp shown
  have posts : (machine Codec.plain .rawText).Along (fun _ label => label.readyUnposted = false) {}
      staleDeadline := by decide
  obtain ⟨-, -, conserved, fair, deadlines⟩ := received_in_order reached
  exact ⟨state, reached, Prod.mk.inj told, conserved, fair posts,
    fun armed completed member => (deadlines armed completed member).1⟩

/-- A blocking receive is about to take the message that woke it; the `ReceiveAsync` that comes in
between is refused with that message in the queue and no receive parked. -/
theorem refused_beside_a_message :
    ∃ state, (machine Codec.plain .rawText).run {}
        [.proceed, .proceed, .receive false true, .onRead (.message false 5),
          .receiveAsync none true true] = some state ∧
      ∃ verdict ∈ state.verdicts, verdict.received = [5] ∧ verdict.parked = false :=
  ⟨_, (Option.some_get (by decide)).symm, by decide⟩

end Connection

end OpalCpp.Http

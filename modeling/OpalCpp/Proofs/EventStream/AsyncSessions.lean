import OpalCpp.Model.EventStream.AsyncEventStream
import OpalCpp.Proofs.Http.WsCompletions

/-! # Every await is answered once

The flag of an awaitable is exchanged twice, by `await_suspend` and by the callback, so one of the two finds it
set and goes on with the coroutine. The connection calls a callback once, so there are no more exchanges, and
nobody is in the frame when the coroutine goes on in it.
-/

namespace OpalCpp.EventStream

open Http (Codec Connection ConnectionLabel Report Wire)

variable {Message Frame : Type*}

/-- The coroutine is in its body, or at its end. -/
def Control.atRest : Control → Bool
  | .running _ | .finished => true
  | .suspending _ | .suspended => false

namespace AsyncSession

/-- The flag is that of `await_suspend`, which sets it when it suspends the coroutine. -/
def Alone (session : AsyncSession Message Frame) : Prop :=
  match session.control with
  | .suspending _ => session.arrived = false
  | .suspended => session.arrived = true
  | .running _ | .finished => False

/-- Where an await is. -/
inductive Phase (session : AsyncSession Message Frame) : Prop
  | rest (rests : session.control.atRest = true) (none : session.callback = none) (idle : session.completion = .idle)
  | passed {callback : ℕ} (alone : session.Alone) (awaits : session.callback = some callback)
      (idle : session.completion = .idle) (owed : callback ∉ session.connection.invoked.map Prod.fst)
  | storing {callback thread : ℕ} {report : Report Message} (alone : session.Alone)
      (awaits : session.callback = some callback) (called : session.completion = .storing thread report)
      (invoked : (callback, report) ∈ session.connection.invoked)
  | arriving {callback thread : ℕ} (alone : session.Alone) (awaits : session.callback = some callback)
      (called : session.completion = .arriving thread) (invoked : (callback, session.result) ∈ session.connection.invoked)
  /-- The callback was first. -/
  | arrived {callback thread : ℕ} (suspending : session.control = .suspending thread) (first : session.arrived = true)
      (awaits : session.callback = some callback) (idle : session.completion = .idle)
      (invoked : (callback, session.result) ∈ session.connection.invoked)

/-- The callbacks that the coroutine has passed. -/
def passed (session : AsyncSession Message Frame) : List ℕ := session.answered.map Prod.fst ++ session.callback.toList

/-- The callbacks that the coroutine has passed, and what they were called with. -/
structure Books (session : AsyncSession Message Frame) : Prop where
  ledger : session.connection.callbacks.Perm (List.range session.connection.passed)
  ordered : session.passed.Pairwise (· < ·)
  known : ∀ callback ∈ session.passed, callback < session.connection.passed
  answered : ∀ answer ∈ session.answered, answer ∈ session.connection.invoked
  replies : (session.answered.map Prod.snd).Sublist session.replies

structure Rendezvous (session : AsyncSession Message Frame) : Prop where
  books : Books session
  phase : Phase session

section Steps

variable {codec : Codec Message Frame} {wire : Wire} {coroutine : Coroutine Message}
    {connection target : Connection Message Frame}
  {session next : AsyncSession Message Frame} {label : AsyncLabel Message Frame}

/-- A step of the connection calls nothing, or the callback whose turn it is. -/
theorem invoked_step {label : ConnectionLabel Message Frame} (stepped : connection.step codec wire label = some target) :
    (target.invoked = connection.invoked ∧ connection.passed ≤ target.passed) ∨
      ∃ index call, label = .invoke index ∧ connection.firing[index]? = some call ∧
        target.invoked = connection.invoked ++ [call] ∧ target.passed = connection.passed := by
  cases Connection.step_spec stepped with
  | @called call before after due => exact .inr ⟨_, call, rfl, by simp [due], rfl, rfl⟩
  | _ => exact .inl ⟨rfl, by simp [Connection.conclude]⟩

/-- A callback that is passed is the next one, and is not called at once. -/
theorem passing_step {label : ConnectionLabel Message Frame} (stepped : connection.step codec wire label = some target)
    (passes : (∃ message, label = .sendAsync message) ∨ ∃ timeout posts arms, label = .receiveAsync timeout posts arms) :
    target.invoked = connection.invoked ∧ target.passed = connection.passed + 1 := by
  obtain ⟨message, rfl⟩ | ⟨timeout, posts, arms, rfl⟩ := passes
  · cases Connection.step_spec stepped with
    | sendAsyncRefused | sendAsyncReserved => exact ⟨rfl, rfl⟩
    | receiveTook blocking | receiveNothing _ _ blocking => cases blocking
    | closePosted ending | aborted ending => cases ending
  · cases Connection.step_spec stepped with
    | receiveTook blocking | receiveNothing _ _ blocking => cases blocking
    | closePosted ending | aborted ending => cases ending
    | _ => exact ⟨rfl, rfl⟩

/-- A callback that was called is none of those that the connection still has. -/
theorem invoked_apart (ledger : connection.callbacks.Perm (List.range connection.passed)) {callback : ℕ}
    (called : callback ∈ connection.invoked.map Prod.fst) :
    callback < connection.passed ∧ callback ∉ connection.firing.map Prod.fst := by
  have once : connection.callbacks.Nodup := ledger.nodup_iff.mpr (List.nodup_range ..)
  have known : callback ∈ connection.callbacks := by
    simp only [Connection.callbacks, List.append_assoc]
    exact List.mem_append_left _ called
  refine ⟨List.mem_range.mp (ledger.mem_iff.mp known), fun due => ?_⟩
  simp only [Connection.callbacks, List.append_assoc] at once
  exact (List.nodup_append.mp once).2.2 callback called callback (List.mem_append_left _ due) rfl

/-- The connection moves, and nothing is called. -/
theorem Rendezvous.connect (kept : Rendezvous session)
    (ledger : target.callbacks.Perm (List.range target.passed)) (invoked : target.invoked = session.connection.invoked)
    (more : session.connection.passed ≤ target.passed) : Rendezvous { session with connection := target } := by
  obtain ⟨⟨_, ordered, known, answered, replies⟩, phase⟩ := kept
  refine ⟨⟨ledger, ordered, fun callback mine => Nat.lt_of_lt_of_le (known callback mine) more, ?_, replies⟩, ?_⟩
  · exact fun answer member => invoked ▸ answered answer member
  · cases phase with
    | rest rests none idle => exact .rest rests none idle
    | passed alone awaits idle owed => exact .passed alone awaits idle (invoked ▸ owed)
    | storing alone awaits called was => exact .storing alone awaits called (invoked ▸ was)
    | arriving alone awaits called was => exact .arriving alone awaits called (invoked ▸ was)
    | arrived suspending first awaits idle was => exact .arrived suspending first awaits idle (invoked ▸ was)

/-- A coroutine in its body awaits nothing. -/
theorem Phase.of_atRest (phase : Phase session) (rests : session.control.atRest = true) :
    session.callback = none ∧ session.completion = .idle := by
  have noAwait : ¬ session.Alone := by
    intro alone
    cases control : session.control with
    | running | finished =>
      rw [Alone, control] at alone
      exact alone
    | suspending | suspended =>
      rw [control] at rests
      cases rests
  cases phase with
  | rest _ none idle => exact ⟨none, idle⟩
  | passed alone | storing alone | arriving alone => exact absurd alone noAwait
  | arrived suspending =>
    rw [suspending] at rests
    cases rests

theorem Rendezvous.await (kept : Rendezvous session) (rests : session.control.atRest = true)
    (ledger : target.callbacks.Perm (List.range target.passed))
    (moved : target.invoked = session.connection.invoked ∧ target.passed = session.connection.passed + 1) (thread : ℕ)
    (placeholder : Report Message) : Rendezvous (session.await thread placeholder target) := by
  obtain ⟨none, idle⟩ := kept.phase.of_atRest rests
  have passed : (session.await thread placeholder target).passed = session.passed ++ [session.connection.passed] := by
    simp [AsyncSession.passed, AsyncSession.await, none]
  obtain ⟨before, ordered, known, answered, replies⟩ := kept.books
  refine ⟨⟨ledger, ?_, ?_, fun answer member => moved.1 ▸ answered answer member, replies⟩, ?_⟩
  · rw [passed, List.pairwise_append]
    refine ⟨ordered, List.pairwise_singleton _ _, fun callback mine other new => ?_⟩
    rw [List.mem_singleton.mp new]
    exact known callback mine
  · rw [passed]
    intro callback member
    change callback < target.passed
    rw [moved.2]
    obtain mine | new := List.mem_append.mp member
    · exact Nat.lt_succ_of_lt (known callback mine)
    · rw [List.mem_singleton.mp new]
      exact Nat.lt_succ_self _
  · refine @Phase.passed _ _ _ session.connection.passed rfl rfl idle fun called => ?_
    change _ ∈ target.invoked.map Prod.fst at called
    rw [moved.1] at called
    exact Nat.lt_irrefl _ (invoked_apart before called).1

/-- Whoever comes second goes on with what the callback was called with. -/
theorem Books.resume (books : Books session) {callback : ℕ} (awaits : session.callback = some callback)
    (idle : session.completion = .idle) (invoked : (callback, session.result) ∈ session.connection.invoked) (thread : ℕ) :
    Rendezvous (session.resume thread) := by
  have passed : (session.resume thread).passed = session.passed := by
    simp [AsyncSession.passed, AsyncSession.resume, awaits]
  refine ⟨⟨books.ledger, passed ▸ books.ordered, passed ▸ books.known, ?_, ?_⟩, .rest rfl rfl idle⟩
  · intro answer member
    obtain old | new := List.mem_append.mp member
    · exact books.answered answer old
    · rw [awaits] at new
      rw [List.mem_singleton.mp new]
      exact invoked
  · change ((session.answered ++ session.callback.toList.map (·, session.result)).map Prod.snd).Sublist
      (session.replies ++ [session.result])
    rw [awaits, List.map_append]
    exact books.replies.append (.refl _)

theorem Rendezvous.step (kept : Rendezvous session) (stepped : session.step codec wire coroutine label = some next) :
    Rendezvous next := by
  cases label with
  | connection label =>
    rw [AsyncSession.step] at stepped
    split_ifs at stepped with invokes
    · obtain ⟨target, moved, rfl⟩ := Option.map_eq_some_iff.mp stepped
      obtain ⟨invoked, more⟩ | ⟨index, call, calls, _⟩ := invoked_step moved
      · exact kept.connect (Connection.ledger_step kept.books.ledger (Connection.step_spec moved)) invoked more
      · rw [calls] at invokes
        exact absurd rfl invokes
  | await posts arms =>
    rw [AsyncSession.step] at stepped
    split at stepped
    · rename_i running _
      cases stepped
      obtain ⟨⟨ledger, ordered, known, answered, replies⟩, phase⟩ := kept
      have rests : session.control.atRest = true := by rw [running]; rfl
      obtain ⟨none, idle⟩ := phase.of_atRest rests
      exact ⟨⟨ledger, ordered, known, answered, replies.trans (List.sublist_append_left _ _)⟩, .rest rests none idle⟩
    · rename_i thread message running _
      obtain ⟨target, moved, rfl⟩ := Option.map_eq_some_iff.mp stepped
      exact kept.await (by rw [running]; rfl) (Connection.ledger_step kept.books.ledger (Connection.step_spec moved))
        (passing_step moved (.inl ⟨message, rfl⟩)) thread _
    · rename_i thread timeout running _
      obtain ⟨target, moved, rfl⟩ := Option.map_eq_some_iff.mp stepped
      exact kept.await (by rw [running]; rfl) (Connection.ledger_step kept.books.ledger (Connection.step_spec moved))
        (passing_step moved (.inr ⟨timeout, posts, arms, rfl⟩)) thread _
    · cases stepped
  | suspend =>
    rw [AsyncSession.step] at stepped
    split at stepped
    · rename_i thread suspending
      split_ifs at stepped with first
      · cases stepped
        have crossed : ¬ session.Alone := by
          rw [Alone, suspending]
          simp [first]
        cases phase : kept.phase with
        | rest rests => rw [suspending] at rests; cases rests
        | passed alone | storing alone | arriving alone => exact absurd alone crossed
        | arrived _ _ awaits idle invoked => exact kept.books.resume awaits idle invoked thread
      · cases stepped
        obtain ⟨⟨ledger, ordered, known, answered, replies⟩, phase⟩ := kept
        refine ⟨⟨ledger, ordered, known, answered, replies⟩, ?_⟩
        cases phase with
        | rest rests => rw [suspending] at rests; cases rests
        | passed _ awaits idle owed => exact .passed rfl awaits idle owed
        | storing _ awaits called invoked => exact .storing rfl awaits called invoked
        | arriving _ awaits called invoked => exact .arriving rfl awaits called invoked
        | arrived _ arrived => exact absurd arrived first
    · cases stepped
  | invoke index thread =>
    rw [AsyncSession.step] at stepped
    split at stepped
    · rename_i callback report due
      obtain ⟨target, moved, rfl⟩ := Option.map_eq_some_iff.mp stepped
      have ledger := Connection.ledger_step kept.books.ledger (Connection.step_spec moved)
      obtain ⟨invoked, same⟩ : target.invoked = session.connection.invoked ++ [(callback, report)] ∧
          target.passed = session.connection.passed := by
        simp only [Connection.step, due] at moved
        cases moved
        exact ⟨rfl, rfl⟩
      obtain ⟨⟨old, ordered, known, answered, replies⟩, phase⟩ := kept
      have fresh : callback ∉ session.connection.invoked.map Prod.fst := fun called =>
        (invoked_apart old called).2 (List.mem_map.mpr ⟨_, List.mem_of_getElem? due, rfl⟩)
      refine ⟨⟨ledger, ordered, fun other mine => same ▸ known other mine,
        fun answer member => invoked ▸ List.mem_append_left _ (answered answer member), replies⟩, ?_⟩
      have still {call : ℕ × Report Message} (was : call ∈ session.connection.invoked) : call ∈ target.invoked :=
        invoked ▸ List.mem_append_left _ was
      -- A callback that was called before is another one.
      have other {awaited : ℕ} {result : Report Message} (was : (awaited, result) ∈ session.connection.invoked)
          (awaits : session.callback = some awaited) : session.callback ≠ some callback := by
        rw [awaits, Option.some_inj.ne]
        rintro rfl
        exact fresh (List.mem_map.mpr ⟨_, was, rfl⟩)
      have own : (callback, report) ∈ target.invoked := by
        rw [invoked]
        exact List.mem_append_right _ (List.mem_singleton_self _)
      cases phase with
      | rest rests none idle =>
        have noAwait : session.callback ≠ some callback := by simp [none]
        exact .rest rests none (by simp only [if_neg noAwait, idle])
      | @passed awaited alone awaits idle owed =>
        rcases eq_or_ne awaited callback with rfl | differ
        · exact .storing alone awaits (if_pos awaits) own
        · have another : session.callback ≠ some callback := by simpa [awaits] using differ
          refine .passed alone awaits (by simp only [if_neg another, idle]) fun called => ?_
          change awaited ∈ target.invoked.map Prod.fst at called
          rw [invoked, List.map_append, List.mem_append] at called
          exact called.elim owed fun new => differ (List.mem_singleton.mp new)
      | storing alone awaits called was =>
        exact .storing alone awaits ((if_neg (other was awaits)).trans called) (still was)
      | arriving alone awaits called was =>
        exact .arriving alone awaits ((if_neg (other was awaits)).trans called) (still was)
      | arrived suspending first awaits idle was =>
        exact .arrived suspending first awaits ((if_neg (other was awaits)).trans idle) (still was)
    · cases stepped
  | store =>
    rw [AsyncSession.step] at stepped
    split at stepped
    · rename_i thread report storing
      cases stepped
      obtain ⟨⟨ledger, ordered, known, answered, replies⟩, phase⟩ := kept
      refine ⟨⟨ledger, ordered, known, answered, replies⟩, ?_⟩
      cases phase with
      | storing alone awaits called invoked =>
        cases storing.symm.trans called
        exact .arriving alone awaits rfl invoked
      | arriving _ _ called =>
        rw [storing] at called
        cases called
      | rest _ _ idle | passed _ _ idle | arrived _ _ _ idle =>
        rw [storing] at idle
        cases idle
    · cases stepped
  | arrive =>
    rw [AsyncSession.step] at stepped
    split at stepped
    · rename_i thread arriving
      obtain ⟨⟨ledger, ordered, known, answered, replies⟩, phase⟩ := kept
      cases phase with
      | @arriving callback _ alone awaits called invoked =>
        dsimp only at stepped
        split_ifs at stepped with second
        · cases stepped
          have books : Books ({ session with completion := .idle } : AsyncSession Message Frame) :=
            ⟨ledger, ordered, known, answered, replies⟩
          exact books.resume awaits rfl invoked thread
        · cases stepped
          refine ⟨⟨ledger, ordered, known, answered, replies⟩, ?_⟩
          rw [Alone] at alone
          cases control : session.control with
          | suspending waiting => exact .arrived rfl rfl awaits rfl invoked
          | suspended =>
            rw [control] at alone
            exact absurd alone second
          | running | finished =>
            rw [control] at alone
            exact alone.elim
      | storing _ _ called =>
        rw [arriving] at called
        cases called
      | rest _ _ idle | passed _ _ idle | arrived _ _ _ idle =>
        rw [arriving] at idle
        cases idle
    · cases stepped
  | finish =>
    rw [AsyncSession.step] at stepped
    split at stepped
    · rename_i running _
      cases stepped
      obtain ⟨⟨ledger, ordered, known, answered, replies⟩, phase⟩ := kept
      obtain ⟨none, idle⟩ := phase.of_atRest (by rw [running]; rfl)
      exact ⟨⟨ledger, ordered, known, answered, replies⟩, .rest rfl none idle⟩
    · cases stepped

/-- The connection makes one of its own steps, or none. -/
theorem step_connection (stepped : session.step codec wire coroutine label = some next) :
    next.connection = session.connection ∨ ∃ move, session.connection.step codec wire move = some next.connection ∧
      (label = .connection move ∨ session.connection.strands move = false) := by
  cases label with
  | connection move =>
    rw [AsyncSession.step] at stepped
    split_ifs at stepped
    obtain ⟨target, moved, rfl⟩ := Option.map_eq_some_iff.mp stepped
    exact .inr ⟨move, moved, .inl rfl⟩
  | await posts arms =>
    rw [AsyncSession.step] at stepped
    split at stepped
    · cases stepped
      exact .inl rfl
    · obtain ⟨target, moved, rfl⟩ := Option.map_eq_some_iff.mp stepped
      exact .inr ⟨_, moved, .inr rfl⟩
    · obtain ⟨target, moved, rfl⟩ := Option.map_eq_some_iff.mp stepped
      exact .inr ⟨_, moved, .inr rfl⟩
    · cases stepped
  | invoke index thread =>
    rw [AsyncSession.step] at stepped
    split at stepped
    · obtain ⟨target, moved, rfl⟩ := Option.map_eq_some_iff.mp stepped
      exact .inr ⟨_, moved, .inr rfl⟩
    · cases stepped
  | suspend =>
    rw [AsyncSession.step] at stepped
    split at stepped
    · split_ifs at stepped <;> cases stepped <;> exact .inl rfl
    · cases stepped
  | arrive =>
    rw [AsyncSession.step] at stepped
    split at stepped
    · dsimp only at stepped
      split_ifs at stepped <;> cases stepped <;> exact .inl rfl
    · cases stepped
  | store | finish =>
    rw [AsyncSession.step] at stepped
    split at stepped <;> cases stepped
    exact .inl rfl

end Steps

/-- The step of the connection leaves a parked receive to nobody. -/
def strands (session : AsyncSession Message Frame) : AsyncLabel Message Frame → Bool
  | .connection label => session.connection.strands label
  | _ => false

section Runs

variable {codec : Codec Message Frame} {wire : Wire} {coroutine : Coroutine Message} {thread : ℕ}
  {labels : List (AsyncLabel Message Frame)} {session : AsyncSession Message Frame}

theorem rendezvous_start : Rendezvous ({ control := .running thread } : AsyncSession Message Frame) :=
  ⟨⟨.refl _, .nil, List.forall_mem_nil _, List.forall_mem_nil _, .refl _⟩, .rest rfl rfl rfl⟩

theorem rendezvous_of_run (reached : (machine codec wire coroutine).run { control := .running thread } labels =
    some session) :
    Rendezvous session :=
  (machine codec wire coroutine).invariant_of_run Rendezvous
    (fun _ _ _ kept stepped => kept.step stepped) rendezvous_start reached

/-- Where no receive is left to nobody, the connection settles all it was passed. -/
theorem settling_of_run (reached : (machine codec wire coroutine).run { control := .running thread } labels = some session)
    (called : (machine codec wire coroutine).Along (fun session label => session.strands label = false)
      { control := .running thread } labels) :
    Connection.SendBacked session.connection ∧ Connection.Settling session.connection := by
  let invariant (passed : AsyncSession Message Frame) : Prop :=
    Connection.OneOperation passed.connection ∧ Connection.SendBacked passed.connection ∧
      Connection.Settling passed.connection
  have kept : invariant session := by
    refine (machine codec wire coroutine).invariant_of_along invariant ?_ ?_ called reached
    · rintro source label target ⟨one, backed, settling⟩ still stepped
      obtain same | ⟨move, moved, own⟩ := step_connection stepped
      · exact ⟨same ▸ one, same ▸ backed, same ▸ settling⟩
      · have step := Connection.step_spec moved
        have kind : source.connection.strands move = false := by
          obtain rfl | other := own
          · exact still
          · exact other
        exact ⟨one.step step, backed.step one step, settling.step kind step⟩
    · exact ⟨Connection.oneOperation_start, nofun, Connection.settling_start⟩
  exact kept.2

/-- In every run of a coroutine and its connection, with whoever else is at the socket: each await is answered once, in
order, with what its callback was called with; while the coroutine runs, or after its end, no callback of it is
owed or under way, so nobody else is in its frame; and while it is suspended its callback is under way or owed by the
connection. On a connection that leaves no parked receive to nobody, a coroutine does not stay suspended when the
session has ended and nothing is outstanding. -/
theorem awaits_resume_once
    (reached : (machine codec wire coroutine).run { control := .running thread } labels = some session) :
    session.passed.Pairwise (· < ·) ∧
      (∀ answer ∈ session.answered, answer ∈ session.connection.invoked) ∧
      (session.answered.map Prod.snd).Sublist session.replies ∧
      (session.control.atRest = true → session.completion = .idle ∧
        ∀ callback ∈ session.passed, callback ∈ session.connection.invoked.map Prod.fst) ∧
      (session.control = .suspended → session.completion = .idle → ∃ callback, session.callback = some callback ∧
        callback ∈ session.connection.callbacks ∧ callback ∉ session.connection.invoked.map Prod.fst) ∧
      ((machine codec wire coroutine).Along (fun session label => session.strands label = false)
          { control := .running thread } labels →
        session.connection.session.terminal = true → session.connection.Quiescent → session.connection.firing = [] →
          session.completion = .idle → session.control ≠ .suspended) := by
  obtain ⟨⟨ledger, ordered, known, answered, replies⟩, phase⟩ := rendezvous_of_run reached
  have waiting (suspended : session.control = .suspended) (idle : session.completion = .idle) :
      ∃ callback, session.callback = some callback ∧ callback ∈ session.connection.callbacks ∧
        callback ∉ session.connection.invoked.map Prod.fst := by
    cases phase with
    | rest rests =>
      rw [suspended] at rests
      cases rests
    | @passed callback alone awaits idle owed =>
      refine ⟨callback, awaits, ledger.mem_iff.mpr (List.mem_range.mpr (known callback ?_)), owed⟩
      simp [passed, awaits]
    | storing _ _ called | arriving _ _ called =>
      rw [idle] at called
      cases called
    | arrived suspending =>
      rw [suspended] at suspending
      cases suspending
  refine ⟨ordered, answered, replies, ?_, waiting, ?_⟩
  · intro rests
    obtain ⟨none, idle⟩ := phase.of_atRest rests
    refine ⟨idle, fun callback mine => ?_⟩
    rw [passed, none, Option.toList_none, List.append_nil] at mine
    obtain ⟨answer, member, rfl⟩ := List.mem_map.mp mine
    exact List.mem_map.mpr ⟨answer, answered answer member, rfl⟩
  · intro called finished quiet fired idle suspended
    obtain ⟨callback, awaits, _, owed⟩ := waiting suspended idle
    obtain ⟨backed, settling⟩ := settling_of_run reached called
    obtain ⟨_, _, all⟩ := Connection.settled_of_quiescent ledger backed settling finished quiet
    rw [fired, List.append_nil] at all
    refine owed (all.mem_iff.mpr (List.mem_range.mpr (known callback ?_)))
    simp [passed, awaits]

end Runs

/-- A coroutine that sends back the first message it receives. -/
def echo : Coroutine ℕ
  | [] => some (.receive none)
  | [.received (.message message)] => some (.send (.ok message))
  | _ => none

/-- The message comes while the coroutine is about to suspend, and it goes on on the thread of the callback; the
callback of its send comes first. -/
def echoes : List (AsyncLabel ℕ ℕ) :=
  [.connection .proceed, .connection .proceed, .await true true, .connection (.onRead (.message false 5)), .invoke 0 7,
    .store,
    .suspend, .arrive, .await true true, .connection .proceed, .connection .proceed, .connection (.sendAsyncPost 0 true),
    .connection (.task 0), .connection .proceed, .connection (.onWrite none), .invoke 0 8, .store, .arrive, .suspend,
      .finish]

theorem awaits_resume_once_echo :
    ∃ session, (machine Http.Codec.plain .rawText echo).run { control := .running 0 } echoes = some session ∧
      (session.control = .finished ∧ session.answered = [(0, .received (.message 5)), (1, .sent (.ok ()))]) ∧
      session.completion = .idle ∧ ∀ answer ∈ session.answered, answer ∈ session.connection.invoked := by
  refine ⟨_, (Option.some_get (by decide)).symm, by decide, ?_⟩
  obtain ⟨_, answered, _, alone, _⟩ :=
    @awaits_resume_once _ _ Http.Codec.plain .rawText echo 0 echoes _ (Option.some_get (by decide)).symm
  exact ⟨(alone (by decide)).1, answered⟩

end AsyncSession

end OpalCpp.EventStream

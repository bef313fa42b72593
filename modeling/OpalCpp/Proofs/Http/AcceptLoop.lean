import OpalCpp.Model.Http.AcceptLoop

/-! # The accept loop neither overshoots nor dies

Between two handlers the loop is armed or it is paused at its cap, and the count of connections is
right, in every run of a transport that is not stopping, as long as no accept completes with an
error: the completion handler takes any error for the end of the acceptor and does not arm the next
accept, and a loop that is not paused is armed by nobody else.
-/

namespace OpalCpp.Http

namespace AcceptLoop

variable {loop target : AcceptLoop} {label : AcceptLabel} {limit : ℕ}

/-- One accept is outstanding, or the loop is paused at its cap: exactly one of the two. The count
is that of the sessions started and not yet reported closed, and within the cap. -/
structure Accepting (limit : ℕ) (loop : AcceptLoop) : Prop where
  counted : loop.server.openConnections + loop.notified = loop.started
  bounded : loop.server.openConnections ≤ limit
  armed : Xor (loop.accepts = 1)
    (loop.server.acceptPaused = true ∧ loop.server.openConnections = limit ∧ loop.accepts = 0)

/-- The label is within the scope: the transport is not stopping and every post succeeds. -/
def inScope : AcceptLabel → Bool
  | .stop => false
  | .destroyed posts => posts
  | .accepted _ | .notified => true

def failedAccept : AcceptLabel → Bool
  | .accepted ec => ec.isSome
  | _ => false

/-- The loop is armed below its cap, or paused at it. -/
inductive Armed (limit : ℕ) (loop : AcceptLoop) : Prop
  | armed (one : loop.accepts = 1) (running : loop.server.acceptPaused = false)
      (below : loop.server.openConnections < limit)
  | paused (none : loop.accepts = 0) (resting : loop.server.acceptPaused = true)
      (full : loop.server.openConnections = limit)

structure Live (limit : ℕ) (loop : AcceptLoop) : Prop where
  positive : 0 < limit
  cap : loop.server.maxConnections = limit
  running : loop.server.stopping = false
  held : loop.server.openConnections = loop.sessions + loop.posted
  counted : loop.server.openConnections + loop.notified = loop.started
  armed : Armed limit loop

theorem Live.accepting (live : Live limit loop) : Accepting limit loop := by
  refine ⟨live.counted, ?_, ?_⟩
  · cases live.armed with
    | armed one running below => omega
    | paused none resting full => omega
  · cases live.armed with
    | armed one running below =>
      left
      constructor
      · exact one
      · rintro ⟨_, _, none⟩
        omega
    | paused none resting full =>
      right
      constructor
      · exact ⟨resting, full, none⟩
      · omega

theorem start_live (positive : 0 < limit) : Live limit (start limit) := by
  have arms : AcceptState.accept { maxConnections := limit } = ({ maxConnections := limit }, true) := by
    rw [AcceptState.accept, if_neg]
    simp only
    omega
  rw [start, arms]
  exact ⟨positive, rfl, rfl, rfl, rfl, .armed rfl rfl positive⟩

/-- `Accept` on a running loop with one more or one less connection arms it or pauses it. -/
theorem accept_armed (server : AcceptState) (positive : 0 < limit) (cap : server.maxConnections = limit)
    (bounded : server.openConnections ≤ limit) :
    (server.openConnections < limit ∧ server.accept = (server, true)) ∨
      (server.openConnections = limit ∧ server.accept = ({ server with acceptPaused := true }, false)) := by
  by_cases full : server.openConnections = limit
  · right
    refine ⟨full, ?_⟩
    rw [AcceptState.accept, if_pos]
    omega
  · left
    refine ⟨by omega, ?_⟩
    rw [AcceptState.accept, if_neg]
    omega

/-- A socket is accepted: the session is counted and the loop goes on or pauses. -/
theorem Live.accepted (live : Live limit loop) {accepts : ℕ} (some_ : loop.accepts = accepts + 1) :
    Live limit ({ loop with accepts }.onAccept none) := by
  obtain ⟨positive, cap, running, held, counted, armed⟩ := live
  cases armed with
  | paused none resting full => omega
  | armed one active below =>
    obtain rfl : accepts = 0 := by omega
    have running' : ({ loop with accepts := 0 } : AcceptLoop).server.stopping = false := running
    rw [onAccept, Option.isSome_none, running', Bool.false_or, if_neg Bool.false_ne_true]
    have more : loop.server.runSession.openConnections = loop.server.openConnections + 1 := rfl
    obtain ⟨room, arms⟩ | ⟨full, pauses⟩ := accept_armed loop.server.runSession positive cap (by omega)
    · rw [arms]
      refine ⟨positive, cap, running, ?_, ?_, .armed rfl active room⟩
      · simp only [more]
        omega
      · simp only [more]
        omega
    · rw [pauses]
      refine ⟨positive, cap, running, ?_, ?_, .paused rfl rfl full⟩
      · simp only [more]
        omega
      · simp only [more]
        omega

/-- A session is gone and its notification is on its way. -/
theorem Live.destroyed (live : Live limit loop) {sessions : ℕ} (some_ : loop.sessions = sessions + 1) :
    Live limit { loop with sessions, posted := loop.posted + 1 } := by
  obtain ⟨positive, cap, running, held, counted, armed⟩ := live
  refine ⟨positive, cap, running, ?_, counted, ?_⟩
  · simp only
    omega
  · cases armed with
    | armed one active below => exact .armed one active below
    | paused none resting full => exact .paused none resting full

/-- A notification runs: the count drops, and a paused loop is armed again. -/
theorem Live.notified (live : Live limit loop) {posted : ℕ} (some_ : loop.posted = posted + 1) :
    Live limit ({ loop with posted }.onNotified) := by
  obtain ⟨positive, cap, running, held, counted, armed⟩ := live
  have less : loop.server.openConnections - 1 + 1 = loop.server.openConnections := by omega
  cases armed with
  | armed one active below =>
    have stays : loop.server.onSessionClosed =
        ({ loop.server with openConnections := loop.server.openConnections - 1 }, false) := by
      simp [AcceptState.onSessionClosed, active]
    rw [onNotified, stays]
    refine ⟨positive, cap, running, ?_, ?_, .armed one active ?_⟩ <;> simp only <;> omega
  | paused none resting full =>
    have arms : loop.server.onSessionClosed =
        ({ loop.server with
          openConnections := loop.server.openConnections - 1, acceptPaused := false }, true) := by
      simp only [AcceptState.onSessionClosed, resting, running, Bool.not_false, Bool.and_true, ↓reduceIte,
        AcceptState.accept]
      rw [if_neg]
      omega
    rw [onNotified, arms]
    refine ⟨positive, cap, running, ?_, ?_, .armed ?_ rfl ?_⟩ <;> simp only [↓reduceIte] <;> omega

theorem Live.step (live : Live limit loop) (scope : inScope label = true)
    (accepted : failedAccept label = false) (moved : machine.step loop label = some target) :
    Live limit target := by
  cases label with
  | accepted ec =>
    simp only [machine, AcceptLoop.step] at moved
    split at moved
    · cases moved
    · next accepts some_ =>
      cases ec with
      | some error => cases accepted
      | none => cases moved; exact live.accepted some_
  | destroyed posts =>
    simp only [machine, AcceptLoop.step] at moved
    split at moved
    · cases moved
    · next sessions some_ =>
      obtain rfl : posts = true := scope
      cases moved
      exact live.destroyed some_
  | notified =>
    simp only [machine, AcceptLoop.step] at moved
    split at moved
    · cases moved
    · next posted some_ => cases moved; exact live.notified some_
  | stop => cases scope

/-- An accept that fails leaves a loop with no accept outstanding that is not paused either. -/
theorem Live.failed (live : Live limit loop) (moved : machine.step loop label = some target)
    (accepting : Accepting limit target) : failedAccept label = false := by
  by_contra failed
  rw [Bool.not_eq_false] at failed
  cases label with
  | accepted ec =>
    simp only [failedAccept] at failed
    simp only [machine, AcceptLoop.step] at moved
    split at moved
    · cases moved
    · next accepts some_ =>
      rw [onAccept, failed, Bool.true_or, if_pos rfl] at moved
      cases moved
      cases live.armed with
      | paused none resting full => omega
      | armed only active below =>
        obtain ⟨one, _⟩ | ⟨⟨resting, _⟩, _⟩ := accepting.armed
        · simp only at one
          omega
        · simp [active] at resting
  | destroyed | notified | stop => cases failed

/-- With a cap on the connections, in a run of a transport that is not stopping and whose posts
succeed, the count is right and within the cap, and the loop is armed or paused at its cap, in
every state passed, exactly when no accept of the run completes with an error. -/
theorem accept_loop_alive_iff (positive : 0 < limit) {labels : List AcceptLabel}
    (reached : machine.run (start limit) labels = some target)
    (scope : ∀ label ∈ labels, inScope label = true) :
    machine.Throughout (Accepting limit) (start limit) labels ↔
      machine.Along (fun _ label => failedAccept label = false) (start limit) labels := by
  apply machine.throughout_iff_along_of_assumed (Live limit)
  · intro source label next live inScope accepted moved
    exact live.step inScope accepted moved
  · intro source live
    exact live.accepting
  · intro source label next live _ moved accepting
    exact live.failed moved accepting
  · exact start_live positive
  · exact machine.along_of_forall scope (start limit)
  · exact reached

/-- Two connections fill a cap of two, one goes, and its place is taken again. -/
def fillAndRefill : List AcceptLabel :=
  [.accepted none, .accepted none, .destroyed true, .notified, .accepted none]

theorem accept_loop_alive_iff_refill :
    ∃ loop, machine.run (start 2) fillAndRefill = some loop ∧
      (loop.server.acceptPaused = true ∧ loop.started = 3) ∧
      machine.Throughout (Accepting 2) (start 2) fillAndRefill := by
  refine ⟨_, (Option.some_get (by decide)).symm, by decide, ?_⟩
  have accepted : machine.Along (fun _ label => failedAccept label = false) (start 2) fillAndRefill := by
    decide
  exact (accept_loop_alive_iff (by decide) (Option.some_get (by decide)).symm (by decide)).mpr accepted

/-- The process is out of descriptors for a moment: the one accept that fails is the last. -/
theorem accept_loop_dies :
    ∃ loop, machine.run (start 2) [.accepted (some { message := "Too many open files" })] = some loop ∧
      loop.accepts = 0 ∧ loop.server.acceptPaused = false ∧ ¬ Accepting 2 loop ∧
      ∀ label, inScope label = true → machine.step loop label = none := by
  refine ⟨_, (Option.some_get (by decide)).symm, by decide, by decide, ?_, ?_⟩
  · intro accepting
    obtain ⟨one, _⟩ | ⟨⟨resting, _⟩, _⟩ := accepting.armed
    · cases one
    · cases resting
  · intro label scope
    cases label with
    | stop => cases scope
    | accepted | destroyed | notified => rfl

end AcceptLoop

end OpalCpp.Http

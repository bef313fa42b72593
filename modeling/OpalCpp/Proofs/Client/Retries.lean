import OpalCpp.Model.Client.Retry

/-! # What the retry loop does

A run of the loop is a first attempt and, for each that follows, the wait before it. The induction is on
the retries that are left: either the loop ends with the outcome it has, or the next attempt is one of
the same shape.
-/

namespace OpalCpp.Client

open Http (HttpRequest HttpResponse HttpClient BodySink TransportEvent)
open Traced (Runs)

variable {World : Type*} {platform : Platform World}
    {send : HttpRequest → Traced TransportEvent World (Outcome HttpResponse)}
  {request : HttpRequest} {policy : RetryPolicy World} {interceptors : List (Interceptor World)}

/-- The attempts and the waits between them, in order. -/
def weave (first : Attempt World) (rest : List (Wait × Attempt World)) : List (RetryEvent World) :=
  .attempted first :: rest.flatMap fun (wait, attempt) => [.waited wait, .attempted attempt]

/-- The request of an attempt is what the interceptors make of the original one, and its outcome is what
the transport answers. -/
structure Attempt.Made (send : HttpRequest → Traced TransportEvent World (Outcome HttpResponse)) (request : HttpRequest)
    (interceptors : List (Interceptor World)) (attempt : Attempt World) : Prop where
  modified : modified request interceptors attempt.number attempt.start = (attempt.request, attempt.prepared)
  sent : ∃ after, Runs (send attempt.request) attempt.prepared attempt.outcome after attempt.trace

/-- An error that is flagged, or one of the statuses of a transient failure. -/
def Retryable : Outcome HttpResponse → Prop
  | .ok response => response.status ∈ ({429, 500, 502, 503, 504} : Set ℤ)
  | .error error => error.retryable = true

theorem retryable_iff (outcome : Outcome HttpResponse) : retryable outcome = true ↔ Retryable outcome := by
  cases outcome with
  | error error => rfl
  | ok response => simp [retryable, retryableStatus, Retryable, or_assoc]

/-- What an attempt leaves in the trace. -/
theorem runs_attemptSend {number : ℤ} {world after : World} {outcome : Outcome HttpResponse}
    {events : List (RetryEvent World)}
    (ran : Runs (attemptSend send request interceptors number) world outcome after events) :
    ∃ attempt : Attempt World, events = [.attempted attempt] ∧ attempt.number = number ∧ attempt.outcome = outcome ∧
      attempt.Made send request interceptors := by
  rw [Runs, attemptSend] at ran
  split_ifs at ran with none_
  · cases ran
    refine ⟨_, rfl, rfl, rfl, ?_, _, Traced.runs_self _ _⟩
    rw [modified, List.isEmpty_iff.mp none_, List.foldl_nil]
  · cases ran
    exact ⟨_, rfl, rfl, rfl, rfl, _, Traced.runs_self _ _⟩

theorem runs_readClock {outcome : Outcome HttpResponse} {world after : World} {now : Timestamp}
    {events : List (RetryEvent World)}
    (ran : Runs (readClock platform outcome) world now after events) : events = [] := by
  cases outcome with
  | ok response => exact (Traced.runs_silent.mp ran).2
  | error error => exact (Traced.runs_pure.mp ran).2.2

theorem runs_waitBefore {retry : ℤ} {outcome : Outcome HttpResponse} {world after : World} {result : Unit}
    {events : List (RetryEvent World)} (ran : Runs (waitBefore platform policy retry outcome) world result after events) :
    ∃ wait : Wait, events = [.waited wait] ∧ wait.delay = delayBefore policy retry wait.jitter01 outcome wait.now := by
  rw [waitBefore] at ran
  obtain ⟨jitter01, _, _, _, drawn, afterDraw, rfl⟩ := Traced.runs_bind.mp ran
  obtain ⟨now, _, _, _, read, afterRead, rfl⟩ := Traced.runs_bind.mp afterDraw
  obtain ⟨_, _, _, _, emitted, slept, rfl⟩ := Traced.runs_bind.mp afterRead
  rw [(Traced.runs_silent.mp drawn).2, (runs_readClock read), (Traced.runs_emit.mp emitted).2,
    (Traced.runs_silent.mp slept).2]
  exact ⟨⟨jitter01, now, _⟩, rfl, rfl⟩

/-- What follows an attempt: the attempts are numbered on, each but the last has failed in a way that is
retried, and there is room for it. -/
structure Follows (send : HttpRequest → Traced TransportEvent World (Outcome HttpResponse)) (request : HttpRequest)
    (policy : RetryPolicy World) (interceptors : List (Interceptor World)) (left : ℕ) (result : Outcome HttpResponse)
    (first : Attempt World) (rest : List (Wait × Attempt World)) : Prop where
  bound : rest.length ≤ left
  number : ∀ (index : ℕ) attempt, (first :: rest.map Prod.snd)[index]? = some attempt → attempt.number = first.number + index
  made : ∀ later ∈ rest, later.2.Made send request interceptors
  goesOn : ∀ (index : ℕ) attempt, (first :: rest.map Prod.snd)[index]? = some attempt →
    (index < rest.length ↔ index < left ∧ Retryable attempt.outcome)
  last : (first :: rest.map Prod.snd).getLast?.map Attempt.outcome = some result
  waited : ∀ (index : ℕ) attempt wait, (first :: rest.map Prod.snd)[index]? = some attempt →
    (rest.map Prod.fst)[index]? = some wait →
    wait.delay = delayBefore policy attempt.number wait.jitter01 attempt.outcome wait.now

/-- The loop ends with the attempt. -/
theorem follows_nil {left : ℕ} {result : Outcome HttpResponse} {first : Attempt World} (same : first.outcome = result)
    (ends : left = 0 ∨ ¬ Retryable result) : Follows send request policy interceptors left result first [] where
  bound := Nat.zero_le left
  number index attempt here := by
    cases index with
    | zero =>
      cases here
      simp
    | succ index => simp at here
  made later member := absurd member List.not_mem_nil
  goesOn index attempt here := by
    cases index with
    | zero =>
      cases here
      rw [same]
      refine iff_of_false (lt_irrefl 0) ?_
      rintro ⟨room, failed⟩
      obtain none_ | done := ends
      · omega
      · exact done failed
    | succ index => simp at here
  last := by
    rw [List.map_nil, List.getLast?_singleton, Option.map_some, same]
  waited index attempt wait _ waited := by simp at waited

/-- One more attempt in front of those that follow it. -/
theorem Follows.cons {left : ℕ} {result : Outcome HttpResponse} {first next : Attempt World} {wait : Wait}
    {rest : List (Wait × Attempt World)} (follows : Follows send request policy interceptors left result next rest)
    (failed : Retryable first.outcome) (number : next.number = first.number + 1) (made : next.Made send request interceptors)
    (waited : wait.delay = delayBefore policy first.number wait.jitter01 first.outcome wait.now) :
    Follows send request policy interceptors (left + 1) result first ((wait, next) :: rest) where
  bound := Nat.succ_le_succ follows.bound
  number index attempt here := by
    cases index with
    | zero =>
      cases here
      simp
    | succ index =>
      rw [follows.number index attempt here, number, Nat.cast_succ]
      ring
  made later member := by
    obtain rfl | tail := List.mem_cons.mp member
    · exact made
    · exact follows.made later tail
  goesOn index attempt here := by
    cases index with
    | zero =>
      cases here
      exact iff_of_true (Nat.succ_pos _) ⟨Nat.succ_pos _, failed⟩
    | succ index =>
      rw [List.length_cons, Nat.succ_lt_succ_iff, Nat.succ_lt_succ_iff]
      exact follows.goesOn index attempt here
  last := by
    rw [List.map_cons, List.getLast?_cons_cons]
    exact follows.last
  waited index attempt wait' here there := by
    cases index with
    | zero =>
      cases here
      cases there
      exact waited
    | succ index => exact follows.waited index attempt wait' here there

/-- What the loop adds to an attempt. -/
theorem runs_retryLoop {left : ℕ} {world after : World} {result : Outcome HttpResponse} {events : List (RetryEvent World)}
    {first : Attempt World} (ran : Runs (retryLoop platform send request policy interceptors left first.number first.outcome)
      world result after events) :
    ∃ rest, .attempted first :: events = weave first rest ∧
      Follows send request policy interceptors left result first rest := by
  induction left generalizing first world events with
  | zero =>
    rw [retryLoop] at ran
    obtain ⟨same, _, rfl⟩ := Traced.runs_pure.mp ran
    exact ⟨[], rfl, follows_nil same.symm (.inl rfl)⟩
  | succ left ih =>
    rw [retryLoop] at ran
    split_ifs at ran with failed
    · obtain ⟨_, _, _, _, slept, afterWait, rfl⟩ := Traced.runs_bind.mp ran
      obtain ⟨outcome, _, _, _, sent, afterSend, rfl⟩ := Traced.runs_bind.mp afterWait
      obtain ⟨wait, rfl, delay⟩ := runs_waitBefore slept
      obtain ⟨next, rfl, number, rfl, made⟩ := runs_attemptSend sent
      rw [← number] at afterSend
      obtain ⟨rest, trace, follows⟩ := ih afterSend
      refine ⟨(wait, next) :: rest, ?_, follows.cons ((retryable_iff _).mp failed) number made delay⟩
      rw [weave, List.cons_inj_right] at trace
      rw [weave, List.flatMap_cons, ← trace]
      rfl
    · obtain ⟨same, _, rfl⟩ := Traced.runs_pure.mp ran
      exact ⟨[], rfl, follows_nil same.symm (.inr fun retried => failed ((retryable_iff _).mpr (same ▸ retried)))⟩

/-- What a call does: a first attempt, and what follows it. -/
theorem runs_sendAttempts {world after : World} {result : Outcome HttpResponse} {events : List (RetryEvent World)}
    (ran : Runs (sendAttempts platform send request policy interceptors) world result after events) :
    ∃ first rest, events = weave first rest ∧ first.number = 1 ∧ first.Made send request interceptors ∧
      Follows send request policy interceptors (max policy.maxAttempts 1 - 1).toNat result first rest := by
  rw [sendAttempts] at ran
  obtain ⟨outcome, _, _, _, sent, afterSend, rfl⟩ := Traced.runs_bind.mp ran
  obtain ⟨first, rfl, number, rfl, made⟩ := runs_attemptSend sent
  rw [← number] at afterSend
  obtain ⟨rest, trace, follows⟩ := runs_retryLoop afterSend
  rw [number] at follows
  exact ⟨first, rest, trace, number, made, follows⟩

/-- A call is a number of attempts within the bound, each on what the interceptors make of the original
request; it goes on exactly while an outcome is retried and there is room, with the documented waits, and
the outcome of the last attempt is returned. -/
theorem sendWithRetries_documented (platform : Platform World) (transport : HttpClient World) (request : HttpRequest)
    (policy : RetryPolicy World) (interceptors : List (Interceptor World)) (sink : Option (BodySink World)) (world : World) :
    ∃ first rest, let attempts := first :: rest.map Prod.snd
      (sendWithRetries platform transport request policy interceptors sink world).2.2 = weave first rest ∧
      1 ≤ attempts.length ∧ (attempts.length : ℤ) ≤ max policy.maxAttempts 1 ∧
      (∀ (index : ℕ) attempt, attempts[index]? = some attempt →
        attempt.number = index + 1 ∧ attempt.Made (sender transport policy sink) request interceptors ∧
        (index + 1 < attempts.length ↔ (index + 1 : ℤ) < max policy.maxAttempts 1 ∧ Retryable attempt.outcome)) ∧
      attempts.getLast?.map Attempt.outcome =
        some (sendWithRetries platform transport request policy interceptors sink world).1 ∧
      ∀ (index : ℕ) attempt wait, attempts[index]? = some attempt → (rest.map Prod.fst)[index]? = some wait →
        let backoff := retryDelay policy (index + 1) wait.jitter01
        backoff ≤ wait.delay ∧ wait.delay = match asked attempt.outcome wait.now with
          | none => backoff
          | some asked => max backoff (min asked policy.retryAfterCap) := by
  have ran := Traced.runs_self (sendWithRetries platform transport request policy interceptors sink) world
  generalize (sendWithRetries platform transport request policy interceptors sink world).1 = result at ran ⊢
  generalize (sendWithRetries platform transport request policy interceptors sink world).2.2 = events at ran ⊢
  obtain ⟨first, rest, trace, number, made, follows⟩ := runs_sendAttempts ran
  refine ⟨first, rest, trace, Nat.succ_pos _, ?_, ?_, follows.last, ?_⟩
  · have bound := follows.bound
    rw [List.length_cons, List.length_map]
    omega
  · intro index attempt here
    have numbered := follows.number index attempt here
    refine ⟨by omega, ?_, ?_⟩
    · cases index with
      | zero =>
        cases here
        exact made
      | succ index =>
        have member : attempt ∈ rest.map Prod.snd := List.mem_of_getElem? here
        obtain ⟨later, among, rfl⟩ := List.mem_map.mp member
        exact follows.made later among
    · have goesOn := follows.goesOn index attempt here
      rw [List.length_cons, List.length_map, Nat.succ_lt_succ_iff, goesOn]
      refine and_congr_left fun _ => ?_
      omega
  · intro index attempt wait here there
    have numbered := follows.number index attempt here
    have delay := follows.waited index attempt wait here there
    have own : attempt.number = index + 1 := by omega
    rw [own, delayBefore] at delay
    refine ⟨?_, delay⟩
    rw [delay]
    cases asked attempt.outcome wait.now with
    | none => exact le_refl _
    | some asked => exact le_max_left _ _

end OpalCpp.Client

import OpalCpp.Model.Http.BeastClient
import OpalCpp.Proofs.Client.Retries

/-! # A sink sees one response

What a transport may do with a sink in one call: nothing is written, or all that is written comes after the
head of the response that is the last thing the call does, and then no failure of the call is retryable.
Both transports keep to it, and the retry loop calls neither again after such a call.
-/

namespace OpalCpp.Client

open Http (Headers HttpRequest HttpResponse HttpClient BodySink TransportEvent WireResponse Thrown bufferingClient
  beastHttpClient)
open Http.BeastHttpClient (Options Network Trip)
open Traced (Runs)

variable {World : Type*}

/-- The event passes a piece to `write`. -/
def IsWrite : TransportEvent → Prop
  | .wrote _ => True
  | _ => False

/-- Nothing is passed to `write`. -/
def Quiet (trace : List TransportEvent) : Prop := ∀ event ∈ trace, ¬ IsWrite event

theorem quiet_nil : Quiet [] := fun _ member => absurd member List.not_mem_nil

theorem quiet_append {first second : List TransportEvent} : Quiet (first ++ second) ↔ Quiet first ∧ Quiet second :=
  List.forall_mem_append

/-- The pieces are the last events, behind the head of the response they belong to, which was accepted in
some world; of a response that is returned they are the body, or the body is in the response. -/
structure Delivered (accept : ℤ → Headers → World → Except Thrown Bool × World) (trace : List TransportEvent)
    (outcome : Outcome HttpResponse) (before : List TransportEvent) (response : WireResponse) (streamed : Bool)
    (pieces : List Bytes) :
    Prop where
  trace : trace = before ++ .responded response streamed :: pieces.map .wrote
  quiet : Quiet before
  unread : pieces.flatten <+: response.body
  accepted : ∃ world, (accept response.status response.headers world).1 = .ok streamed
  refused : streamed = false → pieces = []
  final : pieces ≠ [] → ∀ error, outcome = .error error → error.retryable = false
  whole : ∀ answer, outcome = .ok answer → answer.status = response.status ∧
    if streamed then pieces.flatten = response.body ∧ answer.body = [] else answer.body = response.body

/-- What a call of a transport does with a sink: nothing, or one delivery. -/
def OneDelivery (accept : ℤ → Headers → World → Except Thrown Bool × World) (trace : List TransportEvent)
    (outcome : Outcome HttpResponse) : Prop :=
  (Quiet trace ∧ ∃ error, outcome = .error error) ∨ ∃ before response streamed pieces,
    Delivered accept trace outcome before response streamed pieces

theorem Delivered.oneDelivery {accept : ℤ → Headers → World → Except Thrown Bool × World}
    {trace before : List TransportEvent}
    {outcome : Outcome HttpResponse} {response : WireResponse} {streamed : Bool} {pieces : List Bytes}
    (delivered : Delivered accept trace outcome before response streamed pieces) : OneDelivery accept trace outcome :=
  .inr ⟨before, response, streamed, pieces, delivered⟩

/-- What is quiet may come before. -/
theorem OneDelivery.prepend {accept : ℤ → Headers → World → Except Thrown Bool × World} {earlier trace : List TransportEvent}
    {outcome : Outcome HttpResponse} (quiet : Quiet earlier) (delivery : OneDelivery accept trace outcome) :
    OneDelivery accept (earlier ++ trace) outcome := by
  obtain ⟨silent, failed⟩ | ⟨before, response, streamed, pieces, delivered⟩ := delivery
  · exact .inl ⟨quiet_append.mpr ⟨quiet, silent⟩, failed⟩
  · refine .inr ⟨earlier ++ before, response, streamed, pieces, { delivered with trace := ?_, quiet := ?_ }⟩
    · rw [delivered.trace, List.append_assoc]
    · exact quiet_append.mpr ⟨quiet, delivered.quiet⟩

section Buffering

variable {accept : ℤ → Headers → World → Except Thrown Bool × World} {write : Bytes → World → Except Thrown Bool × World}

/-- What was thrown, as the default streaming reports it. -/
def handedOver (result : Except Thrown (Outcome HttpResponse)) : Outcome HttpResponse :=
  match result with
  | .ok outcome => outcome
  | .error thrown => .error (.Transport ("http: the response body sink threw: " ++ thrown.getD "unknown exception") false)

/-- A response that is there as a whole is handed over in one piece, or not at all. -/
theorem oneDelivery_handOver {response : HttpResponse} {world after : World} {result : Except Thrown (Outcome HttpResponse)}
    {trace : List TransportEvent} (ran : Runs (Http.handOver response accept write) world result after trace) :
    OneDelivery accept (.sent :: trace) (handedOver result) := by
  have body : (Http.wholeResponse response).body = response.body := List.flatten_singleton
  rw [Http.handOver] at ran
  obtain ⟨decision, between, _, _, asked, afterAsked, rfl⟩ := Traced.runs_bind.mp ran
  obtain ⟨decided, rfl⟩ := Traced.runs_silent.mp asked
  match decision with
  | .error thrown =>
    obtain ⟨rfl, _, rfl⟩ := Traced.runs_pure.mp afterAsked
    exact .inl ⟨by simp [Quiet, IsWrite], _, rfl⟩
  | .ok false =>
    obtain ⟨_, _, _, _, emitted, returned, rfl⟩ := Traced.runs_bind.mp afterAsked
    obtain ⟨_, rfl⟩ := Traced.runs_emit.mp emitted
    obtain ⟨rfl, _, rfl⟩ := Traced.runs_pure.mp returned
    have delivered : Delivered accept [.sent, .responded (Http.wholeResponse response) false] (.ok response) [.sent]
        (Http.wholeResponse response) false [] := {
      trace := rfl
      quiet := by simp [Quiet, IsWrite]
      unread := List.nil_prefix
      accepted := ⟨world, congrArg Prod.fst decided⟩
      refused := fun _ => rfl
      final := fun some_ => absurd rfl some_
      whole := by
        intro answer same
        cases same
        exact ⟨rfl, body.symm⟩ }
    exact delivered.oneDelivery
  | .ok true =>
    obtain ⟨_, _, _, _, emitted, afterEmit, rfl⟩ := Traced.runs_bind.mp afterAsked
    obtain ⟨_, rfl⟩ := Traced.runs_emit.mp emitted
    split_ifs at afterEmit with empty
    · obtain ⟨rfl, _, rfl⟩ := Traced.runs_pure.mp afterEmit
      have delivered : Delivered accept [.sent, .responded (Http.wholeResponse response) true] (.ok response) [.sent]
          (Http.wholeResponse response) true [] := {
        trace := rfl
        quiet := by simp [Quiet, IsWrite]
        unread := List.nil_prefix
        accepted := ⟨world, congrArg Prod.fst decided⟩
        refused := fun _ => rfl
        final := fun some_ => absurd rfl some_
        whole := by
          intro answer same
          cases same
          exact ⟨rfl, by rw [body, empty]; rfl, empty⟩ }
      exact delivered.oneDelivery
    · obtain ⟨_, _, _, _, wrote, afterWrote, rfl⟩ := Traced.runs_bind.mp afterEmit
      obtain ⟨answer, _, _, _, answered, returned, rfl⟩ := Traced.runs_bind.mp afterWrote
      obtain ⟨_, rfl⟩ := Traced.runs_emit.mp wrote
      obtain ⟨_, rfl⟩ := Traced.runs_silent.mp answered
      have delivered {outcome : Outcome HttpResponse} (final : ∀ error, outcome = .error error → error.retryable = false)
          (whole : ∀ answer, outcome = .ok answer → answer.status = response.status ∧ answer.body = []) :
          Delivered accept [.sent, .responded (Http.wholeResponse response) true, .wrote response.body] outcome [.sent]
            (Http.wholeResponse response) true [response.body] := {
        trace := rfl
        quiet := by simp [Quiet, IsWrite]
        unread := by rw [body, List.flatten_singleton]
        accepted := ⟨world, congrArg Prod.fst decided⟩
        refused := fun refused => absurd refused Bool.noConfusion
        final := fun _ => final
        whole := by
          intro answer same
          obtain ⟨status, none_⟩ := whole answer same
          exact ⟨status, by rw [body, List.flatten_singleton], none_⟩ }
      match answer with
      | .error thrown =>
        obtain ⟨rfl, _, rfl⟩ := Traced.runs_pure.mp returned
        apply Delivered.oneDelivery (delivered _ _)
        · rintro error ⟨⟩
          rfl
        · rintro answer ⟨⟩
      | .ok false =>
        obtain ⟨rfl, _, rfl⟩ := Traced.runs_pure.mp returned
        apply Delivered.oneDelivery (delivered _ _)
        · rintro error ⟨⟩
          rfl
        · rintro answer ⟨⟩
      | .ok true =>
        obtain ⟨rfl, _, rfl⟩ := Traced.runs_pure.mp returned
        apply Delivered.oneDelivery (delivered _ _)
        · rintro error ⟨⟩
        · rintro answer ⟨⟩
          exact ⟨rfl, rfl⟩

/-- The default streaming writes once, after all that the transport does. -/
theorem oneDelivery_buffering {send : HttpRequest → World → Outcome HttpResponse × World} {request : HttpRequest}
    {world after : World}
    {outcome : Outcome HttpResponse} {trace : List TransportEvent}
    (ran : Runs ((bufferingClient send).sendStreaming request ⟨some accept, some write⟩) world outcome after trace) :
    OneDelivery accept trace outcome := by
  change Runs (Http.defaultSendStreaming send request _) world outcome after trace at ran
  rw [Http.defaultSendStreaming] at ran
  obtain ⟨_, _, _, _, sent, afterSend, rfl⟩ := Traced.runs_bind.mp ran
  obtain ⟨answer, _, _, _, answered, afterAnswer, rfl⟩ := Traced.runs_bind.mp afterSend
  obtain ⟨_, rfl⟩ := Traced.runs_emit.mp sent
  obtain ⟨_, rfl⟩ := Traced.runs_silent.mp answered
  cases answer with
  | error error =>
    obtain ⟨rfl, _, rfl⟩ := Traced.runs_pure.mp afterAnswer
    exact .inl ⟨by simp [Quiet, IsWrite], error, rfl⟩
  | ok response =>
    dsimp only at afterAnswer
    obtain ⟨result, _, _, _, handed, returned, rfl⟩ := Traced.runs_bind.mp afterAnswer
    have delivery := oneDelivery_handOver handed
    cases result with
    | ok outcome =>
      obtain ⟨rfl, _, rfl⟩ := Traced.runs_pure.mp returned
      rwa [List.append_nil]
    | error thrown =>
      obtain ⟨rfl, _, rfl⟩ := Traced.runs_pure.mp returned
      rwa [List.append_nil]

end Buffering

section Beast

variable {options : Options} {network : Network World} {accept : ℤ → Headers → World → Except Thrown Bool × World}
  {write : Bytes → World → Except Thrown Bool × World}

/-- What is read of a body, and what of it is written: with a sink it is never held, and once the sink has
bytes no failure is retryable. -/
structure BodyRead (stream : Bool) (windows : List Bytes) (body : Bytes) (took : Bool)
    (result : Except Thrown (Outcome (Bytes × Headers × Bool) × Bool)) (pieces : List Bytes) : Prop where
  unread : pieces.flatten <+: windows.flatten
  refused : stream = false → pieces = []
  final : pieces ≠ [] ∨ took = true → ∀ error took', result = .ok (.error error, took') → error.retryable = false
  whole : ∀ body' headers keepAlive took', result = .ok (.ok (body', headers, keepAlive), took') →
    if stream then pieces.flatten = windows.flatten ∧ body' = body else body' = body ++ windows.flatten

/-- A window that brought nothing. -/
theorem BodyRead.skip {stream : Bool} {windows : List Bytes} {body : Bytes} {took : Bool}
    {result : Except Thrown (Outcome (Bytes × Headers × Bool) × Bool)} {pieces : List Bytes}
    (read : BodyRead stream windows body took result pieces) : BodyRead stream ([] :: windows) body took result pieces :=
  ⟨read.unread, read.refused, read.final, read.whole⟩

/-- The loop over the windows, by induction on them. -/
theorem runs_readBody {ending : Except String (Headers × Bool)} {write : Option (Bytes → World → Except Thrown Bool × World)}
    {windows : List Bytes} {body : Bytes} {took : Bool}
    {world after : World} {result : Except Thrown (Outcome (Bytes × Headers × Bool) × Bool)} {trace : List TransportEvent}
    (ran : Runs (Http.BeastHttpClient.readBody options write ending windows body took) world result after trace) :
    ∃ pieces, trace = pieces.map .wrote ∧ BodyRead write.isSome windows body took result pieces := by
  induction windows generalizing body took world trace with
  | nil =>
    cases ending with
    | error message =>
      rw [Http.BeastHttpClient.readBody] at ran
      obtain ⟨rfl, _, rfl⟩ := Traced.runs_pure.mp ran
      refine ⟨[], rfl, List.nil_prefix, fun _ => rfl, ?_, ?_⟩
      · rintro (some_ | rfl) error took' ⟨⟩
        · exact absurd rfl some_
        · rfl
      · rintro body' headers keepAlive took' ⟨⟩
    | ok final =>
      obtain ⟨final, reusable⟩ := final
      rw [Http.BeastHttpClient.readBody] at ran
      obtain ⟨rfl, _, rfl⟩ := Traced.runs_pure.mp ran
      refine ⟨[], rfl, List.nil_prefix, fun _ => rfl, ?_, ?_⟩
      · rintro _ error took' ⟨⟩
      · rintro body' headers keepAlive took' ⟨⟩
        cases write with
        | some write => exact ⟨rfl, rfl⟩
        | none => exact (List.append_nil body).symm
  | cons window windows ih =>
    cases write with
    | none =>
      rw [Http.BeastHttpClient.readBody] at ran
      split_ifs at ran with empty large
      · -- The parser asked for another buffer.
        rw [empty]
        obtain ⟨pieces, same, read⟩ := ih ran
        exact ⟨pieces, same, read.skip⟩
      · obtain ⟨rfl, _, rfl⟩ := Traced.runs_pure.mp ran
        refine ⟨[], rfl, List.nil_prefix, fun _ => rfl, ?_, ?_⟩
        · rintro _ error took' ⟨⟩
          rfl
        · rintro body' headers keepAlive took' ⟨⟩
      · obtain ⟨pieces, rfl, read⟩ := ih ran
        have none_ := read.refused rfl
        refine ⟨pieces, rfl, ?_, read.refused, read.final, ?_⟩
        · rw [none_]
          exact List.nil_prefix
        · intro body' headers keepAlive took' same
          have rest := read.whole body' headers keepAlive took' same
          rw [Option.isSome_none, if_neg Bool.false_ne_true] at rest ⊢
          rw [rest, List.flatten_cons, List.append_assoc]
    | some write =>
      rw [Http.BeastHttpClient.readBody] at ran
      split_ifs at ran with empty
      · rw [empty]
        obtain ⟨pieces, same, read⟩ := ih ran
        exact ⟨pieces, same, read.skip⟩
      · obtain ⟨_, _, _, _, wrote, afterWrote, rfl⟩ := Traced.runs_bind.mp ran
        obtain ⟨answer, _, _, _, answered, continued, rfl⟩ := Traced.runs_bind.mp afterWrote
        obtain ⟨_, rfl⟩ := Traced.runs_emit.mp wrote
        obtain ⟨_, rfl⟩ := Traced.runs_silent.mp answered
        have started : [window].flatten <+: (window :: windows).flatten := by
          rw [List.flatten_singleton, List.flatten_cons]
          exact List.prefix_append _ _
        match answer with
        | .error thrown =>
          obtain ⟨rfl, _, rfl⟩ := Traced.runs_pure.mp continued
          refine ⟨[window], rfl, started, Bool.noConfusion, ?_, ?_⟩
          · rintro _ error took' ⟨⟩
          · rintro body' headers keepAlive took' ⟨⟩
        | .ok false =>
          obtain ⟨rfl, _, rfl⟩ := Traced.runs_pure.mp continued
          refine ⟨[window], rfl, started, Bool.noConfusion, ?_, ?_⟩
          · rintro _ error took' ⟨⟩
            rfl
          · rintro body' headers keepAlive took' ⟨⟩
        | .ok true =>
          obtain ⟨pieces, rfl, read⟩ := ih continued
          refine ⟨window :: pieces, rfl, ?_, Bool.noConfusion, fun _ => read.final (.inr rfl), ?_⟩
          · rw [List.flatten_cons, List.flatten_cons, List.prefix_append_right_inj]
            exact read.unread
          · intro body' headers keepAlive took' same
            obtain ⟨rest, held⟩ := read.whole body' headers keepAlive took' same
            exact ⟨by rw [List.flatten_cons, rest, List.flatten_cons], held⟩

/-- The outcome of a round trip, with what was thrown contained. -/
def tripOutcome (result : Except Thrown Trip) : Outcome HttpResponse :=
  Http.BeastHttpClient.contained false (result.map Trip.outcome)

/-- After the head of a response there is one delivery, and the connection is not stale. -/
theorem oneDelivery_receive {response : WireResponse} {world after : World} {result : Except Thrown Trip}
    {trace : List TransportEvent}
    (ran : Runs (Http.BeastHttpClient.receive options (some ⟨some accept, some write⟩) response) world result after trace) :
    OneDelivery accept trace (tripOutcome result) ∧ ∀ trip, result = .ok trip → trip.stale = false := by
  rw [Http.BeastHttpClient.receive] at ran
  obtain ⟨decision, between, _, _, asked, afterAsked, rfl⟩ := Traced.runs_bind.mp ran
  obtain ⟨decided, rfl⟩ := Traced.runs_silent.mp asked
  cases decision with
  | error thrown =>
    obtain ⟨rfl, _, rfl⟩ := Traced.runs_pure.mp afterAsked
    exact ⟨.inl ⟨quiet_nil, _, rfl⟩, by rintro trip ⟨⟩⟩
  | ok stream =>
    have accepted : ∃ world, (accept response.status response.headers world).1 = .ok stream :=
      ⟨world, congrArg Prod.fst decided⟩
    obtain ⟨_, _, _, _, emitted, afterEmit, rfl⟩ := Traced.runs_bind.mp afterAsked
    obtain ⟨_, rfl⟩ := Traced.runs_emit.mp emitted
    split_ifs at afterEmit with declared
    · obtain ⟨rfl, _, rfl⟩ := Traced.runs_pure.mp afterEmit
      have delivered :
          Delivered accept [.responded response stream] (.error (Http.BeastHttpClient.overResponseCap options)) []
          response stream [] := {
        trace := rfl
        quiet := quiet_nil
        unread := List.nil_prefix
        accepted
        refused := fun _ => rfl
        final := fun some_ => absurd rfl some_
        whole := by rintro answer ⟨⟩ }
      exact ⟨delivered.oneDelivery, by rintro trip ⟨⟩; rfl⟩
    · obtain ⟨read, _, _, _, readBody, returned, rfl⟩ := Traced.runs_bind.mp afterEmit
      obtain ⟨pieces, rfl, facts⟩ := runs_readBody readBody
      have written : (Http.BeastHttpClient.writer (some ⟨some accept, some write⟩) stream).isSome = stream := by
        cases stream with
        | false => rfl
        | true => rfl
      rw [written] at facts
      have delivered {outcome : Outcome HttpResponse}
          (final : pieces ≠ [] → ∀ error, outcome = .error error → error.retryable = false)
          (whole : ∀ answer, outcome = .ok answer → answer.status = response.status ∧
            if stream then pieces.flatten = response.body ∧ answer.body = [] else answer.body = response.body) :
          Delivered accept (.responded response stream :: pieces.map .wrote) outcome [] response stream pieces := {
        trace := rfl
        quiet := quiet_nil
        unread := facts.unread
        accepted
        refused := facts.refused
        final
        whole }
      match read with
      | .error thrown =>
        obtain ⟨rfl, _, rfl⟩ := Traced.runs_pure.mp returned
        rw [List.append_nil, List.singleton_append]
        refine ⟨(delivered ?_ ?_).oneDelivery, by rintro trip ⟨⟩⟩
        · rintro _ error ⟨⟩
          rfl
        · rintro answer ⟨⟩
      | .ok (.error error, took) =>
        obtain ⟨rfl, _, rfl⟩ := Traced.runs_pure.mp returned
        rw [List.append_nil, List.singleton_append]
        refine ⟨(delivered ?_ ?_).oneDelivery, by rintro trip ⟨⟩; rfl⟩
        · rintro some_ other ⟨⟩
          exact facts.final (.inl some_) error took rfl
        · rintro answer ⟨⟩
      | .ok (.ok (body, headers, keepAlive), took) =>
        obtain ⟨rfl, _, rfl⟩ := Traced.runs_pure.mp returned
        rw [List.append_nil, List.singleton_append]
        refine ⟨(delivered ?_ ?_).oneDelivery, by rintro trip ⟨⟩; rfl⟩
        · rintro _ error ⟨⟩
        · rintro answer ⟨⟩
          exact ⟨rfl, facts.whole body headers keepAlive took rfl⟩

/-- A round trip delivers once, and where it finds the connection stale it has written nothing. -/
theorem oneDelivery_roundTrip {request : HttpRequest} {world after : World} {result : Except Thrown Trip}
    {trace : List TransportEvent}
    (ran : Runs (Http.BeastHttpClient.roundTrip options network request
      (some ⟨some accept, some write⟩)) world result after trace) :
    OneDelivery accept trace (tripOutcome result) ∧ ∀ trip, result = .ok trip → trip.stale = true → Quiet trace := by
  rw [Http.BeastHttpClient.roundTrip] at ran
  obtain ⟨_, _, _, _, sent, afterSend, rfl⟩ := Traced.runs_bind.mp ran
  obtain ⟨exchange, _, _, _, exchanged, continued, rfl⟩ := Traced.runs_bind.mp afterSend
  obtain ⟨_, rfl⟩ := Traced.runs_emit.mp sent
  obtain ⟨_, rfl⟩ := Traced.runs_silent.mp exchanged
  have quiet : Quiet [.sent] := by simp [Quiet, IsWrite]
  cases exchange with
  | writeFailed message =>
    obtain ⟨rfl, _, rfl⟩ := Traced.runs_pure.mp continued
    exact ⟨.inl ⟨quiet, _, rfl⟩, fun _ _ _ => quiet⟩
  | readFailed gotSome timedOut message =>
    obtain ⟨rfl, _, rfl⟩ := Traced.runs_pure.mp continued
    exact ⟨.inl ⟨quiet, _, rfl⟩, fun _ _ _ => quiet⟩
  | responded response =>
    obtain ⟨delivery, fresh⟩ := oneDelivery_receive continued
    refine ⟨delivery.prepend quiet, ?_⟩
    intro trip same stale
    rw [fresh trip same] at stale
    cases stale

theorem runs_finish {trip : Trip} {world after : World} {result : Except Thrown (Outcome HttpResponse)}
    {trace : List TransportEvent}
    (ran : Runs (Http.BeastHttpClient.finish network trip) world result after trace) :
    result = .ok trip.outcome ∧ trace = [] := by
  obtain ⟨finished, silent⟩ := Traced.runs_silent.mp ran
  cases finished
  exact ⟨rfl, silent⟩

theorem runs_dial {world after : World} {result : Outcome Unit} {trace : List TransportEvent}
    (ran : Runs (Http.BeastHttpClient.dial network) world result after trace) : trace = [.dialed] := by
  obtain ⟨_, _, _, _, emitted, dialed, rfl⟩ := Traced.runs_bind.mp ran
  rw [(Traced.runs_emit.mp emitted).2, (Traced.runs_silent.mp dialed).2]
  rfl

/-- The redial comes only after a round trip that has written nothing. -/
theorem oneDelivery_sendOn {request : HttpRequest} {reused : Bool} {world after : World}
    {result : Except Thrown (Outcome HttpResponse)}
    {trace : List TransportEvent}
    (ran : Runs (Http.BeastHttpClient.sendOn options network request
      (some ⟨some accept, some write⟩) reused) world result after trace) :
    OneDelivery accept trace (Http.BeastHttpClient.contained false result) := by
  rw [Http.BeastHttpClient.sendOn] at ran
  obtain ⟨first, _, early, _, tripped, continued, rfl⟩ := Traced.runs_bind.mp ran
  obtain ⟨delivery, quiet⟩ := oneDelivery_roundTrip tripped
  cases first with
  | error thrown =>
    obtain ⟨rfl, _, rfl⟩ := Traced.runs_pure.mp continued
    rwa [List.append_nil]
  | ok trip =>
    dsimp only at continued
    split_ifs at continued with again
    · simp only [Bool.and_eq_true, Bool.not_eq_true'] at again
      have silent := quiet trip rfl again.1.2
      obtain ⟨dialed, _, _, _, dialing, afterDial, rfl⟩ := Traced.runs_bind.mp continued
      obtain rfl := runs_dial dialing
      rw [← List.append_assoc]
      have earlier : Quiet (early ++ [.dialed]) := quiet_append.mpr ⟨silent, by simp [Quiet, IsWrite]⟩
      cases dialed with
      | error error =>
        obtain ⟨rfl, _, rfl⟩ := Traced.runs_pure.mp afterDial
        exact .prepend earlier (.inl ⟨quiet_nil, error, rfl⟩)
      | ok connected =>
        obtain ⟨second, _, _, _, retried, returned, rfl⟩ := Traced.runs_bind.mp afterDial
        apply OneDelivery.prepend earlier
        obtain ⟨redelivery, _⟩ := oneDelivery_roundTrip retried
        cases second with
        | error thrown =>
          obtain ⟨rfl, _, rfl⟩ := Traced.runs_pure.mp returned
          rwa [List.append_nil]
        | ok trip =>
          obtain ⟨rfl, rfl⟩ := runs_finish returned
          rwa [List.append_nil]
    · obtain ⟨rfl, rfl⟩ := runs_finish continued
      rwa [List.append_nil]

theorem runs_connect {world after : World} {result : Outcome Bool} {trace : List TransportEvent}
    (ran : Runs (Http.BeastHttpClient.connect network) world result after trace) : Quiet trace := by
  rw [Http.BeastHttpClient.connect] at ran
  obtain ⟨idle, _, _, _, taken, continued, rfl⟩ := Traced.runs_bind.mp ran
  rw [(Traced.runs_silent.mp taken).2]
  split_ifs at continued with reused
  · rw [(Traced.runs_pure.mp continued).2.2]
    exact quiet_nil
  · obtain ⟨_, _, _, _, dialed, returned, rfl⟩ := Traced.runs_bind.mp continued
    rw [runs_dial dialed, (Traced.runs_pure.mp returned).2.2]
    simp [Quiet, IsWrite]

/-- The pooled client delivers once in a call. -/
theorem oneDelivery_beast {request : HttpRequest} {world after : World} {outcome : Outcome HttpResponse}
    {trace : List TransportEvent}
    (ran : Runs ((beastHttpClient options network).sendStreaming request
      ⟨some accept, some write⟩) world outcome after trace) :
    OneDelivery accept trace outcome := by
  change Runs (Http.BeastHttpClient.sendStreaming options network request _) world outcome after trace at ran
  rw [Http.BeastHttpClient.sendStreaming] at ran
  obtain ⟨result, _, _, _, sent, returned, rfl⟩ := Traced.runs_bind.mp ran
  obtain ⟨rfl, _, rfl⟩ := Traced.runs_pure.mp returned
  rw [List.append_nil]
  rw [Http.BeastHttpClient.sendContained] at sent
  cases refused : Http.BeastHttpClient.refusal options network request with
  | some error =>
    rw [refused] at sent
    obtain ⟨rfl, _, rfl⟩ := Traced.runs_pure.mp sent
    exact .inl ⟨quiet_nil, error, rfl⟩
  | none =>
    rw [refused] at sent
    obtain ⟨connection, _, _, _, connected, continued, rfl⟩ := Traced.runs_bind.mp sent
    have quiet := runs_connect connected
    cases connection with
    | error error =>
      obtain ⟨rfl, _, rfl⟩ := Traced.runs_pure.mp continued
      exact .prepend quiet (.inl ⟨quiet_nil, error, rfl⟩)
    | ok reused => exact .prepend quiet (oneDelivery_sendOn continued)

end Beast

/-! ## The loop over the attempts -/

def RetryEvent.attempt? : RetryEvent World → Option (Attempt World)
  | .attempted attempt => some attempt
  | .waited _ => none

/-- The attempts of a call, without the waits between them. -/
def attemptsOf (events : List (RetryEvent World)) : List (Attempt World) :=
  events.filterMap RetryEvent.attempt?

theorem attemptsOf_weave (first : Attempt World) (rest : List (Wait × Attempt World)) :
    attemptsOf (weave first rest) = first :: rest.map Prod.snd := by
  have later : attemptsOf (rest.flatMap fun next => [.waited next.1, .attempted next.2]) = rest.map Prod.snd := by
    induction rest with
    | nil => rfl
    | cons next rest ih =>
      rw [attemptsOf] at ih
      rw [attemptsOf, List.flatMap_cons, List.filterMap_append, ih]
      rfl
  rw [weave, ← later]
  rfl

/-- Only the last attempt of a call writes, and what it writes comes last in it and is of one response: a
prefix of its body, the whole of it where the call succeeds, and with retries no retryable status. -/
def OneResponse (policy : RetryPolicy World) (events : List (RetryEvent World)) (result : Outcome HttpResponse) : Prop :=
  ∃ earlier last, attemptsOf events = earlier ++ [last] ∧ last.outcome = result ∧
    (∀ attempt ∈ earlier, Quiet attempt.trace) ∧
    ((Quiet last.trace ∧ ∃ error, result = .error error) ∨
      ∃ before response streamed pieces,
        last.trace = before ++ .responded response streamed :: pieces.map .wrote ∧ Quiet before ∧
        pieces.flatten <+: response.body ∧ (streamed = false → pieces = []) ∧
        (1 < policy.maxAttempts → pieces ≠ [] → retryableStatus response.status = false) ∧
        ∀ answer, result = .ok answer → answer.status = response.status ∧
          if streamed then pieces.flatten = response.body ∧ answer.body = [] else answer.body = response.body)

section Attempts

variable {platform : Platform World} {transport : HttpClient World} {request : HttpRequest} {policy : RetryPolicy World}
  {interceptors : List (Interceptor World)} {accept : ℤ → Headers → World → Except Thrown Bool × World}
  {write : Bytes → World → Except Thrown Bool × World}

/-- The `accept` that the transport is given. -/
def guardedAccept (policy : RetryPolicy World) (accept : ℤ → Headers → World → Except Thrown Bool × World) (status : ℤ)
    (headers : Headers) (world : World) : Except Thrown Bool × World :=
  if 1 < max policy.maxAttempts 1 ∧ retryableStatus status = true then (.ok false, world) else accept status headers world

theorem guarded_eq : guarded policy ⟨some accept, some write⟩ = ⟨some (guardedAccept policy accept), some write⟩ := by
  rw [guarded]
  split_ifs with several
  · rw [Option.map_some]
    congr 2
    funext status headers world
    rw [guardedAccept]
    simp only [several, true_and]
  · congr 2
    funext status headers world
    rw [guardedAccept, if_neg fun both => several both.1]

/-- With retries, a response with a retryable status is not accepted. -/
theorem guardedAccept_refuses {status : ℤ} {headers : Headers} {world : World} (several : 1 < policy.maxAttempts)
    (accepted : (guardedAccept policy accept status headers world).1 = .ok true) : retryableStatus status = false := by
  cases retried : retryableStatus status with
  | false => rfl
  | true =>
    rw [guardedAccept, if_pos ⟨lt_max_of_lt_left several, retried⟩] at accepted
    cases accepted

/-- What is delivered through the guard. -/
theorem Delivered.guards {trace before : List TransportEvent} {outcome : Outcome HttpResponse} {response : WireResponse}
    {streamed : Bool} {pieces : List Bytes}
    (delivered : Delivered (guardedAccept policy accept) trace outcome before response streamed pieces)
    (several : 1 < policy.maxAttempts) (wrote : pieces ≠ []) : retryableStatus response.status = false := by
  obtain ⟨world, accepted⟩ := delivered.accepted
  cases streamed with
  | false => exact absurd (delivered.refused rfl) wrote
  | true => exact guardedAccept_refuses several accepted

/-- An attempt whose outcome is retried has written nothing. -/
theorem OneDelivery.quiet {trace : List TransportEvent} {outcome : Outcome HttpResponse}
    (delivery : OneDelivery (guardedAccept policy accept) trace outcome) (several : 1 < policy.maxAttempts)
    (retried : Retryable outcome) : Quiet trace := by
  obtain ⟨quiet, _⟩ | ⟨before, response, streamed, pieces, delivered⟩ := delivery
  · exact quiet
  · have none_ : pieces = [] := by
      by_contra wrote
      cases outcome with
      | error error =>
        have final := delivered.final wrote error rfl
        rw [Retryable, final] at retried
        cases retried
      | ok answer =>
        have status := (delivered.whole answer rfl).1
        have refused := delivered.guards several wrote
        have again : retryable (.ok answer) = true := (retryable_iff _).mpr retried
        rw [retryable, status, refused] at again
        cases again
    rw [delivered.trace, none_]
    exact quiet_append.mpr ⟨delivered.quiet, by simp [Quiet, IsWrite]⟩

/-- A transport that delivers once in a call delivers once in all the attempts. -/
theorem oneResponse_of_oneDelivery
    (one : ∀ {accept : ℤ → Headers → World → Except Thrown Bool × World} {outgoing : HttpRequest}
      {world after : World} {outcome : Outcome HttpResponse} {trace : List TransportEvent},
      Runs (transport.sendStreaming outgoing ⟨some accept, some write⟩) world outcome after trace →
        OneDelivery accept trace outcome)
    (world : World) :
    OneResponse policy (sendWithRetries platform transport request policy interceptors
      (some ⟨some accept, some write⟩) world).2.2
      (sendWithRetries platform transport request policy interceptors (some ⟨some accept, some write⟩) world).1 := by
  have ran :=
    Traced.runs_self (sendWithRetries platform transport request policy interceptors (some ⟨some accept, some write⟩)) world
  generalize sendWithRetries platform transport request policy interceptors (some ⟨some accept, some write⟩) world =
    run at ran ⊢
  obtain ⟨result, after, events⟩ := run
  dsimp only at ran ⊢
  obtain ⟨first, rest, trace, number, made, follows⟩ := runs_sendAttempts ran
  have delivery {attempt : Attempt World}
      (made : attempt.Made (sender transport policy (some ⟨some accept, some write⟩)) request interceptors) :
      OneDelivery (guardedAccept policy accept) attempt.trace attempt.outcome := by
    obtain ⟨_, sent⟩ := made.sent
    rw [sender] at sent
    rw [guarded_eq] at sent
    exact one sent
  have each :
      ∀ attempt ∈ first :: rest.map Prod.snd, OneDelivery (guardedAccept policy accept) attempt.trace attempt.outcome := by
    rw [List.forall_mem_cons]
    refine ⟨delivery made, ?_⟩
    intro attempt member
    obtain ⟨later, among, rfl⟩ := List.mem_map.mp member
    exact delivery (follows.made later among)
  obtain ⟨earlier, last, attempts⟩ :=
    (List.eq_nil_or_concat (first :: rest.map Prod.snd)).resolve_left (List.cons_ne_nil _ _)
  rw [List.concat_eq_append] at attempts
  have final := follows.last
  rw [attempts, List.getLast?_concat, Option.map_some, Option.some_inj] at final
  have lastDelivery := each last (by rw [attempts]; exact List.mem_append_right _ (List.mem_singleton_self last))
  refine ⟨earlier, last, by rw [trace, attemptsOf_weave, attempts], final, ?_, ?_⟩
  · intro attempt member
    obtain ⟨index, inside, here⟩ := List.getElem_of_mem member
    have there : (first :: rest.map Prod.snd)[index]? = some attempt := by
      rw [attempts, List.getElem?_append_left inside, List.getElem?_eq_getElem inside, here]
    have lengths := congrArg List.length attempts
    rw [List.length_cons, List.length_map, List.length_append, List.length_singleton] at lengths
    obtain ⟨room, retried⟩ := (follows.goesOn index attempt there).mp (by omega)
    exact (each attempt (attempts ▸ List.mem_append_left _ member)).quiet (by omega) retried
  · rw [← final]
    obtain ⟨quiet, failed⟩ | ⟨before, response, streamed, pieces, delivered⟩ := lastDelivery
    · exact .inl ⟨quiet, failed⟩
    · exact .inr ⟨before, response, streamed, pieces, delivered.trace, delivered.quiet, delivered.unread, delivered.refused,
        delivered.guards, delivered.whole⟩

end Attempts

/-- A sink with both its callbacks never sees two responses, through the pooled client with its redial and
through the streaming that a transport has by default. -/
theorem sink_sees_one_response (platform : Platform World) (request : HttpRequest) (policy : RetryPolicy World)
    (interceptors : List (Interceptor World)) (accept : ℤ → Headers → World → Except Thrown Bool × World)
    (write : Bytes → World → Except Thrown Bool × World) (world : World) (options : Options) (network : Network World)
    (send : HttpRequest → World → Outcome HttpResponse × World) :
    let sink : BodySink World := ⟨some accept, some write⟩
    let pooled := sendWithRetries platform (beastHttpClient options network) request policy interceptors (some sink) world
    let buffering := sendWithRetries platform (bufferingClient send) request policy interceptors (some sink) world
    OneResponse policy pooled.2.2 pooled.1 ∧ OneResponse policy buffering.2.2 buffering.1 :=
  ⟨oneResponse_of_oneDelivery oneDelivery_beast world, oneResponse_of_oneDelivery oneDelivery_buffering world⟩

end OpalCpp.Client

import OpalCpp.Model.Http.BeastServer
import OpalCpp.Proofs.Http.SocketExchange

/-! # The conversations of the server transport

A connection by itself says what a conversation is: requests one after another, each answered before the next is read,
and one end. Every connection of the transport holds such a conversation, whatever the others do and whenever it is
stopped, and the count that a stop waits for is that of the requests without an answer.
-/

namespace OpalCpp.Http

open Bytes (ascii)

/-! ## What is written -/

/-- A field goes behind those of its name, with its value but for blanks around it, and the others stay where they
are. -/
def Inserted (fields : Headers) (field : Bytes × Bytes) (next : Headers) : Prop :=
  ∃ value, value <:+: field.2 ∧ trimSpaces value = trimSpaces field.2 ∧
    (∀ name, next.getAll name = fields.getAll name ++ if headerNameEquals field.1 name then [value] else []) ∧
    ∀ other ∈ next.entries, other = (field.1, value) ∨ other ∈ fields.entries

/-- What Beast promises of the messages that it makes, if it does not throw. -/
structure BeastService.Lawful (service : BeastService) : Prop where
  inserts : ∀ fields field next, service.insert fields field = some next → Inserted fields field next
  declares : ∀ status length declared, service.prepare status length = some (some declared) → declared = length

/-- The fields of one list after those of the other, name by name. -/
theorem BeastService.Lawful.getAll_foldlM {service : BeastService} (lawful : service.Lawful) {fields : List (Bytes × Bytes)}
    {before after : Headers} (folded : fields.foldlM service.insert before = some after) (name : Bytes) :
    (after.getAll name).map trimSpaces =
      (before.getAll name).map trimSpaces ++ (Headers.getAll ⟨fields⟩ name).map trimSpaces := by
  induction fields generalizing before with
  | nil =>
    cases folded
    rw [show Headers.getAll ⟨[]⟩ name = [] from Headers.getAll_nil name, List.map_nil, List.append_nil]
  | cons field fields ih =>
    rw [List.foldlM_cons, Option.bind_eq_bind, Option.bind_eq_some_iff] at folded
    obtain ⟨next, inserted, rest⟩ := folded
    obtain ⟨value, _, blanks, names, _⟩ := lawful.inserts _ _ _ inserted
    rw [ih rest, names, Headers.getAll_cons]
    split_ifs <;> simp [blanks]

theorem BeastService.Lawful.safe_foldlM {service : BeastService} (lawful : service.Lawful) {fields : List (Bytes × Bytes)}
    {before after : Headers} (folded : fields.foldlM service.insert before = some after) (safe : Safe before)
    (safeFields : Safe ⟨fields⟩) : Safe after := by
  induction fields generalizing before with
  | nil =>
    cases folded
    exact safe
  | cons field fields ih =>
    rw [List.foldlM_cons, Option.bind_eq_bind, Option.bind_eq_some_iff] at folded
    obtain ⟨next, inserted, rest⟩ := folded
    obtain ⟨value, within, _, _, members⟩ := lawful.inserts _ _ _ inserted
    have whole := safeFields field List.mem_cons_self
    refine ih rest ?_ (fun other inside => safeFields other (List.mem_cons_of_mem _ inside))
    intro other inside
    rcases members other inside with rfl | old
    · -- No byte of what is kept of a value is a byte that it did not have.
      refine ⟨whole.1, ?_⟩
      rw [validHeaderValue, List.all_eq_true] at whole ⊢
      exact fun byte member => whole.2 byte (within.subset member)
    · exact safe other old

theorem getAll_unframed_filter (headers : Headers) (name : Bytes) :
    Headers.getAll ⟨headers.entries.filter fun field => !isFramingHeader field.1⟩ name =
      if isFramingHeader name then [] else headers.getAll name := by
  rw [Headers.getAll, List.filter_filter, Headers.getAll]
  have congr (field : Bytes × Bytes) (named : headerNameEquals field.1 name = true) :
      isFramingHeader field.1 = isFramingHeader name := by
    simp only [isFramingHeader, headerNameEquals_congr named]
  split_ifs with framing
  · rw [List.map_eq_nil_iff, List.filter_eq_nil_iff]
    intro field _
    cases named : headerNameEquals field.1 name with
    | false => simp
    | true => rw [congr field named, framing]; decide
  · congr 1
    apply List.filter_congr
    intro field _
    cases named : headerNameEquals field.1 name with
    | false => rfl
    | true =>
      rw [congr field named, Bool.eq_false_iff.mpr framing]
      rfl

/-- What is written of a response: what the handler or the gate said of it, but for blanks around the values, with the
framing of the transport and nothing that splits the head. -/
structure Written (response : HttpResponse) (keepAlive head : Bool) (wire : BeastResponse) : Prop where
  status : wire.status = response.status
  kept : wire.keepAlive = keepAlive
  body : wire.body = if head then [] else response.body
  length : ∀ declared, wire.contentLength = some declared → declared = response.body.length
  framing : ∀ name, isFramingHeader name = true → wire.fields.getAll name = []
  fields : ∀ name, isFramingHeader name = false →
    (wire.fields.getAll name).map trimSpaces = (response.headers.getAll name).map trimSpaces
  safe : Safe wire.fields

theorem safe_guardUnsafe (response : HttpResponse) : Safe (guardUnsafe response).headers := by
  rw [guardUnsafe]
  split_ifs with found
  · rw [← findUnsafeHeader_eq_none]
    decide
  · rw [← findUnsafeHeader_eq_none]
    simpa using found

/-- The whole response, as it is made for a request that is not a HEAD. -/
theorem BeastService.Lawful.written_of_toWireResponse {service : BeastService} (lawful : service.Lawful)
    {response : HttpResponse} (safe : Safe response.headers) {keepAlive : Bool} {full : BeastResponse}
    (made : toWireResponse service.insert service.prepare response keepAlive = some full) :
    Written response keepAlive false full := by
  simp only [toWireResponse, Option.bind_eq_bind, Option.bind_eq_some_iff, Option.pure_def, Option.some.injEq] at made
  obtain ⟨fields, folded, length, prepared, rfl⟩ := made
  have names (name : Bytes) : (fields.getAll name).map trimSpaces =
      (if isFramingHeader name then [] else response.headers.getAll name).map trimSpaces := by
    rw [lawful.getAll_foldlM folded, getAll_unframed_filter]
    rfl
  refine ⟨rfl, rfl, rfl, ?_, ?_, ?_, ?_⟩
  · intro declared same
    exact lawful.declares _ _ _ (prepared.trans (congrArg some same))
  · intro name framing
    simpa [framing] using names name
  · intro name other
    rw [names, if_neg (Bool.eq_false_iff.mp other)]
  · exact lawful.safe_foldlM folded (fun _ none_ => absurd none_ List.not_mem_nil)
      (fun field inside => safe field (List.mem_of_mem_filter inside))

/-- A HEAD is answered with the fields and the length of the whole response. -/
theorem BeastService.Lawful.written_of_toHeadWireResponse {service : BeastService} (lawful : service.Lawful)
    {response : HttpResponse} {keepAlive : Bool} {full wire : BeastResponse} (whole : Written response keepAlive false full)
    (made : toHeadWireResponse service.insert full = some wire) : Written response keepAlive true wire := by
  simp only [toHeadWireResponse, Option.bind_eq_bind, Option.bind_eq_some_iff, Option.pure_def, Option.some.injEq] at made
  obtain ⟨fields, folded, rfl⟩ := made
  -- A response that is made has no length among its fields, so that all of them are inserted again.
  have all : (full.fields.entries.filter fun field => !headerNameEquals field.1 (ascii "content-length")) =
      full.fields.entries := by
    have none_ := whole.framing (ascii "content-length") (by decide)
    rw [Headers.getAll, List.map_eq_nil_iff, List.filter_eq_nil_iff] at none_
    rw [List.filter_eq_self]
    exact fun field inside => by simpa using none_ field inside
  rw [all] at folded
  have names (name : Bytes) : (fields.getAll name).map trimSpaces = (full.fields.getAll name).map trimSpaces :=
    lawful.getAll_foldlM folded name
  refine ⟨whole.status, whole.kept, rfl, ?_, ?_, ?_, ?_⟩
  · intro declared same
    obtain ⟨_, _, rfl⟩ := Option.map_eq_some_iff.mp same
    rw [whole.body]
    rfl
  · intro name framing
    simpa [whole.framing name framing] using names name
  · exact fun name other => (names name).trans (whole.fields name other)
  · exact lawful.safe_foldlM folded (fun _ none_ => absurd none_ List.not_mem_nil) whole.safe

theorem BeastService.Lawful.written_of_wireOf {service : BeastService} (lawful : service.Lawful)
    {response : HttpResponse} {keepAlive head : Bool} {wire : BeastResponse}
    (written : service.wireOf response keepAlive head = some wire) :
    Written (guardUnsafe response) keepAlive head wire := by
  rw [wireOf, Option.bind_eq_bind, Option.bind_eq_some_iff] at written
  obtain ⟨full, made, rest⟩ := written
  have whole := lawful.written_of_toWireResponse (safe_guardUnsafe response) made
  cases head with
  | false =>
    cases rest
    exact whole
  | true => exact lawful.written_of_toHeadWireResponse whole rest

/-! ## Steps -/

@[simp] theorem happens_phase (connection : ServerConnection) (happenings : List Happening) :
    (connection.happens happenings).phase = connection.phase := rfl

@[simp] theorem enter_phase (connection : ServerConnection) (phase : ConnectionPhase) :
    (connection.enter phase).phase = phase := rfl

@[simp] theorem close_phase (connection : ServerConnection) : connection.close.phase = .closed := rfl

@[simp] theorem happens_aborted (connection : ServerConnection) (happenings : List Happening) :
    (connection.happens happenings).aborted = connection.aborted := rfl

@[simp] theorem enter_aborted (connection : ServerConnection) (phase : ConnectionPhase) :
    (connection.enter phase).aborted = connection.aborted := rfl

/-- What is told of an end, if anything is. -/
def Signals (happenings : List Happening) : Prop := happenings = [] ∨ ∃ kind, happenings = [.event kind]

theorem signals_nil : Signals [] := .inl rfl

theorem notify_log (service : BeastService) (state : BeastState) (kind : EventKind) (connection : ServerConnection) :
    ∃ signals, Signals signals ∧ service.notify state kind connection = connection.happens signals := by
  rw [BeastService.notify]
  split_ifs
  · refine ⟨[], .inl rfl, ?_⟩
    rw [ServerConnection.happens, List.append_nil]
  · exact ⟨[.event kind], .inr ⟨kind, rfl⟩, rfl⟩

/-- The steps of a connection, by what it waits for. -/
inductive Stepped (service : BeastService) (state : BeastState) (alive : ℕ → Bool) (index : ℕ)
    (connection : ServerConnection) :
    BeastState × ServerConnection → Prop where
  | handshaken (phase : connection.phase = .handshaking) :
      Stepped service state alive index connection (state, connection.enter .reading)
  | handshakeFailed (phase : connection.phase = .handshaking) {signals : List Happening} (told : Signals signals) :
      Stepped service state alive index connection (state, (connection.happens signals).enter .closed)
  | read (phase : connection.phase = .reading) (result : RequestRead) (minted : TraceContext) :
      Stepped service state alive index connection (service.onRead state connection result minted)
  | handled {request : HttpRequest} {keepAlive : Bool} (phase : connection.phase = .dispatched request keepAlive)
      (minted : TraceContext) : Stepped service state alive index connection
        (state, (service.call connection request minted).1.enter
          (.answered (service.call connection request minted).2 keepAlive (request.method = ascii "HEAD")))
  | responds {response : HttpResponse} {keepAlive head : Bool}
      (phase : connection.phase = .answered response keepAlive head) :
      Stepped service state alive index connection (state, service.respond connection response keepAlive head)
  | written {wire : BeastResponse} {keepAlive : Bool} (phase : connection.phase = .writing wire keepAlive) (failed : Bool) :
      Stepped service state alive index connection (service.onWritten state connection wire keepAlive failed)
  | rejectionSent (phase : connection.phase = .rejecting) (failed : Bool) : Stepped service state alive index connection
      (state, (connection.happens [.halfClosed]).enter (if failed then .closed else .draining kOverLimitDrainBudgetBytes))
  | drained {budget : ℕ} (phase : connection.phase = .draining budget) :
      Stepped service state alive index connection (state, connection.enter .closed)
  | discarded {budget count : ℕ} (phase : connection.phase = .draining budget) (small : count ≤ kDrainBuffer) :
      Stepped service state alive index connection (state, (connection.happens [.discarded count]).enter
        (if budget ≤ count then .closed else .draining (budget - count)))
  | gateRan {request : HttpRequest} {keepAlive : Bool} (phase : connection.phase = .gating request keepAlive) :
      Stepped service state alive index connection
        (state, connection.enter (.gated request keepAlive (service.options.invokeGateGuarded request)))
  | gateAnswers {request : HttpRequest} {keepAlive : Bool} {refusal : Option HttpResponse}
      (phase : connection.phase = .gated request keepAlive refusal) :
      Stepped service state alive index connection (service.onGateAnswers state connection request keepAlive refusal)
  | accepted {request : HttpRequest} (phase : connection.phase = .accepting request) (failed : Bool) :
      Stepped service state alive index connection (state, service.onAccepted state connection request failed)
  | registers (phase : connection.phase = .admitted) :
      Stepped service state alive index connection (BeastService.register state alive index connection)
  | registered {lost : Bool} (phase : connection.phase = .registering lost) : Stepped service state alive index connection
      (state, { connection with phase := .session, aborted := connection.aborted || lost })
  | sessionEnds (phase : connection.phase = .session) :
      Stepped service state alive index connection (state, connection.enter .closed)

theorem Stepped.of_connectionStep {service : BeastService} {state : BeastState} {alive : ℕ → Bool} {index : ℕ}
    {connection : ServerConnection} {step : ConnectionStep} {result : BeastState × ServerConnection}
    (stepped : service.connectionStep state alive index connection step = some result) :
    Stepped service state alive index connection result := by
  obtain ⟨phase, log, aborted⟩ := connection
  cases step with
  | handshaken failure =>
    cases phase <;> simp only [BeastService.connectionStep, reduceCtorEq] at stepped
    rcases failure with _ | _ | _ <;> cases stepped
    · exact .handshaken rfl
    · have quiet := @Stepped.handshakeFailed service state alive index ⟨.handshaking, log, aborted⟩ rfl [] signals_nil
      rwa [ServerConnection.happens, List.append_nil] at quiet
    · obtain ⟨signals, told, same⟩ := notify_log service state .tlsHandshakeFailure ⟨.handshaking, log, aborted⟩
      rw [same]
      exact .handshakeFailed rfl told
  | read result minted =>
    cases phase <;> simp only [BeastService.connectionStep, reduceCtorEq] at stepped
    cases stepped
    exact .read rfl result minted
  | handled minted =>
    cases phase <;> simp only [BeastService.connectionStep, reduceCtorEq] at stepped
    cases stepped
    exact .handled rfl minted
  | responds =>
    cases phase <;> simp only [BeastService.connectionStep, reduceCtorEq] at stepped
    cases stepped
    exact .responds rfl
  | written failed =>
    cases phase <;> simp only [BeastService.connectionStep, reduceCtorEq] at stepped
    · cases stepped
      exact .written rfl failed
    · cases stepped
      exact .rejectionSent rfl failed
  | drained count =>
    cases count with
    | none =>
      cases phase <;> simp only [BeastService.connectionStep, reduceCtorEq] at stepped
      cases stepped
      exact .drained rfl
    | some count =>
      cases phase with
      | draining budget =>
        simp only [BeastService.connectionStep, Option.ite_none_right_eq_some, Option.some.injEq] at stepped
        obtain ⟨sized, rfl⟩ := stepped
        exact .discarded rfl sized.2
      | _ => cases stepped
  | gateRan =>
    cases phase <;> simp only [BeastService.connectionStep, reduceCtorEq] at stepped
    cases stepped
    exact .gateRan rfl
  | gateAnswers =>
    cases phase <;> simp only [BeastService.connectionStep, reduceCtorEq] at stepped
    cases stepped
    exact .gateAnswers rfl
  | accepted failed =>
    cases phase <;> simp only [BeastService.connectionStep, reduceCtorEq] at stepped
    cases stepped
    exact .accepted rfl failed
  | registers =>
    cases phase <;> simp only [BeastService.connectionStep, reduceCtorEq] at stepped
    cases stepped
    exact .registers rfl
  | registered =>
    cases phase <;> simp only [BeastService.connectionStep, reduceCtorEq] at stepped
    cases stepped
    exact .registered rfl
  | sessionEnds =>
    cases phase <;> simp only [BeastService.connectionStep, reduceCtorEq] at stepped
    cases stepped
    exact .sessionEnds rfl

/-! ## Conversations -/

/-- Where a conversation is. -/
inductive Stage where
  | idle
  /-- A request is read. -/
  | asked (request : HttpRequest) (keepAlive : Bool)
  /-- What is to be answered is known. -/
  | decided (request : HttpRequest) (keepAlive head : Bool) (response : HttpResponse)
  | upgrading (request : HttpRequest)
  | rejecting
  /-- What is left of a rejected request is discarded, so much of it so far. -/
  | draining (count : ℕ)
  | done

/-- What may happen on a connection, and where that leaves it. -/
inductive Conversation (service : BeastService) : List Happening → Stage → Prop where
  | start : Conversation service [] .idle
  | asked {log : List Happening} (before : Conversation service log .idle) (request : HttpRequest) (keepAlive : Bool) :
      Conversation service (log ++ [.request request keepAlive]) (.asked request keepAlive)
  | called {log : List Happening} {request : HttpRequest} {keepAlive : Bool}
      (before : Conversation service log (.asked request keepAlive)) (minted : TraceContext) :
      Conversation service (log ++ [.called request (invokeHandlerGuarded service.handler minted request)])
        (.decided request keepAlive (request.method = ascii "HEAD") (invokeHandlerGuarded service.handler minted request))
  | upgrade {log : List Happening} (before : Conversation service log .idle) (request : HttpRequest) :
      Conversation service (log ++ [.upgrade request]) (.upgrading request)
  | refused {log : List Happening} {request : HttpRequest} {response : HttpResponse}
      (before : Conversation service log (.upgrading request)) (keepAlive : Bool)
      (refusal : service.options.invokeGateGuarded request = some response) :
      Conversation service (log ++ [.request request keepAlive, .refused request response])
        (.decided request keepAlive false response)
  | upgraded {log : List Happening} {request : HttpRequest} (before : Conversation service log (.upgrading request))
      (admitted : service.options.invokeGateGuarded request = none) :
      Conversation service (log ++ [.upgraded (service.options.upgradeWire request)]) .done
  | answered {log : List Happening} {request : HttpRequest} {head : Bool} {response : HttpResponse} {wire : BeastResponse}
      (before : Conversation service log (.decided request true head response))
      (written : service.wireOf response true head = some wire) : Conversation service (log ++ [.responded wire]) .idle
  | last {log : List Happening} {request : HttpRequest} {head : Bool} {response : HttpResponse} {wire : BeastResponse}
      (before : Conversation service log (.decided request false head response))
      (written : service.wireOf response false head = some wire) :
      Conversation service (log ++ [.responded wire, .halfClosed]) .done
  | lost {log signals : List Happening} {request : HttpRequest} {keepAlive head : Bool} {response : HttpResponse}
      (before : Conversation service log (.decided request keepAlive head response)) (told : Signals signals) :
      Conversation service (log ++ (.lost :: (signals ++ [.halfClosed]))) .done
  | ended {log signals closing : List Happening} {stage : Stage} (before : Conversation service log stage)
      (waits : stage = .idle ∨ ∃ request, stage = .upgrading request) (told : Signals signals)
      (closes : closing = [] ∨ closing = [.halfClosed]) : Conversation service (log ++ (signals ++ closing)) .done
  | rejected {log : List Happening} (before : Conversation service log .idle) (status : ℤ) (method target : Bytes) :
      Conversation service (log ++ [.rejected status method target]) .rejecting
  | rejectionSent {log : List Happening} (before : Conversation service log .rejecting) :
      Conversation service (log ++ [.halfClosed]) (.draining 0)
  | discarded {log : List Happening} {total : ℕ} (before : Conversation service log (.draining total)) {count : ℕ}
      (within : total < kOverLimitDrainBudgetBytes) (small : count ≤ kDrainBuffer) :
      Conversation service (log ++ [.discarded count]) (.draining (total + count))

/-- Where the conversation of a connection is, by what the connection waits for. -/
inductive Holds (service : BeastService) : ConnectionPhase → Stage → Prop where
  | handshaking : Holds service .handshaking .idle
  | reading : Holds service .reading .idle
  | dispatched (request : HttpRequest) (keepAlive : Bool) :
      Holds service (.dispatched request keepAlive) (.asked request keepAlive)
  | answered (request : HttpRequest) (keepAlive head : Bool) (response : HttpResponse) :
      Holds service (.answered response keepAlive head) (.decided request keepAlive head response)
  | writing {request : HttpRequest} {keepAlive head : Bool} {response : HttpResponse} {wire : BeastResponse}
      (written : service.wireOf response keepAlive head = some wire) :
      Holds service (.writing wire keepAlive) (.decided request keepAlive head response)
  | abandoned (request : HttpRequest) (keepAlive head : Bool) (response : HttpResponse) :
      Holds service .abandoned (.decided request keepAlive head response)
  | rejecting : Holds service .rejecting .rejecting
  | draining {total : ℕ} (within : total < kOverLimitDrainBudgetBytes) :
      Holds service (.draining (kOverLimitDrainBudgetBytes - total)) (.draining total)
  | gating (request : HttpRequest) (keepAlive : Bool) : Holds service (.gating request keepAlive) (.upgrading request)
  | gated (request : HttpRequest) (keepAlive : Bool) :
      Holds service (.gated request keepAlive (service.options.invokeGateGuarded request)) (.upgrading request)
  | accepting {request : HttpRequest} (admitted : service.options.invokeGateGuarded request = none) :
      Holds service (.accepting request) (.upgrading request)
  | admitted : Holds service .admitted .done
  | registering (lost : Bool) : Holds service (.registering lost) .done
  | session : Holds service .session .done
  | drained (total : ℕ) : Holds service .closed (.draining total)
  | closed : Holds service .closed .done

/-- A connection holds a conversation. -/
def Converses (service : BeastService) (connection : ServerConnection) : Prop :=
  ∃ stage, Conversation service connection.log stage ∧ Holds service connection.phase stage

section Steps

variable {service : BeastService} {state : BeastState} {connection : ServerConnection}

theorem converses_respond {request : HttpRequest} {keepAlive head : Bool} {response : HttpResponse}
    (decided : Conversation service connection.log (.decided request keepAlive head response)) :
    Converses service (service.respond connection response keepAlive head) := by
  rw [BeastService.respond]
  cases written : service.wireOf response keepAlive head with
  | none => exact ⟨_, decided, .abandoned request keepAlive head response⟩
  | some wire => exact ⟨_, decided, .writing written⟩

theorem converses_dispatch {request : HttpRequest} {keepAlive : Bool}
    (asked : Conversation service connection.log (.asked request keepAlive)) (minted : TraceContext) :
    Converses service (service.dispatch connection request keepAlive minted) := by
  rw [BeastService.dispatch]
  split_ifs
  · exact ⟨_, asked, .dispatched request keepAlive⟩
  · exact converses_respond (asked.called minted)

theorem converses_onRead (idle : Conversation service connection.log .idle) (result : RequestRead) (minted : TraceContext) :
    Converses service (service.onRead state connection result minted).2 := by
  cases result with
  | overLimit status method target => exact ⟨_, idle.rejected status method target, .rejecting⟩
  | failed failure gotSome =>
    rw [BeastService.onRead]
    cases readFailureEvent failure gotSome with
    | none => exact ⟨_, idle.ended (.inl rfl) signals_nil (.inr rfl), .closed⟩
    | some kind =>
      obtain ⟨signals, told, same⟩ := notify_log service state kind connection
      have ended := idle.ended (.inl rfl) told (.inr rfl)
      rw [← List.append_assoc] at ended
      simp only [same]
      exact ⟨_, ended, .closed⟩
  | request request keepAlive upgrade =>
    rw [BeastService.onRead]
    split_ifs
    · exact ⟨_, idle.ended (.inl rfl) signals_nil (.inr rfl), .closed⟩
    · exact ⟨_, idle.upgrade request, .gating request keepAlive⟩
    · exact converses_dispatch (idle.asked request _) minted

theorem converses_onWritten {request : HttpRequest} {keepAlive head : Bool} {response : HttpResponse} {wire : BeastResponse}
    (decided : Conversation service connection.log (.decided request keepAlive head response))
    (written : service.wireOf response keepAlive head = some wire) (failed : Bool) :
    Converses service (service.onWritten state connection wire keepAlive failed).2 := by
  rw [BeastService.onWritten]
  cases failed with
  | true =>
    obtain ⟨signals, told, same⟩ := notify_log service { state with active := state.active - 1 } .dropped
      (connection.happens [.lost])
    have ended := decided.lost told
    have log : connection.log ++ (.lost :: (signals ++ [.halfClosed])) =
        connection.log ++ [.lost] ++ signals ++ [.halfClosed] := by simp
    rw [log] at ended
    simp only [same]
    exact ⟨_, ended, .closed⟩
  | false =>
    cases keepAlive with
    | true => exact ⟨_, decided.answered written, .reading⟩
    | false =>
      have ended := decided.last written
      have log :
          connection.log ++ [.responded wire, .halfClosed] = connection.log ++ [.responded wire] ++ [.halfClosed] := by
        simp
      rw [log] at ended
      exact ⟨_, ended, .closed⟩

theorem converses_onGateAnswers {request : HttpRequest}
    (upgrading : Conversation service connection.log (.upgrading request))
    (keepAlive : Bool) : Converses service
      (service.onGateAnswers state connection request keepAlive (service.options.invokeGateGuarded request)).2 := by
  rw [BeastService.onGateAnswers.eq_def]
  split_ifs
  · exact ⟨_, upgrading.ended (.inr ⟨request, rfl⟩) signals_nil (.inr rfl), .closed⟩
  · cases refusal : service.options.invokeGateGuarded request with
    | none => exact ⟨_, upgrading, .accepting refusal⟩
    | some response => exact converses_respond (upgrading.refused _ refusal)

theorem converses_onAccepted {request : HttpRequest} (upgrading : Conversation service connection.log (.upgrading request))
    (admitted : service.options.invokeGateGuarded request = none) (failed : Bool) :
    Converses service (service.onAccepted state connection request failed) := by
  rw [BeastService.onAccepted]
  split_ifs
  · obtain ⟨signals, told, same⟩ := notify_log service state .upgradeFailure connection
    have ended := upgrading.ended (.inr ⟨request, rfl⟩) told (.inl rfl)
    rw [List.append_nil] at ended
    rw [same]
    exact ⟨_, ended, .closed⟩
  · exact ⟨_, upgrading.upgraded admitted, .session⟩
  · exact ⟨_, upgrading.upgraded admitted, .admitted⟩

/-- A step of a connection goes on with its conversation. -/
theorem converses_step {alive : ℕ → Bool} {index : ℕ} {result : BeastState × ServerConnection}
    (converses : Converses service connection) (stepped : Stepped service state alive index connection result) :
    Converses service result.2 := by
  obtain ⟨stage, conversation, holds⟩ := converses
  cases stepped with
  | handshaken phase =>
    rw [phase] at holds
    cases holds
    exact ⟨_, conversation, .reading⟩
  | handshakeFailed phase told =>
    rw [phase] at holds
    cases holds
    have ended := conversation.ended (.inl rfl) told (.inl rfl)
    rw [List.append_nil] at ended
    exact ⟨_, ended, .closed⟩
  | read phase result minted =>
    rw [phase] at holds
    cases holds
    exact converses_onRead conversation result minted
  | handled phase minted =>
    rw [phase] at holds
    cases holds
    exact ⟨_, conversation.called minted, .answered _ _ _ _⟩
  | responds phase =>
    rw [phase] at holds
    cases holds
    exact converses_respond conversation
  | written phase failed =>
    rw [phase] at holds
    cases holds with
    | writing written => exact converses_onWritten conversation written failed
  | rejectionSent phase failed =>
    rw [phase] at holds
    cases holds
    cases failed with
    | true => exact ⟨_, conversation.rejectionSent, .drained 0⟩
    | false => exact ⟨_, conversation.rejectionSent, @Holds.draining service 0 (by decide)⟩
  | drained phase =>
    rw [phase] at holds
    cases holds
    exact ⟨_, conversation, .drained _⟩
  | discarded phase small =>
    rw [phase] at holds
    cases holds with
    | draining within =>
      refine ⟨_, conversation.discarded within small, ?_⟩
      simp only [enter_phase]
      split_ifs with spent
      · exact .drained _
      · rw [Nat.sub_sub]
        exact .draining (by omega)
  | gateRan phase =>
    rw [phase] at holds
    cases holds
    exact ⟨_, conversation, .gated _ _⟩
  | gateAnswers phase =>
    rw [phase] at holds
    cases holds
    exact converses_onGateAnswers conversation _
  | accepted phase failed =>
    rw [phase] at holds
    cases holds with
    | accepting admitted => exact converses_onAccepted conversation admitted failed
  | registers phase =>
    rw [phase] at holds
    cases holds
    rw [BeastService.register]
    split_ifs
    · exact ⟨_, conversation, .registering true⟩
    · exact ⟨_, conversation, .registering false⟩
  | registered phase =>
    rw [phase] at holds
    cases holds
    exact ⟨_, conversation, .session⟩
  | sessionEnds phase =>
    rw [phase] at holds
    cases holds
    exact ⟨_, conversation, .closed⟩

end Steps

/-! ## What a conversation has of each kind -/

namespace Happening

def request? : Happening → Option (HttpRequest × Bool)
  | .request asked keepAlive => some (asked, keepAlive)
  | _ => none

/-- The request that the handler is called with, or that the gate refuses. -/
def decided? : Happening → Option HttpRequest
  | .called asked _ => some asked
  | .refused asked _ => some asked
  | _ => none

/-- The end of an answer: it is written, or the peer is gone. -/
def answer? : Happening → Option (Option BeastResponse)
  | .responded wire => some (some wire)
  | .lost => some none
  | _ => none

def event? : Happening → Option EventKind
  | .event kind => some kind
  | _ => none

end Happening

/-- The requests that are read, and whether each is to be the last. -/
def requestsOf (log : List Happening) : List (HttpRequest × Bool) := log.filterMap Happening.request?

def decisionsOf (log : List Happening) : List HttpRequest := log.filterMap Happening.decided?

def answersOf (log : List Happening) : List (Option BeastResponse) := log.filterMap Happening.answer?

def eventsOf (log : List Happening) : List EventKind := log.filterMap Happening.event?

/-- The request that is not answered yet. -/
def Stage.pending : Stage → List (HttpRequest × Bool)
  | .asked request keepAlive => [(request, keepAlive)]
  | .decided request keepAlive _ _ => [(request, keepAlive)]
  | _ => []

/-- The request of which it is not known yet what it is answered with. -/
def Stage.undecided : Stage → List HttpRequest
  | .asked request _ => [request]
  | _ => []

/-- The response to a request: of the handler, or of the gate that refuses its upgrade. -/
inductive Origin (service : BeastService) (request : HttpRequest) : Bool → HttpResponse → Prop where
  | handled (minted : TraceContext) :
      Origin service request (request.method = ascii "HEAD") (invokeHandlerGuarded service.handler minted request)
  | refused {response : HttpResponse} (refusal : service.options.invokeGateGuarded request = some response) :
      Origin service request false response

/-- What is written for a request is its response. -/
def Answered (service : BeastService) (asked : HttpRequest × Bool) (answer : Option BeastResponse) : Prop :=
  ∀ wire ∈ answer, ∃ head response, Origin service asked.1 head response ∧ Written (guardUnsafe response) asked.2 head wire

section Accounts

variable {service : BeastService} {log : List Happening} {stage : Stage}

theorem Conversation.origin {request : HttpRequest} {keepAlive head : Bool} {response : HttpResponse}
    (conversation : Conversation service log (.decided request keepAlive head response)) :
    Origin service request head response := by
  cases conversation with
  | called _ minted => exact .handled minted
  | refused _ _ refusal => exact .refused refusal

theorem requestsOf_append (log more : List Happening) : requestsOf (log ++ more) = requestsOf log ++ requestsOf more :=
  List.filterMap_append

theorem answersOf_append (log more : List Happening) : answersOf (log ++ more) = answersOf log ++ answersOf more :=
  List.filterMap_append

theorem decisionsOf_append (log more : List Happening) : decisionsOf (log ++ more) = decisionsOf log ++ decisionsOf more :=
  List.filterMap_append

/-- Happenings that are no requests, no answers and no decisions. -/
def Plain (happenings : List Happening) : Prop :=
  requestsOf happenings = [] ∧ answersOf happenings = [] ∧ decisionsOf happenings = []

theorem Plain.append {first second : List Happening} (one : Plain first) (other : Plain second) :
    Plain (first ++ second) := by
  rw [Plain, requestsOf_append, answersOf_append, decisionsOf_append, one.1, one.2.1, one.2.2]
  exact other

theorem Signals.plain {signals : List Happening} (told : Signals signals) : Plain signals := by
  rcases told with rfl | ⟨kind, rfl⟩ <;> exact ⟨rfl, rfl, rfl⟩

theorem closing_plain {closing : List Happening} (closes : closing = [] ∨ closing = [.halfClosed]) : Plain closing := by
  rcases closes with rfl | rfl <;> exact ⟨rfl, rfl, rfl⟩

/-- The answers so far are those to the requests, but for one that is pending. -/
def Answers (service : BeastService) (log : List Happening) (pending : List (HttpRequest × Bool)) : Prop :=
  ∃ done, requestsOf log = done ++ pending ∧ List.Forall₂ (Answered service) done (answersOf log)

theorem Answers.plain {pending : List (HttpRequest × Bool)} (answers : Answers service log pending)
    {more : List Happening} (plain : requestsOf more = [] ∧ answersOf more = []) :
    Answers service (log ++ more) pending := by
  obtain ⟨done, same, answered⟩ := answers
  refine ⟨done, ?_, ?_⟩
  · rw [requestsOf_append, plain.1, List.append_nil, same]
  · rwa [answersOf_append, plain.2, List.append_nil]

theorem Answers.asked (answers : Answers service log []) {more : List Happening} {asked : HttpRequest × Bool}
    (one : requestsOf more = [asked] ∧ answersOf more = []) : Answers service (log ++ more) [asked] := by
  obtain ⟨done, same, answered⟩ := answers
  refine ⟨done, ?_, ?_⟩
  · rw [requestsOf_append, one.1, same, List.append_nil]
  · rwa [answersOf_append, one.2, List.append_nil]

theorem Answers.answered {asked : HttpRequest × Bool} (answers : Answers service log [asked]) {more : List Happening}
    {answer : Option BeastResponse} (one : requestsOf more = [] ∧ answersOf more = [answer])
    (right : Answered service asked answer) : Answers service (log ++ more) [] := by
  obtain ⟨done, same, answered⟩ := answers
  refine ⟨done ++ [asked], ?_, ?_⟩
  · rw [requestsOf_append, one.1, same, List.append_nil]
  · rw [answersOf_append, one.2]
    exact List.rel_append answered (.cons right .nil)

/-- Requests and answers alternate. -/
theorem Conversation.answers (lawful : service.Lawful)
    (conversation : Conversation service log stage) : Answers service log stage.pending := by
  have wrote {log : List Happening} {request : HttpRequest} {keepAlive head : Bool} {response : HttpResponse}
      {wire : BeastResponse} (before : Conversation service log (.decided request keepAlive head response))
      (written : service.wireOf response keepAlive head = some wire) :
      Answered service (request, keepAlive) (some wire) := by
    intro _ same
    cases same
    exact ⟨head, response, before.origin, lawful.written_of_wireOf written⟩
  induction conversation with
  | start => exact ⟨[], rfl, .nil⟩
  | asked _ _ _ ih => exact ih.asked ⟨rfl, rfl⟩
  | called _ _ ih => exact ih.plain ⟨rfl, rfl⟩
  | upgrade _ _ ih => exact ih.plain ⟨rfl, rfl⟩
  | refused _ _ _ ih => exact ih.asked ⟨rfl, rfl⟩
  | upgraded _ _ ih => exact ih.plain ⟨rfl, rfl⟩
  | answered before written ih => exact ih.answered ⟨rfl, rfl⟩ (wrote before written)
  | last before written ih => exact ih.answered ⟨rfl, rfl⟩ (wrote before written)
  | lost _ told ih =>
    have plain := told.plain.append (show Plain [.halfClosed] from ⟨rfl, rfl, rfl⟩)
    refine ih.answered ⟨plain.1, congrArg (none :: ·) plain.2.1⟩ ?_
    intro _ none_
    cases none_
  | ended _ waits told closes ih =>
    have plain := told.plain.append (closing_plain closes)
    rcases waits with rfl | ⟨request, rfl⟩ <;> exact ih.plain ⟨plain.1, plain.2.1⟩
  | rejected _ _ _ _ ih => exact ih.plain ⟨rfl, rfl⟩
  | rejectionSent _ ih => exact ih.plain ⟨rfl, rfl⟩
  | discarded _ _ _ ih => exact ih.plain ⟨rfl, rfl⟩

/-- A request is decided once, in its turn. -/
theorem Conversation.decisions (conversation : Conversation service log stage) :
    (requestsOf log).map Prod.fst = decisionsOf log ++ stage.undecided := by
  have plainly {log more : List Happening} {rest : List HttpRequest} (requests : requestsOf more = [])
      (decisions : decisionsOf more = []) (before : (requestsOf log).map Prod.fst = decisionsOf log ++ rest) :
      (requestsOf (log ++ more)).map Prod.fst = decisionsOf (log ++ more) ++ rest := by
    rw [requestsOf_append, decisionsOf_append, requests, decisions, List.append_nil, List.append_nil, before]
  induction conversation with
  | start => rfl
  | asked _ _ _ ih =>
    rw [requestsOf_append, decisionsOf_append, List.map_append, ih]
    rfl
  | called _ _ ih =>
    rw [requestsOf_append, decisionsOf_append, List.map_append, ih]
    rfl
  | upgrade _ _ ih => exact plainly rfl rfl ih
  | refused _ _ _ ih =>
    rw [requestsOf_append, decisionsOf_append, List.map_append, ih, List.append_assoc, List.append_assoc]
    rfl
  | upgraded _ _ ih => exact plainly rfl rfl ih
  | answered _ _ ih => exact plainly rfl rfl ih
  | last _ _ ih => exact plainly rfl rfl ih
  | lost _ told ih =>
    have plain := told.plain.append (show Plain [.halfClosed] from ⟨rfl, rfl, rfl⟩)
    exact plainly plain.1 plain.2.2 ih
  | ended _ waits told closes ih =>
    have plain := told.plain.append (closing_plain closes)
    rcases waits with rfl | ⟨request, rfl⟩ <;> exact plainly plain.1 plain.2.2 ih
  | rejected _ _ _ _ ih => exact plainly rfl rfl ih
  | rejectionSent _ ih => exact plainly rfl rfl ih
  | discarded _ _ _ ih => exact plainly rfl rfl ih

/-- Every request is to be kept alive but for one that is pending. -/
def Kept (log : List Happening) (pending : List (HttpRequest × Bool)) : Prop :=
  ∃ done, requestsOf log = done ++ pending ∧ ∀ asked ∈ done, asked.2 = true

theorem Kept.plain {more : List Happening} (requests : requestsOf more = []) {pending : List (HttpRequest × Bool)}
    (kept : Kept log pending) : Kept (log ++ more) pending := by
  rwa [Kept, requestsOf_append, requests, List.append_nil]

theorem Kept.asked {more : List Happening} {asked : HttpRequest × Bool} (requests : requestsOf more = [asked])
    (kept : Kept log []) : Kept (log ++ more) [asked] := by
  obtain ⟨done, same, all⟩ := kept
  exact ⟨done, by rw [requestsOf_append, requests, same, List.append_nil], all⟩

theorem Kept.answered {more : List Happening} (requests : requestsOf more = []) {request : HttpRequest}
    (kept : Kept log [(request, true)]) : Kept (log ++ more) [] := by
  obtain ⟨done, same, all⟩ := kept
  refine ⟨done ++ [(request, true)], by rw [requestsOf_append, requests, same], ?_⟩
  intro asked inside
  rcases List.mem_append.mp inside with before | here
  · exact all asked before
  · rw [List.mem_singleton.mp here]

theorem Kept.dropLast {pending : List (HttpRequest × Bool)} (short : pending.length ≤ 1) (kept : Kept log pending) :
    ∀ asked ∈ (requestsOf log).dropLast, asked.2 = true := by
  obtain ⟨done, same, all⟩ := kept
  rw [same]
  intro asked inside
  cases pending with
  | nil =>
    rw [List.append_nil] at inside
    exact all asked (List.mem_of_mem_dropLast inside)
  | cons last rest =>
    obtain rfl : rest = [] := List.length_eq_zero_iff.mp (by simpa using short)
    rw [List.dropLast_concat] at inside
    exact all asked inside

theorem Conversation.kept (conversation : Conversation service log stage) :
    ∃ pending, pending.length ≤ 1 ∧ (stage = .done ∨ pending = stage.pending) ∧ Kept log pending := by
  induction conversation with
  | start => exact ⟨[], by simp, .inr rfl, [], rfl, by simp⟩
  | asked _ request keepAlive ih =>
    obtain ⟨_, _, done | rfl, kept⟩ := ih
    · cases done
    · exact ⟨_, le_rfl, .inr rfl, kept.asked rfl⟩
  | called _ _ ih =>
    obtain ⟨pending, short, done | same, kept⟩ := ih
    · cases done
    · exact ⟨pending, short, .inr same, kept.plain rfl⟩
  | upgrade _ _ ih =>
    obtain ⟨pending, short, done | same, kept⟩ := ih
    · cases done
    · exact ⟨pending, short, .inr same, kept.plain rfl⟩
  | refused _ keepAlive _ ih =>
    obtain ⟨_, _, done | rfl, kept⟩ := ih
    · cases done
    · exact ⟨_, le_rfl, .inr rfl, kept.asked rfl⟩
  | upgraded _ _ ih =>
    obtain ⟨pending, short, _, kept⟩ := ih
    exact ⟨pending, short, .inl rfl, kept.plain rfl⟩
  | answered _ _ ih =>
    obtain ⟨_, _, done | rfl, kept⟩ := ih
    · cases done
    · exact ⟨[], by simp, .inr rfl, kept.answered rfl⟩
  | last _ _ ih =>
    obtain ⟨pending, short, _, kept⟩ := ih
    exact ⟨pending, short, .inl rfl, kept.plain rfl⟩
  | lost _ told ih =>
    obtain ⟨pending, short, _, kept⟩ := ih
    have plain := told.plain.append (show Plain [.halfClosed] from ⟨rfl, rfl, rfl⟩)
    exact ⟨pending, short, .inl rfl, kept.plain (show requestsOf (.lost :: _) = [] from plain.1)⟩
  | ended _ _ told closes ih =>
    obtain ⟨pending, short, _, kept⟩ := ih
    exact ⟨pending, short, .inl rfl, kept.plain (told.plain.append (closing_plain closes)).1⟩
  | rejected _ _ _ _ ih =>
    obtain ⟨pending, short, done | same, kept⟩ := ih
    · cases done
    · exact ⟨pending, short, .inr same, kept.plain rfl⟩
  | rejectionSent _ ih =>
    obtain ⟨pending, short, done | same, kept⟩ := ih
    · cases done
    · exact ⟨pending, short, .inr same, kept.plain rfl⟩
  | discarded _ _ _ ih =>
    obtain ⟨pending, short, done | same, kept⟩ := ih
    · cases done
    · exact ⟨pending, short, .inr same, kept.plain rfl⟩

/-- The stages in which the connection may be half-closed. -/
def Stage.closes : Stage → Bool
  | .draining _ => true
  | .done => true
  | _ => false

/-- What is told of no end. -/
def Unclosed (log : List Happening) : Prop := .halfClosed ∉ log ∧ eventsOf log = [] ∧ ∀ wire, .upgraded wire ∉ log

theorem Unclosed.append {more : List Happening} (one : Unclosed log) (other : Unclosed more) : Unclosed (log ++ more) := by
  refine ⟨?_, ?_, ?_⟩
  · rw [List.mem_append, not_or]
    exact ⟨one.1, other.1⟩
  · rw [eventsOf, List.filterMap_append]
    exact congrArg₂ _ one.2.1 other.2.1
  · intro wire
    rw [List.mem_append, not_or]
    exact ⟨one.2.2 wire, other.2.2 wire⟩

theorem Conversation.unclosed (conversation : Conversation service log stage) (open_ : stage.closes = false) :
    Unclosed log := by
  induction conversation with
  | start => exact ⟨List.not_mem_nil, rfl, fun _ => List.not_mem_nil⟩
  | asked _ _ _ ih => exact (ih rfl).append ⟨by simp, rfl, by simp⟩
  | called _ _ ih => exact (ih rfl).append ⟨by simp, rfl, by simp⟩
  | upgrade _ _ ih => exact (ih rfl).append ⟨by simp, rfl, by simp⟩
  | refused _ _ _ ih => exact (ih rfl).append ⟨by simp, rfl, by simp⟩
  | answered _ _ ih => exact (ih rfl).append ⟨by simp, rfl, by simp⟩
  | rejected _ _ _ _ ih => exact (ih rfl).append ⟨by simp, rfl, by simp⟩
  | upgraded => cases open_
  | last => cases open_
  | lost => cases open_
  | ended => cases open_
  | rejectionSent => cases open_
  | discarded => cases open_

/-- The end of a log: nothing, or a closing and what is discarded behind it, no more than one read over the budget. -/
def Closing (log : List Happening) : Prop :=
  .halfClosed ∉ log ∨ ∃ before, ∃ counts : List ℕ, .halfClosed ∉ before ∧
    log = before ++ .halfClosed :: counts.map .discarded ∧ counts.sum < kOverLimitDrainBudgetBytes + kDrainBuffer

theorem Conversation.draining {total : ℕ} (conversation : Conversation service log (.draining total)) :
    ∃ before, ∃ counts : List ℕ, Unclosed before ∧ log = before ++ .halfClosed :: counts.map .discarded ∧
      counts.sum = total ∧ total < kOverLimitDrainBudgetBytes + kDrainBuffer := by
  generalize same : Stage.draining total = stage at conversation
  induction conversation generalizing total with
  | rejectionSent before =>
    cases same
    exact ⟨_, [], before.unclosed rfl, rfl, rfl, by decide⟩
  | @discarded log total _ count within small ih =>
    cases same
    obtain ⟨before, counts, unclosed, rfl, rfl, _⟩ := ih rfl
    refine ⟨before, counts ++ [count], unclosed, ?_, List.sum_append.trans (by simp), by omega⟩
    simp
  | _ => cases same

/-- What an end looks like: at most one event, and nothing but discards behind a closing. -/
structure Ended (log : List Happening) : Prop where
  closing : Closing log
  events : (eventsOf log).length ≤ 1
  upgraded : ∀ wire, .upgraded wire ∉ log.dropLast

theorem Unclosed.ended (unclosed : Unclosed log) : Ended log := by
  refine ⟨.inl unclosed.1, ?_, fun wire inside => unclosed.2.2 wire (List.mem_of_mem_dropLast inside)⟩
  rw [unclosed.2.1]
  exact Nat.zero_le 1

/-- A log without an end, with what is told of one and perhaps a closing. -/
theorem Unclosed.ended_append (unclosed : Unclosed log) {signals closing : List Happening} (told : Signals signals)
    (closes : closing = [] ∨ closing = [.halfClosed]) : Ended (log ++ (signals ++ closing)) := by
  have quiet : .halfClosed ∉ signals ∧ (eventsOf signals).length ≤ 1 ∧ ∀ wire, .upgraded wire ∉ signals := by
    rcases told with rfl | ⟨kind, rfl⟩
    · exact ⟨List.not_mem_nil, Nat.zero_le 1, fun _ => List.not_mem_nil⟩
    · exact ⟨by simp, le_rfl, by simp⟩
  have before : .halfClosed ∉ log ++ signals := by
    rw [List.mem_append, not_or]
    exact ⟨unclosed.1, quiet.1⟩
  have eventless : eventsOf closing = [] ∧ ∀ wire, .upgraded wire ∉ closing := by
    rcases closes with rfl | rfl
    · exact ⟨rfl, fun _ => List.not_mem_nil⟩
    · exact ⟨rfl, by simp⟩
  refine ⟨?_, ?_, ?_⟩
  · rcases closes with rfl | rfl
    · left
      rwa [List.append_nil]
    · right
      exact ⟨log ++ signals, [], before, by simp, by decide⟩
  · have events : eventsOf (log ++ (signals ++ closing)) = eventsOf signals := by
      rw [eventsOf, List.filterMap_append, List.filterMap_append]
      exact (congrArg₂ (fun first last => first ++ (_ ++ last)) unclosed.2.1 eventless.1).trans (List.append_nil _)
    rw [events]
    exact quiet.2.1
  · intro wire inside
    have whole := List.mem_of_mem_dropLast inside
    rw [List.mem_append, List.mem_append] at whole
    rcases whole with early | told | late
    · exact unclosed.2.2 wire early
    · exact quiet.2.2 wire told
    · exact eventless.2 wire late

theorem Conversation.ended_done (conversation : Conversation service log .done) : Ended log := by
  cases conversation with
  | @upgraded log request before _ =>
    have unclosed := before.unclosed rfl
    have silent : eventsOf (log ++ [.upgraded (service.options.upgradeWire request)]) = [] := by
      rw [eventsOf, List.filterMap_append, List.append_eq_nil_iff]
      exact ⟨unclosed.2.1, rfl⟩
    refine ⟨.inl ?_, ?_, ?_⟩
    · rw [List.mem_append, not_or]
      exact ⟨unclosed.1, by simp⟩
    · rw [silent]
      exact Nat.zero_le 1
    · rw [List.dropLast_concat]
      exact unclosed.2.2
  | @last log _ _ _ wire before _ =>
    have unclosed := (before.unclosed rfl).append (show Unclosed [.responded wire] from ⟨by simp, rfl, by simp⟩)
    have ended := unclosed.ended_append signals_nil (.inr rfl)
    rwa [List.append_assoc] at ended
  | @lost log signals _ _ _ _ before told =>
    have unclosed := (before.unclosed rfl).append (show Unclosed [.lost] from ⟨by simp, rfl, by simp⟩)
    have ended := unclosed.ended_append told (.inr rfl)
    rwa [List.append_assoc] at ended
  | ended before waits told closes =>
    refine (before.unclosed ?_).ended_append told closes
    rcases waits with rfl | ⟨request, rfl⟩ <;> rfl

theorem Conversation.ended_draining {total : ℕ} (conversation : Conversation service log (.draining total)) : Ended log := by
  obtain ⟨before, counts, unclosed, rfl, rfl, small⟩ := conversation.draining
  have silent : eventsOf (before ++ .halfClosed :: counts.map .discarded) = [] := by
    rw [eventsOf, List.filterMap_append, List.append_eq_nil_iff]
    refine ⟨unclosed.2.1, ?_⟩
    rw [List.filterMap_eq_nil_iff]
    simp [Happening.event?]
  refine ⟨.inr ⟨before, counts, unclosed.1, rfl, small⟩, ?_, ?_⟩
  · rw [silent]
    exact Nat.zero_le 1
  · intro wire inside
    have whole := List.mem_of_mem_dropLast inside
    rw [List.mem_append] at whole
    rcases whole with early | late
    · exact unclosed.2.2 wire early
    · simp at late

/-- What the transport promises of a connection. -/
structure Orderly (service : BeastService) (log : List Happening) : Prop where
  /-- At most one request is not answered yet, and the answers are those to the others, in order. -/
  answered : ∃ pending, pending.length ≤ 1 ∧ Answers service log pending
  /-- The handler is called, or the gate refuses, once for each request, in order. -/
  decided : ∃ undecided, undecided.length ≤ 1 ∧ (requestsOf log).map Prod.fst = decisionsOf log ++ undecided
  /-- Nothing is read behind a request that is not to be kept alive. -/
  kept : ∀ asked ∈ (requestsOf log).dropLast, asked.2 = true
  ended : Ended log

theorem Conversation.orderly (lawful : service.Lawful)
    (conversation : Conversation service log stage) : Orderly service log where
  answered := ⟨stage.pending, by cases stage <;> simp [Stage.pending], conversation.answers lawful⟩
  decided := ⟨stage.undecided, by cases stage <;> simp [Stage.undecided], conversation.decisions⟩
  kept := by
    obtain ⟨pending, short, _, kept⟩ := conversation.kept
    exact kept.dropLast short
  ended := by
    cases stage with
    | done => exact conversation.ended_done
    | draining total => exact conversation.ended_draining
    | _ => exact (conversation.unclosed rfl).ended

end Accounts

/-! ## Runs -/

/-- The requests of a connection that the count has in it. -/
def ConnectionPhase.counted : ConnectionPhase → ℤ
  | .dispatched .. => 1
  | .answered .. => 1
  | .writing .. => 1
  | .abandoned => 1
  | _ => 0

/-- The requests without an answer. -/
def unanswered (log : List Happening) : ℤ := (requestsOf log).length - (answersOf log).length

section Counts

variable {service : BeastService} {state : BeastState} {connection : ServerConnection}

theorem counted_eq {stage : Stage} (lawful : service.Lawful)
    (conversation : Conversation service connection.log stage) (holds : Holds service connection.phase stage) :
    connection.phase.counted = unanswered connection.log := by
  obtain ⟨done, same, answered⟩ := conversation.answers lawful
  rw [unanswered, same, List.length_append, answered.length_eq]
  obtain ⟨phase, log, aborted⟩ := connection
  cases holds <;> simp [ConnectionPhase.counted, Stage.pending]

@[simp] theorem notify_phase (state : BeastState) (kind : EventKind) (connection : ServerConnection) :
    (service.notify state kind connection).phase = connection.phase := by
  rw [BeastService.notify]
  split_ifs <;> rfl

theorem counted_respond (connection : ServerConnection) (response : HttpResponse) (keepAlive head : Bool) :
    (service.respond connection response keepAlive head).phase.counted = 1 := by
  rw [BeastService.respond]
  cases service.wireOf response keepAlive head <;> rfl

theorem counted_dispatch (connection : ServerConnection) (request : HttpRequest) (keepAlive : Bool) (minted : TraceContext) :
    (service.dispatch connection request keepAlive minted).phase.counted = 1 := by
  rw [BeastService.dispatch]
  split_ifs
  · rfl
  · exact counted_respond _ _ _ _

/-- A step of a connection changes the count as it changes what the connection has in it. -/
theorem active_step {alive : ℕ → Bool} {index : ℕ} {result : BeastState × ServerConnection}
    (stepped : Stepped service state alive index connection result) :
    result.1.active = state.active + (result.2.phase.counted - connection.phase.counted) := by
  cases stepped with
  | read phase result minted =>
    rw [phase]
    cases result with
    | overLimit => simp [BeastService.onRead, ConnectionPhase.counted]
    | failed failure gotSome =>
      rw [BeastService.onRead]
      cases readFailureEvent failure gotSome <;> simp [ConnectionPhase.counted]
    | request request keepAlive upgrade =>
      rw [BeastService.onRead]
      split_ifs
      · simp [ConnectionPhase.counted]
      · simp [ConnectionPhase.counted]
      · simp only [counted_dispatch]
        rfl
  | responds phase =>
    rw [phase, counted_respond]
    simp [ConnectionPhase.counted]
  | written phase failed =>
    rw [phase, BeastService.onWritten]
    split_ifs <;> simp [ConnectionPhase.counted, sub_eq_add_neg]
  | rejectionSent phase failed =>
    rw [phase]
    cases failed <;> simp [ConnectionPhase.counted]
  | discarded phase =>
    rw [phase, enter_phase]
    split_ifs <;> simp [ConnectionPhase.counted]
  | @gateAnswers request keepAlive refusal phase =>
    rw [phase, BeastService.onGateAnswers.eq_def]
    split_ifs
    · simp [ConnectionPhase.counted]
    · cases refusal with
      | none => simp [ConnectionPhase.counted]
      | some response =>
        simp only [counted_respond]
        rfl
  | accepted phase failed =>
    rw [phase, BeastService.onAccepted]
    split_ifs <;> simp [ConnectionPhase.counted]
  | registers phase =>
    rw [phase, BeastService.register]
    split_ifs <;> simp [ConnectionPhase.counted]
  | handshaken phase => simp [phase, ConnectionPhase.counted]
  | handshakeFailed phase => simp [phase, ConnectionPhase.counted]
  | handled phase => simp [phase, ConnectionPhase.counted]
  | drained phase => simp [phase, ConnectionPhase.counted]
  | gateRan phase => simp [phase, ConnectionPhase.counted]
  | registered phase => simp [phase, ConnectionPhase.counted]
  | sessionEnds phase => simp [phase, ConnectionPhase.counted]

end Counts

namespace BeastServer

variable {service : BeastService}

/-- A step of a connection, in the transport. -/
theorem step_connection {server next : BeastServer} {index : ℕ} {step : ConnectionStep}
    (stepped : server.step service (.connection index step) = some next) :
    ∃ connection result, server.connections[index]? = some connection ∧
      Stepped service server.state server.alive index connection result ∧
      next = { server with state := result.1, connections := server.connections.set index result.2 } := by
  simp only [BeastServer.step, Option.bind_eq_bind, Option.bind_eq_some_iff] at stepped
  obtain ⟨connection, found, result, stepped, same⟩ := stepped
  cases same
  exact ⟨connection, result, found, Stepped.of_connectionStep stepped, rfl⟩

/-- What the transport keeps: a conversation on each connection, and the count of the requests in them. -/
structure Sound (service : BeastService) (server : BeastServer) : Prop where
  converse : ∀ connection ∈ server.connections, Converses service connection
  active : server.state.active = (server.connections.map fun connection => connection.phase.counted).sum

theorem sum_set {α : Type*} (weight : α → ℤ) {items : List α} {index : ℕ} {old : α} (found : items[index]? = some old)
    (new : α) :
    ((items.set index new).map weight).sum = (items.map weight).sum + (weight new - weight old) := by
  induction items generalizing index with
  | nil => cases found
  | cons item items ih =>
    cases index with
    | zero =>
      cases found
      simp only [List.set_cons_zero, List.map_cons, List.sum_cons]
      omega
    | succ index =>
      simp only [List.set_cons_succ, List.map_cons, List.sum_cons, ih found]
      omega

theorem mem_modify {α : Type*} {change : α → α} {items : List α} {index : ℕ} {item : α}
    (inside : item ∈ items.modify index change) :
    ∃ old ∈ items, item = old ∨ item = change old := by
  obtain ⟨place, found⟩ := List.mem_iff_getElem?.mp inside
  rw [List.getElem?_modify, Option.map_eq_map, Option.map_eq_some_iff] at found
  obtain ⟨old, member, same⟩ := found
  refine ⟨old, List.mem_of_getElem? member, ?_⟩
  split_ifs at same
  · exact .inr same.symm
  · exact .inl same.symm

theorem map_modify {α β : Type*} {change : α → α} {weight : α → β} (same : ∀ item, weight (change item) = weight item)
    (items : List α) (index : ℕ) : (items.modify index change).map weight = items.map weight := by
  apply List.ext_getElem?
  intro place
  rw [List.getElem?_map, List.getElem?_map, List.getElem?_modify, Option.map_eq_map, Option.map_map]
  congr 1
  funext item
  rw [Function.comp_apply]
  split_ifs
  · exact same item
  · rfl

theorem Sound.step {server next : BeastServer} {label : BeastServerLabel} (sound : Sound service server)
    (stepped : server.step service label = some next) : Sound service next := by
  cases label with
  | connected tls =>
    simp only [BeastServer.step, Option.ite_none_left_eq_some, Option.some.injEq] at stepped
    obtain ⟨_, rfl⟩ := stepped
    constructor
    · intro connection inside
      rcases List.mem_append.mp inside with old | new
      · exact sound.converse connection old
      · rw [List.mem_singleton.mp new]
        cases tls
        · exact ⟨_, .start, .reading⟩
        · exact ⟨_, .start, .handshaking⟩
    · simp only [List.map_append, List.sum_append, sound.active]
      cases tls <;> simp [ConnectionPhase.counted]
  | connection index step =>
    obtain ⟨connection, result, found, went, rfl⟩ := step_connection stepped
    constructor
    · intro other inside
      rcases List.mem_or_eq_of_mem_set inside with old | rfl
      · exact sound.converse other old
      · exact converses_step (sound.converse connection (List.mem_of_getElem? found)) went
    · simp only [sum_set _ found, active_step went, sound.active]
  | stop =>
    cases stepped
    exact ⟨sound.converse, sound.active⟩
  | sweep =>
    simp only [BeastServer.step, Option.ite_none_right_eq_some, Option.some.injEq] at stepped
    obtain ⟨_, rfl⟩ := stepped
    exact ⟨sound.converse, sound.active⟩
  | abort =>
    rw [BeastServer.step] at stepped
    split at stepped
    · cases stepped
    · next index rest aborting =>
      cases stepped
      constructor
      · intro connection inside
        obtain ⟨old, member, rfl | rfl⟩ := mem_modify inside
        · exact sound.converse _ member
        · exact sound.converse old member
      · have same : ((server.connections.modify index fun connection => { connection with aborted := true }).map
            fun connection => connection.phase.counted) = server.connections.map fun connection =>
              connection.phase.counted :=
          map_modify (by intro connection; rfl) _ _
        exact sound.active.trans (congrArg List.sum same.symm)

/-- In every run the transport keeps it. -/
theorem Sound.of_run {labels : List BeastServerLabel} {server : BeastServer}
    (reached : (machine service).run {} labels = some server) : Sound service server :=
  (machine service).invariant_of_run (Sound service) (fun _ _ _ sound stepped => sound.step stepped)
    ⟨fun _ none_ => absurd none_ List.not_mem_nil, rfl⟩ reached

/-- In every run of the transport, in whatever order its connections take their steps, each of them is orderly: its
requests are decided and answered one by one in the order in which they are read, with what the handler or the gate
said, and its end is the only one. The count that a stop waits for is that of the requests without an answer. -/
theorem conversations (lawful : service.Lawful)
    {labels : List BeastServerLabel} {server : BeastServer} (reached : (machine service).run {} labels = some server) :
    (∀ connection ∈ server.connections, Orderly service connection.log) ∧
      server.state.active = (server.connections.map fun connection => unanswered connection.log).sum := by
  have sound := Sound.of_run reached
  constructor
  · intro connection inside
    obtain ⟨stage, conversation, _⟩ := sound.converse connection inside
    exact conversation.orderly lawful
  · rw [sound.active]
    congr 1
    apply List.map_congr_left
    intro connection inside
    obtain ⟨stage, conversation, holds⟩ := sound.converse connection inside
    exact counted_eq lawful conversation holds

/-- The fields with one more behind the last one of its name. -/
def insertBehind : List (Bytes × Bytes) → Bytes × Bytes → List (Bytes × Bytes)
  | [], field => [field]
  | first :: rest, field =>
    if headerNameEquals first.1 field.1 && rest.all (fun other => !headerNameEquals other.1 field.1) then
      first :: field :: rest
    else first :: insertBehind rest field

theorem getAll_insertBehind (fields : List (Bytes × Bytes)) (field : Bytes × Bytes) (name : Bytes) :
    Headers.getAll ⟨insertBehind fields field⟩ name =
      Headers.getAll ⟨fields⟩ name ++ if headerNameEquals field.1 name then [field.2] else [] := by
  induction fields with
  | nil =>
    rw [insertBehind, Headers.getAll_cons]
    split_ifs <;> rfl
  | cons first rest ih =>
    rw [insertBehind]
    by_cases place : (headerNameEquals first.1 field.1 && rest.all fun other => !headerNameEquals other.1 field.1) = true
    · rw [if_pos place]
      rw [Bool.and_eq_true, List.all_eq_true] at place
      rw [Headers.getAll_cons, Headers.getAll_cons, Headers.getAll_cons]
      by_cases named : headerNameEquals field.1 name = true
      · -- No field behind the first one has the name.
        have none_ : Headers.getAll ⟨rest⟩ name = [] := by
          rw [Headers.getAll, List.map_eq_nil_iff, List.filter_eq_nil_iff]
          intro other inside
          have apart := place.2 other inside
          rw [headerNameEquals_comm, headerNameEquals_congr named, headerNameEquals_comm] at apart
          simpa using apart
        have same : headerNameEquals first.1 name = true := (headerNameEquals_congr place.1 name).trans named
        rw [if_pos named, if_pos same, if_pos same, if_pos named, none_]
        rfl
      · rw [if_neg named, if_neg named, List.append_nil]
    · rw [if_neg place, Headers.getAll_cons, ih, Headers.getAll_cons]
      split_ifs <;> rfl

theorem mem_insertBehind {fields : List (Bytes × Bytes)} {field other : Bytes × Bytes}
    (inside : other ∈ insertBehind fields field) : other = field ∨ other ∈ fields := by
  induction fields with
  | nil => exact .inl (List.mem_singleton.mp inside)
  | cons first rest ih =>
    rw [insertBehind] at inside
    split_ifs at inside
    · simp only [List.mem_cons] at inside ⊢
      tauto
    · rcases List.mem_cons.mp inside with rfl | later
      · exact .inr List.mem_cons_self
      · exact (ih later).imp_right (List.mem_cons_of_mem _)

theorem trimSpaces_infix (text : Bytes) : trimSpaces text <:+: text :=
  (List.rdropWhile_prefix _ _).isInfix.trans (List.dropWhile_suffix _).isInfix

theorem trimSpaces_trimSpaces (text : Bytes) : trimSpaces (trimSpaces text) = trimSpaces text := by
  have front : (trimSpaces text).dropWhile isBlank = trimSpaces text := by
    rw [List.dropWhile_eq_self_iff]
    intro nonempty
    -- What is left is a prefix of the text without the blanks before it.
    have same := List.IsPrefix.getElem (List.rdropWhile_prefix isBlank (text.dropWhile isBlank)) nonempty
    exact same ▸ List.dropWhile_get_zero_not isBlank text _
  rw [trimSpaces, front, trimSpaces, List.rdropWhile_idempotent]

/-- A server that says what it is asked for. A value loses the blanks around it when it is inserted. -/
def echo : BeastService where
  options := {}
  handler := some fun request =>
    .ok { headers := ⟨[(ascii "vary", ascii " origin"), (ascii "etag", ascii "1"), (ascii "Vary", ascii "range ")]⟩
          body := request.target }
  insert fields field := some ⟨insertBehind fields.entries (field.1, trimSpaces field.2)⟩
  prepare _ length := some (some length)

theorem echo_lawful : echo.Lawful where
  inserts fields field next same := by
    cases same
    exact ⟨trimSpaces field.2, trimSpaces_infix _, trimSpaces_trimSpaces _,
      getAll_insertBehind fields.entries (field.1, trimSpaces field.2), fun _ inside => mem_insertBehind inside⟩
  declares _ _ _ same := (Option.some.inj (Option.some.inj same)).symm

def minted : TraceContext := ⟨ascii "10000000000000002000000000000000", ascii "3000000000000000", true⟩

/-- Two connections, of which the second is answered first, and a stop before the first one is. -/
def crossed : List BeastServerLabel :=
  [.connected false, .connected false,
    .connection 0 (.read (.request { target := ascii "/first" } true false) minted),
    .connection 1 (.read (.request { target := ascii "/second" } false false) minted),
    .connection 1 (.handled minted), .connection 1 .responds, .connection 1 (.written false), .stop,
    .connection 0 (.handled minted), .connection 0 .responds, .connection 0 (.written false),
    .connection 0 (.read (.request { target := ascii "/third" } true false) minted)]

/-- The third request is counted, and the connection that it is read on is not kept alive. -/
theorem conversations_crossed : ∃ server, (machine echo).run {} crossed = some server ∧
    (∀ connection ∈ server.connections, Orderly echo connection.log) ∧
    (server.connections.map fun connection => unanswered connection.log).sum = 1 ∧
    (server.connections.map fun connection => (requestsOf connection.log).map Prod.snd) = [[true, false], [false]] := by
  have counts : ((machine echo).run {} crossed).map (fun server => (server.state.active,
      server.connections.map fun connection => (requestsOf connection.log).map Prod.snd)) =
        some (1, [[true, false], [false]]) := by decide
  obtain ⟨server, reached, same⟩ := Option.map_eq_some_iff.mp counts
  obtain ⟨orderly, active⟩ := conversations echo_lawful reached
  rw [Prod.mk.injEq] at same
  exact ⟨server, reached, orderly, active.symm.trans same.1, same.2⟩

end BeastServer

end OpalCpp.Http

import OpalCpp.Proofs.Http.ServerConversations

/-! # The stop of the server transport

Once it is stopping, the transport takes no connection, reads one more request of a connection at most, and completes
no upgrade of which the session is not aborted. The sweep races with the registrations: a session is found by the sweep
or finds that it is too late, so that none that is served outlives it.
-/

namespace OpalCpp.Http

/-! ## Requests -/

/-- The requests that a connection may still be read of while the transport is stopping. -/
def ConnectionPhase.room : ConnectionPhase → ℕ
  | .handshaking => 1
  | .reading => 1
  | .dispatched _ keepAlive => if keepAlive then 1 else 0
  | .answered _ keepAlive _ => if keepAlive then 1 else 0
  | .writing _ keepAlive => if keepAlive then 1 else 0
  | _ => 0

theorem room_le_one (phase : ConnectionPhase) : phase.room ≤ 1 := by
  cases phase <;> simp only [ConnectionPhase.room] <;> first | omega | (split_ifs <;> omega)

/-- A connection goes on while the transport is stopping: what is read of it is not kept alive. -/
def Winding (before after : ServerConnection) : Prop :=
  ∃ more, requestsOf after.log = requestsOf before.log ++ more ∧ more.length + after.phase.room ≤ before.phase.room ∧
    ∀ asked ∈ more, asked.2 = false

theorem Winding.refl (connection : ServerConnection) : Winding connection connection :=
  ⟨[], (List.append_nil _).symm, by simp, by simp⟩

theorem Winding.trans {first second third : ServerConnection} (one : Winding first second) (other : Winding second third) :
    Winding first third := by
  obtain ⟨more, requests, room, last⟩ := one
  obtain ⟨rest, later, least, also⟩ := other
  refine ⟨more ++ rest, by rw [later, requests, List.append_assoc], by rw [List.length_append]; omega, ?_⟩
  intro asked inside
  rcases List.mem_append.mp inside with early | late
  · exact last asked early
  · exact also asked late

section Steps

variable {service : BeastService} {state : BeastState} {connection : ServerConnection}

/-- Nothing is read, and no room is made. -/
theorem Winding.of_plain {after : ServerConnection} {happenings : List Happening}
    (log : after.log = connection.log ++ happenings)
    (requests : requestsOf happenings = []) (room : after.phase.room ≤ connection.phase.room) : Winding connection after :=
  ⟨[], by rw [log, requestsOf_append, requests], by simpa using room, by simp⟩

theorem respond_log (connection : ServerConnection) (response : HttpResponse) (keepAlive head : Bool) :
    (service.respond connection response keepAlive head).log = connection.log := by
  rw [BeastService.respond]
  cases service.wireOf response keepAlive head <;> rfl

theorem room_respond_le (connection : ServerConnection) (response : HttpResponse) (keepAlive head : Bool) :
    (service.respond connection response keepAlive head).phase.room ≤ if keepAlive then 1 else 0 := by
  rw [BeastService.respond]
  cases service.wireOf response keepAlive head with
  | some wire => exact le_rfl
  | none => exact Nat.zero_le _

theorem dispatch_log (connection : ServerConnection) (request : HttpRequest) (keepAlive : Bool) (minted : TraceContext) :
    ∃ happenings, (service.dispatch connection request keepAlive minted).log = connection.log ++ happenings ∧
      requestsOf happenings = [] := by
  rw [BeastService.dispatch]
  split_ifs
  · exact ⟨[], (List.append_nil _).symm, rfl⟩
  · exact ⟨_, respond_log _ _ _ _, rfl⟩

theorem room_dispatch_le (connection : ServerConnection) (request : HttpRequest) (keepAlive : Bool) (minted : TraceContext) :
    (service.dispatch connection request keepAlive minted).phase.room ≤ if keepAlive then 1 else 0 := by
  rw [BeastService.dispatch]
  by_cases pooled : service.options.pooled = true
  · rw [if_pos pooled]
    exact le_rfl
  · rw [if_neg pooled]
    exact room_respond_le _ _ _ _

/-- Nothing but requests to come is in a closed connection. -/
theorem winding_step {alive : ℕ → Bool} {index : ℕ} {result : BeastState × ServerConnection}
    (stopping : state.stopping = true)
    (stepped : Stepped service state alive index connection result) : Winding connection result.2 := by
  have quiet {state : BeastState} (stopping : state.stopping = true) (kind : EventKind) (connection : ServerConnection) :
      service.notify state kind connection = connection := by
    rw [BeastService.notify, stopping, Bool.or_true, if_pos rfl]
  cases stepped with
  | handshaken phase => exact .of_plain (List.append_nil _).symm rfl (by simp [phase, ConnectionPhase.room])
  | @handshakeFailed phase signals told => exact .of_plain rfl told.plain.1 (by simp [phase, ConnectionPhase.room])
  | read phase result minted =>
    cases result with
    | overLimit status method target => exact .of_plain rfl rfl (by simp [BeastService.onRead, phase, ConnectionPhase.room])
    | failed failure gotSome =>
      rw [BeastService.onRead]
      cases readFailureEvent failure gotSome with
      | none => exact .of_plain rfl rfl (by simp [phase, ConnectionPhase.room])
      | some kind =>
        simp only [quiet stopping]
        exact .of_plain rfl rfl (by simp [phase, ConnectionPhase.room])
    | request request keepAlive upgrade =>
      rw [BeastService.onRead]
      simp only [stopping, if_true, Bool.not_true, Bool.and_false]
      split_ifs
      · exact .of_plain rfl rfl (by simp [phase, ConnectionPhase.room])
      · obtain ⟨happenings, log, plain⟩ :=
          @dispatch_log service (connection.happens [.request request false]) request false minted
        have room := @room_dispatch_le service (connection.happens [.request request false]) request false minted
        rw [if_neg Bool.false_ne_true, Nat.le_zero] at room
        refine ⟨[(request, false)], ?_, ?_, by simp⟩
        · simp only []
          rw [log, requestsOf_append, plain, List.append_nil]
          exact requestsOf_append _ _
        · simp only []
          rw [room, phase]
          rfl
  | handled phase minted => exact .of_plain rfl rfl (by simp [phase, ConnectionPhase.room])
  | responds phase =>
    refine .of_plain ((respond_log _ _ _ _).trans (List.append_nil _).symm) rfl ?_
    rw [phase]
    exact room_respond_le _ _ _ _
  | @written wire keepAlive phase failed =>
    have still : ({ state with active := state.active - 1 } : BeastState).stopping = true := stopping
    rw [BeastService.onWritten]
    simp only [quiet still]
    split_ifs with lost last
    · exact .of_plain (List.append_assoc connection.log [Happening.lost] [Happening.halfClosed]) rfl (Nat.zero_le _)
    · exact .of_plain (List.append_assoc connection.log [Happening.responded wire] [Happening.halfClosed]) rfl
        (Nat.zero_le _)
    · refine .of_plain rfl rfl ?_
      rw [Bool.not_eq_true, Bool.not_eq_false'] at last
      rw [phase, last]
      exact le_rfl
  | rejectionSent phase failed =>
    refine .of_plain rfl rfl ?_
    cases failed <;> simp [ConnectionPhase.room]
  | drained phase => exact .of_plain (List.append_nil _).symm rfl (by simp [ConnectionPhase.room])
  | discarded phase small =>
    refine .of_plain rfl rfl ?_
    rw [enter_phase]
    split_ifs <;> simp [ConnectionPhase.room]
  | gateRan phase => exact .of_plain (List.append_nil _).symm rfl (by simp [ConnectionPhase.room])
  | gateAnswers phase =>
    rw [BeastService.onGateAnswers.eq_def, if_pos stopping]
    exact .of_plain rfl rfl (by simp [ConnectionPhase.room])
  | accepted phase failed =>
    rw [BeastService.onAccepted, if_pos stopping]
    split_ifs
    · rw [quiet stopping]
      exact .of_plain (List.append_nil _).symm rfl (Nat.zero_le _)
    · exact .of_plain rfl rfl (Nat.zero_le _)
  | registers phase =>
    rw [BeastService.register]
    split_ifs <;> exact .of_plain (List.append_nil _).symm rfl (by simp [ConnectionPhase.room])
  | registered phase => exact .of_plain (List.append_nil _).symm rfl (by simp [ConnectionPhase.room])
  | sessionEnds phase => exact .of_plain (List.append_nil _).symm rfl (by simp [ConnectionPhase.room])

end Steps

/-! ## Sessions -/

/-- The session is served. -/
def ConnectionPhase.serving : ConnectionPhase → Bool
  | .registering false => true
  | .session => true
  | _ => false

namespace BeastServer

variable {service : BeastService}

/-- Every session that is served is aborted, or is to be found by the sweep, or is to be aborted by it. -/
structure Found (server : BeastServer) : Prop where
  unswept : server.state.websocketsAborted = false → server.aborting = []
  sessions : ∀ index connection, server.connections[index]? = some connection → connection.phase.serving = true →
    connection.aborted = true ∨ (server.state.websocketsAborted = false ∧ index ∈ server.state.websockets) ∨
      index ∈ server.aborting

section Steps

variable {state : BeastState} {alive : ℕ → Bool} {index : ℕ} {connection : ServerConnection}
    {result : BeastState × ServerConnection}

theorem serving_respond (connection : ServerConnection) (response : HttpResponse) (keepAlive head : Bool) :
    (service.respond connection response keepAlive head).phase.serving = false := by
  rw [BeastService.respond]
  cases service.wireOf response keepAlive head <;> rfl

theorem serving_dispatch (connection : ServerConnection) (request : HttpRequest) (keepAlive : Bool) (minted : TraceContext) :
    (service.dispatch connection request keepAlive minted).phase.serving = false := by
  rw [BeastService.dispatch]
  by_cases pooled : service.options.pooled = true
  · rw [if_pos pooled]
    rfl
  · rw [if_neg pooled]
    exact serving_respond _ _ _ _

/-- A step that does not register a session leaves the registry, and it comes to serve one only if it is aborted. -/
structure Unregistered (state : BeastState) (connection : ServerConnection) (result : BeastState × ServerConnection) :
    Prop where
  stopping : result.1.stopping = state.stopping
  swept : result.1.websocketsAborted = state.websocketsAborted
  websockets : result.1.websockets = state.websockets
  serving : result.2.phase.serving = true →
    result.2.aborted = true ∨ connection.phase.serving = true ∧ result.2.aborted = connection.aborted

theorem Unregistered.of_idle (same : result.1.stopping = state.stopping ∧
      result.1.websocketsAborted = state.websocketsAborted ∧ result.1.websockets = state.websockets)
    (idle : result.2.phase.serving = false) : Unregistered state connection result :=
  ⟨same.1, same.2.1, same.2.2, fun serving => absurd (idle.symm.trans serving) Bool.false_ne_true⟩

theorem unregistered_onRead (state : BeastState) (connection : ServerConnection) (result : RequestRead)
    (minted : TraceContext) :
    Unregistered state connection (service.onRead state connection result minted) := by
  cases result with
  | overLimit => exact .of_idle ⟨rfl, rfl, rfl⟩ rfl
  | failed failure gotSome =>
    rw [BeastService.onRead]
    cases readFailureEvent failure gotSome <;> exact .of_idle ⟨rfl, rfl, rfl⟩ rfl
  | request request keepAlive upgrade =>
    rw [BeastService.onRead]
    split_ifs
    · exact .of_idle ⟨rfl, rfl, rfl⟩ rfl
    · exact .of_idle ⟨rfl, rfl, rfl⟩ rfl
    · exact .of_idle ⟨rfl, rfl, rfl⟩ (serving_dispatch _ _ _ _)

theorem unregistered_onGateAnswers (state : BeastState) (connection : ServerConnection) (request : HttpRequest)
    (keepAlive : Bool) (refusal : Option HttpResponse) :
    Unregistered state connection (service.onGateAnswers state connection request keepAlive refusal) := by
  rw [BeastService.onGateAnswers.eq_def]
  split_ifs
  · exact .of_idle ⟨rfl, rfl, rfl⟩ rfl
  · cases refusal with
    | none => exact .of_idle ⟨rfl, rfl, rfl⟩ rfl
    | some response => exact .of_idle ⟨rfl, rfl, rfl⟩ (serving_respond _ _ _ _)

/-- What a step does with the registry. -/
theorem registry_step (stepped : Stepped service state alive index connection result) :
    Unregistered state connection result ∨
      (state.websocketsAborted = false ∧
        result = ({ state with websockets := state.websockets.filter alive ++ [index] },
          connection.enter (.registering false))) := by
  cases stepped with
  | handshaken | handshakeFailed | handled | drained | gateRan | sessionEnds => exact .inl (.of_idle ⟨rfl, rfl, rfl⟩ rfl)
  | read _ result minted => exact .inl (unregistered_onRead state connection result minted)
  | responds => exact .inl (.of_idle ⟨rfl, rfl, rfl⟩ (serving_respond _ _ _ _))
  | written phase failed =>
    rw [BeastService.onWritten]
    split_ifs <;> exact .inl (.of_idle ⟨rfl, rfl, rfl⟩ rfl)
  | rejectionSent _ failed => cases failed <;> exact .inl (.of_idle ⟨rfl, rfl, rfl⟩ rfl)
  | discarded =>
    left
    split_ifs <;> exact .of_idle ⟨rfl, rfl, rfl⟩ rfl
  | gateAnswers => exact .inl (unregistered_onGateAnswers state connection _ _ _)
  | accepted _ failed =>
    left
    rw [BeastService.onAccepted]
    split_ifs
    · exact .of_idle ⟨rfl, rfl, rfl⟩ rfl
    · exact ⟨rfl, rfl, rfl, fun _ => .inl rfl⟩
    · exact .of_idle ⟨rfl, rfl, rfl⟩ rfl
  | registers =>
    rw [BeastService.register]
    split_ifs with swept
    · exact .inl (.of_idle ⟨rfl, rfl, rfl⟩ rfl)
    · exact .inr ⟨by simpa using swept, rfl⟩
  | @registered lost phase =>
    left
    refine ⟨rfl, rfl, rfl, fun _ => ?_⟩
    cases lost with
    | true => exact .inl (Bool.or_true _)
    | false => exact .inr ⟨by rw [phase]; rfl, Bool.or_false _⟩

end Steps

/-- A session that is served is one that the sweep finds. -/
theorem live_of_serving {phase : ConnectionPhase} (serving : phase.serving = true) (log : List Happening) (aborted : Bool) :
    ServerConnection.live ⟨phase, log, aborted⟩ = true := by
  cases phase <;> first | rfl | cases serving

theorem Found.step {server next : BeastServer} {label : BeastServerLabel} (found : Found server)
    (stepped : server.step service label = some next) : Found next := by
  cases label with
  | connected tls =>
    simp only [BeastServer.step, Option.ite_none_left_eq_some, Option.some.injEq] at stepped
    obtain ⟨_, rfl⟩ := stepped
    refine ⟨found.unswept, ?_⟩
    intro index connection at_ serving
    rw [List.getElem?_append] at at_
    by_cases inside : index < server.connections.length
    · rw [if_pos inside] at at_
      exact found.sessions index connection at_ serving
    · rw [if_neg inside] at at_
      rw [List.mem_singleton.mp (List.mem_of_getElem? at_)] at serving
      cases tls <;> cases serving
  | connection own step =>
    obtain ⟨before, result, at_, went, rfl⟩ := step_connection stepped
    rcases registry_step went with same | ⟨unswept, rfl⟩
    · refine ⟨fun swept => found.unswept (same.swept.symm.trans swept), ?_⟩
      intro index connection here serving
      simp only [List.getElem?_set] at here
      simp only [same.swept, same.websockets]
      by_cases own_ : own = index
      · subst own_
        rw [if_pos rfl, if_pos (List.getElem?_eq_some_iff.mp at_).1] at here
        cases here
        rcases same.serving serving with aborted | ⟨served, kept⟩
        · exact .inl aborted
        · rw [kept]
          exact found.sessions own before at_ served
      · rw [if_neg own_] at here
        exact found.sessions index connection here serving
    · refine ⟨fun _ => found.unswept unswept, ?_⟩
      intro index connection here serving
      simp only [List.getElem?_set] at here
      by_cases own_ : own = index
      · subst own_
        exact .inr (.inl ⟨unswept, List.mem_append_right _ (List.mem_singleton_self _)⟩)
      · rw [if_neg own_] at here
        -- The sessions that are registered stay, as they are not destroyed.
        have alive : server.alive index = true := by
          rw [BeastServer.alive, here]
          exact live_of_serving serving connection.log connection.aborted
        rcases found.sessions index connection here serving with aborted | ⟨_, registered⟩ | aborting
        · exact .inl aborted
        · exact .inr (.inl ⟨unswept, List.mem_append_left _ (List.mem_filter.mpr ⟨registered, alive⟩)⟩)
        · exact .inr (.inr aborting)
  | stop =>
    cases stepped
    exact ⟨found.unswept, found.sessions⟩
  | sweep =>
    simp only [BeastServer.step, Option.ite_none_right_eq_some, Option.some.injEq] at stepped
    obtain ⟨⟨_, unswept⟩, rfl⟩ := stepped
    refine ⟨fun swept => absurd swept (by simp), ?_⟩
    intro index connection here serving
    have at_ : server.connections[index]? = some connection := here
    have alive : server.alive index = true := by
      rw [BeastServer.alive, at_]
      exact live_of_serving serving connection.log connection.aborted
    rcases found.sessions index connection at_ serving with aborted | ⟨_, registered⟩ | aborting
    · exact .inl aborted
    · exact .inr (.inr (List.mem_filter.mpr ⟨registered, alive⟩))
    · rw [found.unswept unswept] at aborting
      cases aborting
  | abort =>
    rw [BeastServer.step] at stepped
    split at stepped
    · cases stepped
    · next head rest aborting =>
      cases stepped
      refine ⟨fun swept => ?_, ?_⟩
      · have none_ := found.unswept swept
        rw [aborting] at none_
        cases none_
      · intro index connection here serving
        simp only [List.getElem?_modify, Option.map_eq_map, Option.map_eq_some_iff] at here
        obtain ⟨before, at_, same⟩ := here
        by_cases own : head = index
        · rw [if_pos own] at same
          rw [← same]
          exact .inl rfl
        · rw [if_neg own] at same
          subst same
          have before_ := found.sessions index before at_ serving
          rw [aborting, List.mem_cons] at before_
          exact before_.imp_right (.imp_right fun waits => waits.resolve_left (Ne.symm own))

theorem Found.of_run {labels : List BeastServerLabel} {server : BeastServer}
    (reached : (machine service).run {} labels = some server) : Found server :=
  (machine service).invariant_of_run Found (fun _ _ _ found stepped => found.step stepped)
    ⟨fun _ => rfl, fun _ _ none_ => absurd none_ (by simp)⟩ reached

/-! ## Stops -/

/-- The transport winds up from what it was when it was stopping already. -/
structure WoundUp (before after : BeastServer) : Prop where
  stopping : after.state.stopping = true
  connections : after.connections.length = before.connections.length
  winding : ∀ (index : ℕ) (early late : ServerConnection), before.connections[index]? = some early →
    after.connections[index]? = some late →
    Winding early late

theorem WoundUp.step {before server next : BeastServer} {label : BeastServerLabel} (wound : WoundUp before server)
    (stepped : server.step service label = some next) : WoundUp before next := by
  cases label with
  | connected tls =>
    rw [BeastServer.step, if_pos wound.stopping] at stepped
    cases stepped
  | connection own step =>
    obtain ⟨connection, result, at_, went, rfl⟩ := step_connection stepped
    refine ⟨?_, ?_, ?_⟩
    · rcases registry_step went with same | ⟨_, rfl⟩
      · exact same.stopping.trans wound.stopping
      · exact wound.stopping
    · simp only [List.length_set, wound.connections]
    · intro index early late was here
      simp only [List.getElem?_set] at here
      by_cases own_ : own = index
      · subst own_
        rw [if_pos rfl, if_pos (List.getElem?_eq_some_iff.mp at_).1] at here
        cases here
        exact (wound.winding own early connection was at_).trans (winding_step wound.stopping went)
      · rw [if_neg own_] at here
        exact wound.winding index early late was here
  | stop =>
    cases stepped
    exact ⟨rfl, wound.connections, wound.winding⟩
  | sweep =>
    simp only [BeastServer.step, Option.ite_none_right_eq_some, Option.some.injEq] at stepped
    obtain ⟨_, rfl⟩ := stepped
    exact ⟨wound.stopping, wound.connections, wound.winding⟩
  | abort =>
    rw [BeastServer.step] at stepped
    split at stepped
    · cases stepped
    · next head rest aborting =>
      cases stepped
      refine ⟨wound.stopping, ?_, ?_⟩
      · simp only [List.length_modify, wound.connections]
      · intro index early late was here
        simp only [List.getElem?_modify, Option.map_eq_map, Option.map_eq_some_iff] at here
        obtain ⟨connection, at_, same⟩ := here
        have winding := wound.winding index early connection was at_
        split_ifs at same
        · subst same
          exact winding
        · subst same
          exact winding

/-- A transport that is stopping takes no connection, and of each one that it has it reads one more request at most,
which is not kept alive. When its sweep is through, every session that is served is aborted. -/
theorem winds_up {early late : List BeastServerLabel} {server final : BeastServer}
    (reached : (machine service).run {} early = some server) (stopping : server.state.stopping = true)
    (went : (machine service).run server late = some final) :
    final.connections.length = server.connections.length ∧
      (∀ (index : ℕ) (before after : ServerConnection), server.connections[index]? = some before →
        final.connections[index]? = some after →
          ∃ more, requestsOf after.log = requestsOf before.log ++ more ∧ more.length ≤ 1 ∧ ∀ asked ∈ more, asked.2 = false) ∧
      (final.state.websocketsAborted = true → final.aborting = [] →
        ∀ connection ∈ final.connections, connection.phase = .session → connection.aborted = true) := by
  have wound : WoundUp server final :=
    (machine service).invariant_of_run (WoundUp server) (fun _ _ _ wound stepped => wound.step stepped)
      ⟨stopping, rfl, fun _ early late was here => (Option.some.inj (was.symm.trans here)) ▸ .refl early⟩ went
  have found : Found final := by
    have whole := (machine service).run_append {} early late
    rw [reached, Option.bind_some, went] at whole
    exact .of_run whole
  refine ⟨wound.connections, ?_, ?_⟩
  · intro index before after was here
    obtain ⟨more, requests, room, last⟩ := wound.winding index before after was here
    exact ⟨more, requests, by have small := room_le_one before.phase; omega, last⟩
  · intro swept through connection inside session
    obtain ⟨index, here⟩ := List.mem_iff_getElem?.mp inside
    rcases found.sessions index connection here (by rw [session]; rfl) with aborted | ⟨unswept, _⟩ | aborting
    · exact aborted
    · rw [swept] at unswept
      cases unswept
    · rw [through] at aborting
      cases aborting

/-- A server of sessions. -/
def sessions : BeastService := { echo with options := { onWebsocketSession := true } }

def upgrades (index : ℕ) : List BeastServerLabel :=
  [.connection index (.read (.request {} true true) minted), .connection index .gateRan, .connection index .gateAnswers,
    .connection index (.accepted false)]

/-- Two upgrades, of which one is registered before the stop. -/
def beforeStop : List BeastServerLabel :=
  [.connected false, .connected false] ++ upgrades 0 ++ [.connection 0 .registers, .connection 0 .registered] ++
    upgrades 1 ++ [.stop]

/-- The other one is registered too late. -/
def afterStop : List BeastServerLabel := [.sweep, .connection 1 .registers, .abort, .connection 1 .registered]

theorem winds_up_race : ∃ server final, (machine sessions).run {} beforeStop = some server ∧
    (machine sessions).run server afterStop = some final ∧
    (final.connections.map fun connection => connection.phase) = [.session, .session] ∧
    ∀ connection ∈ final.connections, connection.aborted = true := by
  have shown : (((machine sessions).run {} beforeStop).bind fun server =>
      ((machine sessions).run server afterStop).map fun final => (server.state.stopping, final.state.websocketsAborted,
        final.aborting, final.connections.map fun connection => connection.phase)) =
          some (true, true, [], [.session, .session]) := by decide
  obtain ⟨server, reached, later⟩ := Option.bind_eq_some_iff.mp shown
  obtain ⟨final, went, same⟩ := Option.map_eq_some_iff.mp later
  simp only [Prod.mk.injEq] at same
  obtain ⟨stopping, swept, through, phases⟩ := same
  refine ⟨server, final, reached, went, phases, fun connection inside => ?_⟩
  have session : connection.phase = .session := by
    have member : connection.phase ∈ final.connections.map fun connection => connection.phase := List.mem_map_of_mem inside
    rw [phases] at member
    simpa using member
  exact (winds_up reached stopping went).2.2 swept through connection inside session

end BeastServer

end OpalCpp.Http

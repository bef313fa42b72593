import OpalCpp.Machine.Run
import OpalCpp.Proofs.EventStream.JsonRpcTerminals

/-! # The receivers of the JSON-RPC stream

The asynchronous receiver does what the blocking one does, and what that is.
-/

namespace OpalCpp.EventStream.JsonRpc

open Bytes (ascii)

variable {backend : Json.Backend} {id : Document} {role : Role} {raw : Received}

/-- The asynchronous receiver, with its inner socket and its caller. -/
def receiver (backend : Json.Backend) (id : Document) (role : Role) : Machine AsyncReceiver AsyncLabel :=
  ⟨AsyncReceiver.step backend id role⟩

/-- Calls of the blocking receiver, one after the other. -/
def policeAll (backend : Json.Backend) (id : Document) (role : Role) (rounds : List (Received × Outcome Unit)) :
    List Effect :=
  rounds.flatMap fun round => police backend id role round.1 round.2

/-- What the inner socket's receives gave, in order. -/
def receivedIn (labels : List AsyncLabel) : List Received :=
  labels.filterMap fun label => match label with
    | .received raw => some raw
    | _ => none

/-- After these receives, the effects are those of the blocking receiver, of which the last call is still in its
send if a terminal is on its way. -/
def Follows (backend : Json.Backend) (id : Document) (role : Role) (raws : List Received) (receiver : AsyncReceiver) :
    Prop :=
  ∃ rounds : List (Received × Outcome Unit),
    match receiver.armed with
    | .send result => ∃ raw frame, raws = rounds.map Prod.fst ++ [raw] ∧
        receiver.effects = policeAll backend id role rounds ++ [.send frame] ∧
        ∀ sent, police backend id role raw sent = [.send frame, .sent sent, .close, .resume result]
    | _ => raws = rounds.map Prod.fst ∧ receiver.effects = policeAll backend id role rounds

/-! ## What is received -/

/-- A message that is framed for the other wire, or is nothing of the grammar. -/
def IsViolation (backend : Json.Backend) (id : Document) (raw : Received) : Prop :=
  ∃ message, raw = .ok (some message) ∧
    (message.headers ≠ [] ∨ ∃ code, (decodeFrame backend message.payload id).Violates code)

/-- A response envelope. -/
def IsResponse (backend : Json.Backend) (id : Document) (raw : Received) : Prop :=
  ∃ message, raw = .ok (some message) ∧ message.headers = [] ∧
    ((decodeFrame backend message.payload id).HasResult ∨ (decodeFrame backend message.payload id).HasException)

/-- The inbound frame is fatal, for a reason that is told to the caller. -/
def Refuses (backend : Json.Backend) (id : Document) (role : Role) (inbound : Inbound) : Prop :=
  ∃ code reason, Spoken reason ∧ inbound = fromViolation backend code reason id role

/-- The inbound frame is handed on. -/
def Passes (raw : Received) (role : Role) (inbound : Inbound) : Prop :=
  inbound.violationText = none ∧ inbound.close = false ∧ (role = .server → inbound.result = .ok none → raw = .ok none)

theorem classifyInbound_cases (lawful : backend.Lawful) (raw : Received) (id : Document) (role : Role) :
    ((IsViolation backend id raw ∨ role = .server ∧ IsResponse backend id raw) ∧
        Refuses backend id role (classifyInbound backend raw id role)) ∨
      (¬ IsViolation backend id raw ∧ (role = .server → ¬ IsResponse backend id raw)) ∧
        Passes raw role (classifyInbound backend raw id role) := by
  have nothing (absent : ∀ message, raw ≠ .ok (some message)) (inbound : Inbound) (passed : inbound = { result := raw }) :
      (¬ IsViolation backend id raw ∧ (role = .server → ¬ IsResponse backend id raw)) ∧ Passes raw role inbound := by
    subst passed
    refine ⟨⟨?_, ?_⟩, rfl, rfl, fun _ clean => clean⟩
    · rintro ⟨message, same, _⟩
      exact absent message same
    · rintro _ ⟨message, same, _⟩
      exact absent message same
  cases raw with
  | error error => exact .inr (nothing (fun _ same => nomatch same) _ rfl)
  | ok received =>
    cases received with
    | none => exact .inr (nothing (fun _ same => nomatch same) _ rfl)
    | some message =>
      have one {P : Message → Prop} :
          (∃ other, (Except.ok (some message) : Received) = .ok (some other) ∧ P other) ↔ P message := by
        constructor
        · rintro ⟨_, ⟨rfl⟩, holds⟩
          exact holds
        · exact fun holds => ⟨message, rfl, holds⟩
      rw [IsViolation, IsResponse, one, one, classifyInbound]
      by_cases framed : message.headers = []
      · rw [framed]
        have unframed : ¬ (!([] : List Header).isEmpty) = true := by decide
        rw [if_neg unframed]
        cases frame : decodeFrame backend message.payload id with
        | event event =>
          right
          refine ⟨⟨?_, ?_⟩, rfl, rfl, fun _ clean => nomatch clean⟩
          · rintro (framed | ⟨code, reason, same⟩)
            · exact framed rfl
            · cases same
          · rintro _ ⟨_, ⟨_, same⟩ | ⟨_, same⟩⟩ <;> cases same
        | exception exception =>
          cases role with
          | server => exact .inl ⟨.inr ⟨rfl, rfl, .inr ⟨exception, rfl⟩⟩, _, _, spoken_of_ascii (by decide), rfl⟩
          | client =>
            refine .inr ⟨⟨?_, fun isServer => nomatch isServer⟩, rfl, rfl, fun isServer => nomatch isServer⟩
            rintro (framed | ⟨code, reason, same⟩)
            · exact framed rfl
            · cases same
        | result document =>
          cases role with
          | server => exact .inl ⟨.inr ⟨rfl, rfl, .inl ⟨document, rfl⟩⟩, _, _, spoken_of_ascii (by decide), rfl⟩
          | client =>
            refine .inr ⟨⟨?_, fun isServer => nomatch isServer⟩, rfl, rfl, fun isServer => nomatch isServer⟩
            rintro (framed | ⟨code, reason, same⟩)
            · exact framed rfl
            · cases same
        | violation code reason =>
          exact .inl ⟨.inl (.inr ⟨code, reason, rfl⟩), code, reason,
            decodeFrame_speaks lawful message.payload id code reason frame, rfl⟩
      · left
        have isFramed : (!message.headers.isEmpty) = true := by
          rw [List.isEmpty_eq_false_iff.mpr framed]
          rfl
        rw [if_pos isFramed]
        exact ⟨.inl (.inl framed), _, _, spoken_of_ascii (by decide), rfl⟩

/-! ## A call -/

theorem police_refused {inbound : Inbound} (classified : classifyInbound backend raw id role = inbound)
    (refuses : Refuses backend id role inbound) : ∃ code reason, Spoken reason ∧ ∀ sent,
      police backend id role raw sent =
        (if role = .server then [.send (terminal (encodeViolationResponse backend code reason id)), .sent sent] else []) ++
          [.close, .resume (.error (.Serialization ("jsonrpc stream: " ++ reason.text)))] := by
  obtain ⟨code, reason, spoken, rfl⟩ := refuses
  refine ⟨code, reason, spoken, fun sent => ?_⟩
  rw [police, classified, fromViolation]
  cases role <;> rfl

theorem police_passed (passes : Passes raw role (classifyInbound backend raw id role)) (sent : Outcome Unit) :
    police backend id role raw sent = [.resume (classifyInbound backend raw id role).result] := by
  rw [police, passes.1, passes.2.1]
  rfl

/-! ## A session -/

/-- Nothing is answered that does not close. -/
theorem silent_or_closes (backend : Json.Backend) (raw : Received) (id : Document) (role : Role) :
    (classifyInbound backend raw id role).violationText = none ∨ (classifyInbound backend raw id role).close = true := by
  rw [classifyInbound.eq_def]
  split
  · exact .inl rfl
  · exact .inl rfl
  · split
    · exact .inr rfl
    · split
      · exact .inl rfl
      · cases role with
        | server => exact .inr rfl
        | client => exact .inl rfl
      · cases role with
        | server => exact .inr rfl
        | client => exact .inl rfl
      · exact .inr rfl

theorem policeAll_concat (rounds : List (Received × Outcome Unit)) (raw : Received) (sent : Outcome Unit) :
    policeAll backend id role (rounds ++ [(raw, sent)]) =
      policeAll backend id role rounds ++ police backend id role raw sent := by
  rw [policeAll, List.flatMap_append, List.flatMap_singleton, policeAll]

theorem Follows.step {raws : List Received} {before after : AsyncReceiver} {label : AsyncLabel}
    (follows : Follows backend id role raws before) (step : AsyncReceiver.step backend id role before label = some after) :
    Follows backend id role (raws ++ receivedIn [label]) after := by
  obtain ⟨rounds, follows⟩ := follows
  cases label with
  | receiveAsync =>
    rw [AsyncReceiver.step] at step
    split at step
    · rename_i unarmed
      cases step
      rw [unarmed] at follows
      exact ⟨rounds, by rw [follows.1]; exact List.append_nil _, follows.2⟩
    · cases step
  | received raw =>
    rw [AsyncReceiver.step] at step
    split at step
    · rename_i armed
      rw [armed] at follows
      obtain ⟨rfl, effects⟩ := follows
      dsimp only at step
      split at step
      · rename_i text violation
        cases step
        refine ⟨rounds, raw, _, rfl, by rw [effects], fun sent => ?_⟩
        have closes : (classifyInbound backend raw id role).close = true := by
          obtain silent | closes := silent_or_closes backend raw id role
          · rw [silent] at violation
            cases violation
          · exact closes
        rw [police, violation, closes]
        rfl
      · rename_i silent
        cases step
        refine ⟨rounds ++ [(raw, .ok ())], by rw [List.map_append]; rfl, ?_⟩
        rw [policeAll_concat, effects, police, silent]
        dsimp only
        rw [List.nil_append, List.append_assoc]
    · cases step
  | sent outcome =>
    rw [AsyncReceiver.step] at step
    split at step
    · rename_i result armed
      cases step
      rw [armed] at follows
      obtain ⟨raw, frame, rfl, effects, answers⟩ := follows
      refine ⟨rounds ++ [(raw, outcome)], ?_, ?_⟩
      · rw [List.map_append]
        exact List.append_nil _
      · rw [policeAll_concat, effects, answers, List.append_assoc]
        rfl
    · cases step

theorem Follows.run {raws : List Received} {source target : AsyncReceiver} {labels : List AsyncLabel}
    (follows : Follows backend id role raws source) (reached : (receiver backend id role).run source labels = some target) :
    Follows backend id role (raws ++ receivedIn labels) target := by
  induction labels generalizing raws source with
  | nil =>
    cases reached
    rwa [receivedIn, List.filterMap_nil, List.append_nil]
  | cons label labels ih =>
    obtain ⟨next, step, reached⟩ := (receiver backend id role).run_cons_eq_some.mp reached
    have further := ih (follows.step step) reached
    rw [List.append_assoc, receivedIn, receivedIn, ← List.filterMap_append] at further
    exact further

/-- With every send completing, the asynchronous receiver gets to the end of every call. -/
theorem exists_run (backend : Json.Backend) (id : Document) (role : Role) (rounds : List (Received × Outcome Unit)) :
    ∃ labels, receivedIn labels = rounds.map Prod.fst ∧
      (receiver backend id role).run {} labels = some ⟨.none, policeAll backend id role rounds⟩ := by
  induction rounds using List.reverseRecOn with
  | nil => exact ⟨[], rfl, rfl⟩
  | append_singleton rounds round ih =>
    obtain ⟨labels, raws, reached⟩ := ih
    obtain ⟨raw, sent⟩ := round
    -- The call that comes last, from a receiver that is not armed.
    have call :
        ∃ more, receivedIn more = [raw] ∧ (receiver backend id role).run ⟨.none, policeAll backend id role rounds⟩ more =
        some ⟨.none, policeAll backend id role rounds ++ police backend id role raw sent⟩ := by
      cases violation : (classifyInbound backend raw id role).violationText with
      | none =>
        refine ⟨[.receiveAsync, .received raw], rfl, ?_⟩
        simp only [Machine.run, receiver, AsyncReceiver.step, violation, police, Option.bind_some, List.nil_append,
          List.append_assoc]
      | some text =>
        have closes : (classifyInbound backend raw id role).close = true := by
          obtain silent | closes := silent_or_closes backend raw id role
          · rw [silent] at violation
            cases violation
          · exact closes
        refine ⟨[.receiveAsync, .received raw, .sent sent], rfl, ?_⟩
        simp only [Machine.run, receiver, AsyncReceiver.step, violation, police, closes, Option.bind_some, if_true,
          List.append_assoc]
        rfl
    obtain ⟨more, one, further⟩ := call
    refine ⟨labels ++ more, ?_, ?_⟩
    · rw [receivedIn, List.filterMap_append, ← receivedIn, ← receivedIn, raws, one, List.map_append]
      rfl
    · rw [Machine.run_append, reached, Option.bind_some, further, policeAll_concat]

/-- The asynchronous receiver is the blocking one at every point of a session; a fatal frame is answered by the
server alone, closes after the answer and reports an error, of which the answer is read by the client if it
fits; and every other frame is handed on, on the server never as a clean end. -/
theorem receivers_agree (lawful : backend.Lawful) (id : Document) (role : Role) :
    (∀ labels state, (receiver backend id role).run {} labels = some state →
      Follows backend id role (receivedIn labels) state) ∧
    (∀ rounds, ∃ labels, receivedIn labels = rounds.map Prod.fst ∧
      (receiver backend id role).run {} labels = some ⟨.none, policeAll backend id role rounds⟩) ∧
    ∀ raw,
      ((IsViolation backend id raw ∨ role = .server ∧ IsResponse backend id raw) ∧
        ∃ code reason, Spoken reason ∧
          (∀ sent, police backend id role raw sent =
            (if role = .server then [.send (terminal (encodeViolationResponse backend code reason id)), .sent sent]
              else []) ++
              [.close, .resume (.error (.Serialization ("jsonrpc stream: " ++ reason.text)))]) ∧
          (Answers backend id (encodeViolationResponse backend code reason id) reason ↔ Fits backend id code reason)) ∨
      (¬ IsViolation backend id raw ∧ (role = .server → ¬ IsResponse backend id raw)) ∧
        ∃ result, (∀ sent, police backend id role raw sent = [.resume result]) ∧
          (role = .server → result = .ok none → raw = .ok none) := by
  refine ⟨fun labels state reached => ?_, exists_run backend id role, fun raw => ?_⟩
  · have start : Follows backend id role [] {} := ⟨[], rfl, rfl⟩
    exact start.run reached
  · obtain ⟨fatal, refuses⟩ | ⟨other, passes⟩ := classifyInbound_cases lawful raw id role
    · obtain ⟨code, reason, spoken, trace⟩ := police_refused rfl refuses
      exact .inl ⟨fatal, code, reason, spoken, trace, answers_iff lawful spoken⟩
    · exact .inr ⟨other, _, police_passed passes, passes.2.2⟩

section Standard

open Json.Standard

/-- What is no JSON, answered on the call 1. -/
theorem receivers_agree_unparsed : ∃ code reason, Spoken reason ∧
    (∀ sent, police library (.int 1) .server (.ok (some (terminal []))) sent =
      [.send (terminal (encodeViolationResponse library code reason (.int 1))), .sent sent, .close,
        .resume (.error (.Serialization ("jsonrpc stream: " ++ reason.text)))]) ∧
    (Answers library (.int 1) (encodeViolationResponse library code reason (.int 1)) reason ↔
      Fits library (.int 1) code reason) := by
  have violation : IsViolation library (.int 1) (.ok (some (terminal []))) :=
    ⟨_, rfl, .inr ⟨kParseErrorCode, ascii "text frame is not JSON", rfl⟩⟩
  obtain ⟨_, code, reason, spoken, trace, answers⟩ | ⟨⟨handed, _⟩, _⟩ :=
    (receivers_agree library_lawful (.int 1) .server).2.2 (.ok (some (terminal [])))
  · exact ⟨code, reason, spoken, trace, answers⟩
  · exact absurd violation handed

/-- The frame of an object with one member of this name. -/
def frameOf (name : Bytes) : Bytes := Json.encode library (.map [(name, .null)])

theorem printString_plain {text : Bytes} (plain : ∀ c ∈ text, JsonText.escapeByte c = [c]) :
    (JsonText.printString text).length = text.length + 2 := by
  have each : text.flatMap JsonText.escapeByte = text := by
    induction text with
    | nil => rfl
    | cons c text ih =>
      rw [List.forall_mem_cons] at plain
      rw [List.flatMap_cons, plain.1, ih plain.2, List.singleton_append]
  rw [JsonText.printString, each, List.length_cons, List.length_append, List.length_singleton]

/-- A name that all but fills the frame comes back in a terminal that is over the limit. -/
theorem not_answers_of_long {name : Bytes} (plain : ∀ c ∈ name, JsonText.escapeByte c = [c]) (valid : Utf8.Valid name)
    (long : name.length = kMaxMessageBytes - 20) : ∃ reason, (frameOf name).length ≤ kMaxMessageBytes ∧ Spoken reason ∧
      (∀ sent, .send (terminal (encodeViolationResponse library kInvalidRequestCode reason (.int 1))) ∈
        police library (.int 1) .server (.ok (some (terminal (frameOf name)))) sent) ∧
      ¬ Answers library (.int 1) (encodeViolationResponse library kInvalidRequestCode reason (.int 1)) reason := by
  have limit : kMaxMessageBytes = 16777216 := rfl
  have stable : (Document.map [(name, .null)]).Stable := by
    simp only [Document.Stable, Document.membersStable]
    exact ⟨List.pairwise_singleton _ _, valid, trivial, trivial⟩
  have frame : frameOf name = JsonText.openBrace ::
      (JsonText.printString name ++ JsonText.colon :: JsonText.null ++ [JsonText.closeBrace]) := by
    rw [frameOf, encode_of_stable stable]
    simp only [Json.toBackend, Json.toBackendMembers, Json.reparsed, Json.membersReparsed, JsonText.print,
      JsonText.printMembers, Delimited.join]
  have short : (frameOf name).length ≤ kMaxMessageBytes := by
    have ends : (JsonText.colon :: JsonText.null).length = 5 ∧ [JsonText.closeBrace].length = 1 := ⟨rfl, rfl⟩
    rw [frame, List.length_cons, List.length_append, List.length_append, printString_plain plain, long, limit, ends.1,
      ends.2]
    omega
  have decoded : Json.decode library (frameOf name) = .ok (.map [(name, .null)]) := by
    apply Json.decode_encode_of_stable library_lawful stable
    simp [Json.toBackend, Json.toBackendMembers, JsonValue.nesting, JsonValue.nestingMembers]
  have unknown : unknownMember envelopeMembers [(name, Document.null)] = some name := by
    have few : ∀ known ∈ envelopeMembers, known.length < 20 := by decide
    have other : name ∉ envelopeMembers := by
      intro known
      have less := few name known
      omega
    rw [unknownMember, List.find?_cons_of_pos (by simp [other])]
    rfl
  have refused : decodeFrame library (frameOf name) (.int 1) =
      .violation kInvalidRequestCode (ascii "unknown envelope member: " ++ name) := by
    rw [decodeFrame, if_neg (not_lt.mpr short), decoded]
    dsimp only
    rw [unknown]
    rfl
  have spoken := decodeFrame_speaks library_lawful (frameOf name) (.int 1) _ _ refused
  have classified : classifyInbound library (.ok (some (terminal (frameOf name)))) (.int 1) .server =
      fromViolation library kInvalidRequestCode (ascii "unknown envelope member: " ++ name) (.int 1) .server := by
    have unframed : ¬ (!(terminal (frameOf name)).headers.isEmpty) = true := Bool.false_ne_true
    have payload : (terminal (frameOf name)).payload = frameOf name := rfl
    rw [classifyInbound, if_neg unframed, payload, refused]
  refine ⟨_, short, spoken, fun sent => ?_, fun answers => ?_⟩
  · rw [police, classified]
    exact List.mem_cons_self
  · have fits := ((answers_iff library_lawful spoken).mp answers).2.2
    have prefix_ : ∀ c ∈ ascii "unknown envelope member: ", JsonText.escapeByte c = [c] := by decide
    have plain' : ∀ c ∈ ascii "unknown envelope member: " ++ name, JsonText.escapeByte c = [c] :=
      List.forall_mem_append.mpr ⟨prefix_, plain⟩
    have text : Json.encode library (.string (ascii "unknown envelope member: " ++ name)) =
        JsonText.printString (ascii "unknown envelope member: " ++ name) := by
      have stable' : (Document.string (ascii "unknown envelope member: " ++ name)).Stable := by
        rw [Document.Stable]
        exact spoken.2
      rw [encode_of_stable stable', Json.toBackend, Json.reparsed, JsonText.print] <;> simp
    have before : (ascii "unknown envelope member: ").length = 25 := by decide
    rw [text, printString_plain plain', List.length_append, before] at fits
    omega

/-- The terminal for a frame of 16 MiB, of which all but 20 bytes are the name of a member, is not read. -/
theorem receivers_agree_overlong : ∃ frame reason, frame.length ≤ kMaxMessageBytes ∧ Spoken reason ∧
    (∀ sent, .send (terminal (encodeViolationResponse library kInvalidRequestCode reason (.int 1))) ∈
      police library (.int 1) .server (.ok (some (terminal frame))) sent) ∧
    ¬ Answers library (.int 1) (encodeViolationResponse library kInvalidRequestCode reason (.int 1)) reason := by
  have letter : ∀ c ∈ List.replicate (kMaxMessageBytes - 20) 'a'.toUInt8, c = 'a'.toUInt8 :=
    fun c member => List.eq_of_mem_replicate member
  have plain : ∀ c ∈ List.replicate (kMaxMessageBytes - 20) 'a'.toUInt8, JsonText.escapeByte c = [c] := by
    intro c member
    rw [letter c member]
    decide
  have valid : Utf8.Valid (List.replicate (kMaxMessageBytes - 20) 'a'.toUInt8) := by
    apply Utf8.valid_of_ascii
    intro c member
    rw [letter c member]
    decide
  exact ⟨_, not_answers_of_long plain valid List.length_replicate⟩

end Standard

end OpalCpp.EventStream.JsonRpc

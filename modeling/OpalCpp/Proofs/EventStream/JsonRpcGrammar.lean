import OpalCpp.Model.EventStream.JsonRpcFrame
import OpalCpp.Proofs.Json.RoundTrip
import OpalCpp.Proofs.Json.Standard

/-! # The grammar of the JSON-RPC stream

What the decoder classifies as an event, a result and an exception, by the members of the envelope;
everything else is a violation.
-/

namespace OpalCpp.EventStream.JsonRpc

variable {members : DocumentMap} {name : Bytes} {id : Document}

/-- The members of the object are all of the first list and none but those of both. -/
def HasMembers (required optional : List Bytes) (members : DocumentMap) : Prop :=
  (∀ name ∈ required, name ∈ members.map Prod.fst) ∧
    ∀ name ∈ members.map Prod.fst, name ∈ required ∨ name ∈ optional

def HasVersion (members : DocumentMap) : Prop := members.lookup kVersionMember = some (.string kVersionValue)

def HasId (id : Document) (members : DocumentMap) : Prop :=
  ∃ echoed, members.lookup kIdMember = some echoed ∧ echoed.equals id = true

/-- `\x7bjsonrpc: "2.0", method, params: \x7bid, payload\x7d\x7d`. -/
def IsNotification (id : Document) (members : DocumentMap) : Prop :=
  HasMembers [kVersionMember, kMethodMember, kParamsMember] [] members ∧ HasVersion members ∧
    (∃ type, members.lookup kMethodMember = some (.string type) ∧ type ≠ []) ∧
    ∃ params, members.lookup kParamsMember = some (.map params) ∧
      HasMembers [kIdMember, kPayloadMember] [] params ∧ HasId id params ∧
      ∃ payload, params.lookup kPayloadMember = some (.map payload)

/-- `\x7bjsonrpc: "2.0", id, result\x7d`. -/
def IsResult (id : Document) (members : DocumentMap) : Prop :=
  HasMembers [kVersionMember, kIdMember, kResultMember] [kParamsMember] members ∧ HasVersion members ∧ HasId id members

/-- `\x7bcode, message, data\x7d`, of which the code is required. -/
def IsError (error : Document) : Prop :=
  ∃ members, error = .map members ∧ HasMembers [kCodeMember] [kMessageMember, kDataMember] members ∧
    (∃ code, members.lookup kCodeMember = some (.int code)) ∧
    (∀ message, members.lookup kMessageMember = some message → ∃ text, message = .string text) ∧
    ∀ data, members.lookup kDataMember = some data → ∃ fields, data = .map fields

/-- `\x7bjsonrpc: "2.0", id, error\x7d`. -/
def IsException (id : Document) (members : DocumentMap) : Prop :=
  HasMembers [kVersionMember, kIdMember, kErrorMember] [kParamsMember] members ∧ HasVersion members ∧ HasId id members ∧
    ∃ error, members.lookup kErrorMember = some error ∧ IsError error

namespace StreamFrame

def IsEvent (frame : StreamFrame) : Prop := ∃ message, frame = .event message

def HasResult (frame : StreamFrame) : Prop := ∃ document, frame = .result document

def HasException (frame : StreamFrame) : Prop := ∃ message, frame = .exception message

def Violates (code : Int64) (frame : StreamFrame) : Prop := ∃ reason, frame = .violation code reason

end StreamFrame

/-! ## Members -/

theorem lookup_eq_none : members.lookup name = none ↔ name ∉ members.map Prod.fst := by
  rw [List.lookup_eq_none_iff, List.mem_map]
  constructor
  · rintro absent ⟨member, isMember, rfl⟩
    exact absurd (absent member isMember) (by simp)
  · intro absent member isMember
    rw [bne_iff_ne]
    rintro rfl
    exact absent ⟨member, isMember, rfl⟩

theorem mem_of_lookup {value : Document} (found : members.lookup name = some value) : name ∈ members.map Prod.fst := by
  by_contra absent
  rw [lookup_eq_none.mpr absent] at found
  cases found

theorem unknownMember_eq_none {known : List Bytes} :
    unknownMember known members = none ↔ ∀ name ∈ members.map Prod.fst, name ∈ known := by
  rw [unknownMember, Option.map_eq_none_iff, List.find?_eq_none, List.forall_mem_map]
  simp

/-- A member that is not known keeps the object from having the required and optional ones. -/
theorem not_hasMembers_of_unknown {known required optional : List Bytes} (unknown : unknownMember known members = some name)
    (covered : ∀ name ∈ required ++ optional, name ∈ known) : ¬ HasMembers required optional members := by
  intro has
  have none_ := unknownMember_eq_none.mpr fun name isMember => covered name (List.mem_append.mpr (has.2 name isMember))
  rw [none_] at unknown
  cases unknown

theorem nonEmptyString_eq_some {document : Document} {text : Bytes} :
    nonEmptyString document = some text ↔ document = .string text ∧ text ≠ [] := by
  cases document with
  | string value =>
    rw [nonEmptyString]
    split_ifs with empty
    · rw [List.isEmpty_iff] at empty
      subst empty
      simp
    · rw [List.isEmpty_iff] at empty
      constructor
      · rintro ⟨rfl⟩
        exact ⟨rfl, empty⟩
      · rintro ⟨⟨rfl⟩, _⟩
        rfl
  | _ => simp [nonEmptyString]

theorem bind_members?_eq_some {found : Option Document} {members : DocumentMap} :
    found.bind members? = some members ↔ found = some (.map members) := by
  cases found with
  | none => simp
  | some document => cases document <;> simp [members?]

/-! ## What the decoder makes of an envelope -/

/-- The frame is of the kind if the grammar says so, and refused if not. -/
def Decides (grammar : Prop) (kind : StreamFrame → Prop) (frame : StreamFrame) : Prop :=
  (grammar ∧ kind frame) ∨ (¬ grammar ∧ frame.Violates kInvalidRequestCode)

theorem Decides.refuse {grammar : Prop} {kind : StreamFrame → Prop} (not_ : ¬ grammar) (reason : String) :
    Decides grammar kind (invalidRequest reason) := .inr ⟨not_, _, rfl⟩

theorem Decides.congr {grammar other : Prop} {kind : StreamFrame → Prop} {frame : StreamFrame}
    (decides : Decides grammar kind frame) (same : grammar ↔ other) : Decides other kind frame := by
  rwa [Decides, ← same]

theorem decodeNotification_decides (backend : Json.Backend) (method id : Document) :
    Decides ((∃ type, method = .string type ∧ type ≠ []) ∧ ∃ params, members.lookup kParamsMember = some (.map params) ∧
        HasMembers [kIdMember, kPayloadMember] [] params ∧ HasId id params ∧
        ∃ payload, params.lookup kPayloadMember = some (.map payload))
      StreamFrame.IsEvent (decodeNotification backend (.map members) method id) := by
  rw [decodeNotification]
  cases typed : nonEmptyString method with
  | none =>
    refine .refuse ?_ _
    rintro ⟨⟨type, isString⟩, _⟩
    rw [nonEmptyString_eq_some.mpr isString] at typed
    cases typed
  | some type =>
    have isType := nonEmptyString_eq_some.mp typed
    dsimp only
    cases found : ((Document.map members).find kParamsMember).bind members? with
    | none =>
      refine .refuse ?_ _
      rintro ⟨_, params, isParams, _⟩
      rw [Document.find, isParams] at found
      cases found
    | some params =>
      have isParams := bind_members?_eq_some.mp found
      rw [Document.find] at isParams
      dsimp only
      have same {other : DocumentMap} (isOther : members.lookup kParamsMember = some (.map other)) : other = params := by
        rw [isParams] at isOther
        cases isOther
        rfl
      cases unknown : unknownMember [kIdMember, kPayloadMember] params with
      | some name =>
        refine .inr ⟨?_, _, rfl⟩
        rintro ⟨_, other, isOther, has, _⟩
        cases same isOther
        exact not_hasMembers_of_unknown unknown (by decide) has
      | none =>
        dsimp only
        have known := unknownMember_eq_none.mp unknown
        cases echo : params.lookup kIdMember with
        | none =>
          refine .refuse ?_ _
          rintro ⟨_, other, isOther, _, ⟨echoed, isEchoed, _⟩, _⟩
          cases same isOther
          rw [echo] at isEchoed
          cases isEchoed
        | some echoed =>
          dsimp only
          split_ifs with equal
          · cases carried : (params.lookup kPayloadMember).bind members? with
            | none =>
              refine .refuse ?_ _
              rintro ⟨_, other, isOther, _, _, payload, isPayload⟩
              cases same isOther
              rw [isPayload] at carried
              cases carried
            | some payload =>
              have isPayload := bind_members?_eq_some.mp carried
              refine .inl ⟨⟨⟨type, isType⟩, params, isParams, ⟨?_, fun name isMember => .inl (known name isMember)⟩,
                ⟨echoed, echo, equal⟩, payload, isPayload⟩, _, rfl⟩
              simp only [List.forall_mem_cons]
              exact ⟨mem_of_lookup echo, mem_of_lookup isPayload, fun _ isNil => absurd isNil List.not_mem_nil⟩
          · refine .refuse ?_ _
            rintro ⟨_, other, isOther, _, ⟨echoed', isEchoed, equal'⟩, _⟩
            cases same isOther
            rw [echo] at isEchoed
            cases isEchoed
            exact equal equal'

theorem decodeError_decides (backend : Json.Backend) (error : Document) :
    Decides (IsError error) StreamFrame.HasException (decodeError backend error) := by
  cases error with
  | map members =>
    -- What the grammar says of the object, without the object.
    have grammar : IsError (.map members) ↔ HasMembers [kCodeMember] [kMessageMember, kDataMember] members ∧
        (∃ code, members.lookup kCodeMember = some (.int code)) ∧
        (∀ message, members.lookup kMessageMember = some message → ∃ text, message = .string text) ∧
        ∀ data, members.lookup kDataMember = some data → ∃ fields, data = .map fields := by
      constructor
      · rintro ⟨_, ⟨rfl⟩, body⟩
        exact body
      · exact fun body => ⟨members, rfl, body⟩
    refine Decides.congr ?_ grammar.symm
    rw [decodeError]
    cases unknown : unknownMember [kCodeMember, kMessageMember, kDataMember] members with
    | some name => exact .inr ⟨fun body => not_hasMembers_of_unknown unknown (by decide) body.1, _, rfl⟩
    | none =>
      dsimp only
      have known := unknownMember_eq_none.mp unknown
      cases code : members.lookup kCodeMember with
      | none => exact .refuse (fun body => by obtain ⟨_, ⟨_, isCode⟩, _⟩ := body; cases isCode) _
      | some code' =>
        cases code' with
        | int value =>
          have has : HasMembers [kCodeMember] [kMessageMember, kDataMember] members := by
            refine ⟨List.forall_mem_singleton.mpr (mem_of_lookup code), fun name isMember => ?_⟩
            exact (List.mem_cons.mp (known name isMember)).imp_left List.mem_singleton.mpr
          dsimp only
          -- The message may be missing, and so may the data.
          have absent {found : Document} {kind : Prop} (isFound : none = some found) : kind := nomatch isFound
          cases message : members.lookup kMessageMember with
          | none =>
            cases data : members.lookup kDataMember with
            | none => exact .inl ⟨⟨has, ⟨value, rfl⟩, fun _ => absent, fun _ => absent⟩, _, rfl⟩
            | some data' =>
              cases data' with
              | map fields =>
                exact .inl ⟨⟨has, ⟨value, rfl⟩, fun _ => absent, fun _ isData => ⟨fields, (Option.some.inj isData).symm⟩⟩, _,
                  rfl⟩
              | _ => exact .refuse (fun body => by obtain ⟨_, isMap⟩ := body.2.2.2 _ rfl; cases isMap) _
          | some message' =>
            cases message' with
            | string text =>
              have isString : ∀ found, some (Document.string text) = some found → ∃ text, found = .string text :=
                fun _ isMessage => ⟨text, (Option.some.inj isMessage).symm⟩
              cases data : members.lookup kDataMember with
              | none => exact .inl ⟨⟨has, ⟨value, rfl⟩, isString, fun _ => absent⟩, _, rfl⟩
              | some data' =>
                cases data' with
                | map fields =>
                  exact .inl ⟨⟨has, ⟨value, rfl⟩, isString, fun _ isData => ⟨fields, (Option.some.inj isData).symm⟩⟩, _, rfl⟩
                | _ => exact .refuse (fun body => by obtain ⟨_, isMap⟩ := body.2.2.2 _ rfl; cases isMap) _
            | _ =>
              cases members.lookup kDataMember with
              | none => exact .refuse (fun body => by obtain ⟨_, isString⟩ := body.2.2.1 _ rfl; cases isString) _
              | some data => exact .refuse (fun body => by obtain ⟨_, isString⟩ := body.2.2.1 _ rfl; cases isString) _
        | _ => exact .refuse (fun body => by obtain ⟨_, ⟨_, isCode⟩, _⟩ := body; cases isCode) _
  | _ =>
    refine .refuse ?_ _
    rintro ⟨_, isMap, _⟩
    cases isMap

/-- The envelope is of the one kind of the grammar that the frame is of, or of none. -/
def Classified (id : Document) (members : DocumentMap) (frame : StreamFrame) : Prop :=
  (IsNotification id members ∧ frame.IsEvent) ∨ (IsResult id members ∧ frame.HasResult) ∨
    (IsException id members ∧ frame.HasException) ∨
    ((¬ IsNotification id members ∧ ¬ IsResult id members ∧ ¬ IsException id members) ∧ frame.Violates kInvalidRequestCode)

theorem HasMembers.absurd {required optional : List Bytes} (has : HasMembers required optional members)
    (isMember : name ∈ members.map Prod.fst) (other : name ∉ required ++ optional) : False :=
  other (List.mem_append.mpr (has.2 name isMember))

theorem decodeResponse_classified (backend : Json.Backend) (version : HasVersion members)
    (known : ∀ name ∈ members.map Prod.fst, name ∈ envelopeMembers) (noMethod : kMethodMember ∉ members.map Prod.fst) :
    Classified id members (decodeResponse backend (.map members) id) := by
  have notNotification : ¬ IsNotification id members := fun body => noMethod (body.1.1 _ (by decide))
  -- Without a method, a result or an error leaves only its own members and the parameters.
  have others {present absent : Bytes} (isPresent : present ∈ members.map Prod.fst)
      (isAbsent : absent ∉ members.map Prod.fst) (hasId : HasId id members)
      (covers : ∀ name ∈ envelopeMembers, name = kMethodMember ∨ name = absent ∨
        name ∈ [kVersionMember, kIdMember, present] ∨ name ∈ [kParamsMember]) :
      HasMembers [kVersionMember, kIdMember, present] [kParamsMember] members := by
    constructor
    · simp only [List.forall_mem_cons]
      exact ⟨mem_of_lookup version, mem_of_lookup hasId.choose_spec.1, isPresent, fun _ isNil =>
        absurd isNil List.not_mem_nil⟩
    · intro name isMember
      obtain rfl | rfl | here := covers name (known name isMember)
      · exact (noMethod isMember).elim
      · exact (isAbsent isMember).elim
      · exact here
  have refuse (notResult : ¬ IsResult id members) (notException : ¬ IsException id members) (reason : String) :
      Classified id members (invalidRequest reason) :=
    .inr (.inr (.inr ⟨⟨notNotification, notResult, notException⟩, _, rfl⟩))
  rw [decodeResponse, Document.find]
  cases echo : members.lookup kIdMember with
  | none =>
    have noId : ¬ HasId id members := fun ⟨_, isEchoed, _⟩ => by rw [echo] at isEchoed; cases isEchoed
    exact refuse (fun body => noId body.2.2) (fun body => noId body.2.2.1) _
  | some echoed =>
    dsimp only
    split_ifs with equal
    · have hasId : HasId id members := ⟨echoed, echo, equal⟩
      rw [Document.find, Document.find]
      cases result : members.lookup kResultMember with
      | none =>
        have noResult := lookup_eq_none.mp result
        have notResult : ¬ IsResult id members := fun body => noResult (body.1.1 _ (by decide))
        cases error : members.lookup kErrorMember with
        | none => exact refuse notResult (fun body => lookup_eq_none.mp error (body.1.1 _ (by decide))) _
        | some error' =>
          dsimp only
          obtain ⟨isError, exception⟩ | ⟨notError, violates⟩ := decodeError_decides backend error'
          · exact .inr (.inr (.inl ⟨⟨others (mem_of_lookup error) noResult hasId (by decide), version, hasId, error', error,
              isError⟩, exception⟩))
          · refine .inr (.inr (.inr ⟨⟨notNotification, notResult, ?_⟩, violates⟩))
            rintro ⟨_, _, _, other, isOther, isError⟩
            rw [error] at isOther
            cases isOther
            exact notError isError
      | some result' =>
        have notException : ¬ IsException id members := fun body => body.1.absurd (mem_of_lookup result) (by decide)
        cases error : members.lookup kErrorMember with
        | none =>
          exact .inr (.inl ⟨⟨others (mem_of_lookup result) (lookup_eq_none.mp error) hasId (by decide), version, hasId⟩, _,
            rfl⟩)
        | some error' =>
          exact refuse (fun body => body.1.absurd (mem_of_lookup error) (by decide)) notException _
    · have noId : ¬ HasId id members := by
        rintro ⟨other, isOther, equal'⟩
        rw [echo] at isOther
        cases isOther
        exact equal equal'
      exact refuse (fun body => noId body.2.2) (fun body => noId body.2.2.1) _

theorem decodeEnvelope_classified (backend : Json.Backend) (version : HasVersion members)
    (known : ∀ name ∈ members.map Prod.fst, name ∈ envelopeMembers) :
    Classified id members (decodeEnvelope backend (.map members) id) := by
  rw [decodeEnvelope, Document.find]
  cases method : members.lookup kMethodMember with
  | none => exact decodeResponse_classified backend version known (lookup_eq_none.mp method)
  | some method' =>
    have isMethod := mem_of_lookup method
    have notResult : ¬ IsResult id members := fun body => body.1.absurd isMethod (by decide)
    have notException : ¬ IsException id members := fun body => body.1.absurd isMethod (by decide)
    have refuse {name : Bytes} (isMember : name ∈ members.map Prod.fst)
        (other : name ∉ [kVersionMember, kMethodMember, kParamsMember] ++ []) (reason : String) :
        Classified id members (invalidRequest reason) :=
      .inr (.inr (.inr ⟨⟨fun body => body.1.absurd isMember other, notResult, notException⟩, _, rfl⟩))
    dsimp only
    rw [Document.find, Document.find, Document.find]
    cases hasId : members.lookup kIdMember with
    | some _ => exact refuse (mem_of_lookup hasId) (by decide) _
    | none =>
      cases hasResult : members.lookup kResultMember with
      | some _ => exact refuse (mem_of_lookup hasResult) (by decide) _
      | none =>
        cases hasError : members.lookup kErrorMember with
        | some _ => exact refuse (mem_of_lookup hasError) (by decide) _
        | none =>
          simp only [Option.isSome_none, Bool.false_or, if_neg Bool.false_ne_true]
          have only (isParams : kParamsMember ∈ members.map Prod.fst) :
              HasMembers [kVersionMember, kMethodMember, kParamsMember] [] members := by
            constructor
            · simp only [List.forall_mem_cons]
              exact ⟨mem_of_lookup version, isMethod, isParams, fun _ isNil => absurd isNil List.not_mem_nil⟩
            · intro name isMember
              have covers : ∀ name ∈ envelopeMembers, name = kIdMember ∨ name = kResultMember ∨ name = kErrorMember ∨
                  name ∈ [kVersionMember, kMethodMember, kParamsMember] := by decide
              obtain rfl | rfl | rfl | here := covers name (known name isMember)
              · exact (lookup_eq_none.mp hasId isMember).elim
              · exact (lookup_eq_none.mp hasResult isMember).elim
              · exact (lookup_eq_none.mp hasError isMember).elim
              · exact .inl here
          obtain ⟨⟨isType, params, isParams, body⟩, event⟩ | ⟨refused, violates⟩ :=
            decodeNotification_decides backend method' id
          · obtain ⟨type, rfl, nonempty⟩ := isType
            exact .inl ⟨⟨only (mem_of_lookup isParams), version, ⟨type, method, nonempty⟩, params, isParams, body⟩, event⟩
          · refine .inr (.inr (.inr ⟨⟨?_, notResult, notException⟩, violates⟩))
            rintro ⟨_, _, ⟨type, isType, nonempty⟩, body⟩
            rw [method] at isType
            cases isType
            exact refused ⟨⟨type, rfl, nonempty⟩, body⟩

/-- The kinds of frames exclude each other. -/
theorem IsNotification.exclusive (isNotification : IsNotification id members) :
    ¬ IsResult id members ∧ ¬ IsException id members := by
  have isMethod := isNotification.1.1 kMethodMember (by decide)
  exact ⟨fun body => body.1.absurd isMethod (by decide), fun body => body.1.absurd isMethod (by decide)⟩

theorem IsResult.exclusive (isResult : IsResult id members) : ¬ IsException id members :=
  fun body => body.1.absurd (isResult.1.1 kResultMember (by decide)) (by decide)

theorem decodeFrame_classified (backend : Json.Backend) {text : Bytes} (fits : text.length ≤ kMaxMessageBytes)
    (decoded : Json.decode backend text = .ok (.map members)) : Classified id members (decodeFrame backend text id) := by
  rw [decodeFrame, if_neg (not_lt.mpr fits), decoded]
  dsimp only
  have refuse (notNotification : ¬ IsNotification id members) (notResult : ¬ IsResult id members)
      (notException : ¬ IsException id members) (reason : Bytes) :
      Classified id members (.violation kInvalidRequestCode reason) :=
    .inr (.inr (.inr ⟨⟨notNotification, notResult, notException⟩, _, rfl⟩))
  cases unknown : unknownMember envelopeMembers members with
  | some name =>
    exact refuse (fun body => not_hasMembers_of_unknown unknown (by decide) body.1)
      (fun body => not_hasMembers_of_unknown unknown (by decide) body.1)
      (fun body => not_hasMembers_of_unknown unknown (by decide) body.1) _
  | none =>
    dsimp only
    have noVersion (other : ¬ HasVersion members) (reason : String) : Classified id members (invalidRequest reason) :=
      refuse (fun body => other body.2.1) (fun body => other body.2.1) (fun body => other body.2.1) _
    cases versioned : members.lookup kVersionMember with
    | none => exact noVersion (fun version => by rw [HasVersion, versioned] at version; cases version) _
    | some value =>
      cases value with
      | string version =>
        dsimp only
        split_ifs with same
        · exact decodeEnvelope_classified backend (by rw [HasVersion, versioned, same]) (unknownMember_eq_none.mp unknown)
        · refine noVersion (fun version => ?_) _
          rw [HasVersion, versioned] at version
          cases version
          exact same rfl
      | _ => exact noVersion (fun version => by rw [HasVersion, versioned] at version; cases version) _

theorem StreamFrame.Violates.unique {code other : Int64} {frame : StreamFrame} (violates : frame.Violates code)
    (violates' : frame.Violates other) : code = other := by
  obtain ⟨reason, rfl⟩ := violates
  obtain ⟨reason', ⟨rfl⟩⟩ := violates'
  rfl

/-- What a frame is of says what its envelope is. -/
theorem Classified.kinds {frame : StreamFrame} (classified : Classified id members frame) :
    ¬ frame.Violates kParseErrorCode ∧ (frame.IsEvent ↔ IsNotification id members) ∧
      (frame.HasResult ↔ IsResult id members) ∧ (frame.HasException ↔ IsException id members) ∧
      (frame.Violates kInvalidRequestCode ↔
        ¬ IsNotification id members ∧ ¬ IsResult id members ∧ ¬ IsException id members) := by
  have codes : kInvalidRequestCode ≠ kParseErrorCode := by decide
  obtain ⟨isNotification, message, rfl⟩ | ⟨isResult, result, rfl⟩ | ⟨isException, message, rfl⟩ |
    ⟨⟨notNotification, notResult, notException⟩, reason, rfl⟩ := classified
  · obtain ⟨notResult, notException⟩ := isNotification.exclusive
    simp [StreamFrame.Violates, StreamFrame.IsEvent, StreamFrame.HasResult, StreamFrame.HasException, isNotification,
      notResult, notException]
  · have notNotification : ¬ IsNotification id members := fun body => body.exclusive.1 isResult
    have notException := isResult.exclusive
    simp [StreamFrame.Violates, StreamFrame.IsEvent, StreamFrame.HasResult, StreamFrame.HasException, isResult,
      notNotification, notException]
  · have notNotification : ¬ IsNotification id members := fun body => body.exclusive.2 isException
    have notResult : ¬ IsResult id members := fun body => body.exclusive isException
    simp [StreamFrame.Violates, StreamFrame.IsEvent, StreamFrame.HasResult, StreamFrame.HasException, isException,
      notNotification, notResult]
  · simp [StreamFrame.Violates, StreamFrame.IsEvent, StreamFrame.HasResult, StreamFrame.HasException, notNotification,
      notResult, notException, codes]

/-- The decoder accepts exactly its grammar: a text is a violation of the one code if it is no JSON, of a
kind if its document is of the kind, and a violation of the other code in every other case. -/
theorem decodeFrame_grammar (backend : Json.Backend) (id : Document) {text : Bytes} (fits : text.length ≤ kMaxMessageBytes) :
    ((decodeFrame backend text id).Violates kParseErrorCode ↔ ∃ error, Json.decode backend text = .error error) ∧
    ((decodeFrame backend text id).IsEvent ↔
      ∃ members, Json.decode backend text = .ok (.map members) ∧ IsNotification id members) ∧
    ((decodeFrame backend text id).HasResult ↔
      ∃ members, Json.decode backend text = .ok (.map members) ∧ IsResult id members) ∧
    ((decodeFrame backend text id).HasException ↔
      ∃ members, Json.decode backend text = .ok (.map members) ∧ IsException id members) ∧
    ((decodeFrame backend text id).Violates kInvalidRequestCode ↔
      ∃ document, Json.decode backend text = .ok document ∧ ∀ members, document = .map members →
        ¬ IsNotification id members ∧ ¬ IsResult id members ∧ ¬ IsException id members) ∧
    ∀ members, ¬ (IsNotification id members ∧ IsResult id members) ∧ ¬ (IsNotification id members ∧ IsException id members) ∧
      ¬ (IsResult id members ∧ IsException id members) := by
  have exclusive (members : DocumentMap) : ¬ (IsNotification id members ∧ IsResult id members) ∧
      ¬ (IsNotification id members ∧ IsException id members) ∧ ¬ (IsResult id members ∧ IsException id members) :=
    ⟨fun both => both.1.exclusive.1 both.2, fun both => both.1.exclusive.2 both.2, fun both => both.1.exclusive both.2⟩
  cases decoded : Json.decode backend text with
  | error error =>
    have frame : decodeFrame backend text id = .violation kParseErrorCode (Bytes.ascii "text frame is not JSON") := by
      rw [decodeFrame, if_neg (not_lt.mpr fits), decoded]
    rw [frame]
    refine ⟨⟨fun _ => ⟨error, rfl⟩, fun _ => ⟨_, rfl⟩⟩, ?_, ?_, ?_, ?_, exclusive⟩
    · exact ⟨fun ⟨_, isEvent⟩ => (nomatch isEvent), fun ⟨_, isOk, _⟩ => nomatch isOk⟩
    · exact ⟨fun ⟨_, isResult⟩ => (nomatch isResult), fun ⟨_, isOk, _⟩ => nomatch isOk⟩
    · exact ⟨fun ⟨_, isException⟩ => (nomatch isException), fun ⟨_, isOk, _⟩ => nomatch isOk⟩
    · exact ⟨fun violates => absurd (violates.unique ⟨_, rfl⟩) (by decide), fun ⟨_, isOk, _⟩ => nomatch isOk⟩
  | ok document =>
    have isOk : ¬ ∃ error, (.ok document : Outcome Document) = .error error := fun ⟨_, same⟩ => nomatch same
    by_cases isMap : ∃ members, document = .map members
    · obtain ⟨members, rfl⟩ := isMap
      obtain ⟨notParse, event, result, exception, invalid⟩ :=
        (@decodeFrame_classified members id backend text fits decoded).kinds
      -- The document is the only one there is.
      have one (grammar : DocumentMap → Prop) : grammar members ↔
          ∃ other, (.ok (.map members) : Outcome Document) = .ok (.map other) ∧ grammar other := by
        constructor
        · exact fun holds => ⟨members, rfl, holds⟩
        · rintro ⟨_, ⟨rfl⟩, holds⟩
          exact holds
      refine ⟨iff_of_false notParse isOk, event.trans (one _), result.trans (one _), exception.trans (one _), ?_, exclusive⟩
      rw [invalid]
      constructor
      · rintro none_
        refine ⟨_, rfl, ?_⟩
        rintro _ ⟨rfl⟩
        exact none_
      · rintro ⟨_, ⟨rfl⟩, none_⟩
        exact none_ members rfl
    · have frame : decodeFrame backend text id = invalidRequest "envelope is not a JSON object" := by
        rw [decodeFrame, if_neg (not_lt.mpr fits), decoded]
        cases document with
        | map members => exact absurd ⟨members, rfl⟩ isMap
        | _ => rfl
      have noMembers (grammar : DocumentMap → Prop) :
          ¬ ∃ other, (.ok document : Outcome Document) = .ok (.map other) ∧ grammar other := by
        rintro ⟨other, ⟨rfl⟩, _⟩
        exact isMap ⟨other, rfl⟩
      have violates : (decodeFrame backend text id).Violates kInvalidRequestCode := ⟨_, frame⟩
      refine ⟨iff_of_false (fun other => absurd (violates.unique other) (by decide)) isOk,
        iff_of_false ?_ (noMembers _), iff_of_false ?_ (noMembers _), iff_of_false ?_ (noMembers _),
        iff_of_true violates ⟨document, rfl, fun members same => absurd ⟨members, same⟩ isMap⟩, exclusive⟩
      · rintro ⟨_, isEvent⟩
        rw [frame] at isEvent
        cases isEvent
      · rintro ⟨_, isResult⟩
        rw [frame] at isResult
        cases isResult
      · rintro ⟨_, isException⟩
        rw [frame] at isException
        cases isException

open Json.Standard in
/-- A notification of the call's id is read as one. -/
theorem decodeFrame_grammar_tick : ∃ text : Bytes,
    text = Bytes.ascii ("\x7b\"jsonrpc\":\"2.0\",\"method\":\"tick\"," ++
      "\"params\":\x7b\"id\":1,\"payload\":\x7b\x7d\x7d\x7d") ∧
    text.length ≤ kMaxMessageBytes ∧ (decodeFrame library text (.int 1)).IsEvent := by
  let params : DocumentMap := [(kIdMember, .int 1), (kPayloadMember, .map [])]
  let tick : DocumentMap := [(kVersionMember, .string kVersionValue), (kMethodMember, .string (Bytes.ascii "tick")),
    (kParamsMember, .map params)]
  have stable : (Document.map tick).Stable := by
    simp only [tick, params, Document.Stable, Document.membersStable]
    refine ⟨by decide, ?_, ?_, ?_, ?_, ?_, ⟨by decide, ?_, trivial, ?_, ⟨List.Pairwise.nil, trivial⟩, trivial⟩, trivial⟩ <;>
      exact Utf8.valid_of_ascii (by decide)
  have spelled : Json.encode library (.map tick) = Bytes.ascii ("\x7b\"jsonrpc\":\"2.0\",\"method\":\"tick\"," ++
      "\"params\":\x7b\"id\":1,\"payload\":\x7b\x7d\x7d\x7d") := by
    rw [Json.encode, dump_of_valid (Json.valid_toBackend _ stable)]
    decide
  have decoded := Json.decode_encode_of_stable library_lawful stable (by decide)
  rw [spelled] at decoded
  refine ⟨_, rfl, by decide, (decodeFrame_grammar library (.int 1) (by decide)).2.1.mpr ⟨tick, decoded, ?_⟩⟩
  exact ⟨⟨by decide, by decide⟩, rfl, ⟨_, rfl, by decide⟩, params, rfl, ⟨by decide, by decide⟩, ⟨_, rfl, rfl⟩, _, rfl⟩

end OpalCpp.EventStream.JsonRpc

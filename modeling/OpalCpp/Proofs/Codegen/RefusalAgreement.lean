import OpalCpp.Model.Codegen.JsonRpc2
import OpalCpp.Proofs.Codegen.ConstraintRoots
import OpalCpp.Proofs.Codegen.SerdeReading

/-! # Refusals of the two jsonRpc2 endpoints

The route of the unary operations and the driver of the streaming ones refuse a call alike until its params are
read. Of params that are no object each has a message of its own, and an error that names the input's type names
that of the operation: each of them has its own copy of the input.
-/

namespace OpalCpp

open scoped Bytes
open Bytes (ascii)

theorem Bytes.ascii_text (bytes : Bytes) : ascii bytes.text = bytes := by
  rw [ascii, text, String.toList_ofList, List.map_map]
  conv_rhs => rw [← List.map_id bytes]
  apply List.map_congr_left
  intro byte _
  have small : byte.toNat < 256 := byte.toNat_lt
  have valid : byte.toNat.isValidChar := .inl (by omega)
  have code : (Char.ofNat byte.toNat).toNat = byte.toNat := by
    rw [Char.ofNat, dif_pos valid]
    rfl
  apply UInt8.toNat_inj.mp
  rw [Function.comp_apply, id, Char.toUInt8, UInt32.toNat_toUInt8]
  change (Char.ofNat byte.toNat).toNat % 256 = byte.toNat
  rw [code, Nat.mod_eq_of_lt small]

/-! ## What an error names -/

namespace Typed.SerdeCodeGen

variable {Id : Type*} (serde : SerdeCodeGen Id)

/-- The types whose reading reports the path of the member. -/
def reportsPath (type : ShapeType Id) : Bool :=
  type matches .boolean | .byte | .short | .integer | .intEnum | .long | .float | .double | .string | .enum _

/-- The first member that is not read is reported under the name of the structure. -/
def namesContainer (read : Document × Id → Outcome Value) (container : Shape Id) (doc : Document) : List (Member Id) → Bool
  | [] => false
  | member :: members =>
    match serde.readMember read container doc member with
    | .ok _ => namesContainer read container doc members
    | .error _ => (present doc (serde.wireName member)).all fun _ => reportsPath (serde.model.shape member.target).type

variable {serde} {read : Document × Id → Outcome Value}

/-- What is read whatever the path is, or else is reported under the path. -/
def UnderPath (result : Bytes → Outcome Value) : Prop :=
  (∃ value, ∀ path, result path = .ok value) ∨ ∃ rest ≠ [], ∀ path, result path = .error (.Serialization (path ++ rest).text)

theorem underPath_ok (value : Value) : UnderPath fun _ => .ok value := .inl ⟨value, fun _ => rfl⟩

theorem underPath_unexpected : UnderPath unexpected := .inr ⟨_, List.cons_ne_nil _ _, fun _ => rfl⟩

theorem underPath_outOfRange : UnderPath fun path => .error (.Serialization (path ++ ascii ": value out of range").text) :=
  .inr ⟨_, List.cons_ne_nil _ _, fun _ => rfl⟩

theorem underPath_readNarrow (doc : Document) (low high : ℤ) (make : ℤ → Value) :
    UnderPath fun path => readNarrow doc path low high make := by
  cases doc with
  | int value =>
    simp only [readNarrow]
    split_ifs
    · exact underPath_outOfRange
    · exact underPath_ok _
  | _ => exact underPath_unexpected

theorem underPath_readFloat (doc : Document) : UnderPath fun path => readFloat doc path := by
  simp only [readFloat]
  cases doubleFromDocument doc with
  | error error => exact .inr ⟨_, List.cons_ne_nil _ _, fun _ => rfl⟩
  | ok parsed =>
    dsimp only
    cases floatFromDouble parsed with
    | error error => exact underPath_outOfRange
    | ok narrowed => exact underPath_ok _

theorem underPath_readDouble (doc : Document) : UnderPath fun path => readDouble doc path := by
  simp only [readDouble]
  cases doubleFromDocument doc with
  | error error => exact .inr ⟨_, List.cons_ne_nil _ _, fun _ => rfl⟩
  | ok parsed => exact underPath_ok _

/-- A member of a type with paths is read whatever its path is, or is reported under it. -/
theorem underPath_deserializeInto {member : Member Id} (reports : reportsPath (serde.model.shape member.target).type = true)
    (doc : Document) : UnderPath fun path => serde.deserializeInto read member doc path := by
  simp only [deserializeInto]
  cases type : (serde.model.shape member.target).type with
  | byte => exact underPath_readNarrow ..
  | short => exact underPath_readNarrow ..
  | integer => exact underPath_readNarrow ..
  | intEnum => exact underPath_readNarrow ..
  | float => exact underPath_readFloat doc
  | double => exact underPath_readDouble doc
  | boolean => cases doc <;> first | exact underPath_ok _ | exact underPath_unexpected
  | long => cases doc <;> first | exact underPath_ok _ | exact underPath_unexpected
  | string => cases doc <;> first | exact underPath_ok _ | exact underPath_unexpected
  | enum values => cases doc <;> first | exact underPath_ok _ | exact underPath_unexpected
  | _ =>
    rw [type] at reports
    cases reports

theorem deserializeInto_of_not_reportsPath {member : Member Id}
    (silent : reportsPath (serde.model.shape member.target).type = false) (doc : Document) (path path' : Bytes) :
    serde.deserializeInto read member doc path = serde.deserializeInto read member doc path' := by
  simp only [deserializeInto]
  cases type : (serde.model.shape member.target).type <;> first
    | rfl
    | (rw [type] at silent; cases silent)

@[simp] theorem plain_renamed (container : Shape Id) (name : Bytes) (target : ShapeType Id) (member : Member Id) :
    plain { container with typeName := name } target member = plain container target member := rfl

@[simp] theorem fillOnParse_renamed (container : Shape Id) (name : Bytes) (target : ShapeType Id) (member : Member Id) :
    fillOnParse { container with typeName := name } target member = fillOnParse container target member := rfl

theorem readMember_renamed (container : Shape Id) (name : Bytes) (doc : Document) (member : Member Id) :
    (∃ value, serde.readMember read container doc member = .ok value ∧
      serde.readMember read { container with typeName := name } doc member = .ok value) ∨
    ∃ error, serde.readMember read container doc member = .error error ∧
      if (present doc (serde.wireName member)).all fun _ => reportsPath (serde.model.shape member.target).type then
        ∃ rest ≠ [], error = .Serialization (container.typeName ++ rest).text ∧
          serde.readMember read { container with typeName := name } doc member = .error (.Serialization (name ++ rest).text)
      else serde.readMember read { container with typeName := name } doc member = .error error := by
  simp only [readMember, plain_renamed, fillOnParse_renamed]
  cases found : present doc (serde.wireName member) with
  | none =>
    simp only [Option.all_none, if_true]
    split_ifs with lenient required filled isPlain
    · exact .inl ⟨_, rfl, rfl⟩
    · refine .inr ⟨_, rfl, ascii ": missing required member: " ++ serde.wireName member, ?_, ?_, ?_⟩
      · exact List.append_ne_nil_of_left_ne_nil (by decide) _
      · rw [List.append_assoc]
      · rw [List.append_assoc]
    · exact .inl ⟨_, rfl, if_pos filled⟩
    · exact .inl ⟨_, rfl, (if_neg filled).trans (if_pos isPlain)⟩
    · exact .inl ⟨_, rfl, (if_neg filled).trans (if_neg isPlain)⟩
  | some value =>
    dsimp only [Option.all_some]
    cases reports : reportsPath (serde.model.shape member.target).type with
    | false =>
      rw [deserializeInto_of_not_reportsPath reports value (name ++ ascii "." ++ member.name) (container.typeName ++
        ascii "." ++ member.name)]
      cases serde.deserializeInto read member value (container.typeName ++ ascii "." ++ member.name) with
      | error error => exact .inr ⟨error, rfl, rfl⟩
      | ok parsed => exact .inl ⟨_, rfl, rfl⟩
    | true =>
      obtain ⟨parsed, reads⟩ | ⟨rest, some_, fails⟩ := @underPath_deserializeInto _ serde read _ reports value
      · dsimp only at reads
        rw [reads, reads]
        exact .inl ⟨_, rfl, rfl⟩
      · dsimp only at fails
        rw [fails, fails]
        refine .inr ⟨_, rfl, ascii "." ++ member.name ++ rest, List.append_ne_nil_of_right_ne_nil _ some_, ?_, ?_⟩
        · simp only [List.append_assoc]
        · simp only [List.append_assoc]
          rfl

/-- A structure under another name is read alike, but for an error that names it. -/
theorem readStruct_renamed (container : Shape Id) (name : Bytes) (doc : Document) (members : List (Member Id)) :
    if serde.namesContainer read container doc members then
      ∃ rest ≠ [], serde.readStruct read container doc members = .error (.Serialization (container.typeName ++ rest).text) ∧
        serde.readStruct read { container with typeName := name } doc members = .error (.Serialization (name ++ rest).text)
    else serde.readStruct read { container with typeName := name } doc members =
      serde.readStruct read container doc members := by
  induction members with
  | nil => exact if_neg Bool.false_ne_true ▸ rfl
  | cons member members ih =>
    rw [namesContainer]
    obtain ⟨value, reads, reads'⟩ | ⟨error, fails, fails'⟩ := @readMember_renamed _ serde read container name doc member
    · rw [reads, readStruct, readStruct, reads, reads']
      dsimp only
      split_ifs at ih ⊢ with names
      · obtain ⟨rest, some_, whole, renamed⟩ := ih
        exact ⟨rest, some_, by rw [whole]; rfl, by rw [renamed]; rfl⟩
      · rw [ih]
    · rw [fails, readStruct, readStruct, fails]
      dsimp only
      split_ifs at fails' ⊢ with names
      · obtain ⟨rest, some_, rfl, renamed⟩ := fails'
        exact ⟨rest, some_, rfl, by rw [renamed]; rfl⟩
      · rw [fails']
        rfl

end Typed.SerdeCodeGen

namespace JsonRpc2

open Codegen (Needs Carries Next collectInputs exists_collectInputs)
open EventStream (Message)
open Http (HttpRequest)
open EventStream.JsonRpc (kVersionMember kVersionValue kMethodMember kParamsMember kIdMember kErrorMember kCodeMember
  kMessageMember kDataMember kTypeMember)
open Codegen (ServiceModel)
open Typed (Value SerdeCodeGen)

/-! ## Envelopes -/

theorem reserved_eq {code : Int64} {message : Bytes} {id : Document} (some_ : message ≠ []) : reserved code message id =
    .map [(kErrorMember, .map [(kCodeMember, .int code),
      (kDataMember, .map [(kTypeMember, .string kSerializationException)]),
      (kMessageMember, .string message)]), (kIdMember, id), (kVersionMember, .string kVersionValue)] := by
  rw [reserved, errorEnvelope, if_pos some_]
  rfl

/-- An error without data says its message. -/
theorem reserved_inj {code : Int64} {message message' : Bytes} {id : Document} (some_ : message ≠ []) (some' : message' ≠ [])
    (same : reserved code message id = reserved code message' id) : message = message' := by
  rw [reserved_eq some_, reserved_eq some'] at same
  injection same with same
  injection same with same
  injection same with _ same
  injection same with same
  injection same with _ same
  injection same with _ same
  injection same with same
  injection same with _ same
  injection same

namespace Service

variable {Id : Type} [DecidableEq Id] (service : Service Id)

/-- The same input shape: what the generators read of the two is the same, but for the name of the type, which
each operation's own copy has. -/
structure Alike (unary stream : Operation Id) : Prop where
  unit : service.noModeledInput stream.input = service.noModeledInput unary.input
  shape : service.shapes.shape stream.input = service.shapes.shape unary.input
  typed : service.serde.model.shape stream.input =
    { service.serde.model.shape unary.input with typeName := (service.serde.model.shape stream.input).typeName }
  structured : ∃ members, (service.serde.model.shape unary.input).type = .struct members

/-- Requests that differ in the method only, which names the one operation in the one and the other in the other, or no
operation in both. -/
inductive Paired (unary stream : Operation Id) : Bytes → Bytes → Prop
  | unnamed {text : Bytes} (unknown : ∀ decoded method, Json.decode service.backend text = .ok decoded →
      decoded.find kMethodMember = some (.string method) → ∀ operation ∈ service.operations, operation.name ≠ method) :
      Paired unary stream text text
  | named {text text' : Bytes} {fields fields' : DocumentMap}
      (decoded : Json.decode service.backend text = .ok (.map fields))
      (decoded' : Json.decode service.backend text' = .ok (.map fields'))
      (method : fields.lookup kMethodMember = some (.string unary.name))
      (method' : fields'.lookup kMethodMember = some (.string stream.name))
      (others : ∀ key, key ≠ kMethodMember → fields'.lookup key = fields.lookup key) : Paired unary stream text text'

/-- The calls whose params the two operations refuse differently: params that are no object, and an object whose first member
that is not read is reported under a type that each operation has its own name for. -/
def Diverges (unary stream : Operation Id) (text : Bytes) : Prop :=
  ∃ decoded, Json.decode service.backend text = .ok decoded ∧ isMap decoded = true ∧ isVersion2 decoded = true ∧
    decoded.find kMethodMember = some (.string unary.name) ∧ service.noModeledInput unary.input = false ∧
    (isMap (paramsOf decoded) = false ∨
      (service.serde.model.shape stream.input).typeName ≠ (service.serde.model.shape unary.input).typeName ∧
        ∃ members, (service.serde.model.shape unary.input).type = .struct members ∧
          service.serde.namesContainer service.serde.deserialize (service.serde.model.shape unary.input) (paramsOf decoded)
            members = true)

variable {service} {unary stream : Operation Id}

omit [DecidableEq Id] in
theorem needs_of_shape {shapes : Codegen.ServiceModel Id} {input copy : Id} (same : shapes.shape copy = shapes.shape input)
    (needs : Needs shapes copy) : Needs shapes input := by
  obtain ⟨other, reaches, carries⟩ := needs
  rcases reaches.cases_head with rfl | ⟨next, isNext, reaches⟩
  · rw [Carries, same] at carries
    exact Carries.needs carries
  · rw [Next, same] at isNext
    exact ⟨other, .head isNext reaches, carries⟩

theorem Alike.needs (alike : service.Alike unary stream) :
    Needs service.shapes stream.input ↔ Needs service.shapes unary.input :=
  ⟨needs_of_shape alike.shape, needs_of_shape alike.shape.symm⟩

theorem constrained_eq {operations : List (Operation Id)} {constrained : Finset Id}
    (collected : collectInputs service.shapes service.members (operations.map Operation.input) = some constrained) :
    service.constrained operations = constrained := by
  rw [Service.constrained, collected]
  rfl

/-- A generator that is made for an operation has its input among the constrained shapes if it leads to a constraint. -/
theorem mem_constrained {operations : List (Operation Id)}
    (within : ∀ operation ∈ operations, operation ∈ service.operations)
    {operation : Operation Id} (member : operation ∈ operations) :
    operation.input ∈ service.constrained operations ↔ Needs service.shapes operation.input := by
  have known : ∀ input ∈ operations.map Operation.input, input ∈ service.shapes.ids := by
    rw [List.forall_mem_map]
    exact fun other isOther => service.known other (within other isOther)
  obtain ⟨constrained, collected, needs, marked⟩ := exists_collectInputs service.order known
  rw [constrained_eq collected]
  exact ⟨needs operation.input, marked operation.input (List.mem_map_of_mem member)⟩

/-- Both generators of validators find the same of the two inputs. -/
theorem Alike.constrained (alike : service.Alike unary stream) (isUnary : unary ∈ service.unaryOperations)
    (isStream : stream ∈ service.streamingOperations) :
    stream.input ∈ service.constrained service.streamingOperations ↔
      unary.input ∈ service.constrained service.operations := by
  have within : ∀ operation ∈ service.streamingOperations, operation ∈ service.operations :=
    fun operation member => (List.mem_filter.mp member).1
  rw [mem_constrained within isStream, mem_constrained (fun operation member => member) (List.mem_filter.mp isUnary).1,
    alike.needs]

/-! ## Handlers -/

/-- One refuses where the other does, with the same envelope. -/
def Agree {α β : Type} (first : Except Document α) (second : Except Document β) : Prop :=
  ∀ refusal, first = .error refusal ↔ second = .error refusal

theorem agree_error {α β : Type} (refusal : Document) :
    Agree (.error refusal : Except Document α) (.error refusal : Except Document β) :=
  fun _ => by rw [Except.error.injEq, Except.error.injEq]

theorem agree_ok {α β : Type} (value : α) (value' : β) : Agree (.ok value) (.ok value') :=
  fun _ => iff_of_false (fun other => nomatch other) fun other => nomatch other

theorem not_agree {α β : Type} {first second : Document} (differ : first ≠ second) :
    ¬ Agree (.error first : Except Document α) (.error second : Except Document β) := by
  intro agree
  exact differ (Except.error.inj ((agree first).mp rfl)).symm

theorem Alike.type (alike : service.Alike unary stream) :
    (service.serde.model.shape stream.input).type = (service.serde.model.shape unary.input).type := by
  rw [alike.typed]

theorem Alike.validate (alike : service.Alike unary stream) (value : Value) :
    service.validate stream.input value = service.validate unary.input value := by
  simp only [Service.validate, alike.type]

theorem Alike.guard (alike : service.Alike unary stream) (isUnary : unary ∈ service.unaryOperations)
    (isStream : stream ∈ service.streamingOperations) (input : Value) (id : Document) :
    service.guard (service.constrained service.streamingOperations) stream input id =
      service.guard (service.constrained service.operations) unary input id := by
  simp only [Service.guard, alike.validate, alike.constrained isUnary isStream]

/-- What `Deserialize<Input>` makes of an object. -/
theorem parsedInput_map (valid : service.serde.Valid) {operation : Operation Id} {members : List (Typed.Member Id)}
    (type : (service.serde.model.shape operation.input).type = .struct members) (fields : DocumentMap) (id : Document) :
    service.parsedInput operation (.map fields) id =
      match service.serde.readStruct service.serde.deserialize (service.serde.model.shape operation.input)
        (.map fields) members with
      | .error error => .error (reserved (-32602) (ascii error.message) id)
      | .ok values => .ok (.struct values) := by
  rw [parsedInput, SerdeCodeGen.deserialize_eq valid]
  simp only [SerdeCodeGen.deserializeStep, type]
  cases service.serde.readStruct service.serde.deserialize (service.serde.model.shape operation.input)
    (.map fields) members with
  | error error => rfl
  | ok values => rfl

/-- What it makes of anything else. -/
theorem parsedInput_of_not_map (valid : service.serde.Valid) {operation : Operation Id} {members : List (Typed.Member Id)}
    (type : (service.serde.model.shape operation.input).type = .struct members) {params : Document}
    (notMap : isMap params = false)
    (id : Document) : service.parsedInput operation params id = .error (reserved (-32602)
      ((service.serde.model.shape operation.input).typeName ++ ascii ": expected a map on the wire") id) := by
  rw [parsedInput, SerdeCodeGen.deserialize_eq valid]
  cases params with
  | map fields => cases notMap
  | _ => simp only [SerdeCodeGen.deserializeStep, type, Error.Serialization, Bytes.ascii_text]

theorem objectMessage_ne (typeName : Bytes) (id : Document) : reserved (-32602) (ascii "params must be an object") id ≠
    reserved (-32602) (typeName ++ ascii ": expected a map on the wire") id := by
  intro same
  have message := reserved_inj (by decide) (List.append_ne_nil_of_right_ne_nil _ (by decide)) same
  have last := congrArg List.getLast? message
  rw [List.getLast?_append_of_ne_nil _ (by decide)] at last
  exact absurd last (by decide)

/-- The handlers' ends of the ladders agree on params, unless these are refused differently. -/
theorem agree_handlers_iff (valid : service.serde.Valid) (alike : service.Alike unary stream)
    (isUnary : unary ∈ service.unaryOperations) (isStream : stream ∈ service.streamingOperations) (params id : Document) :
    Agree (service.handle unary params id)
      ((if service.noModeledInput stream.input then .ok (.struct [])
          else service.parsedInput stream params id).bind fun input =>
        service.guard (service.constrained service.streamingOperations) stream input id) ↔
    ¬ (service.noModeledInput unary.input = false ∧ (isMap params = false ∨
      (service.serde.model.shape stream.input).typeName ≠ (service.serde.model.shape unary.input).typeName ∧
        ∃ members, (service.serde.model.shape unary.input).type = .struct members ∧
          service.serde.namesContainer service.serde.deserialize (service.serde.model.shape unary.input) params members =
            true)) := by
  obtain ⟨members, type⟩ := alike.structured
  -- What is done with the input that was read.
  have rest (input : Value) : Agree
      ((service.guard (service.constrained service.operations) unary input id).bind fun _ => .ok input)
      (service.guard (service.constrained service.streamingOperations) stream input id) := by
    rw [alike.guard isUnary isStream]
    cases service.guard (service.constrained service.operations) unary input id with
    | error refusal => exact agree_error refusal
    | ok done => exact agree_ok input done
  rw [alike.unit]
  cases modeled : service.noModeledInput unary.input with
  | true =>
    refine iff_of_true ?_ fun diverges => nomatch diverges.1
    simp only [handle, modeled]
    exact rest _
  | false =>
    simp only [handle, modeled, Bool.false_eq_true, if_false, true_and]
    cases params with
    | map fields =>
      have renamed := @SerdeCodeGen.readStruct_renamed _ service.serde service.serde.deserialize
        (service.serde.model.shape unary.input) (service.serde.model.shape stream.input).typeName (.map fields) members
      rw [← alike.typed] at renamed
      rw [parsedInput_map valid type, parsedInput_map valid (alike.type.trans type)]
      cases names : service.serde.namesContainer service.serde.deserialize (service.serde.model.shape unary.input)
          (.map fields) members with
      | false =>
        rw [names, if_neg Bool.false_ne_true] at renamed
        rw [renamed]
        refine iff_of_true ?_ ?_
        · cases service.serde.readStruct service.serde.deserialize (service.serde.model.shape unary.input) (.map fields)
              members with
          | error error => exact agree_error _
          | ok values => exact rest _
        · rintro (notObject | ⟨_, others, type', names'⟩)
          · cases notObject
          · rw [type] at type'
            cases type'
            rw [names] at names'
            cases names'
      | true =>
        rw [names, if_pos rfl] at renamed
        obtain ⟨message, some_, whole, copy⟩ := renamed
        rw [whole, copy]
        simp only [Error.Serialization, Bytes.ascii_text]
        by_cases same : (service.serde.model.shape stream.input).typeName = (service.serde.model.shape unary.input).typeName
        · rw [same]
          refine iff_of_true (agree_error _) ?_
          rintro (notObject | ⟨differ, _⟩)
          · cases notObject
          · exact differ rfl
        · refine iff_of_false (not_agree fun equal => ?_) fun agrees => agrees (.inr ⟨same, members, type, names⟩)
          have equal :=
            reserved_inj (List.append_ne_nil_of_right_ne_nil _ some_) (List.append_ne_nil_of_right_ne_nil _ some_) equal
          exact same (List.append_cancel_right equal).symm
    | _ =>
      refine iff_of_false ?_ fun agrees => agrees (.inl rfl)
      rw [parsedInput_of_not_map valid (alike.type.trans type) rfl]
      apply not_agree
      exact objectMessage_ne _ _

/-! ## The endpoints -/

omit [DecidableEq Id] in
/-- Operations have names of their own. -/
theorem find_named {operations : List (Operation Id)} (named : operations.Pairwise (·.name ≠ ·.name))
    {operation : Operation Id}
    (member : operation ∈ operations) : operations.find? (·.name = operation.name) = some operation := by
  induction operations with
  | nil => cases member
  | cons first rest ih =>
    rw [List.pairwise_cons] at named
    rcases List.mem_cons.mp member with rfl | later
    · exact List.find?_cons_of_pos (decide_eq_true rfl)
    · rw [List.find?_cons_of_neg (by simpa using named.1 operation later)]
      exact ih named.2 later

theorem requestBody_plain {request : HttpRequest} (plain : request.headers.get? (ascii "content-encoding") = none) :
    service.requestBody request = .ok request.body := by
  rw [requestBody, plain]
  split_ifs <;> rfl

/-- A call whose method is that of the unary operation. -/
theorem serveUnary_named {request : HttpRequest} (plain : request.headers.get? (ascii "content-encoding") = none)
    (json : otherMediaType request = false) {fields : DocumentMap}
    (decoded : Json.decode service.backend request.body = .ok (.map fields)) (version : isVersion2 (.map fields) = true)
    (isUnary : unary ∈ service.unaryOperations)
    (method : (Document.map fields).find kMethodMember = some (.string unary.name)) :
    service.serveUnary request =
      (service.handle unary (paramsOf (.map fields)) (idOf (.map fields))).map (unary, ·) := by
  have found := find_named (service.named.filter _) isUnary
  simp only [serveUnary, requestBody_plain plain, bind, Except.bind, json, decoded, version, method]
  rw [unaryOperations] at *
  simp only [found, isMap]
  rfl

/-- What the driver makes of a text, by what it is decoded to. -/
theorem serveStream_decoded {text : Bytes} {fields : DocumentMap}
    (decoded : Json.decode service.backend text = .ok (.map fields))
    (version : isVersion2 (.map fields) = true) (identified : (idOf (.map fields)).isNull = false) {method : Bytes}
    (named : (Document.map fields).find kMethodMember = some (.string method)) :
    service.serveStream ⟨[], text⟩ = service.openingDispatch ⟨idOf (.map fields), method, paramsOf (.map fields)⟩ := by
  simp only [serveStream, parseJsonRpcOpening, decoded, version, identified, named, isMap]
  rfl

theorem openingDispatch_named (isStream : stream ∈ service.streamingOperations) (params id : Document) :
    service.openingDispatch ⟨id, stream.name, params⟩ =
      (if service.noModeledInput stream.input then .ok (.struct [])
          else service.parsedInput stream params id).bind fun input =>
        (service.guard (service.constrained service.streamingOperations) stream input id).bind fun _ =>
          .ok (stream, service.resetStream stream input) := by
  have found := find_named (service.named.filter _) isStream
  rw [streamingOperations] at *
  simp only [openingDispatch, streamingOperations, found]
  split_ifs
  · rfl
  · rfl

theorem agree_congr {α β γ δ : Type} {first : Except Document α} {first' : Except Document β} {second : Except Document γ}
    {second' : Except Document δ} (one : Agree first first') (two : Agree second second') :
    Agree first second ↔ Agree first' second' := by
  constructor
  · exact fun agree refusal => (one refusal).symm.trans ((agree refusal).trans (two refusal))
  · exact fun agree refusal => (one refusal).trans ((agree refusal).trans (two refusal).symm)

/-- What is made of an input that is not refused does not matter. -/
theorem agree_map {α β : Type} (f : α → β) (outcome : Except Document α) : Agree (outcome.map f) outcome := by
  cases outcome with
  | error refusal => exact agree_error refusal
  | ok value => exact agree_ok _ _

theorem agree_return (service : Service Id) (stream : Operation Id) (input : Except Document Value)
    (guards : Value → Except Document Unit) :
    Agree (input.bind fun input => (guards input).bind fun _ => .ok (stream, service.resetStream stream input))
      (input.bind guards) := by
  cases input with
  | error refusal => exact agree_error refusal
  | ok value =>
    simp only [Except.bind]
    cases guards value with
    | error refusal => exact agree_error refusal
    | ok done => exact agree_ok _ _

omit [DecidableEq Id] in
theorem find_others {fields fields' : DocumentMap}
    (others : ∀ key, key ≠ kMethodMember → fields'.lookup key = fields.lookup key) :
    idOf (.map fields') = idOf (.map fields) ∧ isVersion2 (.map fields') = isVersion2 (.map fields) ∧
      paramsOf (.map fields') = paramsOf (.map fields) := by
  simp only [idOf, isVersion2, paramsOf, Document.find]
  rw [others kIdMember (by decide), others kVersionMember (by decide), others kParamsMember (by decide)]
  exact ⟨rfl, rfl, rfl⟩

/-- A call that names no operation is refused alike. -/
theorem agree_unnamed {request : HttpRequest} (plain : request.headers.get? (ascii "content-encoding") = none)
    (json : otherMediaType request = false)
    (unknown : ∀ decoded method, Json.decode service.backend request.body = .ok decoded →
      decoded.find kMethodMember = some (.string method) → ∀ operation ∈ service.operations, operation.name ≠ method)
    (identified : ∀ decoded, Json.decode service.backend request.body = .ok decoded → isMap decoded = true →
      (idOf decoded).isNull = false) :
    Agree (service.serveUnary request) (service.serveStream ⟨[], request.body⟩) := by
  have absent {operations : List (Operation Id)} (within : ∀ operation ∈ operations, operation ∈ service.operations)
      {decoded : Document} {method : Bytes} (ok : Json.decode service.backend request.body = .ok decoded)
      (named : decoded.find kMethodMember = some (.string method)) : operations.find? (·.name = method) = none := by
    rw [List.find?_eq_none]
    exact fun operation member => by simpa using unknown decoded method ok named operation (within operation member)
  simp only [serveUnary, serveStream, parseJsonRpcOpening, requestBody_plain plain, bind, Except.bind, json]
  cases decoding : Json.decode service.backend request.body with
  | error error => exact agree_error _
  | ok decoded =>
    cases isObject : isMap decoded with
    | false =>
      simp only [isObject]
      exact agree_error _
    | true =>
      cases version : isVersion2 decoded with
      | false =>
        simp only [isObject, version]
        exact agree_error _
      | true =>
        simp only [isObject, version]
        cases method : decoded.find kMethodMember with
        | none => exact agree_error _
        | some value =>
          cases value with
          | string name =>
            have noUnary : service.unaryOperations.find? (·.name = name) = none :=
              absent (fun operation member => (List.mem_filter.mp member).1) decoding method
            have noStream : service.streamingOperations.find? (·.name = name) = none :=
              absent (fun operation member => (List.mem_filter.mp member).1) decoding method
            simp only [noUnary, identified decoded decoding isObject]
            change Agree _ (service.openingDispatch ⟨idOf decoded, name, paramsOf decoded⟩)
            simp only [openingDispatch, noStream]
            exact agree_error _
          | _ => exact agree_error _

/-- One endpoint refuses where the other does and with the same envelope, exactly if the two operations do not refuse the
params differently. -/
theorem agree_iff (service : Service Id) (valid : service.serde.Valid) {unary stream : Operation Id}
    (isUnary : unary ∈ service.unaryOperations) (isStream : stream ∈ service.streamingOperations)
    (alike : service.Alike unary stream) {request : HttpRequest} {text : Bytes}
    (plain : request.headers.get? (ascii "content-encoding") = none) (json : otherMediaType request = false)
    (paired : service.Paired unary stream request.body text)
    (identified : ∀ decoded, Json.decode service.backend request.body = .ok decoded → isMap decoded = true →
      (idOf decoded).isNull = false) :
    Agree (service.serveUnary request) (service.serveStream ⟨[], text⟩) ↔ ¬ service.Diverges unary stream request.body := by
  generalize body : request.body = first at paired identified
  cases paired with
  | unnamed unknown =>
    subst body
    refine iff_of_true (agree_unnamed plain json unknown identified) ?_
    rintro ⟨decoded, ok, _, _, method, _⟩
    exact unknown decoded _ ok method unary (List.mem_filter.mp isUnary).1 rfl
  | @named _ fields fields' decoded decoded' method method' others =>
    subst body
    obtain ⟨sameId, sameVersion, sameParams⟩ := find_others others
    have identified := identified _ decoded rfl
    cases version : isVersion2 (.map fields) with
    | false =>
      have version' : isVersion2 (.map fields') = false := sameVersion.trans version
      refine iff_of_true ?_ ?_
      · simp only [serveUnary, serveStream, parseJsonRpcOpening, requestBody_plain plain, bind, Except.bind, json, decoded,
          decoded', isMap, version, version', sameId]
        exact agree_error _
      · rintro ⟨other, ok, _, isNew, _⟩
        rw [decoded] at ok
        cases ok
        rw [version] at isNew
        cases isNew
    | true =>
      rw [serveUnary_named plain json decoded version isUnary method,
        serveStream_decoded decoded' (sameVersion.trans version) (sameId ▸ identified) method',
        openingDispatch_named isStream, sameId, sameParams]
      have ends := agree_handlers_iff valid alike isUnary isStream (paramsOf (.map fields)) (idOf (.map fields))
      rw [agree_congr (agree_map _ _) (agree_return service stream _ _), ends, Diverges]
      refine not_congr ⟨fun ⟨modeled, differ⟩ => ⟨_, decoded, rfl, version, method, modeled, differ⟩, ?_⟩
      rintro ⟨other, ok, _, _, _, modeled, differ⟩
      rw [decoded] at ok
      cases ok
      exact ⟨modeled, differ⟩

/-! ### Readings -/

/-- The copies of one input, the string in it, and the outputs, of which one has a stream. -/
inductive ReadingId where
  | getInput | watchInput | name | getOutput | watchOutput
deriving DecidableEq

def readingShape : ReadingId → Typed.Shape ReadingId
  | .getInput =>
    { type := .struct [{ target := .name, memberName := ascii "name" }], typeName := ascii "GetInput", input := true }
  | .watchInput =>
    { type := .struct [{ target := .name, memberName := ascii "name" }], typeName := ascii "WatchInput", input := true }
  | _ => { type := .string }

def readingSerde : SerdeCodeGen ReadingId where
  model :=
    { shape := readingShape
      stringKeys := by
        rintro (_ | _ | _ | _ | _) key value sparse ⟨⟩
      grounded := Typed.Model.grounded_of_optional (by rintro (_ | _ | _ | _ | _) members ⟨⟩ <;> decide) }

theorem readingSerde_valid : readingSerde.Valid where
  fields := by
    rintro (_ | _ | _ | _ | _) members ⟨⟩
    · decide
    · decide
  tags := by
    rintro (_ | _ | _ | _ | _) members discriminator ⟨⟩
  values := by
    rintro (_ | _ | _ | _ | _) values ⟨⟩
  alternatives := by
    rintro (_ | _ | _ | _ | _) members discriminator ⟨⟩

def readingShapes : ServiceModel ReadingId where
  ids := {.getInput, .watchInput, .name}
  shape
    | .getInput => { kind := .structureShape [{ target := .name, traits := { length := true } }] }
    | .watchInput => { kind := .structureShape [{ target := .name, traits := { length := true } }] }
    | _ => { kind := .simpleShape }
  closed := by decide
  stringKeys := by
    rintro (_ | _ | _ | _ | _) key value ⟨⟩

def get : Operation ReadingId := { name := ascii "Get", input := .getInput, output := .getOutput }

def watch : Operation ReadingId := { name := ascii "Watch", input := .watchInput, output := .watchOutput }

/-- A call of a method, as a text and as what it is parsed to. -/
def callOf (method : String) (params : String) (value : Json.Value) : Bytes × Json.Value :=
  (ascii "\x7b\"jsonrpc\":\"2.0\",\"id\":1,\"method\":\"" ++ ascii method ++ ascii "\",\"params\":" ++ ascii params ++
    ascii "\x7d",
    .object [(kIdMember, .number (.integer 1)), (kVersionMember, .string kVersionValue),
      (kMethodMember, .string (ascii method)),
      (kParamsMember, value)])

/-- A service that is sent two calls. -/
def readings (one two : Bytes × Json.Value) : Service ReadingId where
  backend := { parse := fun text => [one, two].lookup text, dump := fun _ => [] }
  serde := readingSerde
  shapes := readingShapes
  members id := (readingShapes.shape id).members
  order _ := .refl _
  operations := [get, watch]
  named := by decide
  known := by decide
  noModeledInput _ := false
  streamMember id := if id = .watchOutput then some 0 else none
  memberChecks _ _ := []
  gunzip _ := none

theorem readings_alike (one two : Bytes × Json.Value) : (readings one two).Alike get watch where
  unit := rfl
  shape := rfl
  typed := rfl
  structured := ⟨_, rfl⟩

/-- Of a name that is a string, neither refuses anything. -/
theorem agree_iff_string :
    let params : Json.Value := .object [(ascii "name", .string (ascii "x"))]
    let one := callOf "Get" "\x7b\"name\":\"x\"\x7d" params
    let two := callOf "Watch" "\x7b\"name\":\"x\"\x7d" params
    Agree ((readings one two).serveUnary { method := ascii "POST", body := one.1 })
      ((readings one two).serveStream ⟨[], two.1⟩) := by
  intro params one two
  have decoded : Json.decode (readings one two).backend one.1 = .ok (.map [(kIdMember, .int 1),
      (kVersionMember, .string kVersionValue), (kMethodMember, .string (ascii "Get")),
      (kParamsMember, .map [(ascii "name", .string (ascii "x"))])]) := rfl
  have decoded' : Json.decode (readings one two).backend two.1 = .ok (.map [(kIdMember, .int 1),
      (kVersionMember, .string kVersionValue), (kMethodMember, .string (ascii "Watch")),
      (kParamsMember, .map [(ascii "name", .string (ascii "x"))])]) := rfl
  have paired : (readings one two).Paired get watch one.1 two.1 := by
    refine .named decoded decoded' rfl rfl fun key differs => ?_
    simp only [List.lookup_cons, beq_eq_false_iff_ne.mpr differs]
  have isUnary : get ∈ (readings one two).unaryOperations := List.mem_filter.mpr ⟨List.mem_cons_self, by decide⟩
  have isStream : watch ∈ (readings one two).streamingOperations :=
    List.mem_filter.mpr ⟨List.mem_cons_of_mem _ List.mem_cons_self, by decide⟩
  have identified : ∀ document, Json.decode (readings one two).backend one.1 = .ok document → isMap document = true →
      (idOf document).isNull = false := by
    intro document ok _
    rw [decoded] at ok
    cases ok
    rfl
  let request : HttpRequest := { method := ascii "POST", body := one.1 }
  have plain : request.headers.get? (ascii "content-encoding") = none := rfl
  have json : otherMediaType request = false := rfl
  refine (agree_iff (readings one two) readingSerde_valid isUnary isStream (readings_alike one two) plain json paired
    identified).mpr ?_
  rintro ⟨document, ok, _, _, _, _, notMap | ⟨_, members, type, names⟩⟩
  · rw [decoded] at ok
    cases ok
    cases notMap
  · rw [decoded] at ok
    cases ok
    cases type
    exact absurd names (by decide)

/-- Of params that are an array and of a name that is a number, the two say something else. -/
theorem not_agree_readings :
    let array := callOf "Get" "[]" (.array [])
    let array' := callOf "Watch" "[]" (.array [])
    let number : Json.Value := .object [(ascii "name", .number (.integer 1))]
    let one := callOf "Get" "\x7b\"name\":1\x7d" number
    let two := callOf "Watch" "\x7b\"name\":1\x7d" number
    ¬ Agree ((readings array array').serveUnary { method := ascii "POST", body := array.1 })
      ((readings array array').serveStream ⟨[], array'.1⟩) ∧
    ¬ Agree ((readings one two).serveUnary { method := ascii "POST", body := one.1 })
      ((readings one two).serveStream ⟨[], two.1⟩) := by
  intro array array' number one two
  have unary : (readings array array').serveUnary { method := ascii "POST", body := array.1 } =
      .error (reserved (-32602) (ascii "params must be an object") (.int 1)) := rfl
  have stream : (readings array array').serveStream ⟨[], array'.1⟩ =
      .error (reserved (-32602) (ascii "WatchInput: expected a map on the wire") (.int 1)) := rfl
  have unary' : (readings one two).serveUnary { method := ascii "POST", body := one.1 } =
      .error (reserved (-32602) (ascii "GetInput.name: unexpected type on the wire") (.int 1)) := rfl
  have stream' : (readings one two).serveStream ⟨[], two.1⟩ =
      .error (reserved (-32602) (ascii "WatchInput.name: unexpected type on the wire") (.int 1)) := rfl
  constructor
  · rw [unary, stream]
    exact not_agree fun same => absurd (reserved_inj (by decide) (by decide) same) (by decide)
  · rw [unary', stream']
    exact not_agree fun same => absurd (reserved_inj (by decide) (by decide) same) (by decide)

end Service

end JsonRpc2

end OpalCpp

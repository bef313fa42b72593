import OpalCpp.Proofs.Codegen.Redaction

/-! # What debug output gives away

Where a list or a map shows a sensitive part, two values that agree outside such parts have different
texts: every shape has a value, every type that the template prints has two with different texts, and
what stands around them in the printed type does not hide them.
-/

namespace OpalCpp.Typed

open Bytes (ascii)

variable {Id : Type*} {model : Model Id}

/-! ## Every shape has a value -/

/-- Two values of a scalar type that have different texts. -/
def scalarPair : ShapeType Id → Option (Value × Value)
  | .boolean => some (.boolean true, .boolean false)
  | .byte => some (.byte 0, .byte 1)
  | .short => some (.short 0, .short 1)
  | .integer => some (.integer 0, .integer 1)
  | .long => some (.long 0, .long 1)
  | .float => some (.float ⟨0⟩, .float ⟨0x7F800000⟩)
  | .double => some (.double ⟨0⟩, .double ⟨0x7FF0000000000000⟩)
  | .string => some (.string [], .string [0x61])
  | .intEnum => some (.intEnum 0, .intEnum 1)
  | .blob => some (.blob [], .blob [0])
  | .timestamp => some (.timestamp ⟨0⟩, .timestamp ⟨1000⟩)
  | .document => some (.document .null, .document (.bool true))
  | _ => none

theorem of_scalarPair {id : Id} {first second : Value} (pair : scalarPair (model.shape id).type = some (first, second)) :
    first.HasType model ⟨id, false⟩ ∧ second.HasType model ⟨id, false⟩ ∧
      debugText model first id ≠ debugText model second id := by
  cases type : (model.shape id).type with
  | boolean | byte | short | integer | long | float | double | string | intEnum | blob | timestamp | document =>
    rw [type] at pair
    cases pair
    rw [Value.HasType, Value.HasType, debugText, debugText]
    exact ⟨⟨rfl, type⟩, ⟨rfl, type⟩, by decide⟩
  | _ =>
    rw [type] at pair
    cases pair

theorem exists_fields {container : Shape Id} {members : List (Member Id)}
    (each : ∀ member ∈ members, ∃ value : Value, value.HasType model (model.memberSlot container member)) :
    ∃ values, Value.FieldsHaveType model values (members.map (model.memberSlot container)) := by
  induction members with
  | nil => exact ⟨[], trivial⟩
  | cons member members ih =>
    obtain ⟨value, typed⟩ := each member List.mem_cons_self
    obtain ⟨values, rest⟩ := ih fun other present => each other (List.mem_cons_of_mem _ present)
    refine ⟨value :: values, ?_⟩
    rw [List.map_cons]
    simp only [Value.FieldsHaveType]
    exact ⟨typed, rest⟩

theorem exists_value_of_not_struct {id : Id} (other : (model.shape id).type.isStruct = false) :
    ∃ value : Value, value.HasType model ⟨id, false⟩ := by
  cases type : (model.shape id).type with
  | boolean | byte | short | integer | long | float | double | string | intEnum | blob | timestamp | document =>
    exact ⟨_, (of_scalarPair (by rw [type]; rfl)).1⟩
  | unit => exact ⟨.unit, by rw [Value.HasType]; exact ⟨rfl, type⟩⟩
  | list member sparse =>
    refine ⟨.list [], ?_⟩
    rw [Value.HasType]
    exact ⟨rfl, member, sparse, type, trivial⟩
  | map key value sparse =>
    refine ⟨.map [], ?_⟩
    rw [Value.HasType]
    exact ⟨rfl, key, value, sparse, type, List.Pairwise.nil, trivial⟩
  | enum values =>
    cases values with
    | nil =>
      refine ⟨.enum ⟨none, []⟩, ?_⟩
      rw [Value.HasType]
      exact ⟨rfl, [], type, List.not_mem_nil⟩
    | cons text values =>
      refine ⟨.enum ⟨some 0, []⟩, ?_⟩
      rw [Value.HasType]
      exact ⟨rfl, text :: values, type, Nat.succ_pos _, rfl⟩
  | union members discriminated =>
    refine ⟨.empty, ?_⟩
    rw [Value.HasType]
    exact ⟨rfl, members, discriminated, type⟩
  | struct members =>
    rw [type] at other
    cases other

/-- There is no default for a structure. -/
theorem defaulted_struct {target : ShapeType Id} (struct : target.isStruct = true) (member : Member Id) :
    defaulted target member = false := by
  cases target with
  | struct members =>
    rw [defaulted]
    split_ifs
    · rfl
    · split <;> rfl
  | _ => cases struct

/-- A structure that is not an optional is required. -/
theorem isRequired_of_plain {container : Shape Id} {target : ShapeType Id} {member : Member Id}
    (plain : Typed.plain container target member = true) (struct : target.isStruct = true) :
    member.isRequired = true := by
  rwa [Typed.plain, populated, defaulted_struct struct, Bool.false_and, Bool.or_false] at plain

theorem exists_value (id : Id) : ∃ value : Value, value.HasType model ⟨id, false⟩ := by
  induction id using model.grounded.induction with
  | _ id ih =>
    cases struct : (model.shape id).type.isStruct with
    | false => exact exists_value_of_not_struct struct
    | true =>
      obtain ⟨members, type⟩ : ∃ members, (model.shape id).type = .struct members := by
        cases type : (model.shape id).type with
        | struct members => exact ⟨members, rfl⟩
        | _ =>
          rw [type] at struct
          cases struct
      have each : ∀ member ∈ members, ∃ value : Value, value.HasType model (model.memberSlot (model.shape id) member) := by
        intro member present
        cases plain : Typed.plain (model.shape id) (model.shape member.target).type member with
        | false =>
          refine ⟨.nullopt, ?_⟩
          simp only [Value.HasType, Model.memberSlot, plain, Bool.not_false]
        | true =>
          rw [Model.memberSlot, plain]
          cases inner : (model.shape member.target).type.isStruct with
          | false => exact exists_value_of_not_struct inner
          | true => exact ih member.target ⟨members, type, member, present, isRequired_of_plain plain inner, rfl⟩
      obtain ⟨values, typed⟩ := exists_fields each
      refine ⟨.struct values, ?_⟩
      rw [Value.HasType]
      exact ⟨rfl, members, type, typed⟩

/-! ## Values that tell -/

/-- Two values that agree outside their sensitive parts and have different texts. -/
structure Tells (model : Model Id) (slot : Slot Id) (first second : Value) : Prop where
  typed : first.HasType model slot
  otherTyped : second.HasType model slot
  agrees : Agrees model first second slot
  differ : debugText model first slot.target ≠ debugText model second slot.target

/-- An element of a list or a map that may be sparse. -/
def wrap (sparse : Bool) (value : Value) : Value := if sparse then .engaged value else value

theorem debugText_wrap (sparse : Bool) (value : Value) (id : Id) :
    debugText model (wrap sparse value) id = debugText model value id := by
  cases sparse with
  | false => rfl
  | true => exact debugText.eq_2 model id value

theorem hasType_wrap {sparse : Bool} {value : Value} {id : Id} (typed : value.HasType model ⟨id, false⟩) :
    (wrap sparse value).HasType model ⟨id, sparse⟩ := by
  cases sparse with
  | false => exact typed
  | true =>
    rw [wrap, if_pos rfl, Value.HasType]
    exact ⟨rfl, typed⟩

theorem Tells.wrap {id : Id} {first second : Value} (tells : Tells model ⟨id, false⟩ first second) (sparse : Bool) :
    Tells model ⟨id, sparse⟩ (wrap sparse first) (wrap sparse second) := by
  obtain ⟨typed, otherTyped, agrees, differ⟩ := tells
  refine ⟨hasType_wrap typed, hasType_wrap otherTyped, ?_, ?_⟩
  · cases sparse with
    | false => exact agrees
    | true => exact .engaged agrees
  · rw [debugText_wrap, debugText_wrap]
    exact differ

/-- Every type that the template prints has values with different texts. -/
theorem exists_texts {id : Id} (template : (model.shape id).type.printsItself = false) :
    ∃ first second : Value, first.HasType model ⟨id, false⟩ ∧ second.HasType model ⟨id, false⟩ ∧
      debugText model first id ≠ debugText model second id := by
  cases type : (model.shape id).type with
  | boolean | byte | short | integer | long | float | double | string | intEnum | blob | timestamp | document =>
    exact ⟨_, _, of_scalarPair (by rw [type]; rfl)⟩
  | list member sparse =>
    obtain ⟨value, typed⟩ := @exists_value _ model member.target
    refine ⟨.list [Typed.wrap sparse value], .list [Typed.wrap sparse value, Typed.wrap sparse value], ?_, ?_, ?_⟩
    · rw [Value.HasType]
      exact ⟨rfl, member, sparse, type, hasType_wrap typed, trivial⟩
    · rw [Value.HasType]
      exact ⟨rfl, member, sparse, type, hasType_wrap typed, hasType_wrap typed, trivial⟩
    · intro same
      have lengths := congrArg List.length same
      simp [debugText, type, debugTexts, Print.separated, ascii] at lengths
  | map key value sparse =>
    obtain ⟨inner, typed⟩ := @exists_value _ model value.target
    refine ⟨.map [], .map [([], Typed.wrap sparse inner)], ?_, ?_, ?_⟩
    · rw [Value.HasType]
      exact ⟨rfl, key, value, sparse, type, List.Pairwise.nil, trivial⟩
    · rw [Value.HasType]
      exact ⟨rfl, key, value, sparse, type, List.pairwise_singleton _ _, hasType_wrap typed, trivial⟩
    · intro same
      have lengths := congrArg List.length same
      simp [debugText, type, entryTexts, Print.separated, Print.appendQuoted, ascii] at lengths
  | _ =>
    rw [type] at template
    cases template

/-- Sensitive values that the template prints. -/
theorem Bare.tells {id : Id} (bare : Bare model id) : ∃ first second, Tells model ⟨id, false⟩ first second := by
  obtain ⟨first, second, typed, otherTyped, differ⟩ := exists_texts bare.2
  exact ⟨first, second, typed, otherTyped, .sensitive rfl bare.1, differ⟩

/-- What stands around two different texts does not make them the same. -/
theorem around_ne {before first second after : Bytes} (differ : first ≠ second) :
    before ++ first ++ after ≠ before ++ second ++ after := by
  intro same
  exact differ (List.append_cancel_left (List.append_cancel_right same))

theorem Tells.list {id : Id} {member : Member Id} {sparse : Bool} {first second : Value}
    (type : (model.shape id).type = .list member sparse) (tells : Tells model ⟨member.target, false⟩ first second) :
    ∃ first second, Tells model ⟨id, false⟩ first second := by
  obtain ⟨typed, otherTyped, agrees, differ⟩ := tells.wrap sparse
  refine ⟨.list [Typed.wrap sparse first], .list [Typed.wrap sparse second], ?_, ?_, ?_, ?_⟩
  · rw [Value.HasType]
    exact ⟨rfl, member, sparse, type, typed, trivial⟩
  · rw [Value.HasType]
    exact ⟨rfl, member, sparse, type, otherTyped, trivial⟩
  · exact .list type (.cons agrees (.nil _))
  · simp only [debugText, type, debugTexts, Print.separated, List.intersperse, List.flatten_cons, List.flatten_nil,
      List.append_nil]
    exact around_ne differ

theorem Tells.map {id : Id} {key value : Member Id} {sparse : Bool} {first second : Value}
    (type : (model.shape id).type = .map key value sparse) (tells : Tells model ⟨value.target, false⟩ first second) :
    ∃ first second, Tells model ⟨id, false⟩ first second := by
  obtain ⟨typed, otherTyped, agrees, differ⟩ := tells.wrap sparse
  refine ⟨.map [([], Typed.wrap sparse first)], .map [([], Typed.wrap sparse second)], ?_, ?_, ?_, ?_⟩
  · rw [Value.HasType]
    exact ⟨rfl, key, value, sparse, type, List.pairwise_singleton _ _, typed, trivial⟩
  · rw [Value.HasType]
    exact ⟨rfl, key, value, sparse, type, List.pairwise_singleton _ _, otherTyped, trivial⟩
  · exact .map type (.cons (.inr rfl) agrees (.nil _ _))
  · simp only [debugText, type, entryTexts, Print.separated, List.intersperse, List.flatten_cons, List.flatten_nil,
      List.append_nil]
    rw [← List.append_assoc, ← List.append_assoc]
    exact around_ne differ

/-- The keys of a map tell. -/
theorem exists_keys {id : Id} {key value : Member Id} {sparse : Bool}
    (type : (model.shape id).type = .map key value sparse) (sensitive : (model.shape key.target).sensitive = true) :
    ∃ first second, Tells model ⟨id, false⟩ first second := by
  obtain ⟨inner, typed⟩ := @exists_value _ model value.target
  have each (text : Bytes) : Value.HasType model (.map [(text, Typed.wrap sparse inner)]) ⟨id, false⟩ := by
    rw [Value.HasType]
    exact ⟨rfl, key, value, sparse, type, List.pairwise_singleton _ _, hasType_wrap typed, trivial⟩
  refine ⟨_, _, each [0x61], each [0x62], ?_, ?_⟩
  · exact .map type (.cons (.inl sensitive) (.same _ _) (.nil _ _))
  · simp only [debugText, type, entryTexts, Print.separated, List.intersperse, List.flatten_cons, List.flatten_nil,
      List.append_nil]
    apply around_ne
    intro same
    exact absurd (List.append_cancel_right (List.append_cancel_right same)) (by decide)

/-! ### Members -/

/-- A member among others: its text stands between those of the others. -/
theorem fieldTexts_middle {container : Shape Id} {before after : List (Member Id)} {member : Member Id}
    {befores afters : List Value} (shown : (model.shape member.target).sensitive = false)
    (typed : Value.FieldsHaveType model befores (before.map (model.memberSlot container))) (sep : Bytes) :
    ∃ left right, ∀ value : Value, value ≠ .nullopt →
      fieldTexts model sep (befores ++ value :: afters) (before ++ member :: after) =
        left ++ debugText model value member.target ++ right := by
  induction before generalizing befores sep with
  | nil =>
    cases befores with
    | nil =>
      refine ⟨sep ++ ascii "." ++ member.memberName ++ ascii " = ", fieldTexts model (ascii ", ") afters after, ?_⟩
      intro value engaged
      rw [List.nil_append, List.nil_append, fieldTexts_cons engaged, fieldText, shown]
      simp only [Bool.false_eq_true, if_false, List.append_assoc]
    | cons => exact typed.elim
  | cons other before ih =>
    cases befores with
    | nil => exact typed.elim
    | cons first befores =>
      rw [List.map_cons, Value.FieldsHaveType] at typed
      rcases eq_or_ne first .nullopt with rfl | engaged
      · obtain ⟨left, right, texts⟩ := ih typed.2 sep
        refine ⟨left, right, ?_⟩
        intro value some_
        rw [List.cons_append, List.cons_append, fieldTexts, texts value some_]
      · obtain ⟨left, right, texts⟩ := ih typed.2 (ascii ", ")
        refine ⟨fieldText sep other.memberName (model.shape other.target).sensitive (debugText model first other.target) ++
          left, right, ?_⟩
        intro value some_
        rw [List.cons_append, List.cons_append, fieldTexts_cons engaged, texts value some_]
        simp only [List.append_assoc]

theorem fieldsHaveType_middle {slots more : List (Slot Id)} {slot : Slot Id} {befores afters : List Value} {value : Value}
    (before : Value.FieldsHaveType model befores slots) (typed : value.HasType model slot)
    (after : Value.FieldsHaveType model afters more) :
    Value.FieldsHaveType model (befores ++ value :: afters) (slots ++ slot :: more) := by
  induction slots generalizing befores with
  | nil =>
    cases befores with
    | nil =>
      rw [List.nil_append, List.nil_append, Value.FieldsHaveType]
      exact ⟨typed, after⟩
    | cons => exact before.elim
  | cons other slots ih =>
    cases befores with
    | nil => exact before.elim
    | cons first befores =>
      rw [Value.FieldsHaveType] at before
      rw [List.cons_append, List.cons_append, Value.FieldsHaveType]
      exact ⟨before.1, ih before.2⟩

theorem fieldsAgree_same {slots : List (Slot Id)} {values : List Value} (typed : Value.FieldsHaveType model values slots) :
    FieldsAgree model values values slots := by
  induction slots generalizing values with
  | nil =>
    cases values with
    | nil => exact .nil
    | cons => exact typed.elim
  | cons slot slots ih =>
    cases values with
    | nil => exact typed.elim
    | cons value values =>
      rw [Value.FieldsHaveType] at typed
      exact .cons (.same _ _) (ih typed.2)

theorem fieldsAgree_middle {slots more : List (Slot Id)} {slot : Slot Id} {befores afters : List Value}
    {first second : Value} (before : Value.FieldsHaveType model befores slots) (agrees : Agrees model first second slot)
    (after : Value.FieldsHaveType model afters more) :
    FieldsAgree model (befores ++ first :: afters) (befores ++ second :: afters) (slots ++ slot :: more) := by
  induction slots generalizing befores with
  | nil =>
    cases befores with
    | nil => exact .cons agrees (fieldsAgree_same after)
    | cons => exact before.elim
  | cons other slots ih =>
    cases befores with
    | nil => exact before.elim
    | cons value befores =>
      rw [Value.FieldsHaveType] at before
      exact .cons (.same _ _) (ih before.2)

theorem Tells.member {id : Id} {members : List (Member Id)} {member : Member Id} {first second : Value}
    (type : (model.shape id).type = .struct members) (shown : (model.shape id).sensitive = false)
    (present : member ∈ members) (printed : (model.shape member.target).sensitive = false)
    (tells : Tells model ⟨member.target, false⟩ first second) : ∃ first second, Tells model ⟨id, false⟩ first second := by
  obtain ⟨before, after, rfl⟩ := List.append_of_mem present
  have each (others : List (Member Id)) : ∃ values, Value.FieldsHaveType model values
      (others.map (model.memberSlot (model.shape id))) := by
    apply exists_fields
    intro other _
    obtain ⟨value, typed⟩ := @exists_value _ model other.target
    exact ⟨_, hasType_wrap typed⟩
  obtain ⟨befores, beforeTyped⟩ := each before
  obtain ⟨afters, afterTyped⟩ := each after
  have slots : (before ++ member :: after).map (model.memberSlot (model.shape id)) =
      before.map (model.memberSlot (model.shape id)) ++ model.memberSlot (model.shape id) member ::
        after.map (model.memberSlot (model.shape id)) := by
    rw [List.map_append, List.map_cons]
  obtain ⟨left, right, texts⟩ := @fieldTexts_middle _ model (model.shape id) before after member befores afters printed
    beforeTyped []
  have wrapped := tells.wrap (model.memberSlot (model.shape id) member).optional
  have some_ {value : Value} (typed : value.HasType model ⟨member.target, false⟩) :
      Typed.wrap (model.memberSlot (model.shape id) member).optional value ≠ .nullopt := by
    rw [Typed.wrap]
    split_ifs
    · rintro ⟨⟩
    · exact typed.ne_nullopt rfl
  refine ⟨.struct (befores ++ Typed.wrap (model.memberSlot (model.shape id) member).optional first :: afters),
    .struct (befores ++ Typed.wrap (model.memberSlot (model.shape id) member).optional second :: afters), ?_, ?_, ?_, ?_⟩
  · rw [Value.HasType]
    refine ⟨rfl, _, type, ?_⟩
    rw [slots]
    exact fieldsHaveType_middle beforeTyped wrapped.typed afterTyped
  · rw [Value.HasType]
    refine ⟨rfl, _, type, ?_⟩
    rw [slots]
    exact fieldsHaveType_middle beforeTyped wrapped.otherTyped afterTyped
  · refine .struct type ?_
    rw [slots]
    exact fieldsAgree_middle beforeTyped wrapped.agrees afterTyped
  · simp only [debugText, type, shown, Bool.false_eq_true, if_false]
    rw [texts _ (some_ tells.typed), texts _ (some_ tells.otherTyped)]
    apply around_ne
    exact around_ne wrapped.differ

theorem Tells.alternative {id : Id} {members : List (Member Id)} {discriminated : Option Bytes} {member : Member Id}
    {first second : Value} (type : (model.shape id).type = .union members discriminated)
    (shown : (model.shape id).sensitive = false) (present : member ∈ members)
    (printed : (model.shape member.target).sensitive = false) (tells : Tells model ⟨member.target, false⟩ first second) :
    ∃ first second, Tells model ⟨id, false⟩ first second := by
  obtain ⟨typed, otherTyped, agrees, differ⟩ := tells
  obtain ⟨index, found⟩ := List.getElem?_of_mem present
  refine ⟨.alternative index first, .alternative index second, ?_, ?_, .alternative type found agrees, ?_⟩
  · rw [Value.HasType]
    exact ⟨rfl, members, discriminated, member, type, found, typed⟩
  · rw [Value.HasType]
    exact ⟨rfl, members, discriminated, member, type, found, otherTyped⟩
  · simp only [debugText, type, found, taggedText, shown, printed, Bool.false_eq_true, if_false]
    apply around_ne
    intro same
    exact differ (List.append_cancel_left same)

/-- Where a sensitive part shows, two values that agree have different texts. -/
theorem Exposes.tells {id : Id} (exposes : Exposes model id) : ∃ first second, Tells model ⟨id, false⟩ first second := by
  induction exposes with
  | element type bare =>
    obtain ⟨first, second, tells⟩ := bare.tells
    exact tells.list type
  | inElement type _ ih =>
    obtain ⟨first, second, tells⟩ := ih
    exact tells.list type
  | key type sensitive => exact exists_keys type sensitive
  | value type bare =>
    obtain ⟨first, second, tells⟩ := bare.tells
    exact tells.map type
  | inValue type _ ih =>
    obtain ⟨first, second, tells⟩ := ih
    exact tells.map type
  | inMember type shown present printed _ ih =>
    obtain ⟨first, second, tells⟩ := ih
    exact tells.member type shown present printed
  | inAlternative type shown present printed _ ih =>
    obtain ⟨first, second, tells⟩ := ih
    exact tells.alternative type shown present printed

/-! ## Generated types -/

namespace Printed

variable (model)

/-- A structure, a union or another class of the generated code; the errors of an operation are structures. -/
def IsGenerated : Printed Id → Prop
  | .shape id => (model.shape id).type.printsItself = true
  | .errors _ listed => ∀ error ∈ listed, (model.shape error.2).type.isStruct = true

def HasType : Printed Id → Value → Prop
  | .shape id, value => value.HasType model ⟨id, false⟩
  | .errors _ listed, value => value = .empty ∨ ∃ index inner error, value = .alternative index inner ∧
      listed[index]? = some error ∧ inner.HasType model ⟨error.2, false⟩

/-- The values are equal except inside parts whose shape is sensitive. -/
def Agrees : Printed Id → Value → Value → Prop
  | .shape id, first, second => Typed.Agrees model first second ⟨id, false⟩
  | .errors _ listed, first, second => first = second ∨ ∃ index firstInner secondInner error,
      first = .alternative index firstInner ∧ second = .alternative index secondInner ∧
        listed[index]? = some error ∧ Typed.Agrees model firstInner secondInner ⟨error.2, false⟩

/-- A text of the type shows a sensitive part. -/
def Exposes : Printed Id → Prop
  | .shape id => Typed.Exposes model id
  | .errors _ listed => ∃ error ∈ listed, Typed.Exposes model error.2

end Printed

theorem printsItself_of_isStruct {type : ShapeType Id} (struct : type.isStruct = true) : type.printsItself = true := by
  cases type with
  | struct => rfl
  | _ => cases struct

/-- A structure whose text shows something is not redacted as a whole. -/
theorem Exposes.shown {id : Id} (exposes : Exposes model id) (struct : (model.shape id).type.isStruct = true) :
    (model.shape id).sensitive = false := by
  cases exposes with
  | inMember _ shown => exact shown
  | inAlternative _ shown => exact shown
  | element type | inElement type | key type | value type | inValue type =>
    rw [type] at struct
    cases struct

theorem appendDebugTo_append (out : Bytes) (type : Printed Id) (value : Value) :
    appendDebugTo model out type value = out ++ debugString model type value := by
  cases type with
  | shape id => simp only [debugString, appendDebugTo, List.nil_append]
  | errors listingName errors => simp only [debugString, appendDebugTo, List.nil_append]

/-- Where nothing sensitive shows, values that agree have the same text. -/
theorem debugString_agrees {type : Printed Id} (generated : type.IsGenerated model) (hides : ¬ type.Exposes model)
    {first second : Value} (typed : type.HasType model first) (otherTyped : type.HasType model second)
    (agrees : type.Agrees model first second) : debugString model type first = debugString model type second := by
  cases type with
  | shape id =>
    have hidden : Hides model id := by
      refine ⟨?_, hides⟩
      rintro ⟨_, template⟩
      rw [show (model.shape id).type.printsItself = true from generated] at template
      cases template
    exact debugText_agrees first second ⟨id, false⟩ typed otherTyped agrees hidden
  | errors listingName errors =>
    obtain rfl | ⟨index, firstInner, secondInner, error, rfl, rfl, found, agrees⟩ := agrees
    · rfl
    · have inside {inner : Value} (typed : Printed.HasType model (.errors listingName errors) (.alternative index inner)) :
          inner.HasType model ⟨error.2, false⟩ := by
        obtain ⟨⟨⟩⟩ | ⟨_, _, other, ⟨⟩, present, typed⟩ := typed
        rw [found] at present
        cases present
        exact typed
      have struct := generated error (List.mem_of_getElem? found)
      have hidden : Hides model error.2 := by
        refine ⟨?_, fun exposes => hides ⟨error, List.mem_of_getElem? found, exposes⟩⟩
        rintro ⟨_, template⟩
        rw [printsItself_of_isStruct struct] at template
        cases template
      have same := debugText_agrees firstInner secondInner ⟨error.2, false⟩ (inside typed) (inside otherTyped) agrees hidden
      simp only [debugString, appendDebugTo, found, Option.map_some]
      rw [same]

/-- Where a sensitive part shows, two values that agree outside such parts have different texts. -/
theorem Printed.Exposes.tells {type : Printed Id} (generated : type.IsGenerated model) (exposes : type.Exposes model) :
    ∃ first second, type.HasType model first ∧ type.HasType model second ∧ type.Agrees model first second ∧
      debugString model type first ≠ debugString model type second := by
  cases type with
  | shape id =>
    obtain ⟨first, second, typed, otherTyped, agrees, differ⟩ := Typed.Exposes.tells exposes
    exact ⟨first, second, typed, otherTyped, agrees, differ⟩
  | errors listingName errors =>
    obtain ⟨error, present, exposes⟩ := exposes
    obtain ⟨first, second, typed, otherTyped, agrees, differ⟩ := exposes.tells
    obtain ⟨index, found⟩ := List.getElem?_of_mem present
    refine ⟨.alternative index first, .alternative index second, .inr ⟨index, first, error, rfl, found, typed⟩,
      .inr ⟨index, second, error, rfl, found, otherTyped⟩, .inr ⟨index, first, second, error, rfl, rfl, found, agrees⟩, ?_⟩
    have shown := exposes.shown (generated error present)
    simp only [debugString, appendDebugTo, found, Option.map_some, taggedText, shown, Bool.false_eq_true, if_false,
      List.nil_append]
    apply around_ne
    intro same
    exact differ (List.append_cancel_left same)

/-- Debug output gives away no sensitive part of a generated type exactly if no list or map that it prints
has a sensitive plain element, value or key. -/
theorem debug_output_agrees_iff (type : Printed Id) (generated : type.IsGenerated model) :
    (∀ first second, type.HasType model first → type.HasType model second → type.Agrees model first second →
      (∀ out, appendDebugTo model out type first = appendDebugTo model out type second) ∧
        debugString model type first = debugString model type second ∧
        ∀ os, shiftLeft model os type first = shiftLeft model os type second) ↔ ¬ type.Exposes model := by
  constructor
  · intro agree exposes
    obtain ⟨first, second, typed, otherTyped, agrees, differ⟩ := exposes.tells generated
    exact differ (agree first second typed otherTyped agrees).2.1
  · intro hides first second typed otherTyped agrees
    have same := debugString_agrees generated hides typed otherTyped agrees
    refine ⟨fun out => ?_, same, fun os => ?_⟩
    · rw [appendDebugTo_append, appendDebugTo_append, same]
    · rw [shiftLeft, shiftLeft, same]

/-! ### A vault -/

/-- A structure with a list of sensitive strings and one such string, and the listing of an operation that
fails with it. -/
inductive VaultId where
  | vault | tokens | token
deriving DecidableEq

def vaultShape : VaultId → Shape VaultId
  | .vault => { type := .struct [{ target := .tokens, memberName := ascii "tokens" },
      { target := .token, memberName := ascii "token" }], typeName := ascii "Vault" }
  | .tokens => { type := .list { target := .token, memberName := ascii "member" } false }
  | .token => { type := .string, sensitive := true }

def vaultModel : Model VaultId where
  shape := vaultShape
  stringKeys := by
    rintro (_ | _ | _) key value sparse ⟨⟩
  grounded := Model.grounded_of_optional (by rintro (_ | _ | _) members ⟨⟩; decide)

def vault (token : Bytes) : Value :=
  .struct [.engaged (.list [.string token]), .engaged (.string token)]

theorem vault_hasType (token : Bytes) : (vault token).HasType vaultModel ⟨.vault, false⟩ := by
  simp [vault, Value.HasType, Value.FieldsHaveType, Value.AllHaveType, vaultModel, vaultShape, Model.memberSlot, plain,
    populated, defaulted]

theorem debug_output_agrees_iff_vault :
    (∀ first second, Printed.HasType vaultModel (.shape .vault) first → Printed.HasType vaultModel (.shape .vault) second →
      Printed.Agrees vaultModel (.shape .vault) first second →
      (∀ out, appendDebugTo vaultModel out (.shape .vault) first = appendDebugTo vaultModel out (.shape .vault) second) ∧
        debugString vaultModel (.shape .vault) first = debugString vaultModel (.shape .vault) second ∧
        ∀ os, shiftLeft vaultModel os (.shape .vault) first = shiftLeft vaultModel os (.shape .vault) second) ↔
      ¬ Printed.Exposes vaultModel (.shape .vault) :=
  @debug_output_agrees_iff _ vaultModel (.shape .vault) rfl

/-- The token is redacted, and the tokens in the list are not. -/
theorem vault_leaks :
    (vault (ascii "a")).HasType vaultModel ⟨.vault, false⟩ ∧ (vault (ascii "b")).HasType vaultModel ⟨.vault, false⟩ ∧
      Printed.Agrees vaultModel (.shape .vault) (vault (ascii "a")) (vault (ascii "b")) ∧
      debugString vaultModel (.shape .vault) (vault (ascii "a")) =
        ascii "Vault\x7b.tokens = [\"a\"], .token = [REDACTED]\x7d" ∧
      debugString vaultModel (.shape .vault) (vault (ascii "b")) =
        ascii "Vault\x7b.tokens = [\"b\"], .token = [REDACTED]\x7d" := by
  have agree : Agrees vaultModel (.string (ascii "a")) (.string (ascii "b")) ⟨.token, false⟩ := .sensitive rfl rfl
  have agrees : Agrees vaultModel (vault (ascii "a")) (vault (ascii "b")) ⟨.vault, false⟩ :=
    .struct rfl (.cons (.engaged (.list rfl (.cons agree (.nil _)))) (.cons (.engaged agree) .nil))
  exact ⟨vault_hasType _, vault_hasType _, agrees, by decide, by decide⟩

end OpalCpp.Typed

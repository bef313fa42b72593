import OpalCpp.Model.Codegen.Printing

/-! # What debug output hides

Two values that differ in sensitive parts only have one text, as long as no list or map in view has
elements, keys or values of a sensitive shape whose C++ type is a plain one: the template prints these.
-/

namespace OpalCpp.Typed

open Bytes (ascii)

variable {Id : Type*} (model : Model Id)

/-! ## Values that agree outside their sensitive parts -/

mutual

/-- The values are equal except inside parts whose shape is sensitive. -/
inductive Agrees : Value → Value → Slot Id → Prop
  | same (value : Value) (slot : Slot Id) : Agrees value value slot
  | sensitive {first second : Value} {slot : Slot Id} (plain : slot.optional = false)
      (hidden : (model.shape slot.target).sensitive = true) : Agrees first second slot
  | engaged {first second : Value} {slot : Slot Id} (value : Agrees first second ⟨slot.target, false⟩) :
      Agrees (.engaged first) (.engaged second) slot
  | list {first second : List Value} {slot : Slot Id} {member : Member Id} {sparse : Bool}
      (type : (model.shape slot.target).type = .list member sparse)
      (items : AllAgree first second ⟨member.target, sparse⟩) : Agrees (.list first) (.list second) slot
  | map {first second : List (Bytes × Value)} {slot : Slot Id} {key value : Member Id} {sparse : Bool}
      (type : (model.shape slot.target).type = .map key value sparse)
      (members : EntriesAgree (model.shape key.target).sensitive first second ⟨value.target, sparse⟩) :
      Agrees (.map first) (.map second) slot
  | struct {first second : List Value} {slot : Slot Id} {members : List (Member Id)}
      (type : (model.shape slot.target).type = .struct members)
      (fields : FieldsAgree first second (members.map (model.memberSlot (model.shape slot.target)))) :
      Agrees (.struct first) (.struct second) slot
  | alternative {first second : Value} {slot : Slot Id} {index : ℕ} {members : List (Member Id)}
      {discriminated : Option Bytes} {member : Member Id}
      (type : (model.shape slot.target).type = .union members discriminated) (found : members[index]? = some member)
      (value : Agrees first second ⟨member.target, false⟩) :
      Agrees (.alternative index first) (.alternative index second) slot

inductive AllAgree : List Value → List Value → Slot Id → Prop
  | nil (slot : Slot Id) : AllAgree [] [] slot
  | cons {first second : Value} {firsts seconds : List Value} {slot : Slot Id} (item : Agrees first second slot)
      (items : AllAgree firsts seconds slot) : AllAgree (first :: firsts) (second :: seconds) slot

/-- The keys are the same ones, unless they are sensitive. -/
inductive EntriesAgree : Bool → List (Bytes × Value) → List (Bytes × Value) → Slot Id → Prop
  | nil (hidden : Bool) (slot : Slot Id) : EntriesAgree hidden [] [] slot
  | cons {hidden : Bool} {key other : Bytes} {first second : Value} {firsts seconds : List (Bytes × Value)}
      {slot : Slot Id} (keys : hidden = true ∨ key = other) (value : Agrees first second slot)
      (members : EntriesAgree hidden firsts seconds slot) :
      EntriesAgree hidden ((key, first) :: firsts) ((other, second) :: seconds) slot

inductive FieldsAgree : List Value → List Value → List (Slot Id) → Prop
  | nil : FieldsAgree [] [] []
  | cons {first second : Value} {firsts seconds : List Value} {slot : Slot Id} {slots : List (Slot Id)}
      (field : Agrees first second slot) (fields : FieldsAgree firsts seconds slots) :
      FieldsAgree (first :: firsts) (second :: seconds) (slot :: slots)

end

/-- A sensitive shape that the template prints. -/
def Bare (id : Id) : Prop := (model.shape id).sensitive = true ∧ (model.shape id).type.printsItself = false

/-- A text of the shape shows a sensitive part. -/
inductive Exposes : Id → Prop
  | element {id : Id} {member : Member Id} {sparse : Bool} (type : (model.shape id).type = .list member sparse)
      (bare : Bare model member.target) : Exposes id
  | inElement {id : Id} {member : Member Id} {sparse : Bool} (type : (model.shape id).type = .list member sparse)
      (exposes : Exposes member.target) : Exposes id
  | key {id : Id} {key value : Member Id} {sparse : Bool} (type : (model.shape id).type = .map key value sparse)
      (sensitive : (model.shape key.target).sensitive = true) : Exposes id
  | value {id : Id} {key value : Member Id} {sparse : Bool} (type : (model.shape id).type = .map key value sparse)
      (bare : Bare model value.target) : Exposes id
  | inValue {id : Id} {key value : Member Id} {sparse : Bool} (type : (model.shape id).type = .map key value sparse)
      (exposes : Exposes value.target) : Exposes id
  | inMember {id : Id} {members : List (Member Id)} {member : Member Id}
      (type : (model.shape id).type = .struct members) (shown : (model.shape id).sensitive = false)
      (present : member ∈ members) (printed : (model.shape member.target).sensitive = false)
      (exposes : Exposes member.target) : Exposes id
  | inAlternative {id : Id} {members : List (Member Id)} {discriminated : Option Bytes} {member : Member Id}
      (type : (model.shape id).type = .union members discriminated) (shown : (model.shape id).sensitive = false)
      (present : member ∈ members) (printed : (model.shape member.target).sensitive = false)
      (exposes : Exposes member.target) : Exposes id

/-! ## Texts that agree -/

variable {model}

/-- What a sensitive type that prints itself has for every value. -/
def hiddenText (shape : Shape Id) : Bytes :=
  match shape.type with
  | .struct _ => shape.typeName ++ ascii "\x7b[REDACTED]\x7d"
  | .union _ _ => shape.typeName ++ ascii "([REDACTED])"
  | .enum _ => shape.typeName ++ ascii "(" ++ redacted ++ ascii ")"
  | _ => ascii "Unit\x7b\x7d"

theorem debugText_sensitive {value : Value} {id : Id} (typed : value.HasType model ⟨id, false⟩)
    (sensitive : (model.shape id).sensitive = true) (itself : (model.shape id).type.printsItself = true) :
    debugText model value id = hiddenText (model.shape id) := by
  cases value with
  | nullopt | engaged value => simp [Value.HasType] at typed
  | struct values =>
    obtain ⟨_, members, type, _⟩ := by simpa only [Value.HasType] using typed
    simp only [debugText, hiddenText, type, if_pos sensitive]
  | empty =>
    obtain ⟨_, members, discriminated, type⟩ := by simpa only [Value.HasType] using typed
    simp only [debugText, hiddenText, taggedText, type, if_pos sensitive]
  | alternative index value =>
    obtain ⟨_, members, discriminated, member, type, found, _⟩ := by simpa only [Value.HasType] using typed
    simp only [debugText, hiddenText, taggedText, type, found, if_pos sensitive]
  | enum value =>
    obtain ⟨_, values, type, _⟩ := by simpa only [Value.HasType] using typed
    simp only [debugText, hiddenText, enumText, type, if_pos sensitive]
  | unit =>
    obtain ⟨_, type⟩ := by simpa only [Value.HasType] using typed
    simp only [debugText, hiddenText, type]
  | list items =>
    obtain ⟨_, member, sparse, type, _⟩ := by simpa only [Value.HasType] using typed
    rw [type] at itself
    cases itself
  | map members =>
    obtain ⟨_, key, value, sparse, type, _⟩ := by simpa only [Value.HasType] using typed
    rw [type] at itself
    cases itself
  | _ =>
    obtain ⟨_, type⟩ := by simpa only [Value.HasType] using typed
    rw [type] at itself
    cases itself

/-- Nothing of the shape's values shows that is sensitive. -/
structure Hides (model : Model Id) (id : Id) : Prop where
  printed : ¬ Bare model id
  inside : ¬ Exposes model id

theorem fieldTexts_cons {value : Value} (engaged : value ≠ .nullopt) (sep : Bytes) (values : List Value)
    (member : Member Id) (members : List (Member Id)) :
    fieldTexts model sep (value :: values) (member :: members) =
      fieldText sep member.memberName (model.shape member.target).sensitive (debugText model value member.target) ++
        fieldTexts model (ascii ", ") values members := by
  rw [fieldTexts]
  exact engaged

/-- What is hidden does not matter. -/
theorem fieldText_congr {sep memberName first second : Bytes} {sensitive : Bool}
    (same : sensitive = false → first = second) :
    fieldText sep memberName sensitive first = fieldText sep memberName sensitive second := by
  cases sensitive with
  | false => rw [same rfl]
  | true => rfl

theorem taggedText_congr {name memberName first second : Bytes} {redactBody sensitive : Bool}
    (same : redactBody = false → sensitive = false → first = second) :
    taggedText name redactBody (some (⟨memberName, sensitive⟩, first)) =
      taggedText name redactBody (some (⟨memberName, sensitive⟩, second)) := by
  cases redactBody with
  | true => rfl
  | false =>
    cases sensitive with
    | false => rw [same rfl rfl]
    | true => rfl

theorem Hides.sensitive {first second : Value} {slot : Slot Id} (hides : Hides model slot.target)
    (typed : first.HasType model slot) (otherTyped : second.HasType model slot) (plain : slot.optional = false)
    (hidden : (model.shape slot.target).sensitive = true) :
    debugText model first slot.target = debugText model second slot.target := by
  obtain ⟨id, optional⟩ := slot
  obtain rfl : optional = false := plain
  have itself : (model.shape id).type.printsItself = true := by
    by_contra bare
    exact hides.printed ⟨hidden, Bool.eq_false_of_not_eq_true bare⟩
  rw [debugText_sensitive typed hidden itself, debugText_sensitive otherTyped hidden itself]

/-- A member that is not redacted. -/
theorem Hides.member {id : Id} {members : List (Member Id)} {member : Member Id} (hides : Hides model id)
    (type : (model.shape id).type = .struct members) (shown : (model.shape id).sensitive = false)
    (present : member ∈ members) (printed : (model.shape member.target).sensitive = false) :
    Hides model member.target := by
  refine ⟨fun bare => ?_, fun exposes => hides.inside (.inMember type shown present printed exposes)⟩
  rw [bare.1] at printed
  cases printed

theorem Hides.alternative {id : Id} {members : List (Member Id)} {discriminated : Option Bytes} {member : Member Id}
    (hides : Hides model id) (type : (model.shape id).type = .union members discriminated)
    (shown : (model.shape id).sensitive = false) (present : member ∈ members)
    (printed : (model.shape member.target).sensitive = false) : Hides model member.target := by
  refine ⟨fun bare => ?_, fun exposes => hides.inside (.inAlternative type shown present printed exposes)⟩
  rw [bare.1] at printed
  cases printed

/-- A value that is not an optional is not a disengaged one. -/
theorem Value.HasType.ne_nullopt {value : Value} {slot : Slot Id} (typed : value.HasType model slot)
    (plain : slot.optional = false) : value ≠ .nullopt := by
  rintro rfl
  simp only [Value.HasType] at typed
  rw [plain] at typed
  cases typed

mutual

/-- Values that agree have the same text, where nothing sensitive shows. -/
theorem debugText_agrees : (first : Value) → ∀ (second : Value) (slot : Slot Id), first.HasType model slot →
    second.HasType model slot → Agrees model first second slot → Hides model slot.target →
      debugText model first slot.target = debugText model second slot.target
  | .engaged first, second, slot, typed, otherTyped, agrees, hides => by
    cases agrees with
    | same => rfl
    | sensitive plain hidden => exact hides.sensitive typed otherTyped plain hidden
    | engaged value =>
      simp only [Value.HasType] at typed otherTyped
      simp only [debugText]
      exact debugText_agrees first _ ⟨slot.target, false⟩ typed.2 otherTyped.2 value hides
  | .list firsts, second, slot, typed, otherTyped, agrees, hides => by
    cases agrees with
    | same => rfl
    | sensitive plain hidden => exact hides.sensitive typed otherTyped plain hidden
    | @list _ seconds _ member sparse type items =>
      simp only [Value.HasType, type] at typed otherTyped
      obtain ⟨_, _, _, ⟨⟩, typed⟩ := typed
      obtain ⟨_, _, _, ⟨⟩, otherTyped⟩ := otherTyped
      have inside : Hides model member.target :=
        ⟨fun bare => hides.inside (.element type bare), fun exposes => hides.inside (.inElement type exposes)⟩
      simp only [debugText, type]
      rw [debugTexts_agree firsts seconds _ typed otherTyped items inside]
  | .map firsts, second, slot, typed, otherTyped, agrees, hides => by
    cases agrees with
    | same => rfl
    | sensitive plain hidden => exact hides.sensitive typed otherTyped plain hidden
    | @map _ seconds _ key value sparse type members =>
      simp only [Value.HasType, type] at typed otherTyped
      obtain ⟨_, _, _, _, ⟨⟩, _, typed⟩ := typed
      obtain ⟨_, _, _, _, ⟨⟩, _, otherTyped⟩ := otherTyped
      have inside : Hides model value.target :=
        ⟨fun bare => hides.inside (.value type bare), fun exposes => hides.inside (.inValue type exposes)⟩
      have open_ : (model.shape key.target).sensitive = false :=
        Bool.eq_false_of_not_eq_true fun sensitive => hides.inside (.key type sensitive)
      rw [open_] at members
      simp only [debugText, type]
      rw [entryTexts_agree firsts seconds _ typed otherTyped members inside]
  | .struct firsts, second, slot, typed, otherTyped, agrees, hides => by
    cases agrees with
    | same => rfl
    | sensitive plain hidden => exact hides.sensitive typed otherTyped plain hidden
    | @struct _ seconds _ members type fields =>
      simp only [Value.HasType, type] at typed otherTyped
      obtain ⟨_, _, ⟨⟩, typed⟩ := typed
      obtain ⟨_, _, ⟨⟩, otherTyped⟩ := otherTyped
      simp only [debugText, type]
      cases shown : (model.shape slot.target).sensitive with
      | true => rfl
      | false =>
        have inside : ∀ member ∈ members, (model.shape member.target).sensitive = false → Hides model member.target :=
          fun member present printed => hides.member type shown present printed
        rw [fieldTexts_agree firsts seconds members _ [] typed otherTyped fields inside]
  | .alternative index first, second, slot, typed, otherTyped, agrees, hides => by
    cases agrees with
    | same => rfl
    | sensitive plain hidden => exact hides.sensitive typed otherTyped plain hidden
    | @alternative _ second _ _ members discriminated member type found value =>
      simp only [Value.HasType, type] at typed otherTyped
      obtain ⟨_, _, _, _, ⟨⟩, present, typed⟩ := typed
      obtain ⟨_, _, _, _, ⟨⟩, otherPresent, otherTyped⟩ := otherTyped
      rw [found] at present otherPresent
      cases present
      cases otherPresent
      simp only [debugText, type, found]
      apply taggedText_congr
      intro shown printed
      have inside := hides.alternative type shown (List.mem_of_getElem? found) printed
      exact debugText_agrees first second ⟨member.target, false⟩ typed otherTyped value inside
  | .nullopt, _, _, typed, otherTyped, .sensitive plain hidden, hides => hides.sensitive typed otherTyped plain hidden
  | .empty, _, _, typed, otherTyped, .sensitive plain hidden, hides => hides.sensitive typed otherTyped plain hidden
  | .unit, _, _, typed, otherTyped, .sensitive plain hidden, hides => hides.sensitive typed otherTyped plain hidden
  | .boolean _, _, _, typed, otherTyped, .sensitive plain hidden, hides => hides.sensitive typed otherTyped plain hidden
  | .byte _, _, _, typed, otherTyped, .sensitive plain hidden, hides => hides.sensitive typed otherTyped plain hidden
  | .short _, _, _, typed, otherTyped, .sensitive plain hidden, hides => hides.sensitive typed otherTyped plain hidden
  | .integer _, _, _, typed, otherTyped, .sensitive plain hidden, hides => hides.sensitive typed otherTyped plain hidden
  | .long _, _, _, typed, otherTyped, .sensitive plain hidden, hides => hides.sensitive typed otherTyped plain hidden
  | .float _, _, _, typed, otherTyped, .sensitive plain hidden, hides => hides.sensitive typed otherTyped plain hidden
  | .double _, _, _, typed, otherTyped, .sensitive plain hidden, hides => hides.sensitive typed otherTyped plain hidden
  | .string _, _, _, typed, otherTyped, .sensitive plain hidden, hides => hides.sensitive typed otherTyped plain hidden
  | .enum _, _, _, typed, otherTyped, .sensitive plain hidden, hides => hides.sensitive typed otherTyped plain hidden
  | .intEnum _, _, _, typed, otherTyped, .sensitive plain hidden, hides => hides.sensitive typed otherTyped plain hidden
  | .blob _, _, _, typed, otherTyped, .sensitive plain hidden, hides => hides.sensitive typed otherTyped plain hidden
  | .timestamp _, _, _, typed, otherTyped, .sensitive plain hidden, hides => hides.sensitive typed otherTyped plain hidden
  | .document _, _, _, typed, otherTyped, .sensitive plain hidden, hides => hides.sensitive typed otherTyped plain hidden
  | _, _, _, _, _, .same _ _, _ => rfl

theorem debugTexts_agree : (firsts seconds : List Value) → ∀ slot : Slot Id, Value.AllHaveType model firsts slot →
    Value.AllHaveType model seconds slot → AllAgree model firsts seconds slot → Hides model slot.target →
      debugTexts model firsts slot.target = debugTexts model seconds slot.target
  | [], _, _, _, _, .nil _, _ => rfl
  | first :: firsts, _, slot, typed, otherTyped, agree, hides => by
    cases agree with
    | @cons _ second _ seconds _ item items =>
      simp only [Value.AllHaveType] at typed otherTyped
      simp only [debugTexts]
      rw [debugText_agrees first second slot typed.1 otherTyped.1 item hides,
        debugTexts_agree firsts seconds slot typed.2 otherTyped.2 items hides]

theorem entryTexts_agree : (firsts seconds : List (Bytes × Value)) → ∀ slot : Slot Id,
    Value.MembersHaveType model firsts slot → Value.MembersHaveType model seconds slot →
      EntriesAgree model false firsts seconds slot → Hides model slot.target →
        entryTexts model firsts slot.target = entryTexts model seconds slot.target
  | [], _, _, _, _, .nil _ _, _ => rfl
  | (key, first) :: firsts, _, slot, typed, otherTyped, agree, hides => by
    cases agree with
    | @cons _ _ other _ second _ seconds _ keys value members =>
      simp only [Value.MembersHaveType] at typed otherTyped
      obtain rfl := keys.resolve_left Bool.false_ne_true
      simp only [entryTexts]
      rw [debugText_agrees first second slot typed.1 otherTyped.1 value hides,
        entryTexts_agree firsts seconds slot typed.2 otherTyped.2 members hides]

theorem fieldTexts_agree : (firsts seconds : List Value) → ∀ (members : List (Member Id)) (container : Shape Id)
    (sep : Bytes), Value.FieldsHaveType model firsts (members.map (model.memberSlot container)) →
      Value.FieldsHaveType model seconds (members.map (model.memberSlot container)) →
        FieldsAgree model firsts seconds (members.map (model.memberSlot container)) →
          (∀ member ∈ members, (model.shape member.target).sensitive = false → Hides model member.target) →
            fieldTexts model sep firsts members = fieldTexts model sep seconds members
  | [], _, members, _, _, _, _, agree, _ => by
    cases members with
    | nil =>
      cases agree
      rfl
    | cons => cases agree
  | _ :: _, _, [], _, _, _, _, agree, _ => by cases agree
  | first :: firsts, _, member :: members, container, sep, typed, otherTyped, agree, inside => by
    rw [List.map_cons] at typed otherTyped agree
    cases agree with
    | @cons _ second _ seconds _ _ field fields =>
      simp only [Value.FieldsHaveType] at typed otherTyped
      have rest (sep : Bytes) := fieldTexts_agree firsts seconds members container sep typed.2 otherTyped.2 fields
        fun other present => inside other (List.mem_cons_of_mem _ present)
      have text (printed : (model.shape member.target).sensitive = false) :
          debugText model first member.target = debugText model second member.target :=
        debugText_agrees first second (model.memberSlot container member) typed.1 otherTyped.1 field
          (inside member List.mem_cons_self printed)
      -- A member is printed of both values or of neither.
      rcases eq_or_ne first .nullopt with rfl | engaged
      · obtain rfl : second = .nullopt := by
          cases field with
          | same => rfl
          | sensitive plain => exact (typed.1.ne_nullopt plain rfl).elim
        rw [fieldTexts, fieldTexts, rest]
      · have otherEngaged : second ≠ .nullopt := by
          rintro rfl
          cases field with
          | same => exact engaged rfl
          | sensitive plain => exact otherTyped.1.ne_nullopt plain rfl
        rw [fieldTexts_cons engaged, fieldTexts_cons otherEngaged, rest, fieldText_congr text]

end

end OpalCpp.Typed

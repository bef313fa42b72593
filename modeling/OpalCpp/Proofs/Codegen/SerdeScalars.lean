import Mathlib.Data.List.GetD
import OpalCpp.Machine.Widening
import OpalCpp.Proofs.Codegen.SerdeReading

/-! # Values that come back from their documents

What a value is read back as: with its NaNs all the same, and with the defaults filled in that a structure of
inputs has unset. Values that are no aggregates come back whatever member they stand for.
-/

namespace OpalCpp.Typed

open scoped Bytes
open Bytes (ascii)

variable {Id : Type*}

namespace Value

mutual

/-- The value with one NaN of each width. -/
def canonical : Value → Value
  | .engaged value => .engaged (canonical value)
  | .float value => .float (if value.isNaN then .quietNaN else value)
  | .double value => .double (if value.isNaN then .quietNaN else value)
  | .list items => .list (allCanonical items)
  | .map members => .map (membersCanonical members)
  | .struct values => .struct (allCanonical values)
  | .alternative index value => .alternative index (canonical value)
  | value => value

def allCanonical : List Value → List Value
  | [] => []
  | item :: items => canonical item :: allCanonical items

def membersCanonical : List (Bytes × Value) → List (Bytes × Value)
  | [] => []
  | (key, value) :: members => (key, canonical value) :: membersCanonical members

end

section Shapes

variable (model : Model Id)

mutual

/-- The value with its unset defaulted members of inputs filled. -/
def fill : Value → Id → Value
  | .engaged value, id => .engaged (fill value id)
  | .list items, id =>
    match (model.shape id).type with
    | .list member _ => .list (fillItems items member.target)
    | _ => .list items
  | .map members, id =>
    match (model.shape id).type with
    | .map _ value _ => .map (fillEntries members value.target)
    | _ => .map members
  | .struct values, id =>
    match (model.shape id).type with
    | .struct members => .struct (fillFields (model.shape id) values members)
    | _ => .struct values
  | .alternative index value, id =>
    match (model.shape id).type with
    | .union members _ =>
      match members[index]? with
      | some member => .alternative index (fill value member.target)
      | none => .alternative index value
    | _ => .alternative index value
  | value, _ => value

def fillItems : List Value → Id → List Value
  | [], _ => []
  | item :: items, id => fill item id :: fillItems items id

def fillEntries : List (Bytes × Value) → Id → List (Bytes × Value)
  | [], _ => []
  | (key, value) :: members, id => (key, fill value id) :: fillEntries members id

def fillFields : Shape Id → List Value → List (Member Id) → List Value
  | container, .nullopt :: values, member :: members =>
    (if fillOnParse container (model.shape member.target).type member then .engaged (literal member) else .nullopt) ::
      fillFields container values members
  | container, value :: values, member :: members => fill value member.target :: fillFields container values members
  | _, values, _ => values

end

variable (holds : Value → Id → Prop)

mutual

/-- A condition on the value and on every value inside, each with its shape. -/
def Every : Value → Id → Prop
  | .engaged value, id => Every value id
  | .list items, id =>
    match (model.shape id).type with
    | .list member _ => AllEvery items member.target
    | _ => True
  | .map members, id =>
    match (model.shape id).type with
    | .map _ value _ => MembersEvery members value.target
    | _ => True
  | .struct values, id =>
    match (model.shape id).type with
    | .struct members => FieldsEvery values members
    | _ => True
  | .alternative index value, id =>
    holds (.alternative index value) id ∧
      match (model.shape id).type with
      | .union members _ =>
        match members[index]? with
        | some member => Every value member.target
        | none => True
      | _ => True
  | value, id => holds value id

def AllEvery : List Value → Id → Prop
  | [], _ => True
  | item :: items, id => Every item id ∧ AllEvery items id

def MembersEvery : List (Bytes × Value) → Id → Prop
  | [], _ => True
  | (_, value) :: members, id => Every value id ∧ MembersEvery members id

def FieldsEvery : List Value → List (Member Id) → Prop
  | value :: values, member :: members => Every value member.target ∧ FieldsEvery values members
  | _, _ => True

end

end Shapes

end Value

namespace EnumValue

/-- The text of an enumeration's value is read as that value. -/
theorem fromText_toText {values : List Bytes} (distinct : values.Nodup) {value : EnumValue}
    (valid : match value.value with
      | some index => index < values.length ∧ value.unknown = []
      | none => value.unknown ∉ values) : fromText values (value.toText values) = value := by
  rcases value with ⟨_ | index, unknown⟩
  · have absent : values.findIdx? (· = unknown) = none := by
      rw [List.findIdx?_eq_none_iff]
      intro other member
      exact decide_eq_false fun same => valid (same ▸ member)
    rw [toText, fromText, absent]
  · obtain ⟨bounded, rfl⟩ := valid
    have place : values.findIdx? (· = values.getD index []) = some index := by
      rw [List.getD_eq_getElem _ _ bounded, List.findIdx?_eq_some_iff_getElem]
      refine ⟨bounded, decide_eq_true rfl, ?_⟩
      intro earlier less
      rw [Bool.not_eq_true, decide_eq_false_iff_not]
      exact fun same => Nat.ne_of_lt less ((List.Nodup.getElem_inj_iff distinct).mp same)
    rw [toText, fromText, place]

end EnumValue

/-! ## Numbers -/

namespace SerdeCodeGen

/-- An integer within the bounds of its type is read back. -/
theorem readNarrow_ofInt {value low high : ℤ} (path : Bytes) (make : ℤ → Value) (above : low ≤ value) (below : value ≤ high)
    (least : -2 ^ 63 ≤ value) (most : value < 2 ^ 63) :
    readNarrow (.int (Int64.ofInt value)) path low high make = .ok (make value) := by
  have same : (Int64.ofInt value).toInt = value := Int64.toInt_ofInt_of_le least most
  rw [readNarrow, same, if_neg]
  omega

theorem floatFromDouble_toBinary64 (value : Binary32) :
    floatFromDouble value.toBinary64 = .ok (.ofBinary64 value.toBinary64) := by
  rw [floatFromDouble]
  cases same : value.toBinary64.value? with
  | none => rfl
  | some number =>
    obtain finite | top := Nat.lt_or_ge value.code (255 * 2 ^ 23)
    · obtain ⟨below, magnitude, _⟩ := Binary32.toBinary64_finite finite
      have bound := Binary32.magnitude_lt finite
      have nonneg := @FloatFormat.magnitude_nonneg .binary32 value.code
      rw [Binary64.value?, if_neg (not_le.mpr below), magnitude, Option.some_inj] at same
      have inside : ¬(number ≤ -kFloatOverflowBound ∨ kFloatOverflowBound ≤ number) := by
        rw [kFloatOverflowBound, ← same, not_or, not_le, not_le]
        split_ifs <;> constructor <;> linarith
      simp only [if_neg inside]
    · have infinite : 2047 * 2 ^ 52 ≤ value.toBinary64.code := by
        obtain exactly | above := Nat.eq_or_lt_of_le top
        · have isInfinite := (Binary32.toBinary64_infinite exactly.symm).1
          rw [Binary64.isInfinite, decide_eq_true_eq] at isInfinite
          exact isInfinite.ge
        · have isNaN := Binary32.toBinary64_isNaN (decide_eq_true above)
          rw [Binary64.isNaN, decide_eq_true_eq] at isNaN
          exact isNaN.le
      rw [Binary64.value?, if_pos infinite] at same
      cases same

/-- Only a NaN may come back as another one. -/
theorem canonical_ofBinary64 (value : Binary32) :
    (Value.float (.ofBinary64 value.toBinary64)).canonical = (Value.float value).canonical := by
  rw [Value.canonical, Value.canonical]
  cases nan : value.isNaN with
  | false => rw [Binary32.ofBinary64_toBinary64 nan, nan]
  | true => rw [Binary32.ofBinary64_isNaN (Binary32.toBinary64_isNaN nan), if_pos rfl, if_pos rfl]

/-! ## Parts -/

variable (serde : SerdeCodeGen Id)

/-- The deserializer of an open union leaves the document to the member at a place. -/
def RoutedToUnknown (members : List (Member Id)) (discriminator : Option Bytes) (index : ℕ) (doc : Document) : Prop :=
  (∃ entries, doc = .map entries) ∧ serde.chosen members discriminator doc = none ∧
    members.findIdx? (·.jsonUnknown) = some index

/-- Unions are engaged, documents are not null, and what open unions hold unread is not read. -/
def Complete : Value → Id → Prop
  | .empty, _ => False
  | .document doc, _ => doc.isNull = false
  | .alternative index value, id => ∀ members discriminator member,
      (serde.model.shape id).type = .union members discriminator → members[index]? = some member →
        member.jsonUnknown = true → ∃ doc, value = .document doc ∧ serde.RoutedToUnknown members discriminator index doc
  | _, _ => True

/-- The tag that a union is written with is not the key of the type hint. -/
def Unhinted : Value → Id → Prop
  | .alternative index _, id => ∀ members member, (serde.model.shape id).type = .union members none →
      members[index]? = some member → member.jsonUnknown = false → serde.wireName member ≠ ascii "__type"
  | _, _ => True

end SerdeCodeGen

end OpalCpp.Typed

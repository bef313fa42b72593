import OpalCpp.Machine.OrderedMap
import OpalCpp.Machine.Rounding
import OpalCpp.Proofs.Cbor.RoundTrip
import OpalCpp.Proofs.Json.RoundTrip

/-! # What documents come back as

A codec gives a document back with other nodes for some of its values: over JSON texts stand for blobs,
timestamps and the doubles that are no numbers, over CBOR the format of a timestamp is lost.
-/

namespace OpalCpp

open scoped Bytes
open Bytes (ascii)

/-- What the documents that a codec carries come back as: a map with what its members come back as. -/
structure WireForm where
  form : Document → Document
  map : ∀ members, form (.map members) = .map (OrderedMap.mapValues form members)
  string : ∀ text, form (.string text) = .string text
  int : ∀ value, form (.int value) = .int value
  settled : ∀ document, form (form document) = form document

namespace Document

/-! ## CBOR -/

theorem normalizeMembers_eq (members : DocumentMap) : normalizeMembers members = OrderedMap.mapValues normalize members := by
  induction members with
  | nil => rfl
  | cons member members ih =>
    rw [normalizeMembers, ih]
    rfl

mutual

theorem normalize_normalize : (document : Document) → document.normalize.normalize = document.normalize
  | .timestamp _ => rfl
  | .list items => by rw [normalize, normalize, normalizeAll_normalizeAll items]
  | .map members => by rw [normalize, normalize, normalizeMembers_normalizeMembers members]
  | .null | .bool _ | .int _ | .double _ | .string _ | .blob _ => rfl

theorem normalizeAll_normalizeAll : (items : List Document) → normalizeAll (normalizeAll items) = normalizeAll items
  | [] => rfl
  | item :: items => by rw [normalizeAll, normalizeAll, normalize_normalize item, normalizeAll_normalizeAll items]

theorem normalizeMembers_normalizeMembers : (members : DocumentMap) →
    normalizeMembers (normalizeMembers members) = normalizeMembers members
  | [] => rfl
  | (key, value) :: members => by
    rw [normalizeMembers, normalizeMembers, normalize_normalize value, normalizeMembers_normalizeMembers members]

end

/-! ## JSON -/

mutual

/-- The document with the nodes that the values of the library are read as. -/
def jsonForm : Document → Document
  | .double value =>
    if value.isNaN then .string (ascii "NaN")
    else if value.isInfinite then .string (if value.isNegative then ascii "-Infinity" else ascii "Infinity")
    else .double value
  | .blob value => .string (base64Encode value)
  | .timestamp ts =>
    if ts.format = .epochSeconds then
      let seconds := ts.value.epochSeconds
      let whole := Int64.ofInt (Binary64.truncate (seconds.value?.getD 0))
      if (Timestamp.toDouble whole).equals seconds then .int whole else .double seconds
    else .string (ts.value.format ts.format)
  | .list items => .list (allJsonForm items)
  | .map members => .map (membersJsonForm members)
  | document => document

def allJsonForm : List Document → List Document
  | [] => []
  | item :: items => jsonForm item :: allJsonForm items

def membersJsonForm : DocumentMap → DocumentMap
  | [] => []
  | (key, value) :: members => (key, jsonForm value) :: membersJsonForm members

end

theorem membersJsonForm_eq (members : DocumentMap) : membersJsonForm members = OrderedMap.mapValues jsonForm members := by
  induction members with
  | nil => rfl
  | cons member members ih =>
    rw [membersJsonForm, ih]
    rfl

end Document

namespace Timestamp

/-- The seconds of a timestamp are finite. -/
theorem epochSeconds_finite (ts : Timestamp) : ts.epochSeconds.value? ≠ none := by
  have least := ts.ms.le_toInt
  have most := ts.ms.toInt_lt
  have small : |(ts.ms.toInt : ℚ)| ≤ 2 ^ (63 : ℤ) := by
    rw [← Int.cast_abs]
    exact_mod_cast (by rw [abs_le]; omega : |ts.ms.toInt| ≤ 2 ^ 63)
  have bound : |(toDouble ts.ms).value?.getD 0| ≤ 2 ^ (64 : ℤ) := by
    rcases eq_or_ne ts.ms.toInt 0 with zero | nonzero
    · have exact_ : (toDouble ts.ms).value? = some 0 := by
        rw [toDouble, zero]
        exact Binary64.nearest_intCast (by decide)
      rw [exact_, Option.getD_some, abs_zero]
      positivity
    · have one : (1 : ℚ) ≤ |(ts.ms.toInt : ℚ)| := by
        rw [← Int.cast_abs]
        exact_mod_cast Int.one_le_abs nonzero
      have low : (2 : ℚ) ^ (-1022 : ℤ) ≤ |(ts.ms.toInt : ℚ)| := le_trans (zpow_le_one_of_nonpos₀ one_le_two (by decide)) one
      have high : |(ts.ms.toInt : ℚ)| < 2 ^ (1023 : ℤ) :=
        lt_of_le_of_lt small (zpow_lt_zpow_right₀ one_lt_two (by decide))
      obtain ⟨value, finite, error⟩ := Binary64.nearest_error low high
      have unit : (2 : ℚ) ^ (-53 : ℤ) ≤ 1 := zpow_le_one_of_nonpos₀ one_le_two (by decide)
      have double : (2 : ℚ) ^ (64 : ℤ) = 2 ^ (63 : ℤ) + 2 ^ (63 : ℤ) := by norm_num
      have close : |value - ts.ms.toInt| ≤ 2 ^ (63 : ℤ) :=
        le_trans error (le_trans (mul_le_of_le_one_right (abs_nonneg _) unit) small)
      have whole := abs_add_le (value - ts.ms.toInt) ts.ms.toInt
      rw [sub_add_cancel] at whole
      rw [toDouble, finite, Option.getD_some, double]
      exact le_trans whole (add_le_add close small)
  rw [epochSeconds]
  apply Binary64.nearest_finite
  rw [abs_div, abs_of_pos (by norm_num : (0 : ℚ) < 1000)]
  calc |(toDouble ts.ms).value?.getD 0| / 1000 ≤ |(toDouble ts.ms).value?.getD 0| := div_le_self (abs_nonneg _) (by norm_num)
    _ ≤ 2 ^ (64 : ℤ) := bound
    _ < 2 ^ (1022 : ℤ) := zpow_lt_zpow_right₀ one_lt_two (by decide)

end Timestamp

namespace Document

theorem jsonForm_double {value : Binary64} (finite : value.value? ≠ none) : jsonForm (.double value) = .double value := by
  have code : value.code < 2047 * 2 ^ 52 := by
    by_contra infinite
    exact finite (by rw [Binary64.value?, if_pos (not_lt.mp infinite)])
  have number : value.isNaN = false := decide_eq_false (by omega)
  have bounded : value.isInfinite = false := decide_eq_false (by omega)
  rw [jsonForm, number, bounded, if_neg Bool.false_ne_true, if_neg Bool.false_ne_true]

theorem jsonForm_timestamp (ts : TimestampValue) :
    jsonForm (.timestamp ts) = .int (Int64.ofInt (Binary64.truncate (ts.value.epochSeconds.value?.getD 0))) ∨
      jsonForm (.timestamp ts) = .double ts.value.epochSeconds ∨
        jsonForm (.timestamp ts) = .string (ts.value.format ts.format) := by
  simp only [jsonForm]
  split_ifs
  · exact .inl rfl
  · exact .inr (.inl rfl)
  · exact .inr (.inr rfl)

mutual

theorem jsonForm_jsonForm : (document : Document) → document.jsonForm.jsonForm = document.jsonForm
  | .null | .bool _ | .int _ | .string _ | .blob _ => by simp only [jsonForm]
  | .double value => by
    by_cases nan : value.isNaN = true
    · simp only [jsonForm, if_pos nan]
    · by_cases infinite : value.isInfinite = true
      · simp only [jsonForm, if_neg nan, if_pos infinite]
      · simp only [jsonForm, if_neg nan, if_neg infinite]
  | .timestamp ts => by
    rcases jsonForm_timestamp ts with whole | seconds | text
    · rw [whole, jsonForm] <;> simp
    · rw [seconds, jsonForm_double ts.value.epochSeconds_finite]
    · rw [text, jsonForm] <;> simp
  | .list items => by rw [jsonForm, jsonForm, allJsonForm_allJsonForm items]
  | .map members => by rw [jsonForm, jsonForm, membersJsonForm_membersJsonForm members]

theorem allJsonForm_allJsonForm : (items : List Document) → allJsonForm (allJsonForm items) = allJsonForm items
  | [] => rfl
  | item :: items => by rw [allJsonForm, allJsonForm, jsonForm_jsonForm item, allJsonForm_allJsonForm items]

theorem membersJsonForm_membersJsonForm : (members : DocumentMap) →
    membersJsonForm (membersJsonForm members) = membersJsonForm members
  | [] => rfl
  | (key, value) :: members => by
    rw [membersJsonForm, membersJsonForm, jsonForm_jsonForm value, membersJsonForm_membersJsonForm members]

end

end Document

namespace Json

mutual

/-- The library has one value for a document and for what it comes back as. -/
theorem toBackend_jsonForm : (document : Document) → toBackend document.jsonForm = toBackend document
  | .null | .bool _ | .int _ | .string _ | .blob _ => by simp only [Document.jsonForm, toBackend]
  | .double value => by
    by_cases nan : value.isNaN = true
    · simp only [Document.jsonForm, toBackend, if_pos nan]
    · by_cases infinite : value.isInfinite = true
      · simp only [Document.jsonForm, toBackend, if_neg nan, if_pos infinite]
      · simp only [Document.jsonForm, toBackend, if_neg nan, if_neg infinite]
  | .timestamp ts => by
    simp only [Document.jsonForm, toBackend]
    split_ifs
    · rw [toBackend]
    · exact toBackend_double ts.value.epochSeconds_finite
    · rw [toBackend]
  | .list items => by rw [Document.jsonForm, toBackend, toBackend, toBackendAll_allJsonForm items]
  | .map members => by rw [Document.jsonForm, toBackend, toBackend, toBackendMembers_membersJsonForm members]

theorem toBackendAll_allJsonForm : (items : List Document) → toBackendAll (Document.allJsonForm items) = toBackendAll items
  | [] => rfl
  | item :: items => by
    rw [Document.allJsonForm, toBackendAll, toBackendAll, toBackend_jsonForm item, toBackendAll_allJsonForm items]

theorem toBackendMembers_membersJsonForm : (members : DocumentMap) →
    toBackendMembers (Document.membersJsonForm members) = toBackendMembers members
  | [] => rfl
  | (key, value) :: members => by
    rw [Document.membersJsonForm, toBackendMembers, toBackendMembers, toBackend_jsonForm value,
      toBackendMembers_membersJsonForm members]

end

/-- A document of texts in UTF-8 that is not too deep comes back in its form. -/
theorem decode_encode_jsonForm {backend : Backend} (lawful : backend.Lawful) {document : Document}
    (stable : document.jsonForm.Stable)
    (shallow : (toBackend document).nesting ≤ 512) : decode backend (encode backend document) = .ok document.jsonForm := by
  have same := toBackend_jsonForm document
  rw [encode, ← same, ← encode]
  exact decode_encode_of_stable lawful stable (same ▸ shallow)

end Json

namespace WireForm

def cbor : WireForm where
  form := Document.normalize
  map members := by rw [Document.normalize, Document.normalizeMembers_eq]
  string _ := by rw [Document.normalize] <;> simp
  int _ := by rw [Document.normalize] <;> simp
  settled := Document.normalize_normalize

def json : WireForm where
  form := Document.jsonForm
  map members := by rw [Document.jsonForm, Document.membersJsonForm_eq]
  string _ := by rw [Document.jsonForm] <;> simp
  int _ := by rw [Document.jsonForm] <;> simp
  settled := Document.jsonForm_jsonForm

end WireForm

end OpalCpp

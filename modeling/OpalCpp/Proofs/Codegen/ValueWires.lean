import OpalCpp.Proofs.Codegen.SerdeScalars
import OpalCpp.Proofs.Codegen.WireForms
import OpalCpp.Proofs.Core.Base64
import OpalCpp.Proofs.Core.TimestampText

/-! # What the helpers of deserializers read

A codec changes the nodes of a document: a text stands for a blob, a date or a double that is no number. The helpers
read the changed nodes as the values that they stood for.
-/

namespace OpalCpp

open scoped Bytes
open Bytes (ascii)

/-! ## Texts of scalars -/

/-- The text has characters of ASCII alone. -/
def Bytes.Plain (text : Bytes) : Prop := ∀ byte ∈ text, byte < 0x80

instance Bytes.decidablePlain (text : Bytes) : Decidable text.Plain :=
  inferInstanceAs (Decidable (∀ byte ∈ text, byte < 0x80))

namespace Bytes.Plain

theorem nil : Bytes.Plain [] := by
  intro byte inside
  cases inside

theorem append {first second : Bytes} (left : first.Plain) (right : second.Plain) : Bytes.Plain (first ++ second) := by
  intro byte inside
  rcases List.mem_append.mp inside with here | there
  · exact left byte here
  · exact right byte there

theorem digits {text : Bytes} (all : ∀ byte ∈ text, Decimal.isDigit byte = true) : text.Plain :=
  fun byte inside => Decimal.lt_of_isDigit (all byte inside)

theorem getD {names : List Bytes} (plain : ∀ name ∈ names, Bytes.Plain name) (index : ℕ) :
    Bytes.Plain (names.getD index []) := by
  rw [List.getD_eq_getElem?_getD]
  cases place : names[index]? with
  | none => exact nil
  | some name => exact plain name (List.mem_of_getElem? place)

end Bytes.Plain

namespace Base64

theorem plain_kAlphabet : Bytes.Plain kAlphabet := by decide

theorem plain_sextet (group shift : UInt32) : sextet group shift < 0x80 := by
  rw [sextet, List.getD_eq_getElem?_getD]
  cases place : kAlphabet[((group >>> shift) &&& 0x3F).toNat]? with
  | none => exact (by decide)
  | some byte => exact plain_kAlphabet _ (List.mem_of_getElem? place)

theorem plain_encode : (bytes : Bytes) → (base64Encode bytes).Plain
  | [] => .nil
  | [first] => by
    rw [base64Encode]
    refine Bytes.Plain.append ?_ (by decide)
    simp [Bytes.Plain, plain_sextet]
  | [first, second] => by
    rw [base64Encode]
    refine Bytes.Plain.append ?_ (by decide)
    simp [Bytes.Plain, plain_sextet]
  | first :: second :: third :: rest => by
    rw [base64Encode]
    refine Bytes.Plain.append ?_ (plain_encode rest)
    simp [Bytes.Plain, plain_sextet]

end Base64

namespace Timestamp

theorem plain_zeroPadded (width number : ℕ) : Bytes.Plain (Decimal.zeroPadded width number) := by
  rw [Decimal.zeroPadded]
  refine Bytes.Plain.append ?_ (Bytes.Plain.digits Decimal.isDigit_of_mem_decimal)
  intro byte zero
  rw [(List.mem_replicate.mp zero).2]
  decide

theorem plain_printed (width : ℕ) (number : ℤ) : (printed width number).Plain := by
  rw [printed]
  split_ifs
  · exact Bytes.Plain.append (by decide : Bytes.Plain ['-'.toUInt8]) (plain_zeroPadded _ _)
  · exact plain_zeroPadded _ _

theorem plain_appendFraction (ms : ℤ) : (appendFraction ms).Plain := by
  rw [appendFraction]
  split_ifs
  · exact .nil
  · have whole := Bytes.Plain.append (by decide : (ascii ".").Plain) (plain_printed 3 ms)
    exact fun byte inside => whole byte ((List.rdropWhile_prefix _ _).subset inside)

theorem plain_format (ts : Timestamp) (format : TimestampFormat) : (ts.format format).Plain := by
  cases format with
  | epochSeconds =>
    simp only [Timestamp.format]
    refine Bytes.Plain.append (Bytes.Plain.append ?_ (Bytes.Plain.digits Decimal.isDigit_of_mem_decimal))
      (plain_appendFraction _)
    split_ifs
    · decide
    · exact .nil
  | dateTime =>
    have dash : (ascii "-").Plain := by decide
    have colon : (ascii ":").Plain := by decide
    exact (plain_printed 4 _).append dash |>.append (plain_printed 2 _) |>.append dash |>.append (plain_printed 2 _)
      |>.append (by decide) |>.append (plain_printed 2 _) |>.append colon |>.append (plain_printed 2 _) |>.append colon
      |>.append (plain_printed 2 _) |>.append (plain_appendFraction _) |>.append (by decide)
  | httpDate =>
    have colon : (ascii ":").Plain := by decide
    have blank : (ascii " ").Plain := by decide
    have weekday := Bytes.Plain.getD (by decide : ∀ name ∈ kWeekdays, Bytes.Plain name)
    have month := Bytes.Plain.getD (by decide : ∀ name ∈ kMonths, Bytes.Plain name)
    exact (weekday _).append (by decide) |>.append (plain_printed 2 _) |>.append blank |>.append (month _) |>.append blank
      |>.append (plain_printed 4 _) |>.append blank |>.append (plain_printed 2 _) |>.append colon
      |>.append (plain_printed 2 _) |>.append colon |>.append (plain_printed 2 _) |>.append (by decide)

end Timestamp

namespace Document

mutual

/-- The texts and keys are UTF-8, and the keys are in order. -/
def Spelled : Document → Prop
  | .string value => Utf8.Valid value
  | .list items => AllSpelled items
  | .map members => (members.map Prod.fst).Pairwise (· < ·) ∧ MembersSpelled members
  | _ => True

def AllSpelled : List Document → Prop
  | [] => True
  | item :: items => item.Spelled ∧ AllSpelled items

def MembersSpelled : List (Bytes × Document) → Prop
  | [] => True
  | (key, value) :: members => Utf8.Valid key ∧ value.Spelled ∧ MembersSpelled members

end

mutual

/-- What a spelled document is sent as is kept by the library. -/
theorem stable_jsonForm : (document : Document) → document.Spelled → document.jsonForm.Stable
  | .null, _ | .bool _, _ | .int _, _ => by simp only [jsonForm, Stable]
  | .string value, spelled => by
    simp only [jsonForm, Stable]
    exact spelled
  | .double value, _ => by
    rw [jsonForm]
    split_ifs with nan infinite negative
    · exact Utf8.valid_of_ascii (by decide)
    · exact Utf8.valid_of_ascii (by decide)
    · exact Utf8.valid_of_ascii (by decide)
    · rw [Binary64.isNaN, decide_eq_true_eq] at nan
      rw [Binary64.isInfinite, decide_eq_true_eq] at infinite
      rw [Stable, Binary64.value?, if_neg (by omega)]
      exact Option.some_ne_none _
  | .blob value, _ => by
    simp only [jsonForm, Stable]
    exact Utf8.valid_of_ascii (Base64.plain_encode value)
  | .timestamp ts, _ => by
    rcases jsonForm_timestamp ts with form | form | form
    · rw [form]
      trivial
    · rw [form]
      exact ts.value.epochSeconds_finite
    · rw [form]
      exact Utf8.valid_of_ascii (ts.value.plain_format ts.format)
  | .list items, spelled => by
    rw [jsonForm, Stable]
    exact allStable_allJsonForm items spelled
  | .map members, spelled => by
    rw [jsonForm, Stable, membersJsonForm_eq, OrderedMap.keys_mapValues, ← membersJsonForm_eq]
    exact ⟨spelled.1, membersStable_membersJsonForm members spelled.2⟩

theorem allStable_allJsonForm : (items : List Document) → AllSpelled items → allStable (allJsonForm items)
  | [], _ => trivial
  | item :: items, spelled => ⟨stable_jsonForm item spelled.1, allStable_allJsonForm items spelled.2⟩

theorem membersStable_membersJsonForm :
    (members : DocumentMap) → MembersSpelled members → membersStable (membersJsonForm members)
  | [], _ => trivial
  | (_, value) :: members, spelled =>
    ⟨spelled.1, stable_jsonForm value spelled.2.1, membersStable_membersJsonForm members spelled.2.2⟩

end

end Document

/-! ## Codecs -/

/-- A codec in whose documents the values of generated types are found again, the timestamps if they are some that
their format can be written with. -/
structure ValueWire extends WireForm where
  null : ∀ document, (form document).isNull = document.isNull
  list : ∀ items, form (.list items) = .list (items.map form)
  bool : ∀ value, form (.bool value) = .bool value
  blob : ∀ bytes, blobFromDocument (form (.blob bytes)) = .ok bytes
  double : ∀ value, ∃ read, doubleFromDocument (form (.double value)) = .ok read ∧
    (read = value ∨ read.isNaN = true ∧ value.isNaN = true)
  Dated : Timestamp → TimestampFormat → Prop
  timestamp : ∀ {ts format}, Dated ts format → timestampFromDocument (form (.timestamp ⟨ts, format⟩)) format = .ok ts

namespace Timestamp

/-- Whether a text or number of JSON can stand for the timestamp: a date of HTTP has whole seconds. -/
def Dated (ts : Timestamp) (format : TimestampFormat) : Prop :=
  ts.Representable ∧ (format = .httpDate → (1000 : ℤ) ∣ ts.ms.toInt)

open Binary64 in
/-- The seconds of a timestamp of the window, rounded to a double, are read as the timestamp. -/
theorem fromEpochSecondsChecked_seconds {ts : Timestamp} (window : ts.Representable) :
    fromEpochSecondsChecked ts.epochSeconds = .ok ts := by
  by_cases whole : (1000 : ℤ) ∣ ts.ms.toInt
  · obtain ⟨n, scaled⟩ := whole
    have ⟨low, high⟩ := window
    simp only [kMinRepresentableMs, kMaxRepresentableMs] at low high
    have exact_ : (toDouble ts.ms).value? = some (ts.ms.toInt : ℚ) := nearest_intCast (abs_lt.mpr (by omega))
    apply fromEpochSecondsChecked_whole window (n := n) (by omega)
    rw [epochSeconds, exact_, Option.getD_some, scaled]
    push_cast
    rw [mul_div_cancel_left₀ _ (by norm_num : (1000 : ℚ) ≠ 0)]
    exact nearest_intCast (abs_lt.mpr (by omega))
  · exact fromEpochSecondsChecked_epochSeconds window whole

end Timestamp

namespace Binary64

/-- Doubles that compare equal stand for one number. -/
theorem value?_of_equals {first second : Binary64} (same : first.equals second = true) : first.value? = second.value? := by
  rw [equals] at same
  split at same
  · next one two firstNumber secondNumber => rw [firstNumber, secondNumber, of_decide_eq_true same]
  · next firstNone secondNone => rw [firstNone, secondNone]
  · cases same

/-- An infinity is one of two doubles. -/
theorem eq_of_isInfinite {value : Binary64} (infinite : value.isInfinite = true) :
    value = if value.isNegative then infinity.neg else infinity := by
  rw [isInfinite, decide_eq_true_eq, code] at infinite
  have bounded := value.bits.toNat_lt
  have same {other : Binary64} (bits : value.bits.toNat = other.bits.toNat) : value = other := by
    cases value
    cases other
    exact congrArg _ (UInt64.toNat_inj.mp bits)
  split_ifs with negative
  · rw [isNegative, decide_eq_true_eq] at negative
    apply same
    rw [show infinity.neg.bits.toNat = 2 ^ 63 + 2047 * 2 ^ 52 from rfl]
    omega
  · rw [isNegative, decide_eq_true_eq] at negative
    apply same
    rw [show infinity.bits.toNat = 2047 * 2 ^ 52 from rfl]
    omega

end Binary64

theorem Binary32.isNaN_of_toBinary64 {value : Binary32} (nan : value.toBinary64.isNaN = true) : value.isNaN = true := by
  by_contra number
  have back := Binary32.ofBinary64_isNaN nan
  rw [Binary32.ofBinary64_toBinary64 (Bool.eq_false_iff.mpr number)] at back
  exact number back

namespace Document

theorem normalizeAll_eq (items : List Document) : normalizeAll items = items.map normalize := by
  induction items with
  | nil => rfl
  | cons item items ih => rw [normalizeAll, ih, List.map_cons]

theorem allJsonForm_eq (items : List Document) : allJsonForm items = items.map jsonForm := by
  induction items with
  | nil => rfl
  | cons item items ih => rw [allJsonForm, ih, List.map_cons]

theorem isNull_jsonForm (document : Document) : document.jsonForm.isNull = document.isNull := by
  cases document with
  | double value =>
    rw [jsonForm]
    split_ifs <;> rfl
  | timestamp ts =>
    rcases jsonForm_timestamp ts with form | form | form
    all_goals
      rw [form]
      rfl
  | blob | list | map => rfl
  | _ => rw [jsonForm] <;> simp

end Document

namespace Json

theorem double_jsonForm (value : Binary64) : ∃ read, doubleFromDocument (Document.jsonForm (.double value)) = .ok read ∧
    (read = value ∨ read.isNaN = true ∧ value.isNaN = true) := by
  rw [Document.jsonForm]
  split_ifs with nan infinite negative
  · exact ⟨.quietNaN, rfl, .inr ⟨rfl, nan⟩⟩
  · have same := Binary64.eq_of_isInfinite infinite
    rw [if_pos negative] at same
    exact ⟨_, rfl, .inl same.symm⟩
  · have same := Binary64.eq_of_isInfinite infinite
    rw [if_neg negative] at same
    exact ⟨_, rfl, .inl same.symm⟩
  · exact ⟨value, rfl, .inl rfl⟩

theorem blob_jsonForm (bytes : Bytes) : blobFromDocument (Document.jsonForm (.blob bytes)) = .ok bytes := by
  simp only [Document.jsonForm, blobFromDocument]
  rw [base64Decode, if_neg (not_not.mpr (Base64.length_encode bytes))]
  exact Base64.groups_of_encode bytes

theorem timestamp_jsonForm {ts : Timestamp} {format : TimestampFormat} (dated : ts.Dated format) :
    timestampFromDocument (Document.jsonForm (.timestamp ⟨ts, format⟩)) format = .ok ts := by
  obtain ⟨window, whole⟩ := dated
  cases format with
  | dateTime =>
    simp only [Document.jsonForm, reduceCtorEq, if_false, timestampFromDocument]
    exact Timestamp.parse_format_dateTime window
  | httpDate =>
    simp only [Document.jsonForm, reduceCtorEq, if_false, timestampFromDocument]
    rw [Timestamp.parse_format_httpDate window, Int.ediv_mul_cancel (whole rfl), Timestamp.fromEpochMilliseconds,
      Int64.ofInt_toInt]
  | epochSeconds =>
    have back := Timestamp.fromEpochSecondsChecked_seconds window
    simp only [Document.jsonForm, if_true]
    split_ifs with integral
    · -- Equal doubles are converted to one timestamp.
      have same := Binary64.value?_of_equals integral
      simp only [timestampFromDocument, Document.asNumber?, ne_eq, not_true_eq_false, if_false]
      rw [Timestamp.fromEpochSecondsChecked, same, ← Timestamp.fromEpochSecondsChecked, back]
    · simp only [timestampFromDocument, Document.asNumber?, ne_eq, not_true_eq_false, if_false]
      exact back

end Json

namespace Cbor

/-- The document in the form of CBOR. -/
theorem decode_form {document : Document} (wellFormed : document.WellFormed) (window : document.Representable)
    (shallow : document.nesting ≤ kMaxDepth) : decode (encode document) = .ok (WireForm.cbor.form document) := by
  have read := decodeValue_encodeValue document wellFormed window kMaxDepth 0 (encode document) [] shallow
    (List.append_nil _).symm
  have whole : ¬ 0 + (encodeValue document).length ≠ (encode document).length := by
    rw [Nat.zero_add, not_not]
    rfl
  rw [decode, read]
  exact if_neg whole

end Cbor

namespace ValueWire

/-- Documents that are passed on as they are. -/
def plain : ValueWire where
  form document := document
  map members := by
    rw [OrderedMap.mapValues]
    exact congrArg Document.map (List.map_id members).symm
  string _ := rfl
  int _ := rfl
  settled _ := rfl
  null _ := rfl
  list items := congrArg Document.list (List.map_id items).symm
  bool _ := rfl
  blob _ := rfl
  double value := ⟨value, rfl, .inl rfl⟩
  Dated _ _ := True
  timestamp _ := rfl

def cbor : ValueWire where
  toWireForm := .cbor
  null document := by cases document <;> rfl
  list items := by
    change Document.normalize (.list items) = _
    rw [Document.normalize, Document.normalizeAll_eq]
    rfl
  bool _ := rfl
  blob _ := rfl
  double value := ⟨value, rfl, .inl rfl⟩
  Dated _ _ := True
  timestamp _ := rfl

def json : ValueWire where
  toWireForm := .json
  null := Document.isNull_jsonForm
  list items := by
    change Document.jsonForm (.list items) = _
    rw [Document.jsonForm, Document.allJsonForm_eq]
    rfl
  bool _ := by
    change Document.jsonForm _ = _
    simp only [Document.jsonForm]
  blob := Json.blob_jsonForm
  double := Json.double_jsonForm
  Dated := Timestamp.Dated
  timestamp := Json.timestamp_jsonForm

end ValueWire

end OpalCpp

import OpalCpp.Machine.JsonGrammar
import OpalCpp.Model.Server.AccessLog

/-! # The lines of the access log

The loop over a value goes from piece to piece of its bytes and writes the string of the repaired value. A line
is what is printed for the object of the fields, so that a parser of JSON text has the fields back.
-/

namespace OpalCpp.Server.AccessLog

open Bytes (ascii)
open Decimal (decimal)
open Http (parseTraceparent TraceContext)
open Metrics (kUnmatchedRoute signed)
open Utf8 (Piece Pieces Sequence pieces repair isTail isTail_iff)
open JsonText (printString escapeByte)

/-! ## Sequences -/

theorem leadRange_two {lead : UInt8} (low : 0xC2 ≤ lead) (high : lead ≤ 0xDF) : leadRange lead = (2, 0x80, 0xBF) := by
  rw [leadRange, if_pos ⟨low, high⟩]

theorem leadRange_three {lead : UInt8} (low : 0xE0 ≤ lead) (high : lead ≤ 0xEF) :
    leadRange lead = (3, if lead = 0xE0 then 0xA0 else 0x80, if lead = 0xED then 0x9F else 0xBF) := by
  have notTwo : ¬ (0xC2 ≤ lead ∧ lead ≤ 0xDF) := fun two => absurd (UInt8.le_trans low two.2) (by decide)
  rw [leadRange, if_neg notTwo, if_pos ⟨low, high⟩]

theorem leadRange_four {lead : UInt8} (low : 0xF0 ≤ lead) (high : lead ≤ 0xF4) :
    leadRange lead = (4, if lead = 0xF0 then 0x90 else 0x80, if lead = 0xF4 then 0x8F else 0xBF) := by
  have notTwo : ¬ (0xC2 ≤ lead ∧ lead ≤ 0xDF) := fun two => absurd (UInt8.le_trans low two.2) (by decide)
  have notThree : ¬ (0xE0 ≤ lead ∧ lead ≤ 0xEF) := fun three => absurd (UInt8.le_trans low three.2) (by decide)
  rw [leadRange, if_neg notTwo, if_neg notThree, if_pos ⟨low, high⟩]

theorem leadRange_cases (lead : UInt8) : (leadRange lead).1 = 0 ∨ (0xC2 ≤ lead ∧ lead ≤ 0xDF) ∨ (0xE0 ≤ lead ∧ lead ≤ 0xEF) ∨
    (0xF0 ≤ lead ∧ lead ≤ 0xF4) := by
  rw [leadRange]
  split_ifs with two three four
  · exact .inr (.inl two)
  · exact .inr (.inr (.inl three))
  · exact .inr (.inr (.inr four))
  · exact .inl rfl

theorem isTail_iff_le {byte : UInt8} : isTail byte = true ↔ ¬ (byte < 0x80 ∨ 0xBF < byte) := by
  rw [isTail, Bool.and_eq_true, decide_eq_true_eq, decide_eq_true_eq, not_or, UInt8.not_lt, UInt8.not_lt]

/-- What is checked of the bytes behind a lead. -/
theorem utf8SequenceLength_eq {lead : UInt8} {length : ℕ} {low high : UInt8} (range : leadRange lead = (length, low, high))
    (rest : Bytes) : utf8SequenceLength (lead :: rest) = if length ≤ (lead :: rest).length ∧
      (low ≤ rest.getD 0 0 ∧ rest.getD 0 0 ≤ high) ∧ ∀ c ∈ ((lead :: rest).take length).drop 2, isTail c = true then length
        else 0 := by
  simp only [utf8SequenceLength, List.getD_cons_zero, List.getD_cons_succ, range, List.any_eq_true, decide_eq_true_eq,
    isTail_iff_le]
  by_cases none_ : length = 0
  · simp [none_]
  by_cases long : (lead :: rest).length < length
  · rw [if_neg none_, if_pos long, if_neg (fun all => absurd all.1 (Nat.not_le_of_lt long))]
  by_cases second : rest.getD 0 0 < low ∨ high < rest.getD 0 0
  · rw [if_neg none_, if_neg long, if_pos second, if_neg]
    rintro ⟨-, ⟨first, last⟩, -⟩
    exact second.elim (UInt8.not_lt.mpr first) (UInt8.not_lt.mpr last)
  rw [if_neg none_, if_neg long, if_neg second]
  rw [not_or, UInt8.not_lt, UInt8.not_lt] at second
  by_cases tails : ∃ c ∈ ((lead :: rest).take length).drop 2, c < 0x80 ∨ 0xBF < c
  · obtain ⟨c, member, outside⟩ := tails
    rw [if_pos ⟨c, member, outside⟩, if_neg (fun all => all.2.2 c member outside)]
  · rw [if_neg tails, if_pos]
    exact ⟨Nat.le_of_not_lt long, second, fun c member outside => tails ⟨c, member, outside⟩⟩

/-- The length is that of the sequence in front. -/
theorem length_of_sequence {sequence : Bytes} (isSequence : Sequence sequence) (long : ∀ byte ∈ sequence, 0x80 ≤ byte)
    (rest : Bytes) :
    utf8SequenceLength (sequence ++ rest) = sequence.length := by
  have bounds {byte : UInt8} (tail : isTail byte = true) : 0x80 ≤ byte ∧ byte ≤ 0xBF := by
    rwa [isTail, Bool.and_eq_true, decide_eq_true_eq, decide_eq_true_eq] at tail
  cases isSequence with
  | @one a high => exact absurd (UInt8.le_trans (long a List.mem_cons_self) high) (by decide)
  | @two a b low high tail =>
    exact (utf8SequenceLength_eq (leadRange_two low high) (b :: rest)).trans (if_pos ⟨by simp, bounds tail, by simp⟩)
  | @three a b c low high tail overlong surrogate last =>
    refine (utf8SequenceLength_eq (leadRange_three low high) (b :: c :: rest)).trans
      (if_pos ⟨by simp, ⟨?_, ?_⟩, by simp [last]⟩)
    · split_ifs with lead
      · exact overlong lead
      · exact (bounds tail).1
    · split_ifs with lead
      · exact surrogate lead
      · exact (bounds tail).2
  | @four a b c d low high tail overlong past third last =>
    refine (utf8SequenceLength_eq (leadRange_four low high) (b :: c :: d :: rest)).trans
      (if_pos ⟨by simp, ⟨?_, ?_⟩, by simp [third, last]⟩)
    · split_ifs with lead
      · exact overlong lead
      · exact (bounds tail).1
    · split_ifs with lead
      · exact past lead
      · exact (bounds tail).2

/-- A length is that of a sequence. -/
theorem sequence_of_length {text : Bytes} (some_ : utf8SequenceLength text ≠ 0) :
    Sequence (text.take (utf8SequenceLength text)) := by
  have isTail_of {byte low high : UInt8} (least : 0x80 ≤ low) (most : high ≤ 0xBF) (within : low ≤ byte ∧ byte ≤ high) :
      isTail byte = true := by
    rw [isTail, Bool.and_eq_true, decide_eq_true_eq, decide_eq_true_eq]
    exact ⟨UInt8.le_trans least within.1, UInt8.le_trans within.2 most⟩
  have least (condition : Prop) [Decidable condition] {low : UInt8} (least : 0x80 ≤ low) :
      0x80 ≤ if condition then low else 0x80 := by
    split_ifs
    · exact least
    · exact UInt8.le_refl _
  have most (condition : Prop) [Decidable condition] {high : UInt8} (most : high ≤ 0xBF) :
      (if condition then high else 0xBF) ≤ 0xBF := by
    split_ifs
    · exact most
    · exact UInt8.le_refl _
  cases text with
  | nil => exact absurd rfl some_
  | cons lead rest =>
    rcases leadRange_cases lead with none_ | ⟨low, high⟩ | ⟨low, high⟩ | ⟨low, high⟩
    · rw [utf8SequenceLength_eq (Prod.ext_iff.mpr ⟨none_, rfl⟩), ite_self] at some_
      exact absurd rfl some_
    · rw [utf8SequenceLength_eq (leadRange_two low high)] at some_ ⊢
      have checked := (ite_ne_right_iff.mp some_).1
      rw [if_pos checked]
      obtain ⟨long, second, -⟩ := checked
      obtain _ | ⟨b, rest⟩ := rest
      · exact absurd long (by simp)
      · exact .two low high (isTail_of (by decide) (by decide) second)
    · rw [utf8SequenceLength_eq (leadRange_three low high)] at some_ ⊢
      have checked := (ite_ne_right_iff.mp some_).1
      rw [if_pos checked]
      obtain ⟨long, second, tails⟩ := checked
      obtain _ | ⟨b, _ | ⟨c, rest⟩⟩ := rest
      · exact absurd long (by simp)
      · exact absurd long (by simp)
      · refine .three low high (isTail_of (least _ (by decide)) (most _ (by decide)) second) ?_ ?_ (tails c (by simp))
        · rintro rfl
          exact second.1
        · rintro rfl
          exact second.2
    · rw [utf8SequenceLength_eq (leadRange_four low high)] at some_ ⊢
      have checked := (ite_ne_right_iff.mp some_).1
      rw [if_pos checked]
      obtain ⟨long, second, tails⟩ := checked
      obtain _ | ⟨b, _ | ⟨c, _ | ⟨d, rest⟩⟩⟩ := rest
      · exact absurd long (by simp)
      · exact absurd long (by simp)
      · exact absurd long (by simp)
      · refine .four low high (isTail_of (least _ (by decide)) (most _ (by decide)) second) ?_ ?_ (tails c (by simp))
          (tails d (by simp))
        · rintro rfl
          exact second.1
        · rintro rfl
          exact second.2

/-! ## Strings -/

/-- The one escape of a byte that is no part of a longer character. -/
theorem escapedByte_eq : ∀ {c}, c < 0x80 → escapedByte c = escapeByte c := @(forall_byte (by decide +kernel))

theorem escapedLoop_low {c : UInt8} (low : c < 0x80) (rest : Bytes) :
    escapedLoop (c :: rest) = escapedByte c ++ escapedLoop rest := by
  rw [escapedLoop, if_neg (UInt8.not_le.mpr low)]

/-- The loop over a sequence of more than one byte. -/
theorem escapedLoop_sequence {sequence : Bytes} (isSequence : Sequence sequence) (long : ∀ byte ∈ sequence, 0x80 ≤ byte)
    (rest : Bytes) :
    escapedLoop (sequence ++ rest) = sequence ++ escapedLoop rest := by
  have length := length_of_sequence isSequence long rest
  obtain ⟨c, tail, rfl, -, -⟩ := isSequence.exists_cons
  rw [List.cons_append] at length ⊢
  rw [escapedLoop, if_pos (long c List.mem_cons_self)]
  simp only [length]
  rw [if_neg (by simp), ← List.cons_append, List.take_left, List.length_cons, Nat.add_sub_cancel, List.drop_left]

theorem escapedLoop_stray {c : UInt8} {rest : Bytes} (high : 0x80 ≤ c) (none_ : utf8SequenceLength (c :: rest) = 0) :
    escapedLoop (c :: rest) = Utf8.replacement ++ escapedLoop rest := by
  rw [escapedLoop, if_pos high]
  simp only [none_, if_true]
  rfl

theorem length_of_stray {byte : UInt8} {rest : Bytes} (none_ : ∀ sequence, Sequence sequence → ¬ sequence <+: byte :: rest) :
    0x80 ≤ byte ∧ utf8SequenceLength (byte :: rest) = 0 := by
  constructor
  · by_contra low
    have single : Sequence [byte] := .one (Nat.le_of_lt_succ (UInt8.lt_iff_toNat_lt.mp (UInt8.not_le.mp low)))
    exact none_ _ single (List.prefix_append [byte] rest)
  · by_contra some_
    exact none_ _ (sequence_of_length some_) (List.take_prefix _ _)

/-- What is written is the string of the repaired value. -/
theorem escapedLoop_eq (value : Bytes) : escapedLoop value = (repair value).flatMap escapeByte := by
  have apart := Utf8.pieces_iff.mpr (rfl : pieces value = pieces value)
  rw [Utf8.repair_eq]
  generalize pieces value = parts at apart
  induction apart with
  | nil =>
    rw [escapedLoop]
    rfl
  | @char c rest parts _ ih =>
    rw [List.flatMap_cons, List.flatMap_append, ← ih]
    rcases Utf8.encode_cases c with ⟨byte, low, one⟩ | high
    · rw [Piece.repaired, one, List.flatMap_singleton, List.singleton_append, escapedLoop_low low, escapedByte_eq low]
    · rw [Piece.repaired, escapedLoop_sequence (Utf8.sequence_encode c) high, JsonText.flatMap_escapeByte_of_le high]
  | @stray byte rest parts none_ _ ih =>
    obtain ⟨high, zero⟩ := length_of_stray none_
    rw [List.flatMap_cons, List.flatMap_append, ← ih, escapedLoop_stray high zero]
    rfl

theorem appendEscaped_eq (out value : Bytes) : appendEscaped out value = out ++ printString (repair value) := by
  rw [appendEscaped, escapedLoop_eq, printString, List.append_assoc, List.append_assoc]
  rfl

/-- A key that passes is not changed by the repair. -/
theorem repair_of_wellFormedKey {key : Bytes} (passes : wellFormedKey key = true) : repair key = key := by
  have apart := Utf8.pieces_iff.mpr (rfl : pieces key = pieces key)
  rw [Utf8.repair_eq]
  generalize pieces key = parts at apart
  induction apart with
  | nil => rfl
  | @char c rest parts _ ih =>
    rw [List.flatMap_cons, ih]
    · rfl
    rcases Utf8.encode_cases c with ⟨byte, low, one⟩ | high
    · rw [one, List.singleton_append, wellFormedKey, if_pos low] at passes
      exact passes
    · have length := length_of_sequence (Utf8.sequence_encode c) high rest
      obtain ⟨first, tail, spelled, -, -⟩ := (Utf8.sequence_encode c).exists_cons
      rw [spelled] at high passes length
      rw [List.cons_append] at passes length
      rw [wellFormedKey, if_neg (UInt8.not_lt.mpr (high first List.mem_cons_self))] at passes
      simp only [length] at passes
      rwa [if_neg (by simp), List.length_cons, Nat.add_sub_cancel, List.drop_left] at passes
  | @stray byte rest parts none_ _ ih =>
    obtain ⟨high, zero⟩ := length_of_stray none_
    rw [wellFormedKey, if_neg (UInt8.not_lt.mpr high)] at passes
    simp [zero] at passes

/-! ## Lines -/

/-- Digits without a zero in front of others. -/
def readDigits (digits : Bytes) : Option ℕ :=
  if digits = [] ∨ (digits.head? = some '0'.toUInt8 ∧ digits.length ≠ 1) then none else Decimal.read digits

/-- Numbers are integers of any size, and every member of an object counts. -/
def integers : JsonText.Dialect ℤ where
  print := signed
  read text :=
    if text.head? = some '-'.toUInt8 then (readDigits text.tail).map fun magnitude : ℕ => -(magnitude : ℤ)
    else (readDigits text).map fun magnitude : ℕ => (magnitude : ℤ)
  keep := id

/-- The fields of an observation. -/
def fields (o : RequestObservation) (extra : AccessLogFields) : List (Bytes × JsonValue ℤ) :=
  [(kMethod, .string (repair o.method)), (kTarget, .string (repair o.target)),
    (kRoute, .string (repair (if o.operation = [] then kUnmatchedRoute else o.operation))),
    (kStatus, .number o.status.toInt), (kDurationUs, .number o.duration.toInt),
      (kRequestBytes, .number o.requestBytes.toNat),
    (kResponseBytes, .number o.responseBytes.toNat), (kClient, .string (repair o.client.address)),
    (kClientSource, .string (repair (sourceName o.client.source))), (kHandlerThrew, .bool o.handlerThrew),
    (kTraceId, .string (repair (((parseTraceparent o.traceParent).map TraceContext.traceId).getD [])))] ++
  extra.map fun field => (field.1, .string (repair field.2))

/-- An object up to its last member. -/
def Begun (out : Bytes) (members : List (Bytes × JsonValue ℤ)) : Prop :=
  out = JsonText.openBrace :: Delimited.join JsonText.comma (JsonText.printMembers integers members)

theorem printMembers_concat (members : List (Bytes × JsonValue ℤ)) (key : Bytes) (value : JsonValue ℤ) :
    JsonText.printMembers integers (members ++ [(key, value)]) =
      JsonText.printMembers integers members ++ [printString key ++ JsonText.colon :: JsonText.print integers value] := by
  induction members with
  | nil => simp [JsonText.printMembers]
  | cons member members ih =>
    obtain ⟨first, value'⟩ := member
    rw [List.cons_append, JsonText.printMembers, ih, JsonText.printMembers, List.cons_append]

section Begun

variable {out key text : Bytes} {members : List (Bytes × JsonValue ℤ)} {value : JsonValue ℤ}

/-- There is a comma where there is a member. -/
theorem Begun.length_iff (begun : Begun out members) : 1 < out.length ↔ JsonText.printMembers integers members ≠ [] := by
  have notEmpty : JsonText.printMembers integers members ≠ [[]] := by
    cases members with
    | nil => simp [JsonText.printMembers]
    | cons member members =>
      obtain ⟨key, value⟩ := member
      simp [JsonText.printMembers, printString]
  rw [begun, List.length_cons, Nat.lt_add_left_iff_pos, List.length_pos_iff, Ne, Delimited.join_eq_nil, not_or,
    and_iff_left notEmpty]

/-- A key and the text of its value are the next member. -/
theorem Begun.append (begun : Begun out members) (plain : repair key = key)
    (printed : text = JsonText.print integers value) :
    Begun (appendKey out key ++ text) (members ++ [(key, value)]) := by
  have marks : ','.toUInt8 = JsonText.comma ∧ ':'.toUInt8 = JsonText.colon := by decide
  have length := begun.length_iff
  rw [Begun, printMembers_concat, appendKey, printed, marks.1, marks.2]
  simp only [appendEscaped_eq, plain, length]
  rw [Begun] at begun
  by_cases first : JsonText.printMembers integers members = []
  · rw [first, Delimited.join] at begun
    rw [if_neg (not_not.mpr first), first, begun, List.nil_append, Delimited.join]
    simp
  · rw [if_pos first, Delimited.join_concat first, begun]
    simp

theorem Begun.appendString (begun : Begun out members) (plain : repair key = key) (value : Bytes) :
    Begun (appendString out key value) (members ++ [(key, .string (repair value))]) := by
  rw [AccessLog.appendString, appendEscaped_eq]
  exact begun.append plain (by rw [JsonText.print])

theorem Begun.appendInteger (begun : Begun out members) (plain : repair key = key) (value : ℤ) :
    Begun (appendInteger out key value) (members ++ [(key, .number value)]) :=
  begun.append plain (by rw [JsonText.print]; rfl)

theorem Begun.appendExtra (begun : Begun out members) {extra : AccessLogFields}
    (plain : ∀ field ∈ extra, repair field.1 = field.1) :
    Begun (extra.foldl (fun out (key, value) => AccessLog.appendString out key value) out)
      (members ++ extra.map fun field => (field.1, .string (repair field.2))) := by
  induction extra generalizing out members with
  | nil =>
    rw [List.map_nil, List.append_nil]
    exact begun
  | cons field extra ih =>
    rw [List.forall_mem_cons] at plain
    have next := ih (begun.appendString plain.1 field.2) plain.2
    rwa [List.append_assoc] at next

end Begun

/-! ### Extra fields -/

theorem checkKeys_ok {before : List Bytes} {extra : AccessLogFields} (passes : checkKeys before extra = .ok ()) :
    (∀ field ∈ extra, wellFormedKey field.1 = true ∧ field.1 ∉ kBuiltInKeys ∧ field.1 ∉ before) ∧
      (extra.map Prod.fst).Nodup := by
  induction extra generalizing before with
  | nil => simp
  | cons field extra ih =>
    obtain ⟨key, value⟩ := field
    rw [checkKeys] at passes
    split_ifs at passes with empty malformed shadows twice
    obtain ⟨others, apart⟩ := ih passes
    rw [Bool.not_eq_true, Bool.not_eq_false'] at malformed
    refine ⟨?_, ?_⟩
    · rw [List.forall_mem_cons]
      exact ⟨⟨malformed, shadows, twice⟩, fun other member =>
        ⟨(others other member).1, (others other member).2.1, fun earlier =>
          (others other member).2.2 (List.mem_append_left _ earlier)⟩⟩
    · rw [List.map_cons, List.nodup_cons]
      refine ⟨fun member => ?_, apart⟩
      obtain ⟨other, member, same⟩ := List.mem_map.mp member
      exact (others other member).2.2 (List.mem_append_right _ (by rw [same]; exact List.mem_singleton_self key))

/-- The keys of a line are the built-in ones and those of the caller, all of them apart. -/
theorem keys_nodup {o : RequestObservation} {extra : AccessLogFields} (passes : checkExtraKeys extra = .ok ()) :
    ((fields o extra).map Prod.fst).Nodup := by
  obtain ⟨others, apart⟩ := checkKeys_ok passes
  have keys : (fields o extra).map Prod.fst = kBuiltInKeys ++ extra.map Prod.fst := by
    rw [fields, List.map_append, List.map_map]
    rfl
  rw [keys, List.nodup_append']
  refine ⟨by decide, apart, fun key builtIn member => ?_⟩
  obtain ⟨field, extraMember, rfl⟩ := List.mem_map.mp member
  exact (others field extraMember).2.1 builtIn

/-- The line is the text of the object of its fields. -/
theorem formatAccessLog_eq (o : RequestObservation) {extra : AccessLogFields} (passes : checkExtraKeys extra = .ok ()) :
    formatAccessLog o extra = .ok (JsonText.print integers (.object (fields o extra))) := by
  have plain : ∀ key ∈ kBuiltInKeys, repair key = key := by
    have valid : ∀ key ∈ kBuiltInKeys, Utf8.Valid key := by decide
    exact fun key member => Utf8.repair_of_valid (valid key member)
  have extraPlain : ∀ field ∈ extra, repair field.1 = field.1 := fun field member =>
    repair_of_wellFormedKey ((checkKeys_ok passes).1 field member).1
  have start : Begun ['\x7b'.toUInt8] [] := by
    rw [Begun, JsonText.printMembers]
    rfl
  have first := start.appendString (plain kMethod (by decide)) o.method
  have first := first.appendString (plain kTarget (by decide)) o.target
  have first := first.appendString (plain kRoute (by decide)) (if o.operation = [] then kUnmatchedRoute else o.operation)
  have numbers := first.appendInteger (plain kStatus (by decide)) o.status.toInt
  have numbers := numbers.appendInteger (plain kDurationUs (by decide)) o.duration.toInt
  have numbers := numbers.appendInteger (plain kRequestBytes (by decide)) o.requestBytes.toNat
  have numbers := numbers.appendInteger (plain kResponseBytes (by decide)) o.responseBytes.toNat
  have client := numbers.appendString (plain kClient (by decide)) o.client.address
  have client := client.appendString (plain kClientSource (by decide)) (sourceName o.client.source)
  have threw :
      (if o.handlerThrew then ascii "true" else ascii "false") = JsonText.print integers (.bool o.handlerThrew) := by
    rw [JsonText.print]
    cases o.handlerThrew <;> rfl
  have last := client.append (plain kHandlerThrew (by decide)) threw
  have last :=
    last.appendString (plain kTraceId (by decide)) (((parseTraceparent o.traceParent).map TraceContext.traceId).getD [])
  have line := last.appendExtra extraPlain
  rw [formatAccessLog, passes]
  simp only [bind, Except.bind, pure, Except.pure]
  rw [line, JsonText.print, List.cons_append]
  rfl

/-! ## Reading -/

theorem signed_eq (number : ℤ) : signed number = (if number < 0 then ['-'.toUInt8] else []) ++ decimal number.natAbs := by
  rw [signed]
  split_ifs <;> rfl

theorem isNumber_signed (number : ℤ) : JsonGrammar.IsNumber (signed number) := by
  have whole : JsonGrammar.Digits (decimal number.natAbs) := by
    refine ⟨Decimal.decimal_ne_nil _, fun c member => ?_⟩
    have digit := Decimal.isDigit_of_mem_decimal c member
    rwa [Decimal.isDigit, Bool.and_eq_true, decide_eq_true_eq, decide_eq_true_eq] at digit
  have noZero : (decimal number.natAbs).head? = some 0x30 → decimal number.natAbs = [0x30] := by
    intro zero
    obtain none_ | positive := Nat.eq_zero_or_pos number.natAbs
    · rw [none_]
      rfl
    · exact absurd zero (Decimal.head?_decimal_ne positive)
  have sign : (if number < 0 then ['-'.toUInt8] else []) ∈ [[], [0x2d]] := by
    split_ifs
    · exact List.mem_cons_of_mem _ List.mem_cons_self
    · exact List.mem_cons_self
  have spelled := JsonGrammar.IsNumber.mk sign whole noZero .none .none
  rwa [List.append_nil, List.append_nil, ← signed_eq] at spelled

theorem isNumberByte_signed (number : ℤ) : ∀ c ∈ signed number, JsonText.isNumberByte c = true := by
  intro c member
  rw [signed_eq, List.mem_append] at member
  rcases member with sign | digit
  · split_ifs at sign
    · rw [List.mem_singleton.mp sign]
      rfl
    · cases sign
  · have digit := Decimal.isDigit_of_mem_decimal c digit
    rw [Decimal.isDigit] at digit
    rw [JsonText.isNumberByte, digit]
    rfl

theorem readDigits_decimal (number : ℕ) : readDigits (decimal number) = some number := by
  rw [readDigits, if_neg, Decimal.read_decimal]
  rintro (none_ | ⟨zero, long⟩)
  · exact Decimal.decimal_ne_nil number none_
  · obtain rfl | positive := Nat.eq_zero_or_pos number
    · exact long rfl
    · exact Decimal.head?_decimal_ne positive zero

theorem read_signed (number : ℤ) : integers.read (signed number) = some number := by
  change (if (signed number).head? = some '-'.toUInt8 then _ else _) = _
  by_cases negative : number < 0
  · have spelled : signed number = '-'.toUInt8 :: decimal number.natAbs := if_pos negative
    rw [spelled, List.head?_cons, if_pos rfl, List.tail_cons, readDigits_decimal, Option.map_some]
    congr 1
    omega
  · have spelled : signed number = decimal number.natAbs := if_neg negative
    have positive : (decimal number.natAbs).head? ≠ some '-'.toUInt8 := by
      intro minus
      exact absurd (Decimal.isDigit_of_mem_decimal _ (List.mem_of_head? minus)) (by decide)
    rw [spelled, if_neg positive, readDigits_decimal, Option.map_some]
    congr 1
    omega

theorem readable_number (number : ℤ) : JsonText.Readable integers (.number number) := by
  rw [JsonText.Readable]
  refine ⟨?_, isNumberByte_signed number, read_signed number⟩
  change signed number ≠ []
  rw [signed_eq]
  exact List.append_ne_nil_of_right_ne_nil _ (Decimal.decimal_ne_nil _)

/-- A string, a number or a truth value. -/
inductive Flat : JsonValue ℤ → Prop
  | bool (value : Bool) : Flat (.bool value)
  | number (value : ℤ) : Flat (.number value)
  | string {value : Bytes} : Utf8.Valid value → Flat (.string value)

theorem flat_fields (o : RequestObservation) (extra : AccessLogFields) : ∀ field ∈ fields o extra, Flat field.2 := by
  have text (value : Bytes) : Flat (.string (repair value)) := .string (Utf8.valid_repair value)
  rw [fields, List.forall_mem_append, List.forall_mem_map]
  refine ⟨?_, fun field _ => text field.2⟩
  simp only [List.forall_mem_cons, text, Flat.number, Flat.bool, true_and]
  exact fun _ member => absurd member List.not_mem_nil

theorem readable_fields (o : RequestObservation) (extra : AccessLogFields) :
    JsonText.Readable integers (.object (fields o extra)) := by
  have each {value : JsonValue ℤ} (flat : Flat value) : JsonText.Readable integers value := by
    cases flat with
    | number value => exact readable_number value
    | bool value => rw [JsonText.Readable.eq_def]; trivial
    | string valid => rw [JsonText.Readable.eq_def]; trivial
  have all :
      ∀ members : List (Bytes × JsonValue ℤ), (∀ member ∈ members, Flat member.2) →
        JsonText.readableMembers integers members := by
    intro members flat
    induction members with
    | nil => rw [JsonText.readableMembers]; trivial
    | cons member members ih =>
      rw [List.forall_mem_cons] at flat
      rw [JsonText.readableMembers]
      exact ⟨each flat.1, ih flat.2⟩
  rw [JsonText.Readable]
  exact ⟨rfl, all _ (flat_fields o extra)⟩

/-- The bytes of a number are visible characters. -/
theorem bytes_signed (number : ℤ) : ∀ byte ∈ signed number, 0x20 ≤ byte ∧ byte < 0x80 := by
  have facts : ∀ byte, JsonText.isNumberByte byte = true → 0x20 ≤ byte ∧ byte < 0x80 := forall_byte (by decide +kernel)
  exact fun byte member => facts byte (isNumberByte_signed number byte member)

theorem Flat.visible {value : JsonValue ℤ} (flat : Flat value) : ∀ byte ∈ JsonText.print integers value, 0x20 ≤ byte := by
  cases flat with
  | bool value => cases value <;> rw [JsonText.print] <;> decide
  | number value =>
    rw [JsonText.print]
    exact fun byte member => (bytes_signed value byte member).1
  | string valid =>
    rw [JsonText.print]
    exact JsonText.le_of_mem_printString _

theorem Flat.valid {value : JsonValue ℤ} (flat : Flat value) : Utf8.Valid (JsonText.print integers value) := by
  cases flat with
  | bool value => cases value <;> rw [JsonText.print] <;> exact Utf8.valid_of_ascii (by decide)
  | number value =>
    rw [JsonText.print]
    exact Utf8.valid_of_ascii fun byte member => (bytes_signed value byte member).2
  | string valid =>
    rw [JsonText.print]
    exact JsonText.valid_printString valid

theorem valid_keys {o : RequestObservation} {extra : AccessLogFields} (passes : checkExtraKeys extra = .ok ()) :
    ∀ field ∈ fields o extra, Utf8.Valid field.1 := by
  rw [fields, List.forall_mem_append, List.forall_mem_map]
  constructor
  · have valid : ∀ key ∈ kBuiltInKeys, Utf8.Valid key := by decide
    simpa [kBuiltInKeys] using valid
  · intro field member
    have plain := repair_of_wellFormedKey ((checkKeys_ok passes).1 field member).1
    exact plain ▸ Utf8.valid_repair field.1

/-- Every line is the text of an object with its keys apart, in UTF-8 and without a control character, and is read
back as the fields: the numbers as they are, and the strings with a replacement for each byte that is in no
character. -/
theorem access_log_line (o : RequestObservation) (extra : AccessLogFields) (admitted : checkExtraKeys extra = .ok ()) :
    ∃ line, formatAccessLog o extra = .ok line ∧ (∀ byte ∈ line, 0x20 ≤ byte) ∧ Utf8.Valid line ∧
      (∃ members, JsonGrammar.IsText (.object members) line) ∧ ((fields o extra).map Prod.fst).Nodup ∧
      JsonText.parse integers line = some (.object (fields o extra)) ∧
      ∀ value parts, Pieces value parts → repair value = parts.flatMap Piece.repaired := by
  have flat := flat_fields o extra
  have marks : ∀ byte ∈ [JsonText.openBrace, JsonText.closeBrace, JsonText.colon, JsonText.comma], byte < 0x80 := by decide
  refine ⟨_, formatAccessLog_eq o admitted, ?_, ?_, ?_, keys_nodup admitted, JsonText.parse_print (readable_fields o extra),
    ?_⟩
  · refine @JsonText.print_object (fun text => ∀ byte ∈ text, 0x20 ≤ byte) ?_ (by decide) (by simp) ℤ integers _ ?_
    · exact fun first second one two => List.forall_mem_append.mpr ⟨one, two⟩
    · exact fun field member => ⟨JsonText.le_of_mem_printString field.1, (flat field member).visible⟩
  · refine JsonText.print_object (fun first second => Utf8.Valid.append) ?_ Utf8.valid_nil ?_
    · exact fun byte mark => Utf8.valid_singleton (marks byte mark)
    · exact fun field member => ⟨JsonText.valid_printString (valid_keys admitted field member), (flat field member).valid⟩
  · have isText := @JsonGrammar.isText_print ℤ integers isNumber_signed (.object (fields o extra))
    rw [JsonGrammar.written] at isText
    exact ⟨_, isText⟩
  · intro value parts apart
    rw [Utf8.repair_eq, Utf8.pieces_iff.mp apart]

/-- A target with a quote, a line feed and a sequence that is cut off, and a field of the caller. -/
theorem access_log_line_cut_off :
    let o : RequestObservation :=
      { method := ascii "GET", target := ascii "/\"\n" ++ [0xE2, 0x82], operation := [], status := -1 }
    let extra : AccessLogFields := [(ascii "service_name", ascii "todo")]
    ∃ line, formatAccessLog o extra = .ok line ∧ (∀ byte ∈ line, 0x20 ≤ byte) ∧ Utf8.Valid line ∧
      repair o.target = ascii "/\"\n" ++ Utf8.replacement ++ Utf8.replacement := by
  intro o extra
  have admitted : checkExtraKeys extra = .ok () := by
    have wellFormed : wellFormedKey (ascii "service_name") = true := by
      simp +decide [ascii, wellFormedKey]
    simp +decide [extra, checkExtraKeys, checkKeys, wellFormed]
  obtain ⟨line, formatted, visible, valid, -, -, -, pieces⟩ := access_log_line o extra admitted
  have apart : Pieces o.target [.char '/', .char '"', .char '\n', .stray 0xE2, .stray 0x82] :=
    @Pieces.char '/' _ _ (@Pieces.char '"' _ _ (@Pieces.char '\n' _ _
      (.stray (Utf8.decode_eq_none_iff.mp rfl) (.stray (Utf8.decode_eq_none_iff.mp rfl) .nil))))
  exact ⟨line, formatted, visible, valid, pieces _ _ apart⟩

end OpalCpp.Server.AccessLog

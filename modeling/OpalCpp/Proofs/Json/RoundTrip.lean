import OpalCpp.Proofs.Core.Documents
import OpalCpp.Proofs.Json.Library

/-! # JSON round trips

Documents of JSON's own kinds come back from their text, if the text is not too deep.
-/

namespace OpalCpp

namespace Document

mutual

/-- A document as the decoder gives it: of JSON's own kinds, with strings in UTF-8, finite doubles, and keys
in order. -/
def Stable : Document → Prop
  | .double value => value.value? ≠ none
  | .string value => Utf8.Valid value
  | .blob _ => False
  | .timestamp _ => False
  | .list items => allStable items
  | .map members => (members.map Prod.fst).Pairwise (· < ·) ∧ membersStable members
  | _ => True

def allStable : List Document → Prop
  | [] => True
  | item :: items => item.Stable ∧ allStable items

def membersStable : List (Bytes × Document) → Prop
  | [] => True
  | (key, value) :: members => Utf8.Valid key ∧ value.Stable ∧ membersStable members

end

mutual

theorem equals_self : (document : Document) → document.Stable → document.equals document = true
  | .null, _ | .bool _, _ | .int _, _ | .string _, _ => by rw [equals] <;> simp
  | .double value, stable => by
    rw [Stable] at stable
    obtain ⟨number, finite⟩ := Option.ne_none_iff_exists'.mp stable
    rw [equals, Binary64.equals, finite]
    simp
  | .blob _, stable | .timestamp _, stable => by
    rw [Stable] at stable
    exact stable.elim
  | .list items, stable => by
    rw [Stable] at stable
    rw [equals]
    exact allEqual_self items stable
  | .map members, stable => by
    rw [Stable] at stable
    rw [equals]
    exact membersEqual_self members stable.2

theorem allEqual_self : (items : List Document) → allStable items → allEqual items items = true
  | [], _ => by rw [allEqual]
  | item :: items, stable => by
    rw [allStable] at stable
    rw [allEqual, equals_self item stable.1, allEqual_self items stable.2]
    rfl

theorem membersEqual_self : (members : List (Bytes × Document)) → membersStable members → membersEqual members members = true
  | [], _ => by rw [membersEqual]
  | (key, value) :: members, stable => by
    rw [membersStable] at stable
    rw [membersEqual, equals_self value stable.2.1, membersEqual_self members stable.2.2]
    simp

end

mutual

/-- A document that is equal to a stable one is stable. -/
theorem stable_of_equals : (first second : Document) → first.equals second = true → first.Stable → second.Stable
  | .null, second, same, _ | .bool _, second, same, _ | .int _, second, same, _ => by
    cases second with
    | null | bool _ | int _ => simp [Stable]
    | _ => simp [equals] at same
  | .double value, second, same, stable => by
    cases second with
    | double other =>
      rw [Stable] at stable ⊢
      rw [equals, Binary64.equals] at same
      obtain ⟨number, finite⟩ := Option.ne_none_iff_exists'.mp stable
      intro infinite
      rw [finite, infinite] at same
      cases same
    | _ => simp [equals] at same
  | .string value, second, same, stable => by
    cases second with
    | string other =>
      rw [equals, decide_eq_true_eq] at same
      exact same ▸ stable
    | _ => simp [equals] at same
  | .blob _, _, _, stable | .timestamp _, _, _, stable => by
    rw [Stable] at stable
    exact stable.elim
  | .list items, second, same, stable => by
    cases second with
    | list others =>
      rw [Stable] at stable ⊢
      rw [equals] at same
      exact allStable_of_equal items others same stable
    | _ => simp [equals] at same
  | .map members, second, same, stable => by
    cases second with
    | map others =>
      rw [Stable] at stable ⊢
      rw [equals] at same
      obtain ⟨keys, members⟩ := membersStable_of_equal members others same stable.2
      exact ⟨keys ▸ stable.1, members⟩
    | _ => simp [equals] at same

theorem allStable_of_equal :
    (first second : List Document) → allEqual first second = true → allStable first → allStable second
  | [], [], _, stable => stable
  | item :: items, other :: others, same, stable => by
    rw [allStable] at stable ⊢
    rw [allEqual, Bool.and_eq_true] at same
    exact ⟨stable_of_equals item other same.1 stable.1, allStable_of_equal items others same.2 stable.2⟩
  | [], _ :: _, same, _ | _ :: _, [], same, _ => by simp [allEqual] at same

theorem membersStable_of_equal : (first second : List (Bytes × Document)) → membersEqual first second = true →
    membersStable first → first.map Prod.fst = second.map Prod.fst ∧ membersStable second
  | [], [], _, stable => ⟨rfl, stable⟩
  | (key, value) :: members, (key', value') :: others, same, stable => by
    rw [membersStable] at stable ⊢
    rw [membersEqual, Bool.and_eq_true, Bool.and_eq_true, decide_eq_true_eq] at same
    obtain ⟨⟨rfl, one⟩, more⟩ := same
    obtain ⟨keys, rest⟩ := membersStable_of_equal members others more stable.2.2
    exact ⟨by rw [List.map_cons, List.map_cons, keys], stable.1, stable_of_equals value value' one stable.2.1, rest⟩
  | [], _ :: _, same, _ | _ :: _, [], same, _ => by simp [membersEqual] at same

end

end Document

namespace Json

open JsonText (quote backslash comma colon openBracket closeBracket openBrace closeBrace)

/-! ## The scan for brackets -/

section Scan

variable {depth : ℤ} {rest : Bytes}

theorem scan_quote (depth : ℤ) (rest : Bytes) :
    exceedsMaxDepth depth false false (quote :: rest) = exceedsMaxDepth depth true false rest := rfl

theorem scan_open {c : UInt8} (isOpen : c = openBracket ∨ c = openBrace) (room : depth < 512) (rest : Bytes) :
    exceedsMaxDepth depth false false (c :: rest) = exceedsMaxDepth (depth + 1) false false rest := by
  have inside : ¬ kMaxNestingDepth < depth + 1 := by
    rw [kMaxNestingDepth]
    omega
  obtain rfl | rfl := isOpen <;> exact if_neg inside

/-- The first bracket that is too deep ends the scan. -/
theorem scan_tooDeep {c : UInt8} (isOpen : c = openBracket ∨ c = openBrace) (full : 512 ≤ depth) (rest : Bytes) :
    exceedsMaxDepth depth false false (c :: rest) = true := by
  have outside : kMaxNestingDepth < depth + 1 := by
    rw [kMaxNestingDepth]
    omega
  obtain rfl | rfl := isOpen <;> exact if_pos outside

theorem scan_close {c : UInt8} (isClose : c = closeBracket ∨ c = closeBrace) (depth : ℤ) (rest : Bytes) :
    exceedsMaxDepth depth false false (c :: rest) = exceedsMaxDepth (depth - 1) false false rest := by
  obtain rfl | rfl := isClose <;> rfl

theorem scan_plain {text : Bytes} (plain : Plain text) (depth : ℤ) (rest : Bytes) :
    exceedsMaxDepth depth false false (text ++ rest) = exceedsMaxDepth depth false false rest := by
  induction text with
  | nil => rfl
  | cons c text ih =>
    obtain ⟨other, plain⟩ := List.forall_mem_cons.mp plain
    simp only [List.mem_cons, not_or, List.not_mem_nil, not_false_eq_true, and_true] at other
    obtain ⟨notQuote, notOpen, notClose, notOpenBrace, notCloseBrace⟩ := other
    rw [List.cons_append, exceedsMaxDepth, if_neg Bool.false_ne_true]
    exact ((if_neg notQuote).trans ((if_neg (not_or.mpr ⟨notOpen, notOpenBrace⟩)).trans
      (if_neg (not_or.mpr ⟨notClose, notCloseBrace⟩)))).trans (ih plain)

/-- Inside of a string nothing counts. -/
theorem scan_escaped : (body : Bytes) → Escaped body → ∀ (depth : ℤ) (rest : Bytes),
    exceedsMaxDepth depth true false (body ++ quote :: rest) = exceedsMaxDepth depth false false rest
  | [], _, depth, rest => rfl
  | [c], escaped, depth, rest => by
    by_cases slash : c = backslash
    · rw [slash, Escaped, if_pos rfl] at escaped
      exact escaped.elim
    · rw [escaped_cons slash] at escaped
      rw [List.singleton_append, exceedsMaxDepth, if_pos rfl, if_neg Bool.false_ne_true]
      exact ((if_neg slash).trans (if_neg escaped.1)).trans (scan_escaped [] escaped.2 depth rest)
  | c :: d :: body, escaped, depth, rest => by
    by_cases slash : c = backslash
    · subst slash
      rw [escaped_slash] at escaped
      exact scan_escaped body escaped depth rest
    · rw [escaped_cons slash] at escaped
      rw [List.cons_append, exceedsMaxDepth, if_pos rfl, if_neg Bool.false_ne_true]
      exact ((if_neg slash).trans (if_neg escaped.1)).trans (scan_escaped (d :: body) escaped.2 depth rest)

/-- The scan over the text of a value, from a depth within the limit: it stops if the value is too deep, and
comes out at the same depth if not. -/
def Scans (text : Bytes) (nesting : ℕ) : Prop :=
  ∀ (depth : ℤ) (rest : Bytes), depth ≤ 512 → exceedsMaxDepth depth false false (text ++ rest) =
    if 512 < depth + nesting then true else exceedsMaxDepth depth false false rest

theorem Scans.plain {text : Bytes} (plain : Plain text) : Scans text 0 := by
  intro depth rest within
  rw [if_neg (by omega), scan_plain plain]

theorem Scans.append {first second : Bytes} {low high : ℕ} (one : Scans first low) (two : Scans second high) :
    Scans (first ++ second) (max low high) := by
  intro depth rest within
  rw [List.append_assoc, one depth _ within, two depth rest within]
  by_cases deep : 512 < depth + low
  · rw [if_pos deep, if_pos (by omega)]
  · rw [if_neg deep]
    by_cases deeper : 512 < depth + high
    · rw [if_pos deeper, if_pos (by omega)]
    · rw [if_neg deeper, if_neg (by omega)]

/-- A comma, between values. -/
theorem plain_comma : Plain [comma] := by
  rw [Plain]
  decide

theorem plain_colon : Plain [colon] := by
  rw [Plain]
  decide

theorem Scans.joined {text : Bytes} {texts : List Bytes} {low high : ℕ} (one : Scans text low)
    (rest : Scans (Delimited.join comma texts) high) : Scans (Delimited.join comma (text :: texts)) (max low high) := by
  cases texts with
  | nil =>
    have alone := one.append rest
    rwa [Delimited.join, List.append_nil] at alone
  | cons next texts =>
    have both := one.append ((Scans.plain plain_comma).append rest)
    rwa [Nat.zero_max, List.singleton_append] at both

theorem Scans.enclosed {text : Bytes} {nesting : ℕ} {first last : UInt8} (scans : Scans text nesting)
    (isOpen : first = openBracket ∨ first = openBrace) (isClose : last = closeBracket ∨ last = closeBrace) :
    Scans (first :: (text ++ [last])) (nesting + 1) := by
  intro depth rest within
  rw [List.cons_append, List.append_assoc, List.singleton_append]
  by_cases full : 512 ≤ depth
  · rw [scan_tooDeep isOpen full, if_pos (by omega)]
  · rw [scan_open isOpen (by omega), scans (depth + 1) _ (by omega), scan_close isClose, add_sub_cancel_right]
    push_cast
    rw [add_assoc, add_comm (1 : ℤ)]

theorem Scans.string {text body : Bytes} (spelled : text = quote :: (body ++ [quote])) (escaped : Escaped body) :
    Scans text 0 := by
  intro depth rest within
  rw [spelled, List.cons_append, List.append_assoc, List.singleton_append, scan_quote, scan_escaped body escaped,
    if_neg (by omega)]

variable {backend : Backend}

mutual

theorem scans_dump (lawful : backend.Lawful) : (value : Value) → Scans (backend.dump value) value.nesting
  | .null => .plain lawful.dump_null
  | .bool value => .plain (lawful.dump_bool value)
  | .number value => .plain (lawful.dump_number value)
  | .string text => by
    obtain ⟨body, spelled, escaped⟩ := lawful.dump_string text
    exact .string spelled escaped
  | .array items => by
    rw [lawful.dump_array, JsonValue.nesting]
    exact (scans_dumpAll lawful items).enclosed (.inl rfl) (.inl rfl)
  | .object members => by
    rw [lawful.dump_object, JsonValue.nesting]
    exact (scans_dumpMembers lawful members).enclosed (.inr rfl) (.inr rfl)

theorem scans_dumpAll (lawful : backend.Lawful) : (items : List Value) →
    Scans (Delimited.join comma (items.map backend.dump)) (JsonValue.nestingAll items)
  | [] => by
    rw [JsonValue.nestingAll]
    exact .plain (fun c member => absurd member List.not_mem_nil)
  | item :: items => by
    rw [JsonValue.nestingAll]
    exact (scans_dump lawful item).joined (scans_dumpAll lawful items)

theorem scans_dumpMembers (lawful : backend.Lawful) : (members : List (Bytes × Value)) →
    Scans (Delimited.join comma (members.map fun member =>
      backend.dump (.string member.1) ++ colon :: backend.dump member.2)) (JsonValue.nestingMembers members)
  | [] => by
    rw [JsonValue.nestingMembers]
    exact .plain (fun c member => absurd member List.not_mem_nil)
  | (key, value) :: members => by
    obtain ⟨body, spelled, escaped⟩ := lawful.dump_string key
    have member := (Scans.string spelled escaped).append ((Scans.plain plain_colon).append (scans_dump lawful value))
    rw [Nat.zero_max, Nat.zero_max, List.singleton_append] at member
    rw [JsonValue.nestingMembers]
    exact member.joined (scans_dumpMembers lawful members)

end

end Scan

/-- The encoding of a document is too deep for the decoder if the document is. -/
theorem exceedsMaxDepth_encode {backend : Backend} (lawful : backend.Lawful) (document : Document) :
    exceedsMaxDepth 0 false false (encode backend document) = decide (512 < (toBackend document).nesting) := by
  have scanned := scans_dump lawful (toBackend document) 0 [] (by decide)
  rw [List.append_nil, Int.zero_add] at scanned
  rw [encode, scanned]
  have bound : ((512 : ℤ) < (toBackend document).nesting) ↔ 512 < (toBackend document).nesting := by
    exact_mod_cast Iff.rfl
  by_cases deep : 512 < (toBackend document).nesting
  · rw [if_pos (bound.mpr deep), decide_eq_true deep]
  · rw [if_neg (fun deeper => deep (bound.mp deeper)), decide_eq_false deep]
    rfl

/-! ## There and back -/

theorem keys_toBackendMembers (members : DocumentMap) : (toBackendMembers members).map Prod.fst = members.map Prod.fst := by
  induction members with
  | nil => rw [toBackendMembers]; rfl
  | cons member members ih => rw [toBackendMembers, List.map_cons, ih, List.map_cons]

theorem toBackend_double {value : Binary64} (finite : value.value? ≠ none) :
    toBackend (.double value) = .number (.float value) := by
  have code : value.code < 2047 * 2 ^ 52 := by
    by_contra infinite
    exact finite (by rw [Binary64.value?, if_pos (not_lt.mp infinite)])
  have notNaN : value.isNaN = false := decide_eq_false (by omega)
  have notInfinite : value.isInfinite = false := decide_eq_false (by omega)
  rw [toBackend, notNaN, notInfinite, if_neg Bool.false_ne_true, if_neg Bool.false_ne_true]

theorem fromBackend_integer (value : Int64) : fromBackend (.number (Number.integer value).reparsed) = .ok (.int value) := by
  rw [Number.reparsed]
  split_ifs with negative
  · rw [fromBackend]
  · have small : ¬ (0x7FFFFFFFFFFFFFFF : UInt64) < value.toUInt64 := by
      have bound := value.toInt_lt
      have nonneg : 0 ≤ value := Int64.not_lt.mp negative
      rw [UInt64.lt_iff_toNat_lt, Int64.toNat_toUInt64_of_le nonneg, Int64.toNatClampNeg]
      have top : (0x7FFFFFFFFFFFFFFF : UInt64).toNat = 2 ^ 63 - 1 := by decide
      omega
    rw [fromBackend, if_neg small, Int64.toInt64_toUInt64]

mutual

theorem valid_toBackend : (document : Document) → document.Stable → Valid (toBackend document)
  | .null, _ | .bool _, _ | .int _, _ => by rw [toBackend, Valid] <;> simp
  | .double value, stable => by
    rw [Document.Stable] at stable
    rw [toBackend_double stable, Valid]
    exact stable
  | .string value, stable => by
    rw [Document.Stable] at stable
    rwa [toBackend, Valid]
  | .blob _, stable | .timestamp _, stable => by
    rw [Document.Stable] at stable
    exact stable.elim
  | .list items, stable => by
    rw [Document.Stable] at stable
    rw [toBackend, Valid]
    exact allValid_toBackend items stable
  | .map members, stable => by
    rw [Document.Stable] at stable
    rw [toBackend, Valid, keys_toBackendMembers]
    exact ⟨stable.1, membersValid_toBackend members stable.2⟩

theorem allValid_toBackend : (items : List Document) → Document.allStable items → allValid (toBackendAll items)
  | [], _ => by
    rw [toBackendAll, allValid]
    trivial
  | item :: items, stable => by
    rw [Document.allStable] at stable
    rw [toBackendAll, allValid]
    exact ⟨valid_toBackend item stable.1, allValid_toBackend items stable.2⟩

theorem membersValid_toBackend :
    (members : DocumentMap) → Document.membersStable members → membersValid (toBackendMembers members)
  | [], _ => by
    rw [toBackendMembers, membersValid]
    trivial
  | (key, value) :: members, stable => by
    rw [Document.membersStable] at stable
    rw [toBackendMembers, membersValid]
    exact ⟨stable.1, valid_toBackend value stable.2.1, membersValid_toBackend members stable.2.2⟩

end

mutual

theorem fromBackend_reparsed : (document : Document) → document.Stable →
    fromBackend (reparsed (toBackend document)) = .ok document
  | .null, _ | .bool _, _ | .string _, _ => by rw [toBackend, reparsed, fromBackend] <;> simp
  | .int value, _ => by
    rw [toBackend, reparsed]
    exact fromBackend_integer value
  | .double value, stable => by
    rw [Document.Stable] at stable
    rw [toBackend_double stable, reparsed, Number.reparsed, fromBackend]
    exact fun _ same => nomatch same
  | .blob _, stable | .timestamp _, stable => by
    rw [Document.Stable] at stable
    exact stable.elim
  | .list items, stable => by
    rw [Document.Stable] at stable
    rw [toBackend, reparsed, fromBackend, fromBackendAll_reparsed items stable]
    rfl
  | .map members, stable => by
    rw [Document.Stable] at stable
    rw [toBackend, reparsed, fromBackend, fromBackendMembers_reparsed members stable.2 [] stable.1]
    rfl

theorem fromBackendAll_reparsed : (items : List Document) → Document.allStable items →
    fromBackendAll (allReparsed (toBackendAll items)) = .ok items
  | [], _ => by rw [toBackendAll, allReparsed, fromBackendAll]
  | item :: items, stable => by
    rw [Document.allStable] at stable
    rw [toBackendAll, allReparsed, fromBackendAll, fromBackend_reparsed item stable.1,
      fromBackendAll_reparsed items stable.2]
    rfl

/-- The members are added in their order. -/
theorem fromBackendMembers_reparsed : (members : DocumentMap) → Document.membersStable members → ∀ map : DocumentMap,
    ((map ++ members).map Prod.fst).Pairwise (· < ·) →
      fromBackendMembers (membersReparsed (toBackendMembers members)) map = .ok (map ++ members)
  | [], _, map, _ => by rw [toBackendMembers, membersReparsed, fromBackendMembers, List.append_nil]
  | (key, value) :: members, stable, map, sorted => by
    rw [Document.membersStable] at stable
    have last : ∀ other ∈ map.map Prod.fst, other < key := by
      rw [List.map_append, List.pairwise_append] at sorted
      exact fun other member => sorted.2.2 other member key List.mem_cons_self
    rw [List.append_cons] at sorted ⊢
    rw [toBackendMembers, membersReparsed, fromBackendMembers, fromBackend_reparsed value stable.2.1]
    change fromBackendMembers _ (map.insertOrAssign key value) = _
    rw [DocumentMap.insertOrAssign_last last]
    exact fromBackendMembers_reparsed members stable.2.2 _ sorted

end

theorem membersStable_insertOrAssign {key : Bytes} {value : Document} {map : DocumentMap} (valid : Utf8.Valid key)
    (stable : value.Stable) (members : Document.membersStable map) :
    Document.membersStable (map.insertOrAssign key value) := by
  induction map with
  | nil =>
    rw [DocumentMap.insertOrAssign, Document.membersStable]
    exact ⟨valid, stable, members⟩
  | cons member map ih =>
    obtain ⟨other, old⟩ := member
    have parts := members
    rw [Document.membersStable] at parts
    rw [DocumentMap.insertOrAssign]
    split_ifs
    · rw [Document.membersStable]
      exact ⟨valid, stable, members⟩
    · rw [Document.membersStable]
      exact ⟨parts.1, parts.2.1, ih parts.2.2⟩
    · rw [Document.membersStable]
      exact ⟨valid, stable, parts.2.2⟩

mutual

/-- What is decoded is stable. -/
theorem stable_of_fromBackend : (value : Value) → Valid value → ∀ document : Document,
    fromBackend value = .ok document → document.Stable
  | .null, _, document, converted | .bool _, _, document, converted => by
    rw [fromBackend] at converted
    cases converted
    rw [Document.Stable] <;> simp
  | .number (.integer value), _, document, converted => by
    rw [fromBackend] at converted
    cases converted
    rw [Document.Stable] <;> simp
  | .number (.unsigned value), _, document, converted => by
    rw [fromBackend] at converted
    split_ifs at converted
    cases converted
    rw [Document.Stable] <;> simp
  | .number (.float value), valid, document, converted => by
    rw [Valid] at valid
    rw [fromBackend] at converted
    cases converted
    rwa [Document.Stable]
  | .string value, valid, document, converted => by
    rw [Valid] at valid
    rw [fromBackend] at converted
    cases converted
    rwa [Document.Stable]
  | .array items, valid, document, converted => by
    rw [Valid] at valid
    rw [fromBackend] at converted
    cases list : fromBackendAll items with
    | error error =>
      rw [list] at converted
      cases converted
    | ok documents =>
      rw [list] at converted
      cases converted
      rw [Document.Stable]
      exact allStable_of_fromBackend items valid documents list
  | .object members, valid, document, converted => by
    rw [Valid] at valid
    rw [fromBackend] at converted
    cases mapped : fromBackendMembers members [] with
    | error error =>
      rw [mapped] at converted
      cases converted
    | ok map =>
      rw [mapped] at converted
      cases converted
      rw [Document.Stable]
      exact membersStable_of_fromBackend members valid.2 [] map List.Pairwise.nil
        (by rw [Document.membersStable]; trivial) mapped

theorem allStable_of_fromBackend : (items : List Value) → allValid items → ∀ documents : List Document,
    fromBackendAll items = .ok documents → Document.allStable documents
  | [], _, documents, converted => by
    rw [fromBackendAll] at converted
    cases converted
    rw [Document.allStable]
    trivial
  | item :: items, valid, documents, converted => by
    rw [allValid] at valid
    rw [fromBackendAll] at converted
    obtain ⟨first, one, converted⟩ := Outcome.bind_eq_ok.mp converted
    obtain ⟨rest, more, converted⟩ := Outcome.bind_eq_ok.mp converted
    cases converted
    rw [Document.allStable]
    exact ⟨stable_of_fromBackend item valid.1 first one, allStable_of_fromBackend items valid.2 rest more⟩

theorem membersStable_of_fromBackend : (members : List (Bytes × Value)) → membersValid members → ∀ map result : DocumentMap,
    (map.map Prod.fst).Pairwise (· < ·) → Document.membersStable map → fromBackendMembers members map = .ok result →
      (result.map Prod.fst).Pairwise (· < ·) ∧ Document.membersStable result
  | [], _, map, result, sorted, stable, converted => by
    rw [fromBackendMembers] at converted
    cases converted
    exact ⟨sorted, stable⟩
  | (key, value) :: members, valid, map, result, sorted, stable, converted => by
    rw [membersValid] at valid
    rw [fromBackendMembers] at converted
    obtain ⟨document, one, converted⟩ := Outcome.bind_eq_ok.mp converted
    exact membersStable_of_fromBackend members valid.2.2 _ result (DocumentMap.sorted_insertOrAssign sorted)
      (membersStable_insertOrAssign valid.1 (stable_of_fromBackend value valid.2.1 document one) stable) converted

end

section Codec

variable {backend : Backend}

theorem stable_of_decode (lawful : backend.Lawful) {text : Bytes} {document : Document}
    (decoded : decode backend text = .ok document) : document.Stable := by
  rw [decode] at decoded
  split_ifs at decoded
  cases parsed : backend.parse text with
  | none =>
    rw [parsed] at decoded
    cases decoded
  | some value =>
    rw [parsed] at decoded
    exact stable_of_fromBackend value (lawful.valid_of_parse text value parsed) document decoded

theorem shallow_of_decode_encode (lawful : backend.Lawful) {document result : Document}
    (decoded : decode backend (encode backend document) = .ok result) : (toBackend document).nesting ≤ 512 := by
  by_contra deep
  rw [decode, exceedsMaxDepth_encode lawful, decide_eq_true (not_le.mp deep), if_pos rfl] at decoded
  cases decoded

/-- A stable document that is not too deep is decoded from its encoding. -/
theorem decode_encode_of_stable (lawful : backend.Lawful) {document : Document} (stable : document.Stable)
    (shallow : (toBackend document).nesting ≤ 512) : decode backend (encode backend document) = .ok document := by
  rw [decode, exceedsMaxDepth_encode lawful, decide_eq_false (not_lt.mpr shallow), if_neg Bool.false_ne_true, encode,
    lawful.parse_dump _ (valid_toBackend document stable)]
  exact fromBackend_reparsed document stable

end Codec

end Json

end OpalCpp

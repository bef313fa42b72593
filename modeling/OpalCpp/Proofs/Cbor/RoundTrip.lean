import OpalCpp.Proofs.Cbor.Reading
import OpalCpp.Proofs.Core.Documents
import OpalCpp.Proofs.Core.Timestamp

/-! # CBOR round trips

Decoding the encoding of a document gives the document back, as long as it does not nest deeper than
the decoder goes and its timestamps have a year of four digits; the format of a timestamp is not on
the wire.
-/

namespace OpalCpp

namespace Document

mutual

/-- The levels of a document's encoding. -/
def nesting : Document → ℕ
  | .timestamp _ => 2
  | .list items => nestingAll items + 1
  | .map members => nestingMembers members + 1
  | _ => 1

def nestingAll : List Document → ℕ
  | [] => 0
  | item :: items => max item.nesting (nestingAll items)

/-- A key is a member too. -/
def nestingMembers : List (Bytes × Document) → ℕ
  | [] => 0
  | (_, value) :: members => max 1 (max value.nesting (nestingMembers members))

end

mutual

/-- Every timestamp in the document has a year between 0000 and 9999. -/
def Representable : Document → Prop
  | .timestamp ts => ts.value.Representable
  | .list items => allRepresentable items
  | .map members => membersRepresentable members
  | _ => True

def allRepresentable : List Document → Prop
  | [] => True
  | item :: items => item.Representable ∧ allRepresentable items

def membersRepresentable : List (Bytes × Document) → Prop
  | [] => True
  | (_, value) :: members => value.Representable ∧ membersRepresentable members

end

mutual

/-- The document with the format of every timestamp set to epoch seconds. -/
def normalize : Document → Document
  | .timestamp ts => .timestamp ⟨ts.value, .epochSeconds⟩
  | .list items => .list (normalizeAll items)
  | .map members => .map (normalizeMembers members)
  | document => document

def normalizeAll : List Document → List Document
  | [] => []
  | item :: items => item.normalize :: normalizeAll items

def normalizeMembers : List (Bytes × Document) → List (Bytes × Document)
  | [] => []
  | (key, value) :: members => (key, value.normalize) :: normalizeMembers members

end

theorem length_normalizeAll (items : List Document) : (normalizeAll items).length = items.length := by
  induction items with
  | nil => rw [normalizeAll]
  | cons item items ih => rw [normalizeAll, List.length_cons, ih, List.length_cons]

theorem keys_normalizeMembers (members : List (Bytes × Document)) :
    (normalizeMembers members).map Prod.fst = members.map Prod.fst := by
  induction members with
  | nil => rw [normalizeMembers]
  | cons member members ih =>
    obtain ⟨key, value⟩ := member
    rw [normalizeMembers, List.map_cons, List.map_cons, ih]

end Document

namespace Cbor

variable {data rest : Bytes}

/-! ## Loops -/

/-- The elements decoded one after the other from a position to another. -/
def Elements (decode : ℕ → Outcome (Document × ℕ)) : List Document → ℕ → ℕ → Prop
  | [], pos, last => pos = last
  | item :: items, pos, last => ∃ next, decode pos = .ok (item, next) ∧ Elements decode items next last

def Members (decode : ℕ → Outcome (Document × ℕ)) : DocumentMap → ℕ → ℕ → Prop
  | [], pos, last => pos = last
  | (key, value) :: members, pos, last =>
    ∃ middle next, decode pos = .ok (.string key, middle) ∧ decode middle = .ok (value, next) ∧
      Members decode members next last

theorem decodeItems_of_elements {decode : ℕ → Outcome (Document × ℕ)} {length : UInt64} (items : List Document)
    {fuel pos last : ℕ} {i : UInt64} {list : List Document} (elements : Elements decode items pos last)
    (count : length.toNat = i.toNat + items.length) (enough : items.length < fuel) :
    decodeItems data decode false length fuel i list pos = .ok (list ++ items, last) := by
  induction items generalizing fuel pos i list with
  | nil =>
    obtain ⟨fuel, rfl⟩ := Nat.exists_eq_add_of_le' (Nat.zero_lt_of_lt enough)
    obtain rfl : pos = last := elements
    have done := counter_done count
    rw [decodeItems, if_neg (by simpa using done), List.append_nil]
  | cons item items ih =>
    obtain ⟨fuel, rfl⟩ := Nat.exists_eq_add_of_le' (Nat.zero_lt_of_lt enough)
    obtain ⟨next, decoded, elements⟩ := elements
    rw [List.length_cons] at count enough
    obtain ⟨going, count⟩ := counter_next count
    rw [decodeItems, if_pos (by simpa using going), if_neg (by simp), decoded]
    change decodeItems data decode false length fuel (i + 1) (list ++ [item]) next = _
    rw [ih elements count (by omega), List.append_assoc]
    rfl

theorem decodeMembers_of_members {decode : ℕ → Outcome (Document × ℕ)} {length : UInt64} (members : DocumentMap)
    {fuel pos last : ℕ} {i : UInt64} {map : DocumentMap} (decodes : Members decode members pos last)
    (sorted : ((map ++ members).map Prod.fst).Pairwise (· < ·))
    (count : length.toNat = i.toNat + members.length) (enough : members.length < fuel) :
    decodeMembers data decode false length fuel i map pos = .ok (map ++ members, last) := by
  induction members generalizing fuel pos i map with
  | nil =>
    obtain ⟨fuel, rfl⟩ := Nat.exists_eq_add_of_le' (Nat.zero_lt_of_lt enough)
    obtain rfl : pos = last := decodes
    have done := counter_done count
    rw [decodeMembers, if_neg (by simpa using done), List.append_nil]
  | cons member members ih =>
    obtain ⟨fuel, rfl⟩ := Nat.exists_eq_add_of_le' (Nat.zero_lt_of_lt enough)
    obtain ⟨key, value⟩ := member
    obtain ⟨middle, next, named, decoded, decodes⟩ := decodes
    rw [List.length_cons] at count enough
    obtain ⟨going, count⟩ := counter_next count
    have after : ∀ other ∈ map.map Prod.fst, other < key := by
      intro other member
      rw [List.map_append, List.pairwise_append] at sorted
      exact sorted.2.2 other member key List.mem_cons_self
    rw [decodeMembers, if_pos (by simpa using going), if_neg (by simp), named]
    change (decode middle >>= _) = _
    rw [decoded]
    change decodeMembers data decode false length fuel (i + 1) (map.insertOrAssign key value) next = _
    rw [DocumentMap.insertOrAssign_last after, ih decodes (by simpa using sorted) count (by omega),
      List.append_assoc]
    rfl

/-! ## Lengths -/

theorem length_writeTypeAndValue_pos (major : Major) (value : UInt64) :
    0 < (writeTypeAndValue major value).length := by
  simp only [writeTypeAndValue]
  split_ifs <;> simp

theorem length_writeInt_pos (value : Int64) : 0 < (writeInt value).length := by
  rw [writeInt]
  split_ifs
  · exact length_writeTypeAndValue_pos _ _
  · exact length_writeTypeAndValue_pos _ _

/-- Every value takes a byte. -/
theorem length_encodeValue_pos (document : Document) : 0 < (encodeValue document).length := by
  cases document with
  | null => simp [encodeValue]
  | bool value => simp [encodeValue]
  | int value =>
    rw [encodeValue]
    exact length_writeInt_pos value
  | double value => simp [encodeValue, writeDouble]
  | _ =>
    simp only [encodeValue, List.length_append]
    exact Nat.add_pos_left (length_writeTypeAndValue_pos _ _) _

theorem length_le_encodeItems (items : List Document) : items.length ≤ (encodeItems items).length := by
  induction items with
  | nil => simp
  | cons item items ih =>
    have := length_encodeValue_pos item
    rw [encodeItems, List.length_cons, List.length_append]
    omega

theorem length_le_encodeMembers (members : DocumentMap) : members.length ≤ (encodeMembers members).length := by
  induction members with
  | nil => simp
  | cons member members ih =>
    obtain ⟨key, value⟩ := member
    have := length_encodeValue_pos value
    simp only [encodeMembers, List.length_cons, List.length_append]
    omega

/-! ## Items with parts -/

theorem decodeValue_list {items values : List Document} {depth pos : ℕ} (fits : items.length < 2 ^ 63)
    (same : values.length = items.length)
    (remains : data.drop pos =
      writeTypeAndValue .array (UInt64.ofNat items.length) ++ (encodeItems items ++ rest))
    (elements : Elements (decodeValue data depth) values
      (pos + (writeTypeAndValue .array (UInt64.ofNat items.length)).length)
      (pos + (writeTypeAndValue .array (UInt64.ofNat items.length) ++ encodeItems items).length)) :
    decodeValue data (depth + 1) pos = .ok (.list values,
      pos + (writeTypeAndValue .array (UInt64.ofNat items.length) ++ encodeItems items).length) := by
  obtain ⟨initial, taken, typed, argument⟩ := heads_of_drop remains
  obtain ⟨left, _, _⟩ := of_drop_eq_append (drop_of_heads remains)
  have few := length_le_encodeItems items
  rw [decodeValue, taken]
  dsimp only
  rw [typed]
  dsimp only
  rw [argument]
  change (decodeItems data (decodeValue data depth) false _ _ 0 [] _ >>= _) = _
  rw [decodeItems_of_elements values elements (by rw [toNat_length fits, same]; exact (Nat.zero_add _).symm)
    (by omega)]
  rfl

theorem decodeValue_map {members values : DocumentMap} {depth pos : ℕ} (fits : members.length < 2 ^ 63)
    (same : values.length = members.length) (sorted : (values.map Prod.fst).Pairwise (· < ·))
    (remains : data.drop pos =
      writeTypeAndValue .map (UInt64.ofNat members.length) ++ (encodeMembers members ++ rest))
    (decodes : Members (decodeValue data depth) values
      (pos + (writeTypeAndValue .map (UInt64.ofNat members.length)).length)
      (pos + (writeTypeAndValue .map (UInt64.ofNat members.length) ++ encodeMembers members).length)) :
    decodeValue data (depth + 1) pos = .ok (.map values,
      pos + (writeTypeAndValue .map (UInt64.ofNat members.length) ++ encodeMembers members).length) := by
  obtain ⟨initial, taken, typed, argument⟩ := heads_of_drop remains
  obtain ⟨left, _, _⟩ := of_drop_eq_append (drop_of_heads remains)
  have few := length_le_encodeMembers members
  rw [decodeValue, taken]
  dsimp only
  rw [typed]
  dsimp only
  rw [argument]
  change (decodeMembers data (decodeValue data depth) false _ _ 0 [] _ >>= _) = _
  rw [decodeMembers_of_members values decodes (by simpa using sorted)
    (by rw [toNat_length fits, same]; exact (Nat.zero_add _).symm) (by omega)]
  rfl

/-! ## Timestamps -/

/-- Division by a thousand, as the source's types do it. -/
theorem whole_seconds {ms : Int64} (whole : ms % 1000 = 0) : ms.toInt = (ms / 1000).toInt * 1000 := by
  have remainder := congrArg Int64.toInt whole
  rw [Int64.toInt_mod] at remainder
  rw [Int64.toInt_div_of_ne_right _ _ (by decide)]
  exact (Int.tdiv_mul_cancel (Int.dvd_of_tmod_eq_zero remainder)).symm

theorem not_dvd_of_fractional {ms : Int64} (fractional : ¬ ms % 1000 = 0) : ¬ (1000 : ℤ) ∣ ms.toInt := by
  intro whole
  apply fractional
  apply Int64.toInt.inj
  rw [Int64.toInt_mod]
  exact Int.tmod_eq_zero_of_dvd whole

theorem decodeValue_tagged {value : UInt64} {inner result : Document} {depth pos last : ℕ} {more : Bytes}
    (remains : data.drop pos = writeTypeAndValue .tag value ++ more)
    (decoded : decodeValue data depth (pos + (writeTypeAndValue .tag value).length) = .ok (inner, last))
    (made : decodeTagged value inner = .ok result) :
    decodeValue data (depth + 1) pos = .ok (result, last) := by
  obtain ⟨initial, taken, typed, argument⟩ := heads_of_drop remains
  rw [decodeValue, taken]
  dsimp only
  rw [typed]
  dsimp only
  rw [argument]
  change (decodeValue data depth _ >>= _) = _
  rw [decoded]
  change (decodeTagged value inner >>= _) = _
  rw [made]
  rfl

theorem decodeValue_timestamp {ts : TimestampValue} (window : ts.value.Representable) {depth pos : ℕ}
    (remains : data.drop pos = encodeValue (.timestamp ts) ++ rest) :
    decodeValue data (depth + 2) pos =
      .ok (.timestamp ⟨ts.value, .epochSeconds⟩, pos + (encodeValue (.timestamp ts)).length) := by
  obtain ⟨⟨ms⟩, format⟩ := ts
  rw [encodeValue] at remains ⊢
  rw [List.append_assoc] at remains
  have following := drop_of_heads remains
  rw [List.length_append, ← Nat.add_assoc]
  by_cases whole : ms % 1000 = 0
  · rw [if_pos whole] at remains following ⊢
    apply decodeValue_tagged remains (decodeValue_writeInt following)
    have converted : Timestamp.fromEpochSecondsChecked (Timestamp.toDouble (ms / 1000)) = .ok ⟨ms⟩ := by
      apply Timestamp.fromEpochSecondsChecked_whole window (whole_seconds whole)
      apply Binary64.nearest_intCast
      have ⟨low, high⟩ := window
      simp only [Timestamp.kMinRepresentableMs, Timestamp.kMaxRepresentableMs, whole_seconds whole] at low high
      exact abs_lt.mpr ⟨by omega, by omega⟩
    rw [decodeTagged, if_pos rfl]
    dsimp only
    rw [converted]
    rfl
  · rw [if_neg whole] at remains following ⊢
    apply decodeValue_tagged remains (decodeValue_writeDouble following)
    have converted := Timestamp.fromEpochSecondsChecked_epochSeconds window (not_dvd_of_fractional whole)
    rw [decodeTagged, if_pos rfl]
    dsimp only
    rw [converted]
    rfl

/-! ## Documents -/

mutual

/-- A value is decoded from its encoding, whatever follows it. -/
theorem decodeValue_encodeValue : (document : Document) → document.WellFormed → document.Representable →
    ∀ (depth pos : ℕ) (data rest : Bytes), document.nesting ≤ depth →
      data.drop pos = encodeValue document ++ rest →
        decodeValue data depth pos = .ok (document.normalize, pos + (encodeValue document).length)
  | .null, _, _, depth, pos, data, rest, shallow, remains => by
    simp only [Document.nesting] at shallow
    obtain ⟨depth, rfl⟩ := Nat.exists_eq_add_of_le' shallow
    have known : (kSimpleNull, Document.null) ∈
        [(kSimpleFalse, .bool false), (kSimpleTrue, .bool true), (kSimpleNull, .null)] := by simp
    rw [encodeValue] at remains
    simp only [Document.normalize, encodeValue]
    exact decodeValue_simple known remains
  | .bool value, _, _, depth, pos, data, rest, shallow, remains => by
    simp only [Document.nesting] at shallow
    obtain ⟨depth, rfl⟩ := Nat.exists_eq_add_of_le' shallow
    have known : (if value then kSimpleTrue else kSimpleFalse, Document.bool value) ∈
        [(kSimpleFalse, .bool false), (kSimpleTrue, .bool true), (kSimpleNull, .null)] := by
      cases value <;> simp
    rw [encodeValue] at remains
    simp only [Document.normalize, encodeValue]
    exact decodeValue_simple known remains
  | .int value, _, _, depth, pos, data, rest, shallow, remains => by
    simp only [Document.nesting] at shallow
    obtain ⟨depth, rfl⟩ := Nat.exists_eq_add_of_le' shallow
    rw [encodeValue] at remains
    simp only [Document.normalize, encodeValue]
    exact decodeValue_writeInt remains
  | .double value, _, _, depth, pos, data, rest, shallow, remains => by
    simp only [Document.nesting] at shallow
    obtain ⟨depth, rfl⟩ := Nat.exists_eq_add_of_le' shallow
    rw [encodeValue] at remains
    simp only [Document.normalize, encodeValue]
    exact decodeValue_writeDouble remains
  | .string value, wellFormed, _, depth, pos, data, rest, shallow, remains => by
    simp only [Document.nesting] at shallow
    simp only [Document.WellFormed] at wellFormed
    obtain ⟨depth, rfl⟩ := Nat.exists_eq_add_of_le' shallow
    rw [encodeValue] at remains
    simp only [Document.normalize, encodeValue]
    exact decodeValue_string (.inl ⟨rfl, rfl⟩) wellFormed remains
  | .blob value, wellFormed, _, depth, pos, data, rest, shallow, remains => by
    simp only [Document.nesting] at shallow
    simp only [Document.WellFormed] at wellFormed
    obtain ⟨depth, rfl⟩ := Nat.exists_eq_add_of_le' shallow
    rw [encodeValue] at remains
    simp only [Document.normalize, encodeValue]
    exact decodeValue_string (.inr ⟨rfl, rfl⟩) wellFormed remains
  | .timestamp ts, _, window, depth, pos, data, rest, shallow, remains => by
    simp only [Document.nesting] at shallow
    simp only [Document.Representable] at window
    obtain ⟨depth, rfl⟩ := Nat.exists_eq_add_of_le' shallow
    simp only [Document.normalize]
    exact decodeValue_timestamp window remains
  | .list items, wellFormed, window, depth, pos, data, rest, shallow, remains => by
    simp only [Document.nesting] at shallow
    simp only [Document.WellFormed] at wellFormed
    simp only [Document.Representable] at window
    obtain ⟨depth, rfl⟩ := Nat.exists_eq_add_of_le' (Nat.le_of_add_left_le shallow)
    rw [encodeValue, List.append_assoc] at remains
    have elements := elements_encodeItems items wellFormed.2 window depth _ data rest
      (Nat.le_of_succ_le_succ shallow) (drop_of_heads remains)
    rw [Nat.add_assoc, ← List.length_append] at elements
    simp only [encodeValue, Document.normalize]
    exact decodeValue_list wellFormed.1 (Document.length_normalizeAll items) remains elements
  | .map members, wellFormed, window, depth, pos, data, rest, shallow, remains => by
    simp only [Document.nesting] at shallow
    simp only [Document.WellFormed] at wellFormed
    simp only [Document.Representable] at window
    obtain ⟨fits, sorted, wellFormed⟩ := wellFormed
    obtain ⟨depth, rfl⟩ := Nat.exists_eq_add_of_le' (Nat.le_of_add_left_le shallow)
    rw [encodeValue, List.append_assoc] at remains
    have decodes := members_encodeMembers members wellFormed window depth _ data rest
      (Nat.le_of_succ_le_succ shallow) (drop_of_heads remains)
    rw [Nat.add_assoc, ← List.length_append] at decodes
    have keys := Document.keys_normalizeMembers members
    have same : (Document.normalizeMembers members).length = members.length := by
      simpa using congrArg List.length keys
    simp only [encodeValue, Document.normalize]
    exact decodeValue_map fits same (by rwa [keys]) remains decodes

theorem elements_encodeItems : (items : List Document) → Document.allWellFormed items →
    Document.allRepresentable items → ∀ (depth pos : ℕ) (data rest : Bytes),
      Document.nestingAll items ≤ depth → data.drop pos = encodeItems items ++ rest →
        Elements (decodeValue data depth) (Document.normalizeAll items) pos (pos + (encodeItems items).length)
  | [], _, _, depth, pos, data, rest, _, _ => by
    rw [Document.normalizeAll, encodeItems]
    rfl
  | item :: items, wellFormed, window, depth, pos, data, rest, shallow, remains => by
    rw [Document.allWellFormed] at wellFormed
    rw [Document.allRepresentable] at window
    rw [Document.nestingAll, Nat.max_le] at shallow
    rw [encodeItems, List.append_assoc] at remains
    rw [encodeItems, Document.normalizeAll, List.length_append, ← Nat.add_assoc]
    refine ⟨_, decodeValue_encodeValue item wellFormed.1 window.1 depth pos data _ shallow.1 remains, ?_⟩
    exact elements_encodeItems items wellFormed.2 window.2 depth _ data rest shallow.2
      (of_drop_eq_append remains).2.2

theorem members_encodeMembers : (members : DocumentMap) → Document.membersWellFormed members →
    Document.membersRepresentable members → ∀ (depth pos : ℕ) (data rest : Bytes),
      Document.nestingMembers members ≤ depth → data.drop pos = encodeMembers members ++ rest →
        Members (decodeValue data depth) (Document.normalizeMembers members) pos
          (pos + (encodeMembers members).length)
  | [], _, _, depth, pos, data, rest, _, _ => by
    rw [Document.normalizeMembers, encodeMembers]
    rfl
  | (key, value) :: members, wellFormed, window, depth, pos, data, rest, shallow, remains => by
    rw [Document.membersWellFormed] at wellFormed
    rw [Document.membersRepresentable] at window
    rw [Document.nestingMembers, Nat.max_le, Nat.max_le] at shallow
    obtain ⟨short, wellFormed, others⟩ := wellFormed
    obtain ⟨named, value_, rest_⟩ := shallow
    obtain ⟨depth, rfl⟩ := Nat.exists_eq_add_of_le' named
    rw [encodeMembers, List.append_assoc, List.append_assoc] at remains
    have after := (of_drop_eq_append remains).2.2
    rw [encodeMembers, Document.normalizeMembers, List.length_append, List.length_append, ← Nat.add_assoc,
      ← Nat.add_assoc]
    refine ⟨_, _, decodeValue_string (.inl ⟨rfl, rfl⟩) short remains,
      decodeValue_encodeValue value wellFormed window.1 _ _ data _ value_ after, ?_⟩
    exact members_encodeMembers members others window.2 _ _ data rest rest_ (of_drop_eq_append after).2.2

end

/-- Decoding inverts encoding, up to the formats of timestamps. -/
theorem decode_encode {document : Document} (wellFormed : document.WellFormed) (window : document.Representable)
    (shallow : document.nesting ≤ kMaxDepth) : decode (encode document) = .ok document.normalize := by
  have decoded := decodeValue_encodeValue document wellFormed window kMaxDepth 0 (encode document) [] shallow
    (List.append_nil _).symm
  rw [decode, decoded, Nat.zero_add]
  change (if (encode document).length ≠ (encode document).length then _ else _) = _
  rw [if_neg (by simp)]
  rfl

/-- A map of the least integer and of a list of timestamps in seconds and in milliseconds. -/
theorem decode_encode_nested :
    decode (encode (.map [([0x61], .int Int64.minValue),
      ([0x62], .list [.timestamp ⟨⟨-1001⟩, .dateTime⟩, .timestamp ⟨⟨2000⟩, .httpDate⟩])])) =
    .ok (.map [([0x61], .int Int64.minValue),
      ([0x62], .list [.timestamp ⟨⟨-1001⟩, .epochSeconds⟩, .timestamp ⟨⟨2000⟩, .epochSeconds⟩])]) := by
  apply decode_encode
  · have sorted : ([0x61] : Bytes) < [0x62] := by decide
    simp [Document.WellFormed, Document.membersWellFormed, Document.allWellFormed, sorted]
  · simp only [Document.Representable, Document.membersRepresentable, Document.allRepresentable,
      Timestamp.Representable]
    decide
  · decide

end Cbor

end OpalCpp

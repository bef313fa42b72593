import OpalCpp.Proofs.Cbor.RoundTrip

/-! # What the CBOR decoder accepts

Whatever the decoder makes of its input is a document the round trip covers: no deeper than the
budget it was read with, inside the window of years, with keys in order and formats as decoded.
Every successful read comes to a later position of the input, which bounds the sizes.
-/

namespace OpalCpp

namespace Document

/-- A document the codec gives back as it is, in this many levels. -/
structure Canonical (depth : ℕ) (document : Document) : Prop where
  wellFormed : document.WellFormed
  representable : document.Representable
  normal : document.normalize = document
  shallow : document.nesting ≤ depth

/-- A document without parts, and not a timestamp either. -/
def IsScalar : Document → Prop
  | .timestamp _ | .list _ | .map _ => False
  | _ => True

theorem canonical_scalar {depth : ℕ} {document : Document} (some_ : 1 ≤ depth) (scalar : document.IsScalar)
    (wellFormed : document.WellFormed) : document.Canonical depth := by
  cases document with
  | timestamp | list | map => exact scalar.elim
  | _ =>
    constructor
    · exact wellFormed
    · simp only [Representable]
    · simp only [normalize]
    · simpa only [nesting] using some_

theorem Canonical.mono {depth more : ℕ} {document : Document} (canonical : document.Canonical depth)
    (le : depth ≤ more) : document.Canonical more :=
  { canonical with shallow := Nat.le_trans canonical.shallow le }

theorem canonical_timestamp {depth : ℕ} {ts : Timestamp} (two : 2 ≤ depth) (window : ts.Representable) :
    Canonical depth (.timestamp ⟨ts, .epochSeconds⟩) := by
  constructor
  · simp only [WellFormed]
  · simpa only [Representable] using window
  · simp only [normalize]
  · simpa only [nesting] using two

theorem Canonical.key {depth : ℕ} {text : Bytes} (canonical : Canonical depth (.string text)) :
    1 ≤ depth ∧ text.length < 2 ^ 63 := by
  obtain ⟨fits, _, _, shallow⟩ := canonical
  simp only [WellFormed, nesting] at fits shallow
  exact ⟨shallow, fits⟩

theorem canonical_list {depth : ℕ} {items : List Document} (fits : items.length < 2 ^ 63)
    (each : ∀ item ∈ items, Canonical depth item) : Canonical (depth + 1) (.list items) := by
  have all : allWellFormed items ∧ allRepresentable items ∧ normalizeAll items = items ∧
      nestingAll items ≤ depth := by
    clear fits
    induction items with
    | nil => simp [allWellFormed, allRepresentable, normalizeAll, nestingAll]
    | cons item items ih =>
      obtain ⟨wellFormed, window, normal, shallow⟩ := each item List.mem_cons_self
      obtain ⟨others, windows, normals, shallows⟩ := ih fun other member => each other (List.mem_cons_of_mem _ member)
      rw [allWellFormed, allRepresentable, normalizeAll, nestingAll, normal, normals]
      exact ⟨⟨wellFormed, others⟩, ⟨window, windows⟩, rfl, Nat.max_le.mpr ⟨shallow, shallows⟩⟩
  obtain ⟨wellFormed, windows, normal, shallow⟩ := all
  constructor
  · rw [WellFormed]
    exact ⟨fits, wellFormed⟩
  · rwa [Representable]
  · rw [normalize, normal]
  · rw [nesting]
    exact Nat.succ_le_succ shallow

theorem canonical_map {depth : ℕ} {members : DocumentMap} (fits : members.length < 2 ^ 63)
    (sorted : (members.map Prod.fst).Pairwise (· < ·))
    (each : ∀ member ∈ members, 1 ≤ depth ∧ member.1.length < 2 ^ 63 ∧ Canonical depth member.2) :
    Canonical (depth + 1) (.map members) := by
  have all : membersWellFormed members ∧ membersRepresentable members ∧ normalizeMembers members = members ∧
      nestingMembers members ≤ depth := by
    clear fits sorted
    induction members with
    | nil => simp [membersWellFormed, membersRepresentable, normalizeMembers, nestingMembers]
    | cons member members ih =>
      obtain ⟨key, value⟩ := member
      obtain ⟨some_, short, wellFormed, window, normal, shallow⟩ := each (key, value) List.mem_cons_self
      obtain ⟨others, windows, normals, shallows⟩ := ih fun other member => each other (List.mem_cons_of_mem _ member)
      rw [membersWellFormed, membersRepresentable, normalizeMembers, nestingMembers, normal, normals]
      exact ⟨⟨short, wellFormed, others⟩, ⟨window, windows⟩, rfl,
        Nat.max_le.mpr ⟨some_, Nat.max_le.mpr ⟨shallow, shallows⟩⟩⟩
  obtain ⟨wellFormed, windows, normal, shallow⟩ := all
  constructor
  · rw [WellFormed]
    exact ⟨fits, sorted, wellFormed⟩
  · rwa [Representable]
  · rw [normalize, normal]
  · rw [nesting]
    exact Nat.succ_le_succ shallow

end Document

namespace Cbor

variable {data : Bytes} {pos next : ℕ}

/-! ## Positions -/

theorem take_eq_some {byte : UInt8} (taken : take data pos = some (byte, next)) :
    next = pos + 1 ∧ next ≤ data.length := by
  obtain ⟨read, present, same⟩ := Option.map_eq_some_iff.mp taken
  obtain ⟨bound, _⟩ := List.getElem?_eq_some_iff.mp present
  cases same
  exact ⟨rfl, bound⟩

theorem takeBigEndian_eq_some {width : ℕ} {value : UInt64}
    (taken : takeBigEndian data width pos = some (value, next)) : next = pos + width ∧ next ≤ data.length := by
  rw [takeBigEndian] at taken
  split_ifs at taken with short
  cases taken
  exact ⟨rfl, Nat.not_lt.mp short⟩

/-- An argument is read from the input that is left. -/
theorem readArgument_eq_ok {info : UInt8} {value : UInt64} {indefinite : Bool} (inside : pos ≤ data.length)
    (read : readArgument data info pos = .ok ((value, indefinite), next)) : pos ≤ next ∧ next ≤ data.length := by
  rw [readArgument] at read
  split_ifs at read
  · cases read
    exact ⟨Nat.le_refl _, inside⟩
  · cases taken : takeBigEndian data (1 <<< (info.toNat - 24)) pos with
    | none =>
      rw [taken] at read
      cases read
    | some result =>
      obtain ⟨number, left⟩ := result
      rw [taken] at read
      cases read
      obtain ⟨rfl, within⟩ := takeBigEndian_eq_some taken
      exact ⟨Nat.le_add_right _ _, within⟩
  · cases read
    exact ⟨Nat.le_refl _, inside⟩
  · cases read

theorem length_substr_le (bytes : Bytes) (pos count : ℕ) : (bytes.substr pos count).length ≤ count :=
  List.length_take_le _ _

/-- The chunks of a string are parts of the input. -/
theorem decodeChunks_eq_ok {major : Major} {fuel : ℕ} {out text : Bytes} (inside : pos ≤ data.length)
    (read : decodeChunks data major fuel out pos = .ok (text, next)) :
    pos ≤ next ∧ next ≤ data.length ∧ text.length + pos ≤ out.length + next := by
  induction fuel generalizing out pos with
  | zero => cases read
  | succ fuel ih =>
    rw [decodeChunks] at read
    cases taken : take data pos with
    | none =>
      rw [taken] at read
      cases read
    | some result =>
      obtain ⟨initial, first⟩ := result
      obtain ⟨rfl, started⟩ := take_eq_some taken
      rw [taken] at read
      dsimp only at read
      split_ifs at read
      · cases read
        exact ⟨Nat.le_succ _, started, by omega⟩
      · cases read
      · obtain ⟨⟨⟨length, indefinite⟩, second⟩, argument, read⟩ := Outcome.bind_eq_ok.mp read
        obtain ⟨later, within⟩ := readArgument_eq_ok started argument
        dsimp only at read
        split_ifs at read with nested long
        · cases read
        · cases read
        · have chunk := length_substr_le data second length.toNat
          obtain ⟨after, last, grown⟩ := ih (by omega) read
          rw [List.length_append] at grown
          exact ⟨by omega, last, by omega⟩

theorem decodeChunkedString_eq_ok {major : Major} {indefinite : Bool} {length : UInt64} {text : Bytes}
    (inside : pos ≤ data.length)
    (read : decodeChunkedString data major indefinite length pos = .ok (text, next)) :
    pos ≤ next ∧ next ≤ data.length ∧ text.length ≤ data.length := by
  rw [decodeChunkedString] at read
  split_ifs at read with chunked long
  · obtain ⟨after, last, grown⟩ := decodeChunks_eq_ok inside read
    rw [List.length_nil] at grown
    exact ⟨after, last, by omega⟩
  · cases read
  · cases read
    have whole := length_substr_le data pos length.toNat
    exact ⟨Nat.le_add_right _ _, by omega, by omega⟩

/-! ## Values -/

/-- A decoder of values comes to a later position, with a document of its depth. -/
def Reads (data : Bytes) (decode : ℕ → Outcome (Document × ℕ)) (depth : ℕ) : Prop :=
  ∀ pos document next, pos ≤ data.length → decode pos = .ok (document, next) →
    pos < next ∧ next ≤ data.length ∧ document.Canonical depth

theorem Reads.items {decode : ℕ → Outcome (Document × ℕ)} {depth : ℕ} (reads : Reads data decode depth)
    {indefinite : Bool} {length : UInt64} {fuel : ℕ} {i : UInt64} {list items : List Document}
    (inside : pos ≤ data.length) (each : ∀ item ∈ list, item.Canonical depth)
    (read : decodeItems data decode indefinite length fuel i list pos = .ok (items, next)) :
    pos ≤ next ∧ next ≤ data.length ∧ items.length + pos ≤ list.length + next ∧
      ∀ item ∈ items, item.Canonical depth := by
  induction fuel generalizing i list pos with
  | zero => cases read
  | succ fuel ih =>
    rw [decodeItems] at read
    split_ifs at read with going broken
    · cases read
      rw [Bool.and_eq_true, decide_eq_true_iff] at broken
      obtain ⟨bound, _⟩ := List.getElem?_eq_some_iff.mp broken.2
      exact ⟨Nat.le_succ _, bound, by omega, each⟩
    · obtain ⟨⟨item, middle⟩, decoded, read⟩ := Outcome.bind_eq_ok.mp read
      obtain ⟨forward, within, canonical⟩ := reads _ _ _ inside decoded
      obtain ⟨after, last, grown, all⟩ := ih within (List.forall_mem_append.mpr
        ⟨each, List.forall_mem_singleton.mpr canonical⟩) read
      rw [List.length_append, List.length_singleton] at grown
      exact ⟨by omega, last, by omega, all⟩
    · cases read
      exact ⟨Nat.le_refl _, inside, Nat.le_refl _, each⟩

theorem Reads.members {decode : ℕ → Outcome (Document × ℕ)} {depth : ℕ} (reads : Reads data decode depth)
    {indefinite : Bool} {length : UInt64} {fuel : ℕ} {i : UInt64} {map members : DocumentMap}
    (inside : pos ≤ data.length) (sorted : (map.map Prod.fst).Pairwise (· < ·))
    (each : ∀ member ∈ map, 1 ≤ depth ∧ member.1.length < 2 ^ 63 ∧ member.2.Canonical depth)
    (read : decodeMembers data decode indefinite length fuel i map pos = .ok (members, next)) :
    pos ≤ next ∧ next ≤ data.length ∧ members.length + pos ≤ map.length + next ∧
      (members.map Prod.fst).Pairwise (· < ·) ∧
      ∀ member ∈ members, 1 ≤ depth ∧ member.1.length < 2 ^ 63 ∧ member.2.Canonical depth := by
  induction fuel generalizing i map pos with
  | zero => cases read
  | succ fuel ih =>
    rw [decodeMembers] at read
    split_ifs at read with going broken
    · cases read
      rw [Bool.and_eq_true, decide_eq_true_iff] at broken
      obtain ⟨bound, _⟩ := List.getElem?_eq_some_iff.mp broken.2
      exact ⟨Nat.le_succ _, bound, by omega, sorted, each⟩
    · obtain ⟨⟨key, middle⟩, named, read⟩ := Outcome.bind_eq_ok.mp read
      obtain ⟨forward, within, text⟩ := reads _ _ _ inside named
      cases key with
      | string key =>
        obtain ⟨⟨value, past⟩, decoded, read⟩ := Outcome.bind_eq_ok.mp read
        obtain ⟨onward, beyond, canonical⟩ := reads _ _ _ within decoded
        obtain ⟨some_, short⟩ := text.key
        have inserted : ∀ member ∈ map.insertOrAssign key value,
            1 ≤ depth ∧ member.1.length < 2 ^ 63 ∧ member.2.Canonical depth := by
          intro member present
          obtain rfl | present := DocumentMap.mem_insertOrAssign present
          · exact ⟨some_, short, canonical⟩
          · exact each member present
        obtain ⟨after, last, grown, ordered, all⟩ :=
          ih beyond (DocumentMap.sorted_insertOrAssign sorted) inserted read
        have added := @DocumentMap.length_insertOrAssign_le key value map
        exact ⟨by omega, last, by omega, ordered, all⟩
      | _ => cases read
    · cases read
      exact ⟨Nat.le_refl _, inside, Nat.le_refl _, sorted, each⟩

theorem decodeInteger_eq_ok {info : UInt8} {make : Int64 → Int64} {document : Document} (inside : pos ≤ data.length)
    (read : decodeInteger data info pos make = .ok (document, next)) :
    pos ≤ next ∧ next ≤ data.length ∧ ∃ value, document = .int value := by
  obtain ⟨⟨⟨value, indefinite⟩, left⟩, argument, read⟩ := Outcome.bind_eq_ok.mp read
  obtain ⟨later, within⟩ := readArgument_eq_ok inside argument
  dsimp only at read
  split_ifs at read
  · cases read
  · cases read
  · cases read
    exact ⟨later, within, _, rfl⟩

theorem decodeSimple_eq_ok {info : UInt8} {document : Document} (inside : pos ≤ data.length)
    (read : decodeSimple data info pos = .ok (document, next)) :
    pos ≤ next ∧ next ≤ data.length ∧ (document = .null ∨ (∃ value, document = .bool value) ∨
      ∃ value, document = .double value) := by
  have float {width left : ℕ} {bits : UInt64} {value : Binary64} (taken : takeBigEndian data width pos = some (bits, left))
      (read : (.ok (.double value, left) : Outcome (Document × ℕ)) = .ok (document, next)) :
      pos ≤ next ∧ next ≤ data.length ∧ (document = .null ∨ (∃ value, document = .bool value) ∨
        ∃ value, document = .double value) := by
    cases read
    obtain ⟨rfl, within⟩ := takeBigEndian_eq_some taken
    exact ⟨Nat.le_add_right _ _, within, .inr (.inr ⟨_, rfl⟩)⟩
  rw [decodeSimple] at read
  split_ifs at read
  · cases read
    exact ⟨Nat.le_refl _, inside, .inr (.inl ⟨_, rfl⟩)⟩
  · cases read
    exact ⟨Nat.le_refl _, inside, .inr (.inl ⟨_, rfl⟩)⟩
  · cases read
    exact ⟨Nat.le_refl _, inside, .inl rfl⟩
  · split at read
    · cases read
    · next taken => exact float taken read
  · split at read
    · cases read
    · next taken => exact float taken read
  · split at read
    · cases read
    · next taken => exact float taken read
  · cases read

/-- A tagged value is the value, or a timestamp of one level more than its number. -/
theorem decodeTagged_eq_ok {tag : UInt64} {inner document : Document} {depth : ℕ} (canonical : inner.Canonical depth)
    (made : decodeTagged tag inner = .ok document) : document.Canonical (depth + 1) := by
  have shallow := canonical.shallow
  by_cases epoch : tag = kTagEpochTimestamp
  · cases inner with
    | int value | double value =>
      simp only [decodeTagged, if_pos epoch] at made
      obtain ⟨ts, converted, made⟩ := Outcome.bind_eq_ok.mp made
      cases made
      simp only [Document.nesting] at shallow
      exact Document.canonical_timestamp (Nat.succ_le_succ shallow)
        (Timestamp.representable_of_fromEpochSecondsChecked converted)
    | _ =>
      simp only [decodeTagged, if_pos epoch] at made
      cases made
  · simp only [decodeTagged, if_neg epoch] at made
    cases made
    exact canonical.mono (Nat.le_succ _)

/-- Whatever is decoded is canonical, with the budget of levels it was decoded with. -/
theorem reads_decodeValue (size : data.length < 2 ^ 63) (depth : ℕ) : Reads data (decodeValue data depth) depth := by
  induction depth with
  | zero =>
    intro pos document next _ decoded
    rw [decodeValue] at decoded
    cases decoded
  | succ depth ih =>
    intro pos document next inside decoded
    rw [decodeValue] at decoded
    cases taken : take data pos with
    | none =>
      rw [taken] at decoded
      cases decoded
    | some result =>
      obtain ⟨initial, first⟩ := result
      obtain ⟨rfl, started⟩ := take_eq_some taken
      rw [taken] at decoded
      dsimp only at decoded
      have some_ : 1 ≤ depth + 1 := Nat.le_add_left 1 depth
      cases major : Major.ofCode (initial >>> 5) with
      | unsigned | negative =>
        rw [major] at decoded
        obtain ⟨later, within, value, rfl⟩ := decodeInteger_eq_ok started decoded
        exact ⟨later, within, Document.canonical_scalar some_ trivial (by simp only [Document.WellFormed])⟩
      | bytes | text =>
        rw [major] at decoded
        obtain ⟨⟨⟨length, indefinite⟩, second⟩, argument, decoded⟩ := Outcome.bind_eq_ok.mp decoded
        obtain ⟨later, within⟩ := readArgument_eq_ok started argument
        obtain ⟨⟨text, last⟩, chunks, decoded⟩ := Outcome.bind_eq_ok.mp decoded
        obtain ⟨after, ended, short⟩ := decodeChunkedString_eq_ok within chunks
        have fits : text.length < 2 ^ 63 := Nat.lt_of_le_of_lt short size
        cases decoded
        refine ⟨Nat.le_trans later after, ended, Document.canonical_scalar some_ trivial ?_⟩
        rwa [Document.WellFormed]
      | array =>
        rw [major] at decoded
        obtain ⟨⟨⟨length, indefinite⟩, second⟩, argument, decoded⟩ := Outcome.bind_eq_ok.mp decoded
        obtain ⟨later, within⟩ := readArgument_eq_ok started argument
        obtain ⟨⟨items, last⟩, elements, decoded⟩ := Outcome.bind_eq_ok.mp decoded
        obtain ⟨after, ended, few, each⟩ := ih.items within (List.forall_mem_nil _) elements
        rw [List.length_nil] at few
        have fits : items.length < 2 ^ 63 := by omega
        cases decoded
        exact ⟨Nat.le_trans later after, ended, Document.canonical_list fits each⟩
      | map =>
        rw [major] at decoded
        obtain ⟨⟨⟨length, indefinite⟩, second⟩, argument, decoded⟩ := Outcome.bind_eq_ok.mp decoded
        obtain ⟨later, within⟩ := readArgument_eq_ok started argument
        obtain ⟨⟨members, last⟩, elements, decoded⟩ := Outcome.bind_eq_ok.mp decoded
        obtain ⟨after, ended, few, sorted, each⟩ :=
          ih.members within List.Pairwise.nil (List.forall_mem_nil _) elements
        rw [List.length_nil] at few
        have fits : members.length < 2 ^ 63 := by omega
        cases decoded
        exact ⟨Nat.le_trans later after, ended, Document.canonical_map fits sorted each⟩
      | tag =>
        rw [major] at decoded
        obtain ⟨⟨⟨tag, indefinite⟩, second⟩, argument, decoded⟩ := Outcome.bind_eq_ok.mp decoded
        obtain ⟨later, within⟩ := readArgument_eq_ok started argument
        dsimp only at decoded
        split_ifs at decoded
        · cases decoded
        · obtain ⟨⟨inner, last⟩, content, decoded⟩ := Outcome.bind_eq_ok.mp decoded
          obtain ⟨after, ended, canonical⟩ := ih _ _ _ within content
          obtain ⟨value, made, decoded⟩ := Outcome.bind_eq_ok.mp decoded
          cases decoded
          exact ⟨by omega, ended, decodeTagged_eq_ok canonical made⟩
      | simple =>
        rw [major] at decoded
        obtain ⟨later, within, kind⟩ := decodeSimple_eq_ok started decoded
        refine ⟨later, within, ?_⟩
        obtain rfl | ⟨value, rfl⟩ | ⟨value, rfl⟩ := kind
        · exact Document.canonical_scalar some_ trivial (by simp only [Document.WellFormed])
        · exact Document.canonical_scalar some_ trivial (by simp only [Document.WellFormed])
        · exact Document.canonical_scalar some_ trivial (by simp only [Document.WellFormed])

/-- What has been decoded is encoded and decoded to the same document. -/
theorem decode_encode_of_decode {bytes : Bytes} {document : Document} (size : bytes.length < 2 ^ 63)
    (accepted : decode bytes = .ok document) : decode (encode document) = .ok document := by
  obtain ⟨⟨value, last⟩, decoded, accepted⟩ := Outcome.bind_eq_ok.mp accepted
  obtain ⟨_, _, canonical⟩ := reads_decodeValue size kMaxDepth _ _ _ (Nat.zero_le _) decoded
  dsimp only at accepted
  split_ifs at accepted
  · cases accepted
  · cases accepted
    rw [decode_encode canonical.wellFormed canonical.representable canonical.shallow, canonical.normal]

/-- An array without a length: an integer wider than it needs, a string in chunks, an undefined value
under an unknown tag, and a map with a key twice. -/
theorem decode_encode_of_decode_lenient :
    decode (encode (.list [.int 5, .string [0x61, 0x62], .null, .map [([0x61], .int 2)]])) =
      .ok (.list [.int 5, .string [0x61, 0x62], .null, .map [([0x61], .int 2)]]) := by
  refine @decode_encode_of_decode [0x9F, 0x18, 0x05, 0x7F, 0x61, 0x61, 0x61, 0x62, 0xFF, 0xC2, 0xF7,
    0xA2, 0x61, 0x61, 0x01, 0x61, 0x61, 0x02, 0xFF] _ (by decide) ?_
  rfl

end Cbor

end OpalCpp

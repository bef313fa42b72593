import OpalCpp.Proofs.Cbor.Canonical

/-! # Where an encoding ends

A value that the decoder has found is found at the same place of every longer input: it has read
nothing past its end. Hence no part of an encoding decodes, and nothing may follow an encoding.
-/

namespace OpalCpp.Cbor

variable {data : Bytes} {pos next fuel : ℕ} (more : Bytes)

/-! ## Longer inputs -/

theorem take_append {byte : UInt8} (taken : take data pos = some (byte, next)) :
    take (data ++ more) pos = some (byte, next) := by
  obtain ⟨read, present, same⟩ := Option.map_eq_some_iff.mp taken
  obtain ⟨bound, _⟩ := List.getElem?_eq_some_iff.mp present
  rw [take, List.getElem?_append_left bound, present]
  exact congrArg some same

theorem substr_append {count : ℕ} (inside : pos + count ≤ data.length) :
    (data ++ more).substr pos count = data.substr pos count := by
  rw [Bytes.substr, Bytes.substr, List.drop_append_of_le_length (by omega),
    List.take_append_of_le_length (by rw [List.length_drop]; omega)]

theorem takeBigEndian_append {width : ℕ} {value : UInt64} (taken : takeBigEndian data width pos = some (value, next)) :
    takeBigEndian (data ++ more) width pos = some (value, next) := by
  rw [takeBigEndian] at taken
  split_ifs at taken with short
  rw [takeBigEndian, List.length_append, if_neg (by omega), substr_append more (by omega)]
  exact taken

theorem readArgument_append {info : UInt8} {argument : UInt64 × Bool}
    (read : readArgument data info pos = .ok (argument, next)) :
    readArgument (data ++ more) info pos = .ok (argument, next) := by
  rw [readArgument] at read ⊢
  split_ifs at read ⊢
  · exact read
  · cases taken : takeBigEndian data (1 <<< (info.toNat - 24)) pos with
    | none =>
      rw [taken] at read
      cases read
    | some result =>
      rw [taken] at read
      rw [takeBigEndian_append more taken]
      exact read
  · exact read
  · exact read

theorem decodeChunks_append {major : Major} {enough : ℕ} {out text : Bytes} (inside : pos ≤ data.length)
    (fuels : fuel ≤ enough) (read : decodeChunks data major fuel out pos = .ok (text, next)) :
    decodeChunks (data ++ more) major enough out pos = .ok (text, next) := by
  induction fuel generalizing enough out pos with
  | zero => cases read
  | succ fuel ih =>
    obtain ⟨enough, rfl⟩ := Nat.exists_eq_add_of_le' (Nat.le_of_add_left_le fuels)
    rw [decodeChunks] at read ⊢
    cases taken : take data pos with
    | none =>
      rw [taken] at read
      cases read
    | some result =>
      obtain ⟨initial, first⟩ := result
      obtain ⟨rfl, started⟩ := take_eq_some taken
      rw [taken] at read
      rw [take_append more taken]
      dsimp only at read ⊢
      split_ifs at read ⊢
      · exact read
      · cases read
      · obtain ⟨⟨⟨length, indefinite⟩, second⟩, argument, read⟩ := Outcome.bind_eq_ok.mp read
        obtain ⟨later, within⟩ := readArgument_eq_ok started argument
        apply Outcome.bind_eq_ok.mpr
        refine ⟨_, readArgument_append more argument, ?_⟩
        dsimp only at read ⊢
        split_ifs at read with nested long
        · cases read
        · cases read
        · rw [if_neg nested, List.length_append, if_neg (by omega), substr_append more (by omega)]
          exact ih (by omega) (Nat.le_of_succ_le_succ fuels) read

theorem decodeChunkedString_append {major : Major} {indefinite : Bool} {length : UInt64} {text : Bytes}
    (inside : pos ≤ data.length)
    (read : decodeChunkedString data major indefinite length pos = .ok (text, next)) :
    decodeChunkedString (data ++ more) major indefinite length pos = .ok (text, next) := by
  rw [decodeChunkedString] at read ⊢
  split_ifs at read with chunked long
  · rw [if_pos chunked, List.length_append]
    exact decodeChunks_append more inside (by omega) read
  · cases read
  · rw [if_neg chunked, List.length_append, if_neg (by omega), substr_append more (by omega)]
    exact read

/-! ## Values -/

/-- Whatever the one decoder finds, within its input, the other finds too. -/
def Follows (data : Bytes) (decode longer : ℕ → Outcome (Document × ℕ)) : Prop :=
  ∀ pos result, decode pos = .ok result → pos < data.length ∧ longer pos = .ok result

variable {decode longer : ℕ → Outcome (Document × ℕ)} (follows : Follows data decode longer)

include follows

/-- A break byte that is not there does not appear where an element is found. -/
theorem Follows.unbroken {indefinite : Bool} {result : Document × ℕ} (found : decode pos = .ok result)
    (unbroken : ¬ (indefinite && data[pos]? = some kBreak) = true) :
    ¬ (indefinite && (data ++ more)[pos]? = some kBreak) = true := by
  rwa [List.getElem?_append_left (follows pos result found).1]

theorem Follows.items {indefinite : Bool} {length i : UInt64} {enough : ℕ} {list items : List Document}
    (fuels : fuel ≤ enough) (read : decodeItems data decode indefinite length fuel i list pos = .ok (items, next)) :
    decodeItems (data ++ more) longer indefinite length enough i list pos = .ok (items, next) := by
  induction fuel generalizing enough i list pos with
  | zero => cases read
  | succ fuel ih =>
    obtain ⟨enough, rfl⟩ := Nat.exists_eq_add_of_le' (Nat.le_of_add_left_le fuels)
    rw [decodeItems] at read ⊢
    split_ifs at read with going broken
    · have last := broken
      rw [Bool.and_eq_true, decide_eq_true_iff] at last
      obtain ⟨bound, _⟩ := List.getElem?_eq_some_iff.mp last.2
      rw [if_pos going, List.getElem?_append_left bound, if_pos broken]
      exact read
    · obtain ⟨⟨item, middle⟩, decoded, read⟩ := Outcome.bind_eq_ok.mp read
      rw [if_pos going, if_neg (follows.unbroken more decoded broken)]
      apply Outcome.bind_eq_ok.mpr
      exact ⟨_, (follows _ _ decoded).2, ih (Nat.le_of_succ_le_succ fuels) read⟩
    · rw [if_neg going]
      exact read

theorem Follows.members {indefinite : Bool} {length i : UInt64} {enough : ℕ} {map members : DocumentMap}
    (fuels : fuel ≤ enough) (read : decodeMembers data decode indefinite length fuel i map pos = .ok (members, next)) :
    decodeMembers (data ++ more) longer indefinite length enough i map pos = .ok (members, next) := by
  induction fuel generalizing enough i map pos with
  | zero => cases read
  | succ fuel ih =>
    obtain ⟨enough, rfl⟩ := Nat.exists_eq_add_of_le' (Nat.le_of_add_left_le fuels)
    rw [decodeMembers] at read ⊢
    split_ifs at read with going broken
    · have last := broken
      rw [Bool.and_eq_true, decide_eq_true_iff] at last
      obtain ⟨bound, _⟩ := List.getElem?_eq_some_iff.mp last.2
      rw [if_pos going, List.getElem?_append_left bound, if_pos broken]
      exact read
    · obtain ⟨⟨key, middle⟩, named, read⟩ := Outcome.bind_eq_ok.mp read
      rw [if_pos going, if_neg (follows.unbroken more named broken)]
      apply Outcome.bind_eq_ok.mpr
      refine ⟨_, (follows _ _ named).2, ?_⟩
      cases key with
      | string key =>
        obtain ⟨⟨value, past⟩, decoded, read⟩ := Outcome.bind_eq_ok.mp read
        apply Outcome.bind_eq_ok.mpr
        exact ⟨_, (follows _ _ decoded).2, ih (Nat.le_of_succ_le_succ fuels) read⟩
      | _ => cases read
    · rw [if_neg going]
      exact read

omit follows

theorem decodeInteger_append {info : UInt8} {make : Int64 → Int64} {result : Document × ℕ}
    (read : decodeInteger data info pos make = .ok result) : decodeInteger (data ++ more) info pos make = .ok result := by
  obtain ⟨⟨argument, left⟩, found, read⟩ := Outcome.bind_eq_ok.mp read
  apply Outcome.bind_eq_ok.mpr
  exact ⟨_, readArgument_append more found, read⟩

theorem decodeSimple_append {info : UInt8} {result : Document × ℕ} (read : decodeSimple data info pos = .ok result) :
    decodeSimple (data ++ more) info pos = .ok result := by
  rw [decodeSimple] at read ⊢
  cases taken : takeBigEndian data (1 <<< (info.toNat - 24)) pos with
  | none =>
    rw [taken] at read
    split_ifs at read ⊢
    · exact read
    · exact read
    · exact read
    · cases read
    · cases read
    · cases read
    · exact read
  | some found =>
    rw [taken] at read
    rw [takeBigEndian_append more taken]
    exact read

/-- A value is found where it was, whatever is appended to the input. -/
theorem follows_decodeValue (data more : Bytes) (depth : ℕ) :
    Follows data (decodeValue data depth) (decodeValue (data ++ more) depth) := by
  induction depth with
  | zero =>
    intro pos result decoded
    rw [decodeValue] at decoded
    cases decoded
  | succ depth ih =>
    intro pos result decoded
    rw [decodeValue] at decoded ⊢
    cases taken : take data pos with
    | none =>
      rw [taken] at decoded
      cases decoded
    | some found =>
      obtain ⟨initial, first⟩ := found
      obtain ⟨rfl, started⟩ := take_eq_some taken
      refine ⟨started, ?_⟩
      rw [taken] at decoded
      rw [take_append more taken]
      dsimp only at decoded ⊢
      cases major : Major.ofCode (initial >>> 5) with
      | unsigned | negative =>
        rw [major] at decoded
        exact decodeInteger_append more decoded
      | bytes | text =>
        rw [major] at decoded
        obtain ⟨⟨⟨length, indefinite⟩, second⟩, argument, decoded⟩ := Outcome.bind_eq_ok.mp decoded
        obtain ⟨_, within⟩ := readArgument_eq_ok started argument
        obtain ⟨⟨text, last⟩, chunks, decoded⟩ := Outcome.bind_eq_ok.mp decoded
        apply Outcome.bind_eq_ok.mpr
        refine ⟨_, readArgument_append more argument, ?_⟩
        apply Outcome.bind_eq_ok.mpr
        exact ⟨_, decodeChunkedString_append more within chunks, decoded⟩
      | array =>
        rw [major] at decoded
        obtain ⟨⟨⟨length, indefinite⟩, second⟩, argument, decoded⟩ := Outcome.bind_eq_ok.mp decoded
        obtain ⟨⟨items, last⟩, elements, decoded⟩ := Outcome.bind_eq_ok.mp decoded
        apply Outcome.bind_eq_ok.mpr
        refine ⟨_, readArgument_append more argument, ?_⟩
        apply Outcome.bind_eq_ok.mpr
        exact ⟨_, ih.items more (by rw [List.length_append]; omega) elements, decoded⟩
      | map =>
        rw [major] at decoded
        obtain ⟨⟨⟨length, indefinite⟩, second⟩, argument, decoded⟩ := Outcome.bind_eq_ok.mp decoded
        obtain ⟨⟨members, last⟩, elements, decoded⟩ := Outcome.bind_eq_ok.mp decoded
        apply Outcome.bind_eq_ok.mpr
        refine ⟨_, readArgument_append more argument, ?_⟩
        apply Outcome.bind_eq_ok.mpr
        exact ⟨_, ih.members more (by rw [List.length_append]; omega) elements, decoded⟩
      | tag =>
        rw [major] at decoded
        obtain ⟨⟨⟨tag, indefinite⟩, second⟩, argument, decoded⟩ := Outcome.bind_eq_ok.mp decoded
        apply Outcome.bind_eq_ok.mpr
        refine ⟨_, readArgument_append more argument, ?_⟩
        dsimp only at decoded ⊢
        split_ifs at decoded ⊢
        · cases decoded
        · obtain ⟨⟨inner, last⟩, content, decoded⟩ := Outcome.bind_eq_ok.mp decoded
          apply Outcome.bind_eq_ok.mpr
          exact ⟨_, (ih _ _ content).2, decoded⟩
      | simple =>
        rw [major] at decoded
        exact decodeSimple_append more decoded

/-! ## Encodings -/

/-- What is accepted is one value and ends with it. -/
theorem decode_eq_ok {document : Document} :
    Cbor.decode data = .ok document ↔ decodeValue data kMaxDepth 0 = .ok (document, data.length) := by
  constructor
  · intro accepted
    obtain ⟨⟨value, last⟩, decoded, accepted⟩ := Outcome.bind_eq_ok.mp accepted
    dsimp only at accepted
    split_ifs at accepted with trailing
    · cases accepted
    · cases accepted
      rw [decoded, of_not_not trailing]
  · intro decoded
    apply Outcome.bind_eq_ok.mpr
    refine ⟨_, decoded, ?_⟩
    dsimp only
    rw [if_neg (not_not_intro rfl)]
    rfl

/-- Of two inputs that start alike, and of which one is accepted, only that one is accepted. -/
theorem accepted_alone {other : Document} {bytes : Bytes} {document : Document}
    (accepted : Cbor.decode bytes = .ok document) (longer : Cbor.decode (bytes ++ more) = .ok other) : more = [] := by
  have first := (follows_decodeValue bytes more kMaxDepth _ _ (decode_eq_ok.mp accepted)).2
  rw [decode_eq_ok.mp longer, List.length_append] at first
  injection first with first
  exact List.eq_nil_of_length_eq_zero (Nat.left_eq_add.mp (congrArg Prod.snd first).symm)

/-- An encoding is delimited by itself: nothing shorter that it starts with is accepted, and nothing
longer that starts with it. -/
theorem encode_delimited {document : Document} (wellFormed : document.WellFormed) (window : document.Representable)
    (shallow : document.nesting ≤ kMaxDepth) :
    (∀ part, part <+: encode document → part ≠ encode document → ∃ error, Cbor.decode part = .error error) ∧
      ∀ more, more ≠ [] → Cbor.decode (encode document ++ more) = fail "trailing bytes after value" := by
  have decoded (more : Bytes) := decodeValue_encodeValue document wellFormed window kMaxDepth 0
    (encode document ++ more) more shallow rfl
  constructor
  · intro part ⟨more, whole⟩ shorter
    cases accepted : Cbor.decode part with
    | error error => exact ⟨error, rfl⟩
    | ok other =>
      have complete := decoded []
      rw [List.append_nil, Nat.zero_add] at complete
      have longer := decode_eq_ok.mpr complete
      rw [← whole] at longer
      rw [accepted_alone more accepted longer, List.append_nil] at whole
      exact (shorter whole).elim
  · intro more some_
    have longer : 0 + (encodeValue document).length ≠ (encode document ++ more).length := by
      rw [List.length_append, encode]
      have := List.length_pos_iff.mpr some_
      omega
    rw [Cbor.decode, decoded more]
    change (if _ then _ else _) = _
    rw [if_pos longer]

/-- A list of a string and a timestamp. -/
theorem encode_delimited_list :
    (∀ part, part <+: encode (.list [.string [0x61, 0xFF], .timestamp ⟨⟨-1001⟩, .httpDate⟩]) →
      part ≠ encode (.list [.string [0x61, 0xFF], .timestamp ⟨⟨-1001⟩, .httpDate⟩]) →
      ∃ error, Cbor.decode part = .error error) ∧
    ∀ more, more ≠ [] →
      Cbor.decode (encode (.list [.string [0x61, 0xFF], .timestamp ⟨⟨-1001⟩, .httpDate⟩]) ++ more) =
        fail "trailing bytes after value" := by
  apply encode_delimited
  · simp [Document.WellFormed, Document.allWellFormed]
  · simp only [Document.Representable, Document.allRepresentable, Timestamp.Representable]
    decide
  · decide

end OpalCpp.Cbor

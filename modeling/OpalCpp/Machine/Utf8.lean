import Mathlib.Data.UInt
import Mathlib.Data.List.Basic

/-! # UTF-8

Byte strings that are the UTF-8 encoding of some characters, the table of the sequences of one character,
and texts taken apart into characters and bytes that belong to none.
-/

namespace OpalCpp

/-- A property of the bytes of a text is decided along the text. -/
instance (priority := 2000) decidableForallByte (property : UInt8 → Prop) [DecidablePred property] (text : List UInt8) :
    Decidable (∀ byte ∈ text, property byte) := List.decidableBAll property text

/-- What holds of 256 numbers holds of every byte. -/
theorem forall_byte {property : UInt8 → Prop} (all : ∀ n < 256, property (UInt8.ofNat n)) (byte : UInt8) :
    property byte := by
  have one := all byte.toNat byte.toNat_lt
  rwa [UInt8.ofNat_toNat] at one

namespace Utf8

def Valid (bytes : List UInt8) : Prop := bytes.toByteArray.IsValidUTF8

instance (bytes : List UInt8) : Decidable (Valid bytes) :=
  inferInstanceAs (Decidable bytes.toByteArray.IsValidUTF8)

theorem valid_nil : Valid [] := ByteArray.isValidUTF8_empty

theorem Valid.append {first second : List UInt8} (left : Valid first) (right : Valid second) : Valid (first ++ second) := by
  rw [Valid, List.toByteArray_append]
  exact ByteArray.IsValidUTF8.append left right

theorem valid_encode (c : Char) : Valid (String.utf8EncodeChar c) :=
  Char.isValidUTF8_toByteArray_utf8EncodeChar

/-- A byte below 0x80 is a character of its own. -/
theorem valid_singleton {byte : UInt8} (ascii : byte < 0x80) : Valid [byte] := by
  have one : ∀ n < 0x80, String.utf8EncodeChar (Char.ofNat n) = [UInt8.ofNat n] := by decide
  have char := valid_encode (Char.ofNat byte.toNat)
  rwa [one _ (UInt8.lt_iff_toNat_lt.mp ascii), UInt8.ofNat_toNat] at char

theorem valid_of_ascii {bytes : List UInt8} (ascii : ∀ byte ∈ bytes, byte < 0x80) : Valid bytes := by
  induction bytes with
  | nil => exact valid_nil
  | cons byte bytes ih =>
    rw [List.forall_mem_cons] at ascii
    exact (valid_singleton ascii.1).append (ih ascii.2)

/-- U+FFFD. -/
def replacement : List UInt8 := [0xEF, 0xBF, 0xBD]

/-- The bytes with a replacement for each that belongs to no character. -/
def repair : List UInt8 → List UInt8
  | [] => []
  | byte :: rest =>
    match (byte :: rest).toByteArray.utf8DecodeChar? 0 with
    | some c => String.utf8EncodeChar c ++ repair ((byte :: rest).drop c.utf8Size)
    | none => replacement ++ repair rest
termination_by bytes => bytes.length
decreasing_by
  · have := c.utf8Size_pos
    rw [List.length_drop, List.length_cons]
    omega
  · exact Nat.lt_succ_self _

theorem repair_encode (c : Char) (rest : List UInt8) :
    repair (String.utf8EncodeChar c ++ rest) = String.utf8EncodeChar c ++ repair rest := by
  obtain ⟨byte, tail, encoded⟩ := List.exists_cons_of_ne_nil (String.utf8EncodeChar_ne_nil (c := c))
  have decoded : (byte :: (tail ++ rest)).toByteArray.utf8DecodeChar? 0 = some c := by
    rw [← List.cons_append, ← encoded, List.toByteArray_append]
    exact ByteArray.utf8DecodeChar?_utf8EncodeChar_append
  rw [encoded, List.cons_append, repair, decoded]
  simp only
  rw [← List.cons_append, ← encoded, ← String.length_utf8EncodeChar, List.drop_left]

theorem Valid.exists_chars {bytes : List UInt8} (valid : Valid bytes) :
    ∃ chars : List Char, bytes = chars.flatMap String.utf8EncodeChar := by
  obtain ⟨chars, encoded⟩ := valid
  have same := congrArg (fun array => array.data.toList) encoded
  rw [List.utf8Encode, List.toList_data_toByteArray, List.toList_data_toByteArray] at same
  exact ⟨chars, same⟩

theorem repair_of_valid {bytes : List UInt8} (valid : Valid bytes) : repair bytes = bytes := by
  obtain ⟨chars, rfl⟩ := valid.exists_chars
  clear valid
  induction chars with
  | nil => rw [List.flatMap_nil, repair]
  | cons c chars ih => rw [List.flatMap_cons, repair_encode, ih]

/-! ## Sequences -/

/-- A byte of a character behind its first one. -/
def isTail (byte : UInt8) : Bool := 0x80 ≤ byte && byte ≤ 0xBF

/-- The table of the sequences of one to four bytes: none that is longer than it has to be, no surrogate
and nothing past U+10FFFF. -/
inductive Sequence : List UInt8 → Prop
  | one {a : UInt8} : a ≤ 0x7F → Sequence [a]
  | two {a b : UInt8} : 0xC2 ≤ a → a ≤ 0xDF → isTail b = true → Sequence [a, b]
  | three {a b c : UInt8} : 0xE0 ≤ a → a ≤ 0xEF → isTail b = true → (a = 0xE0 → 0xA0 ≤ b) → (a = 0xED → b ≤ 0x9F) →
      isTail c = true → Sequence [a, b, c]
  | four {a b c d : UInt8} : 0xF0 ≤ a → a ≤ 0xF4 → isTail b = true → (a = 0xF0 → 0x90 ≤ b) → (a = 0xF4 → b ≤ 0x8F) →
      isTail c = true → isTail d = true → Sequence [a, b, c, d]

theorem isTail_iff {byte : UInt8} : isTail byte = true ↔ 0x80 ≤ byte.toNat ∧ byte.toNat ≤ 0xBF := by
  rw [isTail, Bool.and_eq_true, decide_eq_true_eq, decide_eq_true_eq, UInt8.le_iff_toNat_le, UInt8.le_iff_toNat_le]
  rfl

theorem sequence_encode (c : Char) : Sequence (String.utf8EncodeChar c) := by
  have scalar : c.val.toNat < 0xD800 ∨ 0xDFFF < c.val.toNat ∧ c.val.toNat < 0x110000 := c.valid
  rw [String.utf8EncodeChar]
  generalize c.val.toNat = v at scalar
  split_ifs with first second third
  · refine .one ?_
    simp only [UInt8.le_iff_toNat_le, UInt8.toNat_ofNat']
    simp
    omega
  · refine .two ?_ ?_ ?_ <;> simp only [isTail_iff, UInt8.le_iff_toNat_le, UInt8.toNat_ofNat'] <;> simp <;> omega
  · refine .three ?_ ?_ ?_ ?_ ?_ ?_ <;>
      simp only [isTail_iff, UInt8.le_iff_toNat_le, UInt8.toNat_ofNat', ← UInt8.toNat_inj] <;> simp <;> omega
  · refine .four ?_ ?_ ?_ ?_ ?_ ?_ ?_ <;>
      simp only [isTail_iff, UInt8.le_iff_toNat_le, UInt8.toNat_ofNat', ← UInt8.toNat_inj] <;> simp <;> omega

/-- A number that is a character, by what its encoding comes to. -/
private theorem exists_encode {bytes : List UInt8} (v : ℕ) (scalar : v < 0xD800 ∨ 0xDFFF < v ∧ v < 0x110000)
    (encoded : ∀ c : Char, c.val.toNat = v → String.utf8EncodeChar c = bytes) : ∃ c, String.utf8EncodeChar c = bytes := by
  refine ⟨Char.ofNat v, encoded _ ?_⟩
  rw [Char.ofNat, dif_pos scalar]
  rfl

theorem exists_encode_of_sequence {bytes : List UInt8} (sequence : Sequence bytes) :
    ∃ c, String.utf8EncodeChar c = bytes := by
  cases sequence with
  | @one a high =>
    rw [UInt8.le_iff_toNat_le] at high
    change _ ≤ 0x7F at high
    refine exists_encode a.toNat (by omega) fun c value => ?_
    rw [String.utf8EncodeChar, value, if_pos high, UInt8.ofNat_toNat]
  | @two a b low high tail =>
    rw [UInt8.le_iff_toNat_le] at low high
    rw [isTail_iff] at tail
    change 0xC2 ≤ _ at low
    change _ ≤ 0xDF at high
    refine exists_encode ((a.toNat - 0xC0) * 64 + (b.toNat - 0x80)) (by omega) fun c value => ?_
    rw [String.utf8EncodeChar, value, if_neg (by omega), if_pos (by omega)]
    simp only [List.cons.injEq, and_true, ← UInt8.toNat_inj, UInt8.toNat_ofNat']
    omega
  | @three a b c low high tail overlong surrogate last =>
    rw [UInt8.le_iff_toNat_le] at low high
    rw [isTail_iff] at tail last
    simp only [UInt8.le_iff_toNat_le, ← UInt8.toNat_inj] at overlong surrogate
    change 0xE0 ≤ _ at low
    change _ ≤ 0xEF at high
    change _ = 0xE0 → 0xA0 ≤ _ at overlong
    change _ = 0xED → _ ≤ 0x9F at surrogate
    refine exists_encode ((a.toNat - 0xE0) * 4096 + (b.toNat - 0x80) * 64 + (c.toNat - 0x80)) (by omega) fun char value => ?_
    rw [String.utf8EncodeChar, value, if_neg (by omega), if_neg (by omega), if_pos (by omega)]
    simp only [List.cons.injEq, and_true, ← UInt8.toNat_inj, UInt8.toNat_ofNat']
    omega
  | @four a b c d low high tail overlong past third last =>
    rw [UInt8.le_iff_toNat_le] at low high
    rw [isTail_iff] at tail third last
    simp only [UInt8.le_iff_toNat_le, ← UInt8.toNat_inj] at overlong past
    change 0xF0 ≤ _ at low
    change _ ≤ 0xF4 at high
    change _ = 0xF0 → 0x90 ≤ _ at overlong
    change _ = 0xF4 → _ ≤ 0x8F at past
    refine exists_encode
      ((a.toNat - 0xF0) * 262144 + (b.toNat - 0x80) * 4096 + (c.toNat - 0x80) * 64 + (d.toNat - 0x80))
        (by omega) fun char value => ?_
    rw [String.utf8EncodeChar, value, if_neg (by omega), if_neg (by omega), if_neg (by omega)]
    simp only [List.cons.injEq, and_true, ← UInt8.toNat_inj, UInt8.toNat_ofNat']
    omega

/-- Of a character of more than one byte all are 0x80 or more. -/
theorem encode_cases (c : Char) :
    (∃ byte < 0x80, String.utf8EncodeChar c = [byte]) ∨ ∀ byte ∈ String.utf8EncodeChar c, 0x80 ≤ byte := by
  have tail {byte : UInt8} (tail : isTail byte = true) : 0x80 ≤ byte := by
    rw [isTail_iff] at tail
    exact UInt8.le_iff_toNat_le.mpr tail.1
  have sequence := sequence_encode c
  generalize String.utf8EncodeChar c = bytes at sequence
  cases sequence with
  | one high => exact .inl ⟨_, UInt8.lt_of_le_of_lt high (by decide), rfl⟩
  | two low _ b =>
    have lead := UInt8.le_trans (by decide : (0x80 : UInt8) ≤ 0xC2) low
    exact .inr (by simp [lead, tail b])
  | three low _ b _ _ c =>
    have lead := UInt8.le_trans (by decide : (0x80 : UInt8) ≤ 0xE0) low
    exact .inr (by simp [lead, tail b, tail c])
  | four low _ b _ _ c d =>
    have lead := UInt8.le_trans (by decide : (0x80 : UInt8) ≤ 0xF0) low
    exact .inr (by simp [lead, tail b, tail c, tail d])

/-- A character is decoded where its bytes are in front. -/
theorem decode_eq_some_iff {bytes : List UInt8} {c : Char} :
    bytes.toByteArray.utf8DecodeChar? 0 = some c ↔ String.utf8EncodeChar c <+: bytes := by
  constructor
  · intro decoded
    obtain ⟨rest, whole⟩ := ByteArray.exists_of_utf8DecodeChar?_eq_some decoded
    refine ⟨rest.data.toList, ?_⟩
    have same := congrArg (fun array => array.data.toList) whole
    simpa using same.symm
  · rintro ⟨rest, rfl⟩
    rw [List.toByteArray_append]
    exact ByteArray.utf8DecodeChar?_utf8EncodeChar_append

/-! ## Texts in pieces -/

/-- A character of a text, or a byte that belongs to none. -/
inductive Piece where
  | char (c : Char)
  | stray (byte : UInt8)
deriving DecidableEq

def Piece.bytes : Piece → List UInt8
  | char c => String.utf8EncodeChar c
  | stray byte => [byte]

/-- A text taken apart from its front: a character where one is, and one byte where none is. -/
inductive Pieces : List UInt8 → List Piece → Prop
  | nil : Pieces [] []
  | char {c : Char} {rest : List UInt8} {pieces : List Piece} : Pieces rest pieces →
      Pieces (String.utf8EncodeChar c ++ rest) (.char c :: pieces)
  | stray {byte : UInt8} {rest : List UInt8} {pieces : List Piece} :
      (∀ sequence, Sequence sequence → ¬ sequence <+: byte :: rest) → Pieces rest pieces →
      Pieces (byte :: rest) (.stray byte :: pieces)

/-- The one way to take a text apart. -/
def pieces : List UInt8 → List Piece
  | [] => []
  | byte :: rest =>
    match (byte :: rest).toByteArray.utf8DecodeChar? 0 with
    | some c => .char c :: pieces ((byte :: rest).drop c.utf8Size)
    | none => .stray byte :: pieces rest
termination_by bytes => bytes.length
decreasing_by
  · have := c.utf8Size_pos
    rw [List.length_drop, List.length_cons]
    omega
  · exact Nat.lt_succ_self _

theorem pieces_encode (c : Char) (rest : List UInt8) :
    pieces (String.utf8EncodeChar c ++ rest) = .char c :: pieces rest := by
  obtain ⟨byte, tail, encoded⟩ := List.exists_cons_of_ne_nil (String.utf8EncodeChar_ne_nil (c := c))
  have decoded : (byte :: (tail ++ rest)).toByteArray.utf8DecodeChar? 0 = some c := by
    rw [decode_eq_some_iff, ← List.cons_append, ← encoded]
    exact List.prefix_append _ _
  rw [encoded, List.cons_append, pieces, decoded]
  simp only
  rw [← List.cons_append, ← encoded, ← String.length_utf8EncodeChar, List.drop_left]

theorem decode_eq_none_iff {bytes : List UInt8} :
    bytes.toByteArray.utf8DecodeChar? 0 = none ↔ ∀ sequence, Sequence sequence → ¬ sequence <+: bytes := by
  rw [Option.eq_none_iff_forall_ne_some]
  constructor
  · intro none sequence isSequence front
    obtain ⟨c, rfl⟩ := exists_encode_of_sequence isSequence
    exact none c (decode_eq_some_iff.mpr front)
  · intro none c decoded
    exact none _ (sequence_encode c) (decode_eq_some_iff.mp decoded)

theorem pieces_iff {bytes : List UInt8} {parts : List Piece} : Pieces bytes parts ↔ pieces bytes = parts := by
  constructor
  · intro apart
    induction apart with
    | nil => rw [pieces]
    | char _ ih => rw [pieces_encode, ih]
    | stray none _ ih => rw [pieces, decode_eq_none_iff.mpr none, ih]
  · rintro rfl
    induction bytes using pieces.induct with
    | case1 =>
      rw [pieces]
      exact .nil
    | case2 byte rest c decoded ih =>
      obtain ⟨more, whole⟩ := decode_eq_some_iff.mp decoded
      rw [← whole, ← String.length_utf8EncodeChar, List.drop_left] at ih
      rw [← whole, pieces_encode]
      exact .char ih
    | case3 byte rest none ih =>
      rw [pieces, none]
      exact .stray (decode_eq_none_iff.mp none) ih

/-- What a piece is repaired to. -/
def Piece.repaired : Piece → List UInt8
  | char c => String.utf8EncodeChar c
  | stray _ => replacement

theorem repair_eq (bytes : List UInt8) : repair bytes = (pieces bytes).flatMap Piece.repaired := by
  induction bytes using pieces.induct with
  | case1 =>
    rw [repair, pieces]
    rfl
  | case2 byte rest c decoded ih =>
    rw [repair, pieces, decoded]
    simp only [ih]
    rfl
  | case3 byte rest none ih =>
    rw [repair, pieces, none]
    simp only [ih]
    rfl

theorem valid_repair (bytes : List UInt8) : Valid (repair bytes) := by
  have each (piece : Piece) : Valid piece.repaired := by
    cases piece with
    | char c => exact valid_encode c
    | stray byte => exact valid_encode (Char.ofNat 0xFFFD)
  rw [repair_eq]
  induction pieces bytes with
  | nil => exact valid_nil
  | cons piece parts ih => exact (each piece).append ih

/-- A sequence has one byte that is not a tail, its first. -/
theorem Sequence.exists_cons {bytes : List UInt8} (sequence : Sequence bytes) :
    ∃ first rest, bytes = first :: rest ∧ isTail first = false ∧ ∀ byte ∈ rest, isTail byte = true := by
  have other {byte : UInt8} (outside : byte.toNat < 0x80 ∨ 0xBF < byte.toNat) : isTail byte = false := by
    rw [Bool.eq_false_iff, Ne, isTail_iff]
    omega
  cases sequence with
  | one high =>
    rw [UInt8.le_iff_toNat_le] at high
    exact ⟨_, [], rfl, other (.inl (Nat.lt_succ_of_le high)), by simp⟩
  | two low _ b =>
    rw [UInt8.le_iff_toNat_le] at low
    exact ⟨_, _, rfl, other (.inr (Nat.lt_of_lt_of_le (by decide) low)), by simp [b]⟩
  | three low _ b _ _ c =>
    rw [UInt8.le_iff_toNat_le] at low
    exact ⟨_, _, rfl, other (.inr (Nat.lt_of_lt_of_le (by decide) low)), by simp [b, c]⟩
  | four low _ b _ _ c d =>
    rw [UInt8.le_iff_toNat_le] at low
    exact ⟨_, _, rfl, other (.inr (Nat.lt_of_lt_of_le (by decide) low)), by simp [b, c, d]⟩

/-- How often a piece is counted where the bytes that are no tails are: a stray tail is not. -/
def Piece.counted : Piece → Bool
  | char _ => true
  | stray byte => !isTail byte

theorem countP_bytes (piece : Piece) : piece.bytes.countP (fun byte => !isTail byte) = if piece.counted then 1 else 0 := by
  cases piece with
  | stray byte => exact List.countP_singleton
  | char c =>
    obtain ⟨first, rest, whole, notTail, tails⟩ := (sequence_encode c).exists_cons
    have none : rest.countP (fun byte => !isTail byte) = 0 := by
      rw [List.countP_eq_zero]
      intro byte member
      rw [tails byte member]
      decide
    rw [Piece.bytes, whole, List.countP_cons_of_pos (by rw [notTail]; rfl), none]
    rfl

/-- The bytes of a text are those of its pieces. -/
theorem flatMap_pieces (bytes : List UInt8) : (pieces bytes).flatMap Piece.bytes = bytes := by
  have apart := pieces_iff.mpr (rfl : pieces bytes = pieces bytes)
  generalize pieces bytes = parts at apart
  induction apart with
  | nil => rfl
  | char _ ih => rw [List.flatMap_cons, ih]; rfl
  | stray _ _ ih => rw [List.flatMap_cons, ih]; rfl

/-- Counting the bytes that are no tails counts the pieces but the stray tails. -/
theorem countP_tail (bytes : List UInt8) :
    bytes.countP (fun byte => !isTail byte) = (pieces bytes).countP Piece.counted := by
  have whole := flatMap_pieces bytes
  generalize pieces bytes = parts at whole
  subst whole
  induction parts with
  | nil => rfl
  | cons piece parts ih => rw [List.flatMap_cons, List.countP_append, ih, countP_bytes, List.countP_cons, Nat.add_comm]

end Utf8

end OpalCpp

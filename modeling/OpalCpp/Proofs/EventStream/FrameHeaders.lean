import OpalCpp.Model.EventStream.Frame
import OpalCpp.Proofs.Core.Bytes

/-! # Header values and header blocks

Decoding is the inverse of encoding in both directions: a value is read back from its encoding,
whatever follows it, and what has been read is the encoding of the value and nothing else.
-/

namespace OpalCpp.EventStream

theorem fixed_append (bytes left : Bytes) {n : ℕ} (size : bytes.length = n) :
    fixed n (bytes ++ left) = some (bytes, left) := by
  rw [fixed, if_neg (by rw [List.length_append]; omega), List.take_left' size, List.drop_left' size]

theorem fixed_eq_some {n : ℕ} {block bytes left : Bytes} (read : fixed n block = some (bytes, left)) :
    block = bytes ++ left ∧ bytes.length = n := by
  rw [fixed] at read
  split_ifs at read with short
  cases read
  refine ⟨(List.take_append_drop n block).symm, ?_⟩
  rw [List.length_take]
  omega

/-- A value that is read from a number in a fixed count of bytes. -/
def readNumber (width : ℕ) (make : UInt64 → HeaderValue) (block : Bytes) : Option (HeaderValue × Bytes) :=
  fixed width block >>= fun read => some (make (readBigEndian read.1), read.2)

theorem readNumber_writeBigEndian {value : UInt64} {width : ℕ} (fits : width ≤ 8)
    (small : value.toNat < 256 ^ width) (make : UInt64 → HeaderValue) (left : Bytes) :
    readNumber width make (writeBigEndian value width ++ left) = some (make value, left) := by
  rw [readNumber, fixed_append _ left (length_writeBigEndian value width)]
  simp only [Option.bind_eq_bind, Option.bind_some, readBigEndian_writeBigEndian fits small]

theorem readNumber_eq_some (width : ℕ) (fits : width ≤ 8) (make : UInt64 → HeaderValue) {block left : Bytes}
    {value : HeaderValue} (read : readNumber width make block = some (value, left)) :
    ∃ number : UInt64, number.toNat < 256 ^ width ∧ value = make number ∧
      block = writeBigEndian number width ++ left := by
  obtain ⟨⟨bytes, rest⟩, taken, made⟩ := Option.bind_eq_some_iff.mp read
  cases made
  obtain ⟨rfl, size⟩ := fixed_eq_some taken
  refine ⟨readBigEndian bytes, readBigEndian_lt size fits, rfl, ?_⟩
  rw [writeBigEndian_readBigEndian size fits]

theorem lengthPrefixed_append {value : Bytes} (fits : value.length ≤ 0xFFFF) (left : Bytes) :
    lengthPrefixed (writeBigEndian (UInt64.ofNat value.length) 2 ++ value ++ left) = some (value, left) := by
  have length : (UInt64.ofNat value.length).toNat = value.length := by
    rw [UInt64.toNat_ofNat']
    omega
  rw [lengthPrefixed, List.append_assoc, fixed_append _ _ (length_writeBigEndian _ 2)]
  simp only [Option.bind_eq_bind, Option.bind_some]
  rw [readBigEndian_writeBigEndian (by decide) (by rw [length]; omega), length]
  exact fixed_append value left rfl

theorem lengthPrefixed_eq_some {block value left : Bytes} (read : lengthPrefixed block = some (value, left)) :
    block = writeBigEndian (UInt64.ofNat value.length) 2 ++ value ++ left ∧ value.length ≤ 0xFFFF := by
  rw [lengthPrefixed] at read
  obtain ⟨⟨lengthBytes, rest⟩, head, tail⟩ := Option.bind_eq_some_iff.mp read
  obtain ⟨rfl, two⟩ := fixed_eq_some head
  obtain ⟨rfl, length⟩ := fixed_eq_some tail
  have small := readBigEndian_lt two (by decide)
  refine ⟨?_, by omega⟩
  rw [length, UInt64.ofNat_toNat, writeBigEndian_readBigEndian two (by decide), List.append_assoc]

theorem uint8_fits (number : UInt8) : number.toUInt64.toNat < 256 ^ 1 := by
  rw [UInt8.toNat_toUInt64]
  exact number.toNat_lt

theorem uint16_fits (number : UInt16) : number.toUInt64.toNat < 256 ^ 2 := by
  rw [UInt16.toNat_toUInt64]
  exact number.toNat_lt

theorem uint32_fits (number : UInt32) : number.toUInt64.toNat < 256 ^ 4 := by
  rw [UInt32.toNat_toUInt64]
  exact number.toNat_lt

theorem toUInt16_toUInt64_of_lt {number : UInt64} (small : number.toNat < 256 ^ 2) :
    number.toUInt16.toUInt64 = number := by
  apply UInt64.toNat.inj
  rw [UInt16.toNat_toUInt64, UInt64.toNat_toUInt16]
  omega

theorem toUInt32_toUInt64_of_lt {number : UInt64} (small : number.toNat < 256 ^ 4) :
    number.toUInt32.toUInt64 = number := by
  apply UInt64.toNat.inj
  rw [UInt32.toNat_toUInt64, UInt64.toNat_toUInt32]
  omega

/-- A value is read back from its encoding, whatever follows it. -/
theorem decodeValue_encodeValue {value : HeaderValue} {bytes : Bytes} (encoded : encodeValue value = some bytes)
    (left : Bytes) : decodeValue (bytes ++ left) = some (value, left) := by
  cases value with
  | bool value =>
    cases encoded
    cases value <;> rfl
  | byte value =>
    cases encoded
    have read := readNumber_writeBigEndian (by decide) (uint8_fits value.toUInt8)
      (fun number => .byte number.toUInt8.toInt8) left
    simp only [writeBigEndian_one, UInt8.toUInt8_toUInt64] at read
    exact read
  | short value =>
    cases encoded
    have read := readNumber_writeBigEndian (by decide) (uint16_fits value.toUInt16)
      (fun number => .short number.toUInt16.toInt16) left
    rw [UInt16.toUInt16_toUInt64] at read
    exact read
  | int value =>
    cases encoded
    have read := readNumber_writeBigEndian (by decide) (uint32_fits value.toUInt32)
      (fun number => .int number.toUInt32.toInt32) left
    rw [UInt32.toUInt32_toUInt64] at read
    exact read
  | long value =>
    cases encoded
    exact readNumber_writeBigEndian (by decide) value.toUInt64.toNat_lt (fun number => .long number.toInt64) left
  | timestamp value =>
    cases encoded
    exact readNumber_writeBigEndian (by decide) value.toUInt64.toNat_lt
      (fun number => .timestamp number.toInt64) left
  | byteArray value =>
    rw [encodeValue] at encoded
    split_ifs at encoded with long
    cases encoded
    change (lengthPrefixed (writeBigEndian (UInt64.ofNat value.length) 2 ++ value ++ left) >>=
      fun read => some (HeaderValue.byteArray read.1, read.2)) = _
    rw [lengthPrefixed_append (Nat.le_of_not_lt long) left]
    rfl
  | string value =>
    rw [encodeValue] at encoded
    split_ifs at encoded with long
    cases encoded
    change (lengthPrefixed (writeBigEndian (UInt64.ofNat value.length) 2 ++ value ++ left) >>=
      fun read => some (HeaderValue.string read.1, read.2)) = _
    rw [lengthPrefixed_append (Nat.le_of_not_lt long) left]
    rfl
  | uuid value =>
    cases encoded
    have enough : ¬ (value.bytes ++ left).length < 16 := by
      rw [List.length_append, value.size]
      omega
    change (if short : (value.bytes ++ left).length < 16 then none
      else some (HeaderValue.uuid ⟨(value.bytes ++ left).take 16, _⟩, (value.bytes ++ left).drop 16)) = _
    rw [dif_neg enough]
    simp only [List.take_left' value.size, List.drop_left' value.size]

/-- What has been read is the encoding of the value. -/
theorem encodeValue_decodeValue {block left : Bytes} {value : HeaderValue}
    (decoded : decodeValue block = some (value, left)) :
    ∃ bytes, encodeValue value = some bytes ∧ block = bytes ++ left := by
  cases block with
  | nil => cases decoded
  | cons type block =>
    rw [decodeValue] at decoded
    by_cases true_ : type = kWireBoolTrue
    · rw [if_pos true_] at decoded
      cases decoded
      exact ⟨[kWireBoolTrue], rfl, by rw [true_]; rfl⟩
    rw [if_neg true_] at decoded
    by_cases false_ : type = kWireBoolFalse
    · rw [if_pos false_] at decoded
      cases decoded
      exact ⟨[kWireBoolFalse], rfl, by rw [false_]; rfl⟩
    rw [if_neg false_] at decoded
    by_cases byte : type = kWireByte
    · rw [if_pos byte] at decoded
      obtain ⟨number, small, rfl, rfl⟩ := readNumber_eq_some 1 (by decide)
        (fun number => .byte number.toUInt8.toInt8) decoded
      exact ⟨_, rfl, by rw [writeBigEndian_one, byte]; rfl⟩
    rw [if_neg byte] at decoded
    by_cases short : type = kWireShort
    · rw [if_pos short] at decoded
      obtain ⟨number, small, rfl, rfl⟩ := readNumber_eq_some 2 (by decide)
        (fun number => .short number.toUInt16.toInt16) decoded
      refine ⟨_, rfl, ?_⟩
      rw [UInt16.toUInt16_toInt16, toUInt16_toUInt64_of_lt small, short]
      rfl
    rw [if_neg short] at decoded
    by_cases int : type = kWireInt
    · rw [if_pos int] at decoded
      obtain ⟨number, small, rfl, rfl⟩ := readNumber_eq_some 4 (by decide)
        (fun number => .int number.toUInt32.toInt32) decoded
      refine ⟨_, rfl, ?_⟩
      rw [UInt32.toUInt32_toInt32, toUInt32_toUInt64_of_lt small, int]
      rfl
    rw [if_neg int] at decoded
    by_cases long : type = kWireLong
    · rw [if_pos long] at decoded
      obtain ⟨number, small, rfl, rfl⟩ := readNumber_eq_some 8 (by decide)
        (fun number => .long number.toInt64) decoded
      exact ⟨_, rfl, by rw [long]; rfl⟩
    rw [if_neg long] at decoded
    by_cases array : type = kWireByteArray
    · rw [if_pos array] at decoded
      obtain ⟨⟨bytes, rest⟩, read, made⟩ := Option.bind_eq_some_iff.mp decoded
      cases made
      obtain ⟨rfl, few⟩ := lengthPrefixed_eq_some read
      refine ⟨_, if_neg (Nat.not_lt_of_le few), ?_⟩
      rw [array]
      rfl
    rw [if_neg array] at decoded
    by_cases string : type = kWireString
    · rw [if_pos string] at decoded
      obtain ⟨⟨bytes, rest⟩, read, made⟩ := Option.bind_eq_some_iff.mp decoded
      cases made
      obtain ⟨rfl, few⟩ := lengthPrefixed_eq_some read
      refine ⟨_, if_neg (Nat.not_lt_of_le few), ?_⟩
      rw [string]
      rfl
    rw [if_neg string] at decoded
    by_cases timestamp : type = kWireTimestamp
    · rw [if_pos timestamp] at decoded
      obtain ⟨number, small, rfl, rfl⟩ := readNumber_eq_some 8 (by decide)
        (fun number => .timestamp number.toInt64) decoded
      exact ⟨_, rfl, by rw [timestamp]; rfl⟩
    rw [if_neg timestamp] at decoded
    by_cases uuid : type = kWireUuid
    · rw [if_pos uuid] at decoded
      split_ifs at decoded with few
      cases decoded
      refine ⟨_, rfl, ?_⟩
      rw [uuid, List.cons_append, List.take_append_drop]
    rw [if_neg uuid] at decoded
    cases decoded

/-! ## Header blocks -/

/-- The headers encoded so far stand before the others. -/
theorem encodeHeaders_append (headers : List Header) (done : Bytes) :
    encodeHeaders headers done = (encodeHeaders headers []).map (done ++ ·) := by
  induction headers generalizing done with
  | nil => simp [encodeHeaders, Except.map]
  | cons header rest ih =>
    rw [encodeHeaders, encodeHeaders]
    split_ifs
    · rfl
    · split
      · rfl
      next value _ =>
        rw [ih, ih ([] ++ _ ++ value)]
        cases encodeHeaders rest [] with
        | error error => rfl
        | ok block => simp [Except.map]

/-- A header is its name after the length in one byte, and its value. -/
theorem encodeHeaders_cons_eq_ok {header : Header} {rest : List Header} {block : Bytes} :
    encodeHeaders (header :: rest) [] = .ok block ↔
      0 < header.name.length ∧ header.name.length ≤ 255 ∧ ∃ value tail, encodeValue header.value = some value ∧
        encodeHeaders rest [] = .ok tail ∧
        block = UInt8.ofNat header.name.length :: (header.name ++ (value ++ tail)) := by
  rw [encodeHeaders]
  have named : (header.name.isEmpty || decide (255 < header.name.length)) = true ↔
      ¬ (0 < header.name.length ∧ header.name.length ≤ 255) := by
    rw [Bool.or_eq_true, List.isEmpty_iff_length_eq_zero, decide_eq_true_iff]
    omega
  split_ifs with bad
  · constructor
    · intro failed
      cases failed
    · rintro ⟨some_, few, _⟩
      exact absurd ⟨some_, few⟩ (named.mp bad)
  · obtain ⟨some_, few⟩ := not_not.mp (fun good => bad (named.mpr good))
    cases encoded : encodeValue header.value with
    | none =>
      constructor
      · intro failed
        cases failed
      · rintro ⟨_, _, _, _, impossible, _⟩
        cases impossible
    | some value =>
      simp only
      rw [encodeHeaders_append]
      cases encodeHeaders rest [] with
      | error error => simp [Except.map]
      | ok tail => simp [Except.map, some_, few, eq_comm]

/-- A block is read back from the encoding of its headers. -/
theorem decodeHeaders_encodeHeaders {headers : List Header} {block : Bytes}
    (encoded : encodeHeaders headers [] = .ok block) (fuel : ℕ) (enough : block.length ≤ fuel) :
    decodeHeaders fuel block = .ok headers := by
  induction headers generalizing block fuel with
  | nil =>
    cases encoded
    cases fuel <;> rfl
  | cons header rest ih =>
    obtain ⟨some_, few, value, tail, encodedValue, encodedRest, rfl⟩ := encodeHeaders_cons_eq_ok.mp encoded
    have length : (UInt8.ofNat header.name.length).toNat = header.name.length := by
      rw [UInt8.toNat_ofNat']
      omega
    simp only [List.length_cons, List.length_append] at enough
    obtain ⟨fuel, rfl⟩ : ∃ less, fuel = less + 1 := ⟨fuel - 1, by omega⟩
    have named : ¬ (UInt8.ofNat header.name.length = 0 ∨
        (header.name ++ (value ++ tail)).length < (UInt8.ofNat header.name.length).toNat) := by
      rw [not_or, length, List.length_append]
      refine ⟨fun zero => ?_, by omega⟩
      rw [zero] at length
      exact absurd length (Nat.ne_of_lt some_)
    rw [decodeHeaders, if_neg named, length, List.drop_left, List.take_left,
      decodeValue_encodeValue encodedValue tail]
    simp only
    rw [ih encodedRest fuel (by omega)]
    rfl

/-- The headers read from a block encode to it. -/
theorem encodeHeaders_decodeHeaders {headers : List Header} {block : Bytes} (fuel : ℕ)
    (decoded : decodeHeaders fuel block = .ok headers) : encodeHeaders headers [] = .ok block := by
  induction fuel generalizing headers block with
  | zero =>
    cases block with
    | nil =>
      cases decoded
      rfl
    | cons nameLength block => cases decoded
  | succ fuel ih =>
    cases block with
    | nil =>
      cases decoded
      rfl
    | cons nameLength block =>
      rw [decodeHeaders] at decoded
      split_ifs at decoded with named
      · cases decoded
      split at decoded
      · cases decoded
      next value left read =>
        obtain ⟨headers, others, made⟩ := Outcome.bind_eq_ok.mp decoded
        cases made
        obtain ⟨bytes, encoded, same⟩ := encodeValue_decodeValue read
        obtain ⟨nonzero, enough⟩ := not_or.mp named
        have size : (block.take nameLength.toNat).length = nameLength.toNat := by
          rw [List.length_take]
          omega
        have some_ : 0 < nameLength.toNat :=
          Nat.pos_of_ne_zero fun zero => nonzero (UInt8.toNat.inj zero)
        have few := nameLength.toNat_lt
        rw [encodeHeaders_cons_eq_ok]
        simp only [size]
        refine ⟨some_, by omega, bytes, left, encoded, ih others, ?_⟩
        rw [← same, UInt8.ofNat_toNat, List.take_append_drop]

end OpalCpp.EventStream

import OpalCpp.Model.Cbor.Cbor
import OpalCpp.Proofs.Core.Bytes

/-! # What the CBOR decoder reads

One lemma for each part of an item: where the input goes on with the encoding of a value, the decoder
reads the value and comes to the end of the encoding, whatever follows it.
-/

namespace OpalCpp.Cbor

variable {data rest : Bytes} {pos : ℕ}

/-! ## The initial byte and its argument -/

theorem take_of_drop {byte : UInt8} (remains : data.drop pos = byte :: rest) :
    take data pos = some (byte, pos + 1) := by
  rw [take, (of_drop_eq_cons remains).2.1]
  rfl

/-- The initial byte splits into the major type and the additional information. -/
theorem initial_split (major : Major) {info : UInt8} (small : info.toNat < 32) :
    Major.ofCode (((major.code <<< 5) ||| info) >>> 5) = major ∧
      ((major.code <<< 5) ||| info) &&& 0x1F = info := by
  have all : ∀ info : Fin 32, Major.ofCode (((major.code <<< 5) ||| UInt8.ofNat info) >>> 5) = major ∧
      ((major.code <<< 5) ||| UInt8.ofNat info) &&& 0x1F = UInt8.ofNat info := by
    cases major <;> decide
  have this := all ⟨info.toNat, small⟩
  rwa [UInt8.ofNat_toNat] at this

theorem takeBigEndian_of_drop {value : UInt64} {width : ℕ} (some_ : 0 < width) (fits : width ≤ 8)
    (small : value.toNat < 256 ^ width) (remains : data.drop pos = writeBigEndian value width ++ rest) :
    takeBigEndian data width pos = some (value, pos + width) := by
  obtain ⟨left, read, _⟩ := of_drop_eq_append remains
  rw [length_writeBigEndian] at left read
  rw [takeBigEndian, if_neg (by omega), read, readBigEndian_writeBigEndian fits small]

/-- The item at the position starts with this type and this definite argument, which end at `next`. -/
structure Heads (data : Bytes) (pos : ℕ) (major : Major) (value : UInt64) (next : ℕ) : Prop where
  reads : ∃ initial, take data pos = some (initial, pos + 1) ∧ Major.ofCode (initial >>> 5) = major ∧
    readArgument data (initial &&& 0x1F) (pos + 1) = .ok ((value, false), next)

/-- An argument in bytes of its own. -/
theorem heads_wide {major : Major} {value : UInt64} {info : UInt8} {width : ℕ}
    (known : (info, width) ∈ [((24 : UInt8), 1), (25, 2), (26, 4), (27, 8)])
    (small : value.toNat < 256 ^ width)
    (remains : data.drop pos = ((major.code <<< 5) ||| info) :: (writeBigEndian value width ++ rest)) :
    Heads data pos major value (pos + 1 + width) := by
  have shape : info.toNat < 32 ∧ ¬ info < 24 ∧ (info = 24 ∨ info = 25 ∨ info = 26 ∨ info = 27) ∧
      1 <<< (info.toNat - 24) = width ∧ 0 < width ∧ width ≤ 8 := by
    simp only [List.mem_cons, Prod.mk.injEq, List.not_mem_nil, or_false] at known
    obtain ⟨rfl, rfl⟩ | ⟨rfl, rfl⟩ | ⟨rfl, rfl⟩ | ⟨rfl, rfl⟩ := known <;> decide
  obtain ⟨five, long, wide, count, some_, fits⟩ := shape
  obtain ⟨typed, argument⟩ := initial_split major five
  refine ⟨_, take_of_drop remains, typed, ?_⟩
  rw [argument, readArgument, if_neg long, if_pos wide, count,
    takeBigEndian_of_drop some_ fits small (of_drop_eq_cons remains).2.2]

/-- Every argument is read back, in the width it was written with. -/
theorem heads_of_drop {major : Major} {value : UInt64}
    (remains : data.drop pos = writeTypeAndValue major value ++ rest) :
    Heads data pos major value (pos + (writeTypeAndValue major value).length) := by
  simp only [writeTypeAndValue] at remains ⊢
  split_ifs at remains ⊢ with tiny byte short word
  · have small : value.toNat < 24 := UInt64.lt_iff_toNat_lt.mp tiny
    have info : value.toUInt8.toNat = value.toNat := by
      rw [UInt64.toNat_toUInt8]
      omega
    obtain ⟨typed, argument⟩ := initial_split major (by omega : value.toUInt8.toNat < 32)
    refine ⟨_, take_of_drop remains, typed, ?_⟩
    have below : value.toUInt8 < 24 := by
      rw [UInt8.lt_iff_toNat_lt, info]
      exact small
    have same : value.toUInt8.toUInt64 = value := by
      apply UInt64.toNat.inj
      rw [UInt8.toNat_toUInt64, info]
    rw [argument, readArgument, if_pos below, same]
    rfl
  · have small : value.toNat ≤ 255 := UInt64.le_iff_toNat_le.mp byte
    rw [← writeBigEndian_one] at remains
    exact heads_wide (by decide) (Nat.lt_succ_of_le small) remains
  · have small : value.toNat ≤ 65535 := UInt64.le_iff_toNat_le.mp short
    rw [List.length_cons, length_writeBigEndian]
    exact heads_wide (by decide) (Nat.lt_succ_of_le small) remains
  · have small : value.toNat ≤ 4294967295 := UInt64.le_iff_toNat_le.mp word
    rw [List.length_cons, length_writeBigEndian]
    exact heads_wide (by decide) (Nat.lt_succ_of_le small) remains
  · rw [List.length_cons, length_writeBigEndian]
    exact heads_wide (by decide) value.toNat_lt remains

/-- The input goes on after the argument. -/
theorem drop_of_heads {major : Major} {value : UInt64} {more : Bytes}
    (remains : data.drop pos = writeTypeAndValue major value ++ more) :
    data.drop (pos + (writeTypeAndValue major value).length) = more :=
  (of_drop_eq_append remains).2.2

/-! ## Scalars -/

theorem decodeInteger_of_heads {major : Major} {value : UInt64} {next : ℕ} {depth : ℕ} {make : Int64 → Int64}
    (heads : Heads data pos major value next) (small : value ≤ Int64.maxValue.toUInt64)
    (kind : major = .unsigned ∧ (make = fun value => value) ∨ major = .negative ∧ make = fun value => -1 - value) :
    decodeValue data (depth + 1) pos = .ok (.int (make value.toInt64), next) := by
  obtain ⟨initial, taken, typed, argument⟩ := heads
  have integer : decodeInteger data (initial &&& 0x1F) (pos + 1) make = .ok (.int (make value.toInt64), next) := by
    rw [decodeInteger, argument]
    change (if Int64.maxValue.toUInt64 < value then _ else _) = _
    rw [if_neg (UInt64.not_lt.mpr small)]
    rfl
  rw [decodeValue, taken]
  dsimp only
  rw [typed]
  obtain ⟨rfl, rfl⟩ | ⟨rfl, rfl⟩ := kind
  · exact integer
  · exact integer

theorem decodeValue_writeInt {value : Int64} {depth : ℕ} (remains : data.drop pos = writeInt value ++ rest) :
    decodeValue data (depth + 1) pos = .ok (.int value, pos + (writeInt value).length) := by
  rw [writeInt] at remains ⊢
  split_ifs at remains ⊢ with nonneg
  · rw [decodeInteger_of_heads (heads_of_drop remains) _ (.inl ⟨rfl, rfl⟩), Int64.toInt64_toUInt64]
    exact Int64.toUInt64_le nonneg (Int64.le_maxValue value)
  · rw [decodeInteger_of_heads (heads_of_drop remains) _ (.inr ⟨rfl, rfl⟩), Int64.toInt64_toUInt64]
    · have back : -1 - -(value + 1) = value := by
        rw [Int64.sub_neg, Int64.add_comm value, ← Int64.add_assoc]
        exact Int64.zero_add value
      rw [back]
    · apply Int64.toUInt64_le _ (Int64.le_maxValue _)
      rw [Int64.le_iff_toInt_le, Int64.toInt_neg, Int64.toInt_add]
      have negative := Int64.not_le.mp nonneg
      rw [Int64.lt_iff_toInt_lt] at negative
      have least := value.le_toInt
      have zero : Int64.toInt 0 = 0 := rfl
      have one : Int64.toInt 1 = 1 := rfl
      rw [zero] at negative ⊢
      have next : (value.toInt + 1).bmod (2 ^ 64) = value.toInt + 1 := Int.bmod_eq_of_le (by omega) (by omega)
      rw [one, next, Int.bmod_eq_of_le (by omega) (by omega)]
      omega

theorem decodeValue_writeDouble {value : Binary64} {depth : ℕ}
    (remains : data.drop pos = writeDouble value ++ rest) :
    decodeValue data (depth + 1) pos = .ok (.double value, pos + (writeDouble value).length) := by
  rw [writeDouble] at remains ⊢
  have taken := takeBigEndian_of_drop (by decide) (by decide) value.bits.toNat_lt (of_drop_eq_cons remains).2.2
  rw [decodeValue, take_of_drop remains]
  change decodeSimple data 27 (pos + 1) = _
  have width : 1 <<< ((27 : UInt8).toNat - 24) = 8 := rfl
  rw [decodeSimple, if_neg (by decide), if_neg (by decide), if_neg (by decide), if_pos (by decide), width, taken,
    List.length_cons, length_writeBigEndian]
  rfl

/-- A simple value in the initial byte. -/
theorem decodeValue_simple {info : UInt8} {depth : ℕ} {value : Document}
    (known : (info, value) ∈ [(kSimpleFalse, .bool false), (kSimpleTrue, .bool true), (kSimpleNull, .null)])
    (remains : data.drop pos = [(Major.simple.code <<< 5) ||| info] ++ rest) :
    decodeValue data (depth + 1) pos = .ok (value, pos + 1) := by
  rw [decodeValue, take_of_drop remains]
  simp only [List.mem_cons, Prod.mk.injEq, List.not_mem_nil, or_false] at known
  obtain ⟨rfl, rfl⟩ | ⟨rfl, rfl⟩ | ⟨rfl, rfl⟩ := known
  · rfl
  · rfl
  · rfl

/-! ## Strings -/

theorem toNat_length {n : ℕ} (fits : n < 2 ^ 63) : (UInt64.ofNat n).toNat = n := by
  rw [UInt64.toNat_ofNat']
  omega

theorem decodeChunkedString_of_drop {major : Major} {text : Bytes} (fits : text.length < 2 ^ 63)
    (remains : data.drop pos = text ++ rest) :
    decodeChunkedString data major false (UInt64.ofNat text.length) pos = .ok (text, pos + text.length) := by
  obtain ⟨left, read, _⟩ := of_drop_eq_append remains
  rw [decodeChunkedString, if_neg (by decide), toNat_length fits, if_neg (by omega), read]

/-- A string of text or of bytes. -/
theorem decodeValue_string {major : Major} {make : Bytes → Document} {text : Bytes} {depth : ℕ}
    (kind : major = .text ∧ make = .string ∨ major = .bytes ∧ make = .blob) (fits : text.length < 2 ^ 63)
    (remains : data.drop pos = writeTypeAndValue major (UInt64.ofNat text.length) ++ text ++ rest) :
    decodeValue data (depth + 1) pos = .ok (make text,
      pos + (writeTypeAndValue major (UInt64.ofNat text.length) ++ text).length) := by
  rw [List.append_assoc] at remains
  obtain ⟨initial, taken, typed, argument⟩ := heads_of_drop remains
  have string : (do
      let argument ← readArgument data (initial &&& 0x1F) (pos + 1)
      let read ← decodeChunkedString data major argument.1.2 argument.1.1 argument.2
      return (make read.1, read.2) : Outcome (Document × ℕ)) = .ok (make text,
        pos + (writeTypeAndValue major (UInt64.ofNat text.length) ++ text).length) := by
    rw [argument]
    change (decodeChunkedString data major false _ _ >>= _) = _
    rw [decodeChunkedString_of_drop fits (drop_of_heads remains), List.length_append, Nat.add_assoc]
    rfl
  rw [decodeValue, taken]
  dsimp only
  rw [typed]
  obtain ⟨rfl, rfl⟩ | ⟨rfl, rfl⟩ := kind
  · exact string
  · exact string

/-! ## Counters -/

/-- The counter of a loop with elements left to read. -/
theorem counter_next {i length : UInt64} {left : ℕ} (count : length.toNat = i.toNat + (left + 1)) :
    i < length ∧ length.toNat = (i + 1).toNat + left := by
  have bound := length.toNat_lt
  constructor
  · rw [UInt64.lt_iff_toNat_lt]
    omega
  · rw [UInt64.toNat_add, UInt64.toNat_one]
    omega

theorem counter_done {i length : UInt64} (count : length.toNat = i.toNat) : ¬ i < length := by
  rw [UInt64.lt_iff_toNat_lt]
  omega

end OpalCpp.Cbor

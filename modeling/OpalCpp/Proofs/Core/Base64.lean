import Mathlib.Data.List.Basic
import Mathlib.Tactic.Common
import OpalCpp.Model.Core.Base64

/-! # Base64 is a bijection

Three bytes are one number, of which the characters of a group are the digits. The decoder accepts a group
exactly if the encoder writes it for the bytes it gives, so the texts that it accepts are the encodings.
-/

namespace OpalCpp

namespace Base64

abbrev pad : UInt8 := '='.toUInt8

/-! ## Characters -/

/-- The character of a digit. -/
def letter (value : ℕ) : UInt8 := kAlphabet.getD value 0

theorem letter_ne_pad {value : ℕ} (small : value < 64) : letter value ≠ pad := by
  have all : ∀ value < 64, letter value ≠ pad := by decide +kernel
  exact all value small

theorem kDecode_letter {value : ℕ} (small : value < 64) : kDecode (letter value) = some (UInt32.ofNat value) := by
  have all : ∀ value < 64, kDecode (letter value) = some (UInt32.ofNat value) := by decide +kernel
  exact all value small

theorem exists_letter {c : UInt8} {value : UInt32} (decoded : kDecode c = some value) :
    ∃ digit < 64, c = letter digit ∧ value = UInt32.ofNat digit := by
  rw [kDecode] at decoded
  split_ifs at decoded with member
  have inside : kAlphabet.idxOf c < kAlphabet.length := List.idxOf_lt_length_iff.mpr member
  refine ⟨kAlphabet.idxOf c, inside, ?_, (Option.some.inj decoded).symm⟩
  rw [letter, List.getD_eq_getElem?_getD, List.getElem?_eq_getElem inside, List.getElem_idxOf, Option.getD_some]

/-- What a character of a group does to the padding and the bits so far. -/
theorem base64Character_ok {last : Bool} {j padding : ℕ} {c next : UInt8} {group : UInt32} {state : ℕ × UInt32} :
    base64Character last j c next (padding, group) = .ok state ↔
      (c = pad ∧ last = true ∧ 2 ≤ j ∧ (j = 2 → next = pad) ∧ state = (padding + 1, group <<< 6)) ∨
        ∃ value < 64, c = letter value ∧ state = (padding, (group <<< 6) ||| UInt32.ofNat value) := by
  rw [base64Character]
  by_cases padded : c = pad
  · subst padded
    have other : ¬ ∃ value < 64, pad = letter value ∧ state = (padding, (group <<< 6) ||| UInt32.ofNat value) := by
      rintro ⟨value, small, same, _⟩
      exact letter_ne_pad small same.symm
    rw [if_pos rfl, or_iff_left other]
    split_ifs with misplaced
    · simp only [Bool.or_eq_true, Bool.and_eq_true, Bool.not_eq_true', decide_eq_true_eq] at misplaced
      constructor
      · rintro ⟨⟩
      · rintro ⟨_, rfl, two, paired, _⟩
        obtain (notLast | early) | ⟨third, alone⟩ := misplaced
        · cases notLast
        · omega
        · exact absurd (paired third) alone
    · simp only [Bool.or_eq_true, Bool.and_eq_true, Bool.not_eq_true', decide_eq_true_eq, not_or, not_and, not_not,
        Bool.not_eq_false, Nat.not_lt] at misplaced
      constructor
      · intro same
        exact ⟨rfl, misplaced.1.1, misplaced.1.2, misplaced.2, (Except.ok.inj same).symm⟩
      · rintro ⟨_, _, _, _, rfl⟩
        rfl
  · rw [if_neg padded, or_iff_right (fun here => padded here.1)]
    cases decoded : kDecode c with
    | none =>
      constructor
      · rintro ⟨⟩
      · rintro ⟨value, small, rfl, _⟩
        rw [kDecode_letter small] at decoded
        cases decoded
    | some value =>
      constructor
      · intro same
        obtain ⟨digit, small, here, rfl⟩ := exists_letter decoded
        exact ⟨digit, small, here, (Except.ok.inj same).symm⟩
      · rintro ⟨digit, small, rfl, rfl⟩
        rw [kDecode_letter small] at decoded
        obtain rfl := Option.some.inj decoded
        rfl

/-! ## Bits -/

theorem toNat_shift {group : UInt32} (fits : group.toNat < 2 ^ 26) : (group <<< 6).toNat = group.toNat * 64 := by
  have shift : (6 : UInt32).toNat % 32 = 6 := rfl
  rw [UInt32.toNat_shiftLeft, shift, Nat.shiftLeft_eq]
  exact Nat.mod_eq_of_lt (by omega)

theorem toNat_shift_or {group : UInt32} {value : ℕ} (fits : group.toNat < 2 ^ 26) (small : value < 64) :
    ((group <<< 6) ||| UInt32.ofNat value).toNat = group.toNat * 64 + value := by
  have bits : value < 2 ^ 6 := small
  have apart := Nat.shiftLeft_add_eq_or_of_lt bits group.toNat
  rw [Nat.shiftLeft_eq] at apart
  rw [UInt32.toNat_or, toNat_shift fits, UInt32.toNat_ofNat', Nat.mod_eq_of_lt (by omega)]
  exact apart.symm

theorem sextet_eq (group : UInt32) {shift : ℕ} (small : shift < 32) :
    sextet group (UInt32.ofNat shift) = letter (group.toNat / 2 ^ shift % 64) := by
  have distance : (UInt32.ofNat shift).toNat % 32 = shift := by
    rw [UInt32.toNat_ofNat']
    omega
  have mask : (0x3F : UInt32).toNat = 2 ^ 6 - 1 := rfl
  rw [sextet, letter, UInt32.toNat_and, UInt32.toNat_shiftRight, distance, mask, Nat.and_two_pow_sub_one_eq_mod,
    Nat.shiftRight_eq_div_pow]

/-- A byte of a group of bits. -/
theorem byte_eq (group : UInt32) {shift : ℕ} (small : shift < 32) :
    ((group >>> UInt32.ofNat shift) &&& 0xFF).toUInt8 = UInt8.ofNat (group.toNat / 2 ^ shift % 256) := by
  have distance : (UInt32.ofNat shift).toNat % 32 = shift := by
    rw [UInt32.toNat_ofNat']
    omega
  have mask : (0xFF : UInt32).toNat = 2 ^ 8 - 1 := rfl
  apply UInt8.toNat.inj
  rw [UInt32.toNat_toUInt8, UInt32.toNat_and, UInt32.toNat_shiftRight, distance, mask, Nat.and_two_pow_sub_one_eq_mod,
    Nat.shiftRight_eq_div_pow, UInt8.toNat_ofNat', Nat.mod_mod]

theorem masked_eq (group : UInt32) (bits : ℕ) (mask : UInt32) (isMask : mask.toNat = 2 ^ bits - 1) :
    group &&& mask = 0 ↔ group.toNat % 2 ^ bits = 0 := by
  rw [← UInt32.toNat_inj, UInt32.toNat_and, isMask, Nat.and_two_pow_sub_one_eq_mod]
  rfl

/-- The number of a group of four digits. -/
def number (a b c d : ℕ) : ℕ := ((a * 64 + b) * 64 + c) * 64 + d

theorem base64Character_letter (last : Bool) (j : ℕ) (next : UInt8) (padding : ℕ) (group : UInt32) {value : ℕ}
    (small : value < 64) :
    base64Character last j (letter value) next (padding, group) = .ok (padding, (group <<< 6) ||| UInt32.ofNat value) :=
  base64Character_ok.mpr (.inr ⟨value, small, rfl, rfl⟩)

theorem base64Character_pad {j : ℕ} {next : UInt8} (late : 2 ≤ j) (paired : j = 2 → next = pad) (padding : ℕ)
    (group : UInt32) :
    base64Character true j pad next (padding, group) = .ok (padding + 1, group <<< 6) :=
  base64Character_ok.mpr (.inl ⟨rfl, rfl, late, paired, rfl⟩)

/-- The end of a group, with its padding and its bits. -/
def base64Bytes (padding : ℕ) (group : UInt32) : Outcome Bytes :=
  if padding = 1 ∧ group &&& 0xFF ≠ 0 ∨ padding = 2 ∧ group &&& 0xFFFF ≠ 0 then
    .error (.Serialization "base64: non-canonical trailing bits")
  else
    .ok ([((group >>> 16) &&& 0xFF).toUInt8] ++ (if padding < 2 then [((group >>> 8) &&& 0xFF).toUInt8] else []) ++
      if padding < 1 then [(group &&& 0xFF).toUInt8] else [])

/-- A group is accepted with four characters of the alphabet, or at the end with three or two and padding. -/
theorem base64Group_ok {last : Bool} {a b c d : UInt8} {bytes : Bytes} (accepted : base64Group last a b c d = .ok bytes) :
    ∃ group padding, base64Bytes padding group = .ok bytes ∧ ∃ first < 64, ∃ second < 64,
      a = letter first ∧ b = letter second ∧
      ((∃ third < 64, ∃ fourth < 64,
        c = letter third ∧ d = letter fourth ∧ padding = 0 ∧ group.toNat = number first second third fourth) ∨
        (∃ third < 64, last = true ∧ c = letter third ∧ d = pad ∧ padding = 1 ∧ group.toNat = number first second third 0) ∨
        (last = true ∧ c = pad ∧ d = pad ∧ padding = 2 ∧ group.toNat = number first second 0 0)) := by
  obtain ⟨state, one, accepted⟩ := Outcome.bind_eq_ok.mp accepted
  obtain ⟨_, _, early, _⟩ | ⟨first, firstSmall, rfl, rfl⟩ := base64Character_ok.mp one
  · exact absurd early (by decide)
  obtain ⟨state, two, accepted⟩ := Outcome.bind_eq_ok.mp accepted
  obtain ⟨_, _, early, _⟩ | ⟨second, secondSmall, rfl, rfl⟩ := base64Character_ok.mp two
  · exact absurd early (by decide)
  obtain ⟨state, three, accepted⟩ := Outcome.bind_eq_ok.mp accepted
  obtain ⟨⟨padding, group⟩, four, accepted⟩ := Outcome.bind_eq_ok.mp accepted
  have bits : (((0 : UInt32) <<< 6 ||| UInt32.ofNat first) <<< 6 ||| UInt32.ofNat second).toNat = first * 64 + second := by
    have head := toNat_shift_or (by decide : (0 : UInt32).toNat < 2 ^ 26) firstSmall
    rw [toNat_shift_or (by rw [head]; change 0 * 64 + first < _; omega) secondSmall, head]
    change (0 * 64 + first) * 64 + second = _
    omega
  generalize ((0 : UInt32) <<< 6 ||| UInt32.ofNat first) <<< 6 ||| UInt32.ofNat second = half at bits three
  refine ⟨group, padding, accepted, first, firstSmall, second, secondSmall, rfl, rfl, ?_⟩
  obtain ⟨rfl, rfl, _, paired, rfl⟩ | ⟨third, thirdSmall, rfl, rfl⟩ := base64Character_ok.mp three
  · obtain rfl := paired rfl
    obtain ⟨_, _, _, _, same⟩ | ⟨fourth, fourthSmall, same, _⟩ := base64Character_ok.mp four
    · obtain ⟨rfl, rfl⟩ := Prod.mk.inj same
      refine .inr (.inr ⟨rfl, rfl, rfl, rfl, ?_⟩)
      have third : (half <<< 6).toNat = (first * 64 + second) * 64 := by rw [toNat_shift (by omega), bits]
      rw [toNat_shift (by omega), third, number, Nat.add_zero, Nat.add_zero]
    · exact absurd same.symm (letter_ne_pad fourthSmall)
  · have head : (half <<< 6 ||| UInt32.ofNat third).toNat = (first * 64 + second) * 64 + third := by
      rw [toNat_shift_or (by omega) thirdSmall, bits]
    obtain ⟨rfl, rfl, _, _, same⟩ | ⟨fourth, fourthSmall, rfl, same⟩ := base64Character_ok.mp four
    · obtain ⟨rfl, rfl⟩ := Prod.mk.inj same
      refine .inr (.inl ⟨third, thirdSmall, rfl, rfl, rfl, rfl, ?_⟩)
      rw [toNat_shift (by omega), head, number, Nat.add_zero]
    · obtain ⟨rfl, rfl⟩ := Prod.mk.inj same
      refine .inl ⟨third, thirdSmall, fourth, fourthSmall, rfl, rfl, rfl, ?_⟩
      rw [toNat_shift_or (by omega) fourthSmall, head, number]

/-- Two characters of the alphabet, and then the other two. -/
theorem base64Group_letters (last : Bool) {first second : ℕ} (one : first < 64) (two : second < 64) (c d : UInt8) :
    ∃ half : UInt32, half.toNat = first * 64 + second ∧ base64Group last (letter first) (letter second) c d =
      (base64Character last 2 c d (0, half)).bind fun state =>
        (base64Character last 3 d 0 state).bind fun state => base64Bytes state.1 state.2 := by
  refine ⟨((0 : UInt32) <<< 6 ||| UInt32.ofNat first) <<< 6 ||| UInt32.ofNat second, ?_, ?_⟩
  · have head := toNat_shift_or (by decide : (0 : UInt32).toNat < 2 ^ 26) one
    rw [toNat_shift_or (by rw [head]; change 0 * 64 + first < _; omega) two, head]
    change (0 * 64 + first) * 64 + second = _
    omega
  · have head := base64Character_letter last 0 (letter second) 0 0 one
    have next := base64Character_letter last 1 c 0 ((0 : UInt32) <<< 6 ||| UInt32.ofNat first) two
    rw [base64Group, head]
    change (base64Character last 1 (letter second) c _).bind _ = _
    rw [next]
    rfl

/-! ## Groups -/

theorem toNat_mask (group : UInt32) : (group &&& 0xFF).toUInt8 = UInt8.ofNat (group.toNat % 256) := by
  have whole := byte_eq group (by decide : 0 < 32)
  rw [Nat.pow_zero, Nat.div_one] at whole
  rw [← whole]
  congr 2

/-- The bytes of a group, if the bits that they leave are zero. -/
theorem base64Bytes_ok {padding : ℕ} {group : UInt32} {bytes : Bytes} (fits : group.toNat < 2 ^ 24) :
    base64Bytes padding group = .ok bytes ↔
      (padding = 1 → group.toNat % 256 = 0) ∧ (padding = 2 → group.toNat % 65536 = 0) ∧
      bytes = UInt8.ofNat (group.toNat / 65536) :: ((if padding < 2 then [UInt8.ofNat (group.toNat / 256 % 256)] else []) ++
        if padding < 1 then [UInt8.ofNat (group.toNat % 256)] else []) := by
  have top : group.toNat / 2 ^ 16 % 256 = group.toNat / 65536 := Nat.mod_eq_of_lt (by omega)
  have one := masked_eq group 8 0xFF rfl
  have two := masked_eq group 16 0xFFFF rfl
  have high : ((group >>> 16) &&& 0xFF).toUInt8 = UInt8.ofNat (group.toNat / 2 ^ 16 % 256) :=
    byte_eq group (by decide : 16 < 32)
  have middle : ((group >>> 8) &&& 0xFF).toUInt8 = UInt8.ofNat (group.toNat / 2 ^ 8 % 256) :=
    byte_eq group (by decide : 8 < 32)
  rw [base64Bytes, high, middle, toNat_mask, top]
  split
  next trailing =>
    rw [ne_eq, one, ne_eq, two] at trailing
    constructor
    · rintro ⟨⟩
    · rintro ⟨none_, none_', _⟩
      obtain ⟨padded, set⟩ | ⟨padded, set⟩ := trailing
      · exact absurd (none_ padded) set
      · exact absurd (none_' padded) set
  next trailing =>
    rw [ne_eq, one, ne_eq, two, not_or, not_and, not_and, not_not, not_not] at trailing
    constructor
    · intro same
      exact ⟨trailing.1, trailing.2, (Except.ok.inj same).symm⟩
    · rintro ⟨_, _, rfl⟩
      rfl

/-! ## The encoder -/

theorem toNat_ofNat {value : ℕ} (small : value < 256) : (UInt8.ofNat value).toNat = value := by
  rw [UInt8.toNat_ofNat']
  exact Nat.mod_eq_of_lt small

theorem toNat_join (high low : UInt32) (shift : ℕ) (one : high.toNat % 2 ^ shift = 0) (two : low.toNat < 2 ^ shift) :
    (high ||| low).toNat = high.toNat + low.toNat := by
  have whole : high.toNat / 2 ^ shift * 2 ^ shift = high.toNat := Nat.div_mul_cancel (Nat.dvd_of_mod_eq_zero one)
  have apart := Nat.shiftLeft_add_eq_or_of_lt two (high.toNat / 2 ^ shift)
  rw [Nat.shiftLeft_eq, whole] at apart
  rw [UInt32.toNat_or, apart]

theorem toNat_high (byte : UInt8) : (byte.toUInt32 <<< 16).toNat = byte.toNat * 65536 := by
  have small := byte.toNat_lt
  have shift : (16 : UInt32).toNat % 32 = 16 := rfl
  rw [UInt32.toNat_shiftLeft, shift, Nat.shiftLeft_eq, UInt8.toNat_toUInt32]
  exact Nat.mod_eq_of_lt (by omega)

theorem toNat_middle (byte : UInt8) : (byte.toUInt32 <<< 8).toNat = byte.toNat * 256 := by
  have small := byte.toNat_lt
  have shift : (8 : UInt32).toNat % 32 = 8 := rfl
  rw [UInt32.toNat_shiftLeft, shift, Nat.shiftLeft_eq, UInt8.toNat_toUInt32]
  exact Nat.mod_eq_of_lt (by omega)

theorem toNat_two (x y : UInt8) : ((x.toUInt32 <<< 16) ||| (y.toUInt32 <<< 8)).toNat = x.toNat * 65536 + y.toNat * 256 := by
  have small := y.toNat_lt
  have joined :=
    toNat_join (x.toUInt32 <<< 16) (y.toUInt32 <<< 8) 16 (by rw [toNat_high]; omega) (by rw [toNat_middle]; omega)
  rw [joined, toNat_high, toNat_middle]

theorem toNat_three (x y z : UInt8) : ((x.toUInt32 <<< 16) ||| (y.toUInt32 <<< 8) ||| z.toUInt32).toNat =
    x.toNat * 65536 + y.toNat * 256 + z.toNat := by
  have small := z.toNat_lt
  have joined := toNat_join ((x.toUInt32 <<< 16) ||| (y.toUInt32 <<< 8)) z.toUInt32 8 (by rw [toNat_two]; omega)
    (by rw [UInt8.toNat_toUInt32]; omega)
  rw [joined, toNat_two, UInt8.toNat_toUInt32]

/-- The characters of a number. -/
def letters (number : ℕ) : Bytes :=
  [letter (number / 2 ^ 18 % 64), letter (number / 2 ^ 12 % 64), letter (number / 2 ^ 6 % 64), letter (number % 64)]

theorem letters_eq (group : UInt32) :
    letters group.toNat = [sextet group 18, sextet group 12, sextet group 6, sextet group 0] := by
  have first := sextet_eq group (by decide : 18 < 32)
  have second := sextet_eq group (by decide : 12 < 32)
  have third := sextet_eq group (by decide : 6 < 32)
  have fourth := sextet_eq group (by decide : 0 < 32)
  rw [Nat.pow_zero, Nat.div_one] at fourth
  rw [letters, ← first, ← second, ← third, ← fourth]
  rfl

theorem base64Encode_one (x : UInt8) : base64Encode [x] = (letters (x.toNat * 65536)).take 2 ++ [pad, pad] := by
  have same := letters_eq (x.toUInt32 <<< 16)
  rw [toNat_high] at same
  rw [same]
  rfl

theorem base64Encode_two (x y : UInt8) :
    base64Encode [x, y] = (letters (x.toNat * 65536 + y.toNat * 256)).take 3 ++ [pad] := by
  have same := letters_eq ((x.toUInt32 <<< 16) ||| (y.toUInt32 <<< 8))
  rw [toNat_two] at same
  rw [same]
  rfl

theorem base64Encode_three (x y z : UInt8) (rest : Bytes) : base64Encode (x :: y :: z :: rest) =
    letters (x.toNat * 65536 + y.toNat * 256 + z.toNat) ++ base64Encode rest := by
  have same := letters_eq ((x.toUInt32 <<< 16) ||| (y.toUInt32 <<< 8) ||| z.toUInt32)
  rw [toNat_three] at same
  rw [same, base64Encode]

/-- The digits of a number are the characters that it is written with. -/
theorem letters_number {a b c d : ℕ} (one : a < 64) (two : b < 64) (three : c < 64) (four : d < 64) :
    letters (number a b c d) = [letter a, letter b, letter c, letter d] := by
  have first : number a b c d / 2 ^ 18 % 64 = a := by
    rw [number]
    omega
  have second : number a b c d / 2 ^ 12 % 64 = b := by
    rw [number]
    omega
  have third : number a b c d / 2 ^ 6 % 64 = c := by
    rw [number]
    omega
  have fourth : number a b c d % 64 = d := by
    rw [number]
    omega
  rw [letters, first, second, third, fourth]

/-- Every number of 24 bits is one of four digits. -/
theorem exists_digits {n : ℕ} (fits : n < 2 ^ 24) : ∃ a < 64, ∃ b < 64, ∃ c < 64, ∃ d < 64, number a b c d = n := by
  refine ⟨n / 2 ^ 18, by omega, n / 2 ^ 12 % 64, by omega, n / 2 ^ 6 % 64, by omega, n % 64, by omega, ?_⟩
  rw [number]
  omega

/-! ## Texts -/

/-- A group that is accepted is what the encoder writes for its bytes, of which there are fewer than three at
the end alone. -/
theorem encode_of_group {last : Bool} {a b c d : UInt8} {bytes : Bytes} (accepted : base64Group last a b c d = .ok bytes) :
    base64Encode bytes = [a, b, c, d] ∧ (bytes.length = 3 ∨ last = true) := by
  obtain ⟨group, padding, whole, first, one, second, two, rfl, rfl, here⟩ := base64Group_ok accepted
  have fits : group.toNat < 2 ^ 24 := by
    obtain ⟨third, three, fourth, four, _, _, _, value⟩ | ⟨third, three, _, _, _, _, value⟩ | ⟨_, _, _, _, value⟩ := here
    all_goals
      rw [value, number]
      omega
  obtain ⟨half, quarter, rfl⟩ := (base64Bytes_ok fits).mp whole
  obtain ⟨third, three, fourth, four, rfl, rfl, rfl, value⟩ | ⟨third, three, rfl, rfl, rfl, rfl, value⟩ |
    ⟨rfl, rfl, rfl, rfl, value⟩ := here
  · refine ⟨?_, .inl rfl⟩
    have bytes :=
      base64Encode_three (UInt8.ofNat (group.toNat / 65536)) (UInt8.ofNat (group.toNat / 256 % 256))
        (UInt8.ofNat (group.toNat % 256)) []
    rw [toNat_ofNat (by omega), toNat_ofNat (by omega), toNat_ofNat (by omega)] at bytes
    have sum : group.toNat / 65536 * 65536 + group.toNat / 256 % 256 * 256 + group.toNat % 256 = group.toNat := by omega
    rw [sum, value, letters_number one two three four] at bytes
    rw [value]
    exact bytes
  · refine ⟨?_, .inr rfl⟩
    have bytes := base64Encode_two (UInt8.ofNat (group.toNat / 65536)) (UInt8.ofNat (group.toNat / 256 % 256))
    rw [toNat_ofNat (by omega), toNat_ofNat (by omega)] at bytes
    have trailing := half rfl
    have sum : group.toNat / 65536 * 65536 + group.toNat / 256 % 256 * 256 = group.toNat := by omega
    rw [sum, value, letters_number one two three (by decide)] at bytes
    rw [value]
    exact bytes
  · refine ⟨?_, .inr rfl⟩
    have bytes := base64Encode_one (UInt8.ofNat (group.toNat / 65536))
    rw [toNat_ofNat (by omega)] at bytes
    have trailing := quarter rfl
    have sum : group.toNat / 65536 * 65536 = group.toNat := by omega
    rw [sum, value, letters_number one two (by decide) (by decide)] at bytes
    rw [value]
    exact bytes

/-- The number of a group, from the bytes of which it is the number. -/
theorem base64Bytes_of {padding : ℕ} {group : UInt32} {x y z : ℕ} (first : x < 256) (second : y < 256) (third : z < 256)
    (value : group.toNat = x * 65536 + y * 256 + z) (one : padding = 1 → z = 0) (two : padding = 2 → y = 0 ∧ z = 0) :
    base64Bytes padding group = .ok (UInt8.ofNat x :: ((if padding < 2 then [UInt8.ofNat y] else []) ++
      if padding < 1 then [UInt8.ofNat z] else [])) := by
  have high : group.toNat / 65536 = x := by omega
  have middle : group.toNat / 256 % 256 = y := by omega
  have low : group.toNat % 256 = z := by omega
  rw [base64Bytes_ok (by omega), high, middle, low]
  refine ⟨one, ?_, rfl⟩
  intro padded
  have zeros := two padded
  omega

theorem group_three (last : Bool) (x y z : UInt8) {a b c d : UInt8}
    (written : letters (x.toNat * 65536 + y.toNat * 256 + z.toNat) = [a, b, c, d]) :
    base64Group last a b c d = .ok [x, y, z] := by
  have firstByte := x.toNat_lt
  have secondByte := y.toNat_lt
  have thirdByte := z.toNat_lt
  obtain ⟨first, one, second, two, third, three, fourth, four, same⟩ :=
    exists_digits (by omega : x.toNat * 65536 + y.toNat * 256 + z.toNat < 2 ^ 24)
  rw [← same, letters_number one two three four] at written
  cases written
  obtain ⟨half, bits, group⟩ := base64Group_letters last one two (letter third) (letter fourth)
  have quarters : (half <<< 6 ||| UInt32.ofNat third).toNat = half.toNat * 64 + third := toNat_shift_or (by omega) three
  have value : (((half <<< 6) ||| UInt32.ofNat third) <<< 6 ||| UInt32.ofNat fourth).toNat =
      x.toNat * 65536 + y.toNat * 256 + z.toNat := by
    rw [toNat_shift_or (by omega) four, quarters, bits, ← same, number]
  rw [group, base64Character_letter last 2 _ 0 half three, Except.bind, base64Character_letter last 3 _ 0 _ four,
    Except.bind, base64Bytes_of firstByte secondByte thirdByte value (by simp) (by simp)]
  simp

theorem group_two (x y : UInt8) {a b c d : UInt8} (written : letters (x.toNat * 65536 + y.toNat * 256) = [a, b, c, d]) :
    base64Group true a b c pad = .ok [x, y] := by
  have firstByte := x.toNat_lt
  have secondByte := y.toNat_lt
  obtain ⟨first, one, second, two, third, three, fourth, four, same⟩ :=
    exists_digits (by omega : x.toNat * 65536 + y.toNat * 256 < 2 ^ 24)
  have none_ : fourth = 0 := by
    rw [number] at same
    omega
  rw [← same, letters_number one two three four] at written
  cases written
  obtain ⟨half, bits, group⟩ := base64Group_letters true one two (letter third) pad
  have quarters : (half <<< 6 ||| UInt32.ofNat third).toNat = half.toNat * 64 + third := toNat_shift_or (by omega) three
  have value : (((half <<< 6) ||| UInt32.ofNat third) <<< 6).toNat = x.toNat * 65536 + y.toNat * 256 + 0 := by
    rw [toNat_shift (by omega), quarters, bits, Nat.add_zero, ← same, number, none_, Nat.add_zero]
  rw [group, base64Character_letter true 2 _ 0 half three, Except.bind, base64Character_pad (by decide) (by decide),
    Except.bind, base64Bytes_of firstByte secondByte (by decide) value (by simp) (by simp)]
  simp

theorem group_one (x : UInt8) {a b c d : UInt8} (written : letters (x.toNat * 65536) = [a, b, c, d]) :
    base64Group true a b pad pad = .ok [x] := by
  have firstByte := x.toNat_lt
  obtain ⟨first, one, second, two, third, three, fourth, four, same⟩ := exists_digits (by omega : x.toNat * 65536 < 2 ^ 24)
  have none_ : third = 0 ∧ fourth = 0 := by
    rw [number] at same
    omega
  rw [← same, letters_number one two three four] at written
  cases written
  obtain ⟨half, bits, group⟩ := base64Group_letters true one two pad pad
  have quarters : (half <<< 6).toNat = half.toNat * 64 := toNat_shift (by omega)
  have sum : (first * 64 + second) * 64 * 64 = x.toNat * 65536 := by
    rw [number, none_.1, none_.2] at same
    exact same
  have value : (half <<< 6 <<< 6).toNat = x.toNat * 65536 + 0 * 256 + 0 := by
    rw [toNat_shift (by omega), quarters, bits, sum]
    omega
  rw [group, base64Character_pad (by decide) (fun _ => rfl), Except.bind, base64Character_pad (by decide) (by decide),
    Except.bind, base64Bytes_of firstByte (by decide) (by decide) value (by simp) (by simp)]
  simp

theorem exists_letters (n : ℕ) : ∃ a b c d, letters n = [a, b, c, d] := ⟨_, _, _, _, rfl⟩

theorem groups_cons {a b c d : UInt8} {rest bytes more : Bytes} (group : base64Group rest.isEmpty a b c d = .ok bytes)
    (others : base64Groups rest = .ok more) : base64Groups (a :: b :: c :: d :: rest) = .ok (bytes ++ more) := by
  rw [base64Groups]
  exact Outcome.bind_eq_ok.mpr ⟨bytes, group, Outcome.bind_eq_ok.mpr ⟨more, others, rfl⟩⟩

/-- What the encoder writes is decoded. -/
theorem groups_of_encode : (bytes : Bytes) → base64Groups (base64Encode bytes) = .ok bytes
  | [] => rfl
  | [x] => by
    obtain ⟨a, b, c, d, written⟩ := exists_letters (x.toNat * 65536)
    rw [base64Encode_one, written]
    exact @groups_cons a b pad pad [] [x] [] (group_one x written) rfl
  | [x, y] => by
    obtain ⟨a, b, c, d, written⟩ := exists_letters (x.toNat * 65536 + y.toNat * 256)
    rw [base64Encode_two, written]
    exact @groups_cons a b c pad [] [x, y] [] (group_two x y written) rfl
  | x :: y :: z :: rest => by
    obtain ⟨a, b, c, d, written⟩ := exists_letters (x.toNat * 65536 + y.toNat * 256 + z.toNat)
    rw [base64Encode_three, written]
    exact groups_cons (group_three _ x y z written) (groups_of_encode rest)

theorem length_encode : (bytes : Bytes) → (base64Encode bytes).length % 4 = 0
  | [] => rfl
  | [x] => by
    rw [base64Encode_one]
    simp [letters]
  | [x, y] => by
    rw [base64Encode_two]
    simp [letters]
  | x :: y :: z :: rest => by
    have others := length_encode rest
    rw [base64Encode_three, List.length_append, letters]
    change (4 + (base64Encode rest).length) % 4 = 0
    omega

theorem encode_append {bytes : Bytes} (whole : bytes.length = 3) (more : Bytes) :
    base64Encode (bytes ++ more) = base64Encode bytes ++ base64Encode more := by
  obtain ⟨x, y, z, rfl⟩ := List.length_eq_three.mp whole
  have alone := base64Encode_three x y z []
  rw [base64Encode, List.append_nil] at alone
  rw [alone]
  exact base64Encode_three x y z more

/-- What is decoded, the encoder writes. -/
theorem encode_of_groups :
    (text : Bytes) → text.length % 4 = 0 → ∀ bytes, base64Groups text = .ok bytes → base64Encode bytes = text
  | [], _, bytes, accepted => by
    obtain rfl := Except.ok.inj accepted
    rfl
  | [_], whole, _, _ => absurd whole (by simp)
  | [_, _], whole, _, _ => absurd whole (by simp)
  | [_, _, _], whole, _, _ => absurd whole (by simp)
  | a :: b :: c :: d :: rest, whole, bytes, accepted => by
    obtain ⟨first, group, accepted⟩ := Outcome.bind_eq_ok.mp accepted
    obtain ⟨more, others, same⟩ := Outcome.bind_eq_ok.mp accepted
    obtain rfl := Except.ok.inj same
    have multiple : rest.length % 4 = 0 := by
      simp only [List.length_cons] at whole
      omega
    have tail := encode_of_groups rest multiple more others
    obtain ⟨written, three | last⟩ := encode_of_group group
    · rw [encode_append three, written, tail]
      rfl
    · obtain rfl := List.isEmpty_iff.mp last
      obtain rfl := Except.ok.inj others
      rw [List.append_nil, written]

/-- What is encoded is decoded, and a text that is decoded is the one that is encoded. -/
theorem base64_bijection : (∀ bytes, base64Decode (base64Encode bytes) = .ok bytes) ∧
    ∀ text bytes, base64Decode text = .ok bytes → base64Encode bytes = text := by
  constructor
  · intro bytes
    rw [base64Decode, if_neg (not_not.mpr (length_encode bytes))]
    exact groups_of_encode bytes
  · intro text bytes accepted
    rw [base64Decode] at accepted
    split_ifs at accepted with ragged
    exact encode_of_groups text (not_not.mp ragged) bytes accepted

end Base64

end OpalCpp

import OpalCpp.Machine.CppLexer
import OpalCpp.Machine.Widening
import OpalCpp.Machine.WholeDoubles
import OpalCpp.Model.Codegen.MemberDefaults
import OpalCpp.Proofs.Codegen.SerdeScalars
import OpalCpp.Proofs.Core.Timestamp

/-! # What emitted literals and defaults stand for

A text that is written as a string literal is read back byte by byte, and every 64-bit integer as itself. What is
written for a text are closed elements, so that it can be put into a literal with other text around it. The
initializer of a default is read back to the modeled value but for texts with a zero, which end at it, for blobs,
whose bytes from 0x80 on are encoded as characters, for numbers that no double holds, and for instants whose
milliseconds are lost in the rounding to doubles.
-/

namespace OpalCpp.Codegen

open Bytes (ascii)
open CppLiteral
open Typed (ShapeType Value EnumValue)

/-! ## Strings -/

set_option maxRecDepth 4000 in
/-- The three digits of an octal escape are those of the byte. -/
theorem octal_digits (b : UInt8) : simple.lookup (Decimal.digit (b.toNat / 64)) = none ∧
    octalDigit (Decimal.digit (b.toNat / 64)) = some (b.toNat / 64) ∧
      octalDigit (Decimal.digit (b.toNat / 8 % 8)) = some (b.toNat / 8 % 8) ∧
        octalDigit (Decimal.digit (b.toNat % 8)) = some (b.toNat % 8) :=
  @forall_byte (fun b => simple.lookup (Decimal.digit (b.toNat / 64)) = none ∧
    octalDigit (Decimal.digit (b.toNat / 64)) = some (b.toNat / 64) ∧
      octalDigit (Decimal.digit (b.toNat / 8 % 8)) = some (b.toNat / 8 % 8) ∧
        octalDigit (Decimal.digit (b.toNat % 8)) = some (b.toNat % 8)) (by decide) b

/-- What is emitted for a byte stands for the byte, whatever follows. -/
theorem scan_escapeByte (b : UInt8) (rest : Bytes) : scan .plain (escapeByte b ++ rest) = emit [b] (scan .plain rest) := by
  rw [escapeByte]
  split_ifs with quoted slash line return_ tab printable
  · rw [quoted]
    exact scan_simple rfl rest
  · rw [slash]
    exact scan_simple rfl rest
  · rw [line]
    exact scan_simple rfl rest
  · rw [return_]
    exact scan_simple rfl rest
  · rw [tab]
    exact scan_simple rfl rest
  · exact scan_plain quoted slash line rest
  · obtain ⟨notSimple, first, second, third⟩ := octal_digits b
    have value : (b.toNat / 64 * 8 + b.toNat / 8 % 8) * 8 + b.toNat % 8 = b.toNat := by omega
    have scanned := scan_octal notSimple first second third (by rw [value]; exact b.toNat_lt) rest
    rw [value, UInt8.ofNat_toNat] at scanned
    exact scanned

/-- The escaped text stands for its UTF-8, in front of whatever else the literal has. -/
theorem scan_escape (bytes rest : Bytes) :
    scan .plain (bytes.flatMap escapeByte ++ rest) = emit bytes (scan .plain rest) := by
  induction bytes with
  | nil =>
    rw [List.flatMap_nil, List.nil_append]
    cases scan .plain rest <;> rfl
  | cons b bytes ih =>
    rw [List.flatMap_cons, List.append_assoc, scan_escapeByte, ih]
    cases scan .plain rest <;> rfl

theorem readString_stringLiteral (text : List Char) (rest : Bytes) :
    readString (stringLiteral text ++ rest) = some (utf8 text, rest) := by
  have closed : scan .plain (ascii "\"" ++ rest) = some ([], rest) := rfl
  rw [stringLiteral, List.append_assoc, List.append_assoc]
  change scan .plain (escapeStringBody text ++ (ascii "\"" ++ rest)) = _
  rw [escapeStringBody, scan_escape, closed]
  exact congrArg (fun bytes => some (bytes, rest)) (List.append_nil _)

/-! ## Splicing -/

/-- The element that is written for a byte. -/
def escapeElement (b : UInt8) : Element :=
  if b = '"'.toUInt8 then .simple '"'.toUInt8
  else if b = '\\'.toUInt8 then .simple '\\'.toUInt8
  else if b = '\n'.toUInt8 then .simple 'n'.toUInt8
  else if b = '\r'.toUInt8 then .simple 'r'.toUInt8
  else if b = '\t'.toUInt8 then .simple 't'.toUInt8
  else if 0x20 ≤ b ∧ b < 0x7F then .ordinary b
  else .octal ([b.toNat / 64, b.toNat / 8 % 8, b.toNat % 8].map Decimal.digit)

theorem spelling_escapeElement (b : UInt8) : (escapeElement b).spelling = escapeByte b := by
  rw [escapeElement, escapeByte]
  split_ifs <;> rfl

theorem escapeElement_closed (d : Dialect) (b : UInt8) : (escapeElement b).Valid d ∧ (escapeElement b).IsClosed := by
  rw [escapeElement]
  split_ifs with quoted slash line
  · exact ⟨rfl, trivial⟩
  · exact ⟨rfl, trivial⟩
  · exact ⟨rfl, trivial⟩
  · exact ⟨rfl, trivial⟩
  · exact ⟨rfl, trivial⟩
  · exact ⟨⟨quoted, line, slash⟩, trivial⟩
  · obtain ⟨-, first, second, third⟩ := octal_digits b
    refine ⟨⟨List.cons_ne_nil _ _, Nat.le_refl 3, ?_⟩, rfl⟩
    simp [isOctal, first, second, third]

theorem bytes_escapeElement (d : Dialect) (b : UInt8) : d.bytes (escapeElement b) = some [b] := by
  rw [escapeElement]
  split_ifs with quoted slash line return_ tab
  · rw [quoted]
    rfl
  · rw [slash]
    rfl
  · rw [line]
    rfl
  · rw [return_]
    rfl
  · rw [tab]
    rfl
  · rfl
  · obtain ⟨-, first, second, third⟩ := octal_digits b
    have value : (b.toNat / 64 * 8 + b.toNat / 8 % 8) * 8 + b.toNat % 8 = b.toNat := by omega
    have spelled : number octalDigit 8 ([b.toNat / 64, b.toNat / 8 % 8, b.toNat % 8].map Decimal.digit) = some b.toNat := by
      simp [number, first, second, third, value]
    rw [Dialect.bytes, spelled, Option.bind_some, byte, if_pos b.toNat_lt, UInt8.ofNat_toNat]

theorem spell_escape (bytes : Bytes) : spell (bytes.map escapeElement) = bytes.flatMap escapeByte := by
  rw [spell, List.flatMap_map]
  exact congrArg bytes.flatMap (funext spelling_escapeElement)

theorem value_escape (d : Dialect) (bytes : Bytes) : d.value (bytes.map escapeElement) = some bytes := by
  induction bytes with
  | nil => rfl
  | cons b bytes ih =>
    exact Dialect.value_append (show d.value [escapeElement b] = some [b] by simp [Dialect.value, bytes_escapeElement]) ih

set_option maxRecDepth 4000 in
theorem escapeByte_printable : ∀ b, ∀ c ∈ escapeByte b, 0x20 ≤ c ∧ c < 0x7F := forall_byte (by decide)

/-- A text that is escaped stands for itself in any literal, behind what ends in a closed element. It is printable. -/
theorem readString_escapeStringBody (d : Dialect) (text : List Char) {before after front back : Bytes}
    {opening closing : List Element}
    (preceding : d.IsText before opening front) (ends : ∀ last ∈ opening.getLast?, last.IsClosed)
    (following : d.IsText after closing back) (rest : Bytes) :
    d.readString (quote :: (before ++ escapeStringBody text ++ after ++ quote :: rest)) =
        some (front ++ utf8 text ++ back, splice d.trims 0 rest) ∧
      ∀ c ∈ escapeStringBody text, 0x20 ≤ c ∧ c < 0x7F := by
  constructor
  · rw [escapeStringBody, ← spell_escape]
    refine Dialect.readString_between preceding ends ?_ (value_escape d _) following rest
    intro element member
    obtain ⟨b, -, rfl⟩ := List.mem_map.mp member
    exact escapeElement_closed d b
  · intro c member
    obtain ⟨b, -, member⟩ := List.mem_flatMap.mp member
    exact escapeByte_printable b c member

/-- Behind an octal escape, and in front of a digit and a hexadecimal escape. -/
theorem readString_escapeStringBody_digits : let d : Dialect := ⟨true, true, fun _ => none, fun _ => none⟩
    d.readString (quote :: (ascii "\\101" ++ escapeStringBody ['\n', '"', '7'] ++ ascii "1\\x41" ++ [quote])) =
        some ([0x41] ++ utf8 ['\n', '"', '7'] ++ [0x31, 0x41], []) ∧
      ∀ c ∈ escapeStringBody ['\n', '"', '7'], 0x20 ≤ c ∧ c < 0x7F :=
  @readString_escapeStringBody ⟨true, true, fun _ => none, fun _ => none⟩ ['\n', '"', '7'] (ascii "\\101") (ascii "1\\x41")
    [0x41] [0x31, 0x41]
    [.octal [0x31, 0x30, 0x31]] [.ordinary 0x31, .hex [0x34, 0x31]] ⟨by decide, by decide⟩ (by simp [Element.IsClosed])
    ⟨by decide, by decide⟩ []

/-! ## Integers -/

theorem readInteger_int64Literal (value : Int64) : readInteger (int64Literal value) = some (value.toInt, []) := by
  rw [int64Literal]
  split_ifs with least
  · rw [least]
    decide
  · have low := value.le_toInt
    have high := value.toInt_lt
    have notLeast : value.toInt ≠ -2 ^ 63 := fun same => least (Int64.toInt_inj.mp same)
    have read := @readInteger_decimal value.toInt (by omega) [] [] (.inl rfl) (by simp)
    rwa [List.append_nil, List.append_nil] at read

/-! ## Texts -/

theorem cString_eq_self_iff {bytes : Bytes} : cString bytes = bytes ↔ 0 ∉ bytes := by
  rw [cString, List.takeWhile_eq_self_iff]
  constructor
  · intro all zero
    exact absurd rfl (of_decide_eq_true (all 0 zero))
  · intro none_ byte member
    exact decide_eq_true fun zero => none_ (zero ▸ member)

theorem zero_not_mem_cString (bytes : Bytes) : 0 ∉ cString bytes := by
  intro zero
  have nonzero := List.mem_takeWhile_imp zero
  exact absurd rfl (of_decide_eq_true nonzero)

/-- Only the character of number zero has a zero byte. -/
theorem zero_mem_encode_iff (c : Char) : 0 ∈ String.utf8EncodeChar c ↔ c = '\x00' := by
  constructor
  · intro zero
    obtain ⟨byte, ascii_, encoded⟩ | high := Utf8.encode_cases c
    · rw [encoded, List.mem_singleton] at zero
      rw [← zero] at encoded
      have decoded := Utf8.decode_eq_some_iff.mpr (List.prefix_refl (String.utf8EncodeChar c))
      have front : String.utf8EncodeChar '\x00' <+: String.utf8EncodeChar c := by
        rw [encoded]
        exact List.prefix_refl _
      rw [Utf8.decode_eq_some_iff.mpr front] at decoded
      exact (Option.some.inj decoded).symm
    · exact absurd (high 0 zero) (by decide)
  · rintro rfl
    decide

theorem zero_mem_utf8_iff {text : List Char} : 0 ∈ utf8 text ↔ '\x00' ∈ text := by
  simp only [utf8, List.mem_flatMap, zero_mem_encode_iff]
  constructor
  · rintro ⟨c, member, rfl⟩
    exact member
  · intro member
    exact ⟨_, member, rfl⟩

/-! ## Blobs -/

set_option maxRecDepth 4000 in
/-- The encoding of a character of one byte: the byte, or two for it. -/
theorem encode_latin1 (b : UInt8) : String.utf8EncodeChar (Char.ofNat b.toNat) =
    if b < 0x80 then [b] else [0xC0 + b / 64, 0x80 + b % 64] :=
  @forall_byte (fun b => String.utf8EncodeChar (Char.ofNat b.toNat) =
    if b < 0x80 then [b] else [0xC0 + b / 64, 0x80 + b % 64]) (by decide) b

theorem utf8_latin1_of_ascii {bytes : Bytes} (low : ∀ byte ∈ bytes, byte < 0x80) : utf8 (latin1 bytes) = bytes := by
  induction bytes with
  | nil => rfl
  | cons b bytes ih =>
    rw [List.forall_mem_cons] at low
    rw [latin1, List.map_cons, utf8, List.flatMap_cons, encode_latin1, if_pos low.1]
    exact congrArg (b :: ·) (ih low.2)

theorem length_utf8_latin1 (bytes : Bytes) :
    (utf8 (latin1 bytes)).length = bytes.length + bytes.countP (fun b => 0x80 ≤ b) := by
  induction bytes with
  | nil => rfl
  | cons b bytes ih =>
    rw [latin1, List.map_cons, utf8, List.flatMap_cons, List.length_append, encode_latin1, List.length_cons,
      List.countP_cons]
    change _ + (utf8 (latin1 bytes)).length = _
    rw [ih]
    split_ifs with low high high
    · exact absurd low (UInt8.not_lt.mpr (of_decide_eq_true high))
    · rw [List.length_singleton]
      omega
    · rw [List.length_cons, List.length_singleton]
      omega
    · exact absurd (decide_eq_true (UInt8.not_lt.mp low)) high

set_option maxRecDepth 4000 in
theorem eq_zero_of_nul : ∀ {byte : UInt8}, Char.ofNat byte.toNat = '\x00' → byte = 0 := @(forall_byte (by decide))

/-- A blob comes back from its literal if its bytes are those of characters that are neither zero nor longer than a byte. -/
theorem cString_latin1_iff {bytes : Bytes} :
    cString (utf8 (latin1 bytes)) = bytes ↔ ∀ byte ∈ bytes, 0 < byte ∧ byte < 0x80 := by
  constructor
  · intro same
    have nonzero : 0 ∉ bytes := same ▸ zero_not_mem_cString _
    have noNul : 0 ∉ utf8 (latin1 bytes) := by
      rw [zero_mem_utf8_iff, latin1, List.mem_map]
      rintro ⟨byte, member, nul⟩
      exact nonzero (eq_zero_of_nul nul ▸ member)
    rw [cString_eq_self_iff.mpr noNul] at same
    have none_ := length_utf8_latin1 bytes
    rw [same, left_eq_add, List.countP_eq_zero] at none_
    intro byte member
    refine ⟨UInt8.pos_iff_ne_zero.mpr fun zero => nonzero (zero ▸ member), UInt8.not_le.mp fun high => ?_⟩
    exact none_ byte member (decide_eq_true high)
  · intro plain
    rw [utf8_latin1_of_ascii fun byte member => (plain byte member).2]
    exact cString_eq_self_iff.mpr fun zero => absurd (plain 0 zero).1 (by decide)

/-! ## Instants -/

/-- Within the ends of the range nothing else is rounded to a number. -/
theorem saturate_eq_iff {value : ℤ} {ms : Int64} (notLeast : ms.toInt ≠ -2 ^ 63) (notLargest : ms.toInt ≠ 2 ^ 63 - 1) :
    NumberNode.saturate value = ms ↔ value = ms.toInt := by
  have low := ms.le_toInt
  have high := ms.toInt_lt
  rw [← Int64.toInt_inj, NumberNode.saturate, Int64.toInt_ofInt_of_le (by omega) (by omega)]
  omega

/-- The instant of the node is not the last one: its seconds would be even. -/
theorem ne_largest {x : Binary64} {seconds : ℚ} {ms : ℤ} (finite : x.value? = some seconds)
    (near : |seconds * 1000 - ms| < 1 / 2) : ms ≠ 2 ^ 63 - 1 := by
  rintro rfl
  obtain ⟨below, above⟩ := abs_lt.mp near
  push_cast at below above
  have large : 2 ^ (52 + 1) ≤ |seconds| := by
    rw [abs_of_nonneg (by linarith)]
    norm_num
    linarith
  obtain ⟨n, rfl⟩ := Binary64.exists_multiple 1 finite large
  have first : (2 ^ 63 - 2 : ℤ) < n * 2000 := by exact_mod_cast (by linarith : (2 ^ 63 - 2 : ℚ) < n * 2000)
  have last : n * 2000 < (2 ^ 63 : ℤ) := by exact_mod_cast (by linarith : (n * 2000 : ℚ) < 2 ^ 63)
  omega

/-- The product is rounded to the milliseconds that are nearest to it exactly if they are a double, and it is not
rounded to the half above them. -/
theorem roundThousandfold_eq_iff {x : Binary64} {seconds : ℚ} {ms : Int64} (finite : x.value? = some seconds)
    (near : |seconds * 1000 - ms.toInt| < 1 / 2) (notLeast : ms.toInt ≠ -2 ^ 63) :
    roundThousandfold x = ms ↔ (Binary64.nearest ms.toInt).value? = some (ms.toInt : ℚ) ∧
      (Binary64.nearest (seconds * 1000)).value? ≠ some ((ms.toInt : ℚ) + 1 / 2) := by
  have low : (-2 ^ 63 : ℚ) ≤ ms.toInt := by exact_mod_cast ms.le_toInt
  have high : (ms.toInt : ℚ) < 2 ^ 63 := by exact_mod_cast ms.toInt_lt
  obtain ⟨below, above⟩ := abs_lt.mp near
  have bounded : |seconds * 1000| < 2 ^ (1022 : ℤ) := by
    have small : (2 : ℚ) ^ (64 : ℤ) < 2 ^ (1022 : ℤ) := zpow_lt_zpow_right₀ one_lt_two (by decide)
    refine lt_trans (abs_lt.mpr ?_) small
    norm_num at low high ⊢
    constructor <;> linarith
  obtain ⟨product, rounded⟩ := Option.ne_none_iff_exists'.mp (Binary64.nearest_finite bounded)
  simp only [roundThousandfold, finite, Option.elim_some, rounded]
  rw [saturate_eq_iff notLeast (ne_largest finite near), Binary64.floor_nearest_iff rounded near, ne_eq, ne_eq,
    Option.some_inj]

/-- Whole seconds that are a thousandth of a double are doubles. -/
theorem nearest_of_thousandfold {seconds : ℤ} {b : Binary64} (few : |seconds * 1000| < 2 ^ 63)
    (double : b.value? = some ((seconds : ℚ) * 1000)) : (Binary64.nearest seconds).value? = some (seconds : ℚ) := by
  rcases lt_or_ge |seconds| (2 ^ 53) with fits | large
  · exact Binary64.nearest_intCast fits
  · -- The product is a multiple of 1024, and its seconds are one of 128.
    have size : (2 : ℚ) ^ (52 + 10) ≤ |(seconds : ℚ) * 1000| := by
      have least : (2 : ℤ) ^ (52 + 10) ≤ |seconds * 1000| := by
        rw [abs_mul, abs_of_pos (by decide : (0 : ℤ) < 1000)]
        omega
      exact_mod_cast least
    obtain ⟨n, multiple⟩ := Binary64.exists_multiple 10 double size
    have product : seconds * 1000 = n * 2 ^ 10 := by exact_mod_cast multiple
    obtain ⟨part, rfl⟩ : (128 : ℤ) ∣ seconds := by omega
    rw [abs_lt] at few
    obtain ⟨b, exact_⟩ := @Binary64.exists_scaled part 7 (abs_lt.mpr (by omega)) (by decide) (by decide)
    have value : (part : ℚ) * 2 ^ (7 : ℤ) = ((128 * part : ℤ) : ℚ) := by
      push_cast
      ring
    rw [value] at exact_
    exact Binary64.nearest_value exact_

/-- The same of whole seconds, which need not be a double themselves. -/
theorem roundThousandfold_nearest_iff {seconds : ℤ} {ms : Int64} (near : |(seconds : ℚ) * 1000 - ms.toInt| < 1 / 2)
    (notLeast : ms.toInt ≠ -2 ^ 63) :
    roundThousandfold (Binary64.nearest seconds) = ms ↔ (Binary64.nearest ms.toInt).value? = some (ms.toInt : ℚ) ∧
      (Binary64.nearest ((seconds : ℚ) * 1000)).value? ≠ some ((ms.toInt : ℚ) + 1 / 2) := by
  have low := ms.le_toInt
  have high := ms.toInt_lt
  have whole : seconds * 1000 = ms.toInt := by
    obtain ⟨below, above⟩ := abs_lt.mp near
    have first : ms.toInt < seconds * 1000 + 1 := by exact_mod_cast (by linarith : (ms.toInt : ℚ) < seconds * 1000 + 1)
    have last : seconds * 1000 < ms.toInt + 1 := by exact_mod_cast (by linarith : (seconds * 1000 : ℚ) < ms.toInt + 1)
    omega
  have product : (seconds : ℚ) * 1000 = ms.toInt := by exact_mod_cast whole
  constructor
  · intro same
    have small : |(seconds : ℚ)| < 2 ^ (1022 : ℤ) := by
      have few : |seconds| < 2 ^ 63 := abs_lt.mpr (by omega)
      have below : |(seconds : ℚ)| < 2 ^ (63 : ℤ) := by exact_mod_cast few
      exact lt_trans below (zpow_lt_zpow_right₀ one_lt_two (by decide))
    obtain ⟨value, rounded⟩ := Option.ne_none_iff_exists'.mp (Binary64.nearest_finite small)
    have double : (Binary64.nearest ms.toInt).value? = some (ms.toInt : ℚ) := by
      simp only [roundThousandfold, rounded, Option.elim_some] at same
      cases scaled : (Binary64.nearest (value * 1000)).value? with
      | none =>
        rw [scaled] at same
        dsimp only at same
        split_ifs at same
        · rw [← same]
          exact Binary64.nearest_intCast (by decide)
        · exact absurd (same ▸ rfl) notLeast
        · rw [← same, show Int64.maxValue.toInt = 2 ^ 63 - 1 from rfl] at whole
          omega
      | some y =>
        rw [scaled] at same
        exact Binary64.nearest_of_floor scaled ((saturate_eq_iff notLeast (by omega)).mp same)
    refine ⟨double, ?_⟩
    rw [product, double, ne_eq, Option.some_inj]
    linarith
  · intro kept
    have double := nearest_of_thousandfold (abs_lt.mpr (by omega)) (product ▸ kept.1)
    exact (roundThousandfold_eq_iff double near notLeast).mpr kept

/-! ## Initializers -/

theorem readCall_eq {α : Type} {front argument : Bytes} {read : Bytes → Option (α × Bytes)} {value : α}
    (reads : read (argument ++ ascii ")") = some (value, ascii ")")) :
    readCall front read (front ++ argument ++ ascii ")") = some value := by
  rw [readCall, List.append_assoc, after_append]
  simp only [Option.bind_eq_bind, Option.bind_some, reads, if_true]

theorem readWhole_eq {α : Type} {read : Bytes → Option (α × Bytes)} {text : Bytes} {value : α}
    (reads : read text = some (value, [])) :
    readWhole read text = some value := by
  rw [readWhole, reads]
  rfl

/-- The number of a node that is in the range of an `int` stands alone. -/
theorem readWhole_integer {value : ℤ} (low : -2 ^ 31 ≤ value) (high : value < 2 ^ 31) :
    readWhole readInteger (decimalText (NumberNode.integer value).longValue.toInt) = some value := by
  rw [NumberNode.longValue, Int64.toInt_ofInt_of_le (by omega) (by omega)]
  have read := @readInteger_decimal value (by omega) [] [] (.inl rfl) (by simp)
  rw [List.append_nil, List.append_nil] at read
  exact readWhole_eq read

/-- An integer behind which a call is closed. -/
theorem readInteger_argument {value : ℤ} (fits : value.natAbs < 2 ^ 63) {suffix : Bytes}
    (long : suffix = [] ∨ suffix = ascii "LL") :
    readInteger (decimalText value ++ suffix ++ ascii ")") = some (value, ascii ")") := by
  apply readInteger_decimal fits long
  intro byte member
  cases member
  exact ⟨rfl, by decide⟩

/-! ## Defaults -/

/-- The text of a double that is no number. -/
def nonFiniteText (x : Binary64) : Bytes :=
  if x.isNaN then ascii "NaN" else if x.isNegative then ascii "-Infinity" else ascii "Infinity"

/-- `Double.toString` gives a text that is read as the number it was given, or a name. -/
structure SpellsDoubles (doubleToString : Binary64 → Bytes) : Prop where
  finite : ∀ x : Binary64, x.value? ≠ none → readFloating (doubleToString x) = some x
  nonFinite : ∀ x : Binary64, x.value? = none → doubleToString x = nonFiniteText x

/-- The milliseconds that are nearest to the seconds are in the range of their type but not the least, they are a double,
and the seconds are not rounded to the half above them. -/
def KeepsMilliseconds (seconds : ℚ) : Prop :=
  ∃ ms : ℤ, |seconds * 1000 - ms| < 1 / 2 ∧ |ms| < 2 ^ 63 ∧ (Binary64.nearest ms).value? = some (ms : ℚ) ∧
    (Binary64.nearest (seconds * 1000)).value? ≠ some ((ms : ℚ) + 1 / 2)

/-- The texts without a zero, the blobs of bytes that are neither zero nor 0x80 or more, the numbers for floating
targets that a double holds, and the seconds that keep their milliseconds; of the other targets every default. -/
def Plain {Id : Type*} (target : ShapeType Id) (value : Node) : Prop :=
  match target, value with
  | .string, .string text | .enum _, .string text => '\x00' ∉ text
  | .blob, .string text => ∀ bytes ∈ base64Decoder text, ∀ byte ∈ bytes, 0 < byte ∧ byte < 0x80
  | .float, .number number | .double, .number number => number.doubleValue.value? ≠ none
  | .float, .string _ | .double, .string _ => False
  | .timestamp, .number number => ∃ seconds ∈ number.exactValue?, KeepsMilliseconds seconds
  | _, _ => True

section Literal

variable {Id : Type*} {doubleToString : Binary64 → Bytes} (type : Bytes)

attribute [local simp] literal evaluate

theorem evaluate_string (text : List Char) :
    (literal doubleToString type (.string : ShapeType Id) (.string text)).bind (evaluate type (.string : ShapeType Id)) =
      some (.string (cString (utf8 text))) := by
  have read := readString_stringLiteral text []
  rw [List.append_nil] at read
  simp only [literal, Option.bind_some, evaluate, readWhole_eq read, Option.map_some]

theorem evaluate_enum (values : List Bytes) (text : List Char) :
    (literal doubleToString type (.enum values : ShapeType Id) (.string text)).bind
      (evaluate type (.enum values : ShapeType Id)) =
      some (.enum (EnumValue.fromText values (cString (utf8 text)))) := by
  have read := readString_stringLiteral text (ascii ")")
  simp only [literal, Option.bind_some, evaluate, readCall_eq read, Option.map_some]

theorem evaluate_blob {text : List Char} {bytes : Bytes} (decoded : base64Decoder text = some bytes) :
    (literal doubleToString type (.blob : ShapeType Id) (.string text)).bind (evaluate type (.blob : ShapeType Id)) =
      some (.blob (cString (utf8 (latin1 bytes)))) := by
  have read := readString_stringLiteral (latin1 bytes) (ascii ")")
  simp only [literal, decoded, Option.map_some, Option.bind_some, evaluate, readCall_eq read]

/-- The least number is none that a literal can have. -/
theorem evaluate_timestamp (number : NumberNode) :
    (literal doubleToString type (.timestamp : ShapeType Id) (.number number)).bind
      (evaluate type (.timestamp : ShapeType Id)) =
      if roundThousandfold number.doubleValue = Int64.minValue then none
      else some (.timestamp ⟨roundThousandfold number.doubleValue⟩) := by
  rw [literal]
  generalize roundThousandfold number.doubleValue = ms
  have emitted : ascii "opal::Timestamp::FromEpochMilliseconds(" ++ decimalText ms.toInt ++ ascii "LL)" =
      ascii "opal::Timestamp::FromEpochMilliseconds(" ++ (decimalText ms.toInt ++ ascii "LL") ++ ascii ")" := by
    rw [List.append_assoc, List.append_assoc, List.append_assoc]
    rfl
  split_ifs with least
  · have refused : readInteger (decimalText Int64.minValue.toInt ++ ascii "LL)") = none := by decide
    rw [least, Option.bind_some, evaluate, readCall, List.append_assoc, after_append]
    simp only [Option.bind_eq_bind, Option.bind_some, refused, Option.bind_none, Option.map_none]
  · have low := ms.le_toInt
    have high := ms.toInt_lt
    have notLeast : ms.toInt ≠ -2 ^ 63 := fun same => least (Int64.toInt_inj.mp same)
    have read := readInteger_argument (by omega : ms.toInt.natAbs < 2 ^ 63) (.inr rfl)
    simp only [emitted, Option.bind_some, evaluate, readCall_eq read, Option.map_some, Int64.ofInt_toInt]

/-- The names of the doubles that are no numbers are no literals. -/
theorem evaluate_double (spelled : SpellsDoubles doubleToString) (number : NumberNode) :
    (literal doubleToString type (.double : ShapeType Id) (.number number)).bind (evaluate type (.double : ShapeType Id)) =
      if number.doubleValue.value? = none then none else some (.double number.doubleValue) := by
  rw [literal, Option.bind_some, evaluate]
  split_ifs with infinite
  · rw [spelled.nonFinite _ infinite, nonFiniteText]
    split_ifs <;> rfl
  · rw [spelled.finite _ infinite, Option.map_some]

theorem evaluate_float (spelled : SpellsDoubles doubleToString) (number : NumberNode) :
    (literal doubleToString type (.float : ShapeType Id) (.number number)).bind (evaluate type (.float : ShapeType Id)) =
      if number.doubleValue.value? = none then none else some (.float (Binary32.ofBinary64 number.doubleValue)) := by
  rw [literal, Option.bind_some, evaluate]
  split_ifs with infinite
  · rw [spelled.nonFinite _ infinite, nonFiniteText]
    split_ifs <;> rfl
  · have read :
        readFloatingOperand (doubleToString number.doubleValue ++ ascii ")") = some (number.doubleValue, ascii ")") := by
      have last : (doubleToString number.doubleValue ++ ascii ")").getLast? = some ')'.toUInt8 := List.getLast?_concat
      have front : (doubleToString number.doubleValue ++ ascii ")").dropLast = doubleToString number.doubleValue :=
        List.dropLast_concat
      rw [readFloatingOperand, if_pos last, front, spelled.finite _ infinite, Option.map_some]
    rw [readCall_eq read, Option.map_some]

end Literal

/-- A text is found at the place of a value if it is the value. -/
theorem fromText_eq_iff {values : List Bytes} {index : ℕ} {text other : Bytes} (distinct : values.Nodup)
    (there : values[index]? = some text) : EnumValue.fromText values other = ⟨some index, []⟩ ↔ other = text := by
  obtain ⟨inside, value⟩ := List.getElem?_eq_some_iff.mp there
  constructor
  · intro found
    rw [EnumValue.fromText] at found
    cases place : values.findIdx? (· = other) with
    | none =>
      rw [place] at found
      cases found
    | some first =>
      rw [place] at found
      obtain rfl : first = index := Option.some.inj (congrArg EnumValue.value found)
      obtain ⟨bounded, same, -⟩ := List.findIdx?_eq_some_iff_getElem.mp place
      rw [← value]
      exact (of_decide_eq_true same).symm
  · rintro rfl
    have read := @EnumValue.fromText_toText values distinct ⟨some index, []⟩ ⟨inside, rfl⟩
    have text : EnumValue.toText values ⟨some index, []⟩ = other := by
      rw [← value]
      exact List.getD_eq_getElem _ _ inside
    rwa [text] at read

/-- A default has one value. -/
theorem Modeled.unique {Id : Type*} {target : ShapeType Id} {node : Node} {value other : Value}
    (first : Modeled target node value) (second : Modeled target node other) : value = other := by
  cases first with
  | string text => cases second; rfl
  | @enum values index text distinct there =>
    cases second with
    | @enum _ place _ _ there' =>
      obtain ⟨inside, value⟩ := List.getElem?_eq_some_iff.mp there
      obtain ⟨inside', value'⟩ := List.getElem?_eq_some_iff.mp there'
      rw [(distinct.getElem_inj_iff).mp (value.trans value'.symm)]
  | boolean value => cases second; rfl
  | byte value =>
    generalize same : value.toInt = number at second
    cases second with
    | byte other => rw [Int8.toInt_inj.mp same]
  | short value =>
    generalize same : value.toInt = number at second
    cases second with
    | short other => rw [Int16.toInt_inj.mp same]
  | integer value =>
    generalize same : value.toInt = number at second
    cases second with
    | integer other => rw [Int32.toInt_inj.mp same]
  | long value =>
    generalize same : value.toInt = number at second
    cases second with
    | long other => rw [Int64.toInt_inj.mp same]
  | intEnum value =>
    generalize same : value.toInt = number at second
    cases second with
    | intEnum other => rw [Int32.toInt_inj.mp same]
  | float number => cases second; rfl
  | double number => cases second; rfl
  | floatText named =>
    cases second with
    | floatText named' => rw [Option.some.inj (named.symm.trans named')]
  | doubleText named =>
    cases second with
    | doubleText named' => rw [Option.some.inj (named.symm.trans named')]
  | @timestamp number seconds value exact_ near =>
    cases second with
    | @timestamp _ seconds' value' exact_' near' =>
      obtain rfl := Option.some.inj (exact_.symm.trans exact_')
      obtain ⟨below, above⟩ := abs_lt.mp near
      obtain ⟨below', above'⟩ := abs_lt.mp near'
      have first : value.ms.toInt < value'.ms.toInt + 1 := by
        exact_mod_cast (by linarith : (value.ms.toInt : ℚ) < value'.ms.toInt + 1)
      have last : value'.ms.toInt < value.ms.toInt + 1 := by
        exact_mod_cast (by linarith : (value'.ms.toInt : ℚ) < value.ms.toInt + 1)
      have same : value.ms = value'.ms := Int64.toInt_inj.mp (by omega)
      rw [show value = value' from congrArg Timestamp.mk same]
  | blob decoded =>
    cases second with
    | blob decoded' => rw [Option.some.inj (decoded.symm.trans decoded')]
  | list member sparse => cases second; rfl
  | map key value sparse => cases second; rfl

/-- The initializer of a timestamp comes to the milliseconds of its seconds if the rounding keeps them. -/
theorem timestamp_denotes_iff {Id : Type*} {doubleToString : Binary64 → Bytes} (type : Bytes) (number : NumberNode) :
    (∃ value, Modeled (.timestamp : ShapeType Id) (.number number) value ∧
      (literal doubleToString type (.timestamp : ShapeType Id) (.number number)).bind
        (evaluate type (.timestamp : ShapeType Id)) =
        some value) ↔ Plain (.timestamp : ShapeType Id) (.number number) := by
  rw [evaluate_timestamp]
  -- What the product is rounded to is the instant exactly under the conditions on the milliseconds.
  have rounds {seconds : ℚ} {ms : Int64} (exact_ : number.exactValue? = some seconds)
      (near : |seconds * 1000 - ms.toInt| < 1 / 2)
      (notLeast : ms.toInt ≠ -2 ^ 63) : roundThousandfold number.doubleValue = ms ↔
        (Binary64.nearest ms.toInt).value? = some (ms.toInt : ℚ) ∧
          (Binary64.nearest (seconds * 1000)).value? ≠ some ((ms.toInt : ℚ) + 1 / 2) := by
    cases number with
    | integer whole =>
      obtain rfl := Option.some.inj exact_
      exact roundThousandfold_nearest_iff near notLeast
    | floating x => exact roundThousandfold_eq_iff exact_ near notLeast
  constructor
  · rintro ⟨_, modeled, evaluated⟩
    split_ifs at evaluated with least
    obtain rfl := Option.some.inj evaluated
    obtain ⟨seconds, exact_, near⟩ : ∃ seconds, number.exactValue? = some seconds ∧
        |seconds * 1000 - (roundThousandfold number.doubleValue).toInt| < 1 / 2 := by
      cases modeled with
      | timestamp exact_ near => exact ⟨_, exact_, near⟩
    have notLeast : (roundThousandfold number.doubleValue).toInt ≠ -2 ^ 63 := fun same => least (Int64.toInt_inj.mp same)
    have low := (roundThousandfold number.doubleValue).le_toInt
    have high := (roundThousandfold number.doubleValue).toInt_lt
    obtain ⟨double, notHalf⟩ := (rounds exact_ near notLeast).mp rfl
    exact ⟨_, exact_, _, near, abs_lt.mpr (by omega), double, notHalf⟩
  · rintro ⟨seconds, exact_, ms, near, few, double, notHalf⟩
    rw [abs_lt] at few
    have kept : (Int64.ofInt ms).toInt = ms := Int64.toInt_ofInt_of_le (by omega) (by omega)
    rw [← kept] at near double notHalf
    have same := (rounds exact_ near (by omega)).mpr ⟨double, notHalf⟩
    refine ⟨.timestamp ⟨Int64.ofInt ms⟩, .timestamp exact_ near, ?_⟩
    rw [same, if_neg]
    intro least
    rw [least, show Int64.minValue.toInt = -2 ^ 63 from rfl] at kept
    omega

/-- The initializer of a default comes to its value if it is plain. -/
theorem evaluate_eq_iff {Id : Type*} {doubleToString : Binary64 → Bytes} (spelled : SpellsDoubles doubleToString)
    (type : Bytes)
    {target : ShapeType Id} {node : Node} {value : Value} (modeled : Modeled target node value) :
    (literal doubleToString type target node).bind (evaluate type target) = some value ↔ Plain target node := by
  cases modeled with
  | string text =>
    rw [evaluate_string, Option.some_inj, Value.string.injEq, cString_eq_self_iff, zero_mem_utf8_iff]
    rfl
  | enum distinct there =>
    rw [evaluate_enum, Option.some_inj, Value.enum.injEq, fromText_eq_iff distinct there, cString_eq_self_iff,
      zero_mem_utf8_iff]
    rfl
  | blob decoded =>
    rw [evaluate_blob type decoded, Option.some_inj, Value.blob.injEq, cString_latin1_iff]
    simp only [Plain, decoded, Option.mem_def, Option.some.injEq, forall_eq']
  | boolean value =>
    refine iff_of_true ?_ trivial
    cases value <;> rfl
  | byte value =>
    refine iff_of_true ?_ trivial
    have low := value.le_toInt
    have high := value.toInt_lt
    simp only [literal, Option.bind_some, evaluate, readWhole_integer (by omega : -2 ^ 31 ≤ value.toInt) (by omega),
      Option.map_some, Int8.ofInt_toInt]
  | short value =>
    refine iff_of_true ?_ trivial
    have low := value.le_toInt
    have high := value.toInt_lt
    simp only [literal, Option.bind_some, evaluate, readWhole_integer (by omega : -2 ^ 31 ≤ value.toInt) (by omega),
      Option.map_some, Int16.ofInt_toInt]
  | integer value =>
    refine iff_of_true ?_ trivial
    simp only [literal, Option.bind_some, evaluate, readWhole_integer value.le_toInt value.toInt_lt, Option.map_some,
      Int32.ofInt_toInt]
  | long value =>
    refine iff_of_true ?_ trivial
    simp only [literal, Option.bind_some, evaluate, NumberNode.longValue, Int64.ofInt_toInt,
      readWhole_eq (readInteger_int64Literal value), Option.map_some]
  | intEnum value =>
    refine iff_of_true ?_ trivial
    have low := value.le_toInt
    have high := value.toInt_lt
    have read := readInteger_argument (by omega : value.toInt.natAbs < 2 ^ 63) (.inl rfl)
    rw [List.append_nil] at read
    simp only [literal, Option.bind_some, evaluate, NumberNode.longValue,
      Int64.toInt_ofInt_of_le (by omega : -2 ^ 63 ≤ value.toInt) (by omega), readCall_eq read, Option.map_some,
      Int32.ofInt_toInt]
  | float number =>
    rw [evaluate_float type spelled]
    split_ifs with infinite <;> simp [Plain, infinite]
  | double number =>
    rw [evaluate_double type spelled]
    split_ifs with infinite <;> simp [Plain, infinite]
  | timestamp exact_ near =>
    rw [← timestamp_denotes_iff type]
    constructor
    · exact fun evaluated => ⟨_, .timestamp exact_ near, evaluated⟩
    · rintro ⟨other, modeled, evaluated⟩
      rw [evaluated, modeled.unique (.timestamp exact_ near)]
  | floatText named => exact iff_of_false (by simp [literal]) id
  | doubleText named => exact iff_of_false (by simp [literal]) id
  | list member sparse =>
    refine iff_of_true ?_ trivial
    simp only [literal, Option.bind_some, evaluate, if_true]
  | map key value sparse =>
    refine iff_of_true ?_ trivial
    simp only [literal, Option.bind_some, evaluate, if_true]

/-- The decimals of a double: no finite one has more. -/
def places : ℕ := 1074

/-- A double with all its decimals, or its name. -/
def exactText (x : Binary64) : Bytes :=
  if x.value? = none then nonFiniteText x
  else
    let scaled := ⌊Binary64.magnitude x.code * 10 ^ places⌋₊
    (if x.isNegative then ascii "-" else []) ++
      (Decimal.decimal (scaled / 10 ^ places) ++ 0x2e :: Decimal.padded places (scaled % 10 ^ places))

theorem exists_scaled (code : ℕ) : ∃ scaled : ℕ, Binary64.magnitude code * 10 ^ places = scaled := by
  obtain ⟨units, whole⟩ := FloatFormat.binary64.magnitude_units code
  refine ⟨units * 5 ^ places, ?_⟩
  have unit : (2 : ℚ) ^ (1 - FloatFormat.binary64.bias - FloatFormat.binary64.fraction : ℤ) * 2 ^ places = 1 := by
    rw [← zpow_natCast, ← zpow_add₀ two_ne_zero]
    rfl
  have ten (n : ℕ) : (10 : ℚ) ^ n = 2 ^ n * 5 ^ n := by rw [← mul_pow]; norm_num
  rw [← FloatFormat.binary64_magnitude, whole, ten, mul_assoc, ← mul_assoc (2 ^ _), unit, one_mul]
  push_cast
  rfl

/-- Digits around a point are read as their double. -/
theorem readFloating_digits {whole fraction : Bytes} {number : ℕ}
    (digits : ∀ byte ∈ whole ++ fraction, Decimal.isDigit byte = true)
    (some_ : whole ≠ []) (reads : Decimal.read (whole ++ fraction) = some number) (negative : Bool) :
    readFloating ((if negative then ascii "-" else []) ++ (whole ++ 0x2e :: fraction)) =
      some (if negative then (Binary64.nearest (number * 10 ^ (0 - (fraction.length : ℤ)))).neg
        else Binary64.nearest (number * 10 ^ (0 - (fraction.length : ℤ)))) := by
  rw [List.forall_mem_append] at digits
  have taken : (whole ++ 0x2e :: fraction).takeWhile Decimal.isDigit = whole := by
    rw [List.takeWhile_append_of_pos digits.1, List.takeWhile_cons_of_neg (by decide), List.append_nil]
  have dropped : (whole ++ 0x2e :: fraction).dropWhile Decimal.isDigit = 0x2e :: fraction := by
    rw [List.dropWhile_append_of_pos digits.1, List.dropWhile_cons_of_neg (by decide)]
  have all : fraction.takeWhile Decimal.isDigit = fraction := List.takeWhile_eq_self_iff.mpr digits.2
  have none_ : fraction.dropWhile Decimal.isDigit = [] := List.dropWhile_eq_nil_iff.mpr digits.2
  have unsigned : (whole ++ 0x2e :: fraction).head? ≠ some 0x2d := by
    obtain ⟨first, rest, rfl⟩ := List.exists_cons_of_ne_nil some_
    rw [List.cons_append, List.head?_cons]
    intro minus
    have isFirst := digits.1 first List.mem_cons_self
    rw [Option.some.inj minus] at isFirst
    cases isFirst
  have nonempty : whole ++ fraction ≠ [] := List.append_ne_nil_of_left_ne_nil some_ _
  cases negative with
  | false =>
    simp only [Bool.false_eq_true, if_false, List.nil_append, readFloating, if_neg unsigned, taken, dropped, List.head?_cons,
      List.tail_cons, all, none_, ne_eq, not_true_eq_false, nonempty, or_self, reads, readExponent, Option.bind_eq_bind,
      Option.bind_some]
  | true =>
    have minus : (ascii "-" ++ (whole ++ 0x2e :: fraction)).head? = some 0x2d := rfl
    have tail : (ascii "-" ++ (whole ++ 0x2e :: fraction)).tail = whole ++ 0x2e :: fraction := rfl
    simp only [if_true, readFloating, minus, tail, taken, dropped, List.head?_cons, List.tail_cons, all, none_, ne_eq,
      not_true_eq_false, nonempty, or_self, if_false, reads, readExponent, Option.bind_eq_bind, Option.bind_some]

theorem spellsDoubles_exactText : SpellsDoubles exactText := by
  refine ⟨fun x finite => ?_, fun x infinite => if_pos infinite⟩
  obtain ⟨scaled, exact_⟩ := exists_scaled x.code
  have floor : ⌊Binary64.magnitude x.code * 10 ^ places⌋₊ = scaled := by rw [exact_, Nat.floor_natCast]
  have range : x.code < 2047 * 2 ^ 52 := by
    by_contra outside
    exact finite (by rw [Binary64.value?, if_pos (not_lt.mp outside)])
  have value :
      (scaled : ℚ) * 10 ^ (0 - ((Decimal.padded places (scaled % 10 ^ places)).length : ℤ)) = Binary64.magnitude x.code := by
    rw [Decimal.length_padded, ← exact_, mul_assoc, ← zpow_natCast, ← zpow_add₀ (by norm_num)]
    exact mul_one _
  have split :
      Decimal.read (Decimal.decimal (scaled / 10 ^ places) ++ Decimal.padded places (scaled % 10 ^ places)) =
        some scaled := by
    have fraction := Decimal.read_padded (Nat.mod_lt scaled (by positivity : 0 < 10 ^ places))
    rw [Decimal.read_append (Decimal.read_decimal _) fraction, Decimal.length_padded, mul_comm, Nat.div_add_mod]
  have digits : ∀ byte ∈ Decimal.decimal (scaled / 10 ^ places) ++ Decimal.padded places (scaled % 10 ^ places),
      Decimal.isDigit byte = true :=
    List.forall_mem_append.mpr ⟨Decimal.isDigit_of_mem_decimal, Decimal.isDigit_of_mem_padded⟩
  have unsigned : (Binary64.nearest (Binary64.magnitude x.code)).bits.toNat = x.code := by
    rw [Binary32.nearest_toNat (Binary64.magnitude_nonneg _), Binary64.nearestCode_magnitude range]
  have below : x.bits.toNat < 2 ^ 64 := x.bits.toNat_lt
  have code : x.code = x.bits.toNat % 2 ^ 63 := rfl
  rw [exactText, if_neg finite, floor, readFloating_digits digits (Decimal.decimal_ne_nil _) split, value, Option.some_inj,
    Binary64.mk.injEq, ← UInt64.toNat_inj]
  cases sign : x.isNegative with
  | false =>
    rw [Binary64.isNegative, decide_eq_false_iff_not] at sign
    rw [if_neg Bool.false_ne_true, unsigned]
    omega
  | true =>
    rw [Binary64.isNegative, decide_eq_true_eq] at sign
    rw [if_pos rfl, Binary32.neg_toNat (by omega), unsigned]
    omega

end OpalCpp.Codegen

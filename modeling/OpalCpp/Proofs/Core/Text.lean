import OpalCpp.Machine.Utf8
import OpalCpp.Model.Codegen.ValueChecks

/-! # The length of a text

A continuation byte is counted nowhere, whether it belongs to a sequence or not: the count is that of the
pieces of the text but the stray continuation bytes, and the checks of `@length` go by it.
-/

namespace OpalCpp

open Utf8 (Piece Pieces pieces isTail)

theorem continuation_iff (c : UInt8) : c &&& 0xC0 ≠ 0x80 ↔ (!isTail c) = true := by
  revert c
  exact forall_byte (by decide +kernel)

theorem utf8CodePointCount_eq_countP (text : Bytes) : utf8CodePointCount text = text.countP fun c => !isTail c := by
  have counts : ∀ (text : Bytes) (count : ℕ),
      text.foldl (fun count c => if c &&& 0xC0 ≠ 0x80 then count + 1 else count) count =
        count + text.countP fun c => !isTail c := by
    intro text
    induction text with
    | nil => exact fun count => rfl
    | cons c rest ih =>
      intro count
      rw [List.foldl_cons, ih, List.countP_cons]
      simp only [continuation_iff]
      split_ifs <;> omega
  rw [utf8CodePointCount, counts, Nat.zero_add]

theorem utf8CodePointCount_eq (text : Bytes) : utf8CodePointCount text = (pieces text).countP Piece.counted := by
  rw [utf8CodePointCount_eq_countP, Utf8.countP_tail]

/-- Of bytes that are characters of their own each is counted. -/
theorem utf8CodePointCount_of_ascii {text : Bytes} (ascii : ∀ c ∈ text, c < 0x80) :
    utf8CodePointCount text = text.length := by
  rw [utf8CodePointCount_eq_countP, List.countP_eq_length]
  intro c member
  have below := UInt8.lt_iff_toNat_lt.mp (ascii c member)
  rw [Bool.not_eq_true', ← Bool.not_eq_true, Utf8.isTail_iff]
  exact fun tail => absurd below (not_lt.mpr tail.1)

namespace Text

open Codegen (LengthTrait LengthCheck writeLengthCheck checkStringLength)

/-- What is documented: a sequence counts as one, a byte of none as one, and `@length` goes by code points. -/
structure CountedAsDocumented (text : Bytes) : Prop where
  count : ∀ parts, Pieces text parts → utf8CodePointCount text = parts.length
  nonzero : text ≠ [] → utf8CodePointCount text ≠ 0
  refused : ∀ (length : LengthTrait) (path : Bytes) (max : ℕ), length.max = some max →
    (∀ parts, Pieces text parts → max < parts.length) → checkStringLength length text path ≠ []

/-- An upper bound has a check, which a text above it fails. -/
theorem checkStringLength_ne_nil {length : LengthTrait} {max : ℕ} (bound : length.max = some max) {text : Bytes}
    (above : max < utf8CodePointCount text) (path : Bytes) : checkStringLength length text path ≠ [] := by
  obtain ⟨check, emitted, greater⟩ : ∃ check, writeLengthCheck length = some check ∧ check.greater = some max := by
    obtain ⟨min, max'⟩ := length
    cases bound
    cases min <;> exact ⟨_, rfl, rfl⟩
  have fails : check.fails (utf8CodePointCount text) = true := by simp [LengthCheck.fails, greater, above]
  rw [checkStringLength, emitted, Option.toList_some, List.flatMap_singleton, LengthCheck.run, if_pos fails]
  exact List.cons_ne_nil _ _

theorem pieces_ne_nil {text : Bytes} (some_ : text ≠ []) : pieces text ≠ [] := by
  intro none
  have whole := Utf8.flatMap_pieces text
  rw [none] at whole
  exact some_ whole.symm

/-- Texts are counted as documented exactly if no continuation byte stands outside of the sequences. -/
theorem counted_as_documented_iff (text : Bytes) :
    CountedAsDocumented text ↔ ∀ byte, Piece.stray byte ∈ pieces text → isTail byte = false := by
  have all : utf8CodePointCount text = (pieces text).length ↔
      ∀ byte, Piece.stray byte ∈ pieces text → isTail byte = false := by
    rw [utf8CodePointCount_eq, List.countP_eq_length]
    constructor
    · intro counted byte member
      simpa [Piece.counted] using counted _ member
    · rintro none (c | byte) member
      · rfl
      · simpa [Piece.counted] using none byte member
  rw [← all]
  constructor
  · intro documented
    exact documented.count _ (Utf8.pieces_iff.mpr rfl)
  · intro same
    refine ⟨?_, ?_, ?_⟩
    · intro parts apart
      rw [same, Utf8.pieces_iff.mp apart]
    · intro some_ zero
      exact pieces_ne_nil some_ (List.length_eq_zero_iff.mp (same ▸ zero))
    · intro length path max bound above
      exact checkStringLength_ne_nil bound (same ▸ above _ (Utf8.pieces_iff.mpr rfl)) path

/-- Two continuation bytes on their own are no code point at all, and pass under an upper bound of one. -/
theorem continuation_bytes_uncounted :
    Pieces [0x80, 0x80] [.stray 0x80, .stray 0x80] ∧ utf8CodePointCount [0x80, 0x80] = 0 ∧
      checkStringLength { max := some 1 } [0x80, 0x80] [] = [] ∧ ¬ CountedAsDocumented [0x80, 0x80] := by
  have apart : Pieces [0x80, 0x80] [.stray 0x80, .stray 0x80] := by
    rw [Utf8.pieces_iff, pieces, pieces, pieces]
    rfl
  refine ⟨apart, rfl, by decide, fun documented => ?_⟩
  exact absurd (documented.count _ apart) (by decide)

end Text

end OpalCpp

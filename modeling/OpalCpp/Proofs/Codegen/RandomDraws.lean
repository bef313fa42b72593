import Mathlib.Data.List.Dedup
import Mathlib.Data.List.Perm.Subperm
import Mathlib.Order.Lattice.Nat
import OpalCpp.Machine.Widening
import OpalCpp.Model.Codegen.RandomValues
import OpalCpp.Proofs.Core.Text

/-! # What is drawn and built

What the calls of the source of randomness can come to, which of the numbers, texts and keys that are drawn decide
whether all of them are admitted, those at the ends of their bounds, and what the builders make of them.
-/

namespace OpalCpp.Codegen

open Decimal (decimal digit)
open Draws
open Typed (Member ShapeType Value EnumValue moved plain)
open scoped Bytes

namespace Rng

theorem gives_coin (flag : Bool) : Gives (coin false) flag := by
  have drawn : ∀ flag : Bool, ∃ word : UInt32, flag = (word &&& 1 != 0) := by
    intro flag
    cases flag
    · exact ⟨0, rfl⟩
    · exact ⟨1, rfl⟩
  rw [coin, if_neg (by decide), gives_word_bind]
  simp only [gives_pure]
  exact drawn flag

/-! ## Sizes -/

theorem gives_size {min max n : ℕ} (le : min ≤ max) (small : max - min < 2 ^ 32) :
    Gives (size false min max) n ↔ min ≤ n ∧ n ≤ max := by
  obtain same | less := le.eq_or_lt
  · rw [size, if_pos (.inr same.ge), gives_pure]
    omega
  · rw [size, if_neg (by simpa using less), gives_word_bind]
    simp only [gives_pure]
    constructor
    · rintro ⟨drawn, rfl⟩
      have below := Nat.mod_lt drawn.toNat (by omega : 0 < max - min + 1)
      omega
    · rintro ⟨least, most⟩
      refine ⟨UInt32.ofNat (n - min), ?_⟩
      rw [UInt32.toNat_ofNat', Nat.mod_eq_of_lt (by omega), Nat.mod_eq_of_lt (by omega)]
      omega

/-- Filling everything comes to nothing that is not drawn without. -/
theorem gives_size_of_gives {fillAll : Bool} {min max n : ℕ} (le : min ≤ max) (small : max - min < 2 ^ 32)
    (gives : Gives (size fillAll min max) n) : Gives (size false min max) n := by
  cases fillAll with
  | false => exact gives
  | true =>
    rw [size, if_pos (.inl rfl), gives_pure] at gives
    exact (gives_size le small).mpr ⟨gives ▸ le, gives.le⟩

/-! ## Integers -/

theorem gives_int {low high n : ℤ} (gives : Gives (int low high) n) : n = low ∨ low < high ∧ low ≤ n ∧ n ≤ high := by
  rw [int, gives_word_bind] at gives
  obtain ⟨pick, gives⟩ := gives
  split_ifs at gives with least most wide
  · exact .inl (gives_pure.mp gives)
  · rw [not_or, not_le] at least
    rw [gives_pure.mp gives]
    exact .inr ⟨least.2, least.2.le, le_rfl⟩
  · exact absurd gives not_gives_stuck
  · rw [not_or, not_le] at least
    obtain ⟨drawn, gives⟩ := gives_word_bind.mp gives
    rw [gives_pure.mp gives]
    have positive : 0 < high - low + 1 := by omega
    have above := Int.emod_nonneg drawn.toNat positive.ne'
    have below := Int.emod_lt_of_pos drawn.toNat positive
    exact .inr ⟨least.2, by omega, by omega⟩

theorem gives_int_low (low high : ℤ) : Gives (int low high) low := by
  rw [int, gives_word_bind]
  refine ⟨0, ?_⟩
  rw [if_pos (.inl rfl)]
  exact gives_pure.mpr rfl

theorem gives_int_high {low high : ℤ} (less : low < high) : Gives (int low high) high := by
  have pick : (1 : UInt32).toNat % 10 = 1 := rfl
  rw [int, gives_word_bind]
  refine ⟨1, ?_⟩
  rw [if_neg (by omega), if_pos pick]
  exact gives_pure.mpr rfl

/-- What holds between the ends of bounds holds of all that is drawn where it does at the ends that are. -/
theorem forall_gives_int {low high : ℤ} {property : ℤ → Prop}
    (convex : ∀ n, low ≤ n → n ≤ high → property low → property high → property n) :
    (∀ n, Gives (int low high) n → property n) ↔ property low ∧ (low < high → property high) := by
  constructor
  · intro all
    exact ⟨all low (gives_int_low low high), fun less => all high (gives_int_high less)⟩
  · rintro ⟨least, most⟩ n gives
    obtain rfl | inside := gives_int gives
    · exact least
    · exact convex n inside.2.1 inside.2.2 least (most inside.1)

/-! ## Texts -/

theorem gives_letter {c : UInt8} :
    Gives (do let drawn ← word; return kAlphabet.getD (drawn.toNat % 62) 0) c ↔ c ∈ kAlphabet := by
  have length : kAlphabet.length = 62 := rfl
  rw [gives_word_bind]
  simp only [gives_pure]
  constructor
  · rintro ⟨drawn, rfl⟩
    have inside : drawn.toNat % 62 < kAlphabet.length := Nat.mod_lt _ (by decide)
    rw [List.getD_eq_getElem?_getD, List.getElem?_eq_getElem inside, Option.getD_some]
    exact List.getElem_mem inside
  · intro member
    obtain ⟨place, inside, rfl⟩ := List.mem_iff_getElem.mp member
    refine ⟨UInt32.ofNat place, ?_⟩
    rw [UInt32.toNat_ofNat', Nat.mod_eq_of_lt (by omega), Nat.mod_eq_of_lt (by omega), List.getD_eq_getElem?_getD,
      List.getElem?_eq_getElem inside, Option.getD_some]

theorem gives_text_of_size {fillAll : Bool} {min max : ℕ} {text : Bytes} :
    Gives (Rng.text fillAll min max) text ↔ Gives (size fillAll min max) text.length ∧ ∀ c ∈ text, c ∈ kAlphabet := by
  rw [Rng.text, gives_bind]
  simp only [gives_mapM_range, gives_letter]
  constructor
  · rintro ⟨n, sized, rfl, each⟩
    refine ⟨sized, ?_⟩
    intro c member
    obtain ⟨place, inside, rfl⟩ := List.mem_iff_getElem.mp member
    exact each place _ (List.getElem?_eq_getElem inside)
  · rintro ⟨sized, each⟩
    exact ⟨text.length, sized, rfl, fun place c at_ => each c (List.mem_of_getElem? at_)⟩

end Rng

/-! ## Bounds of sizes -/

/-- Bounds in order, everything between which a word can come to. -/
structure Sizes.Close (sizes : Sizes) : Prop where
  le : sizes.min ≤ sizes.max
  small : sizes.max - sizes.min < 2 ^ 32

theorem longAdd_le {a b : ℤ} (nonneg : 0 ≤ a + b) : longAdd a b ≤ a + b := by
  rw [longAdd, Int.bmod_def]
  split_ifs <;> omega

theorem minLength_nonneg (length : Option LengthTrait) {orElse : ℤ} (nonneg : 0 ≤ orElse) : 0 ≤ minLength length orElse := by
  rw [minLength]
  cases length.bind LengthTrait.min with
  | none => exact nonneg
  | some least => exact Int.natCast_nonneg least

theorem close_sizesOf {low high : ℤ} (nonneg : 0 ≤ low) (near : high ≤ low + 8) : (sizesOf low (max low high)).Close := by
  constructor
  · exact Int.toNat_le_toNat (le_max_left _ _)
  · simp only [sizesOf]
    omega

theorem close_containerSize (length : Option LengthTrait) (unique : Bool) : (containerSize length unique).Close := by
  have nonneg : 0 ≤ max 1 (minLength length 1) := le_trans zero_le_one (le_max_left _ _)
  have sum := longAdd_le (by omega : 0 ≤ max 1 (minLength length 1) + 2)
  apply close_sizesOf nonneg
  apply le_trans (min_le_right _ _)
  split_ifs <;> omega

theorem close_keySize (length : Option LengthTrait) : (keySize length).Close := by
  have nonneg := minLength_nonneg length zero_le_one
  have sum := longAdd_le (by omega : 0 ≤ minLength length 1 + 6)
  apply close_sizesOf (by omega)
  apply le_trans (min_le_right _ _)
  omega

theorem close_blobSize (length : Option LengthTrait) : (blobSize length).Close := by
  have nonneg : 0 ≤ max 1 (minLength length 1) := le_trans zero_le_one (le_max_left _ _)
  have sum := longAdd_le (by omega : 0 ≤ max 1 (minLength length 1) + 8)
  exact close_sizesOf nonneg (le_trans (min_le_right _ _) sum)

theorem close_stringSize (length : Option LengthTrait) : (stringSize length).Close := by
  have nonneg : 0 ≤ max 1 (minLength length 0) := le_trans zero_le_one (le_max_left _ _)
  have sum := longAdd_le (by omega : 0 ≤ max 1 (minLength length 0) + 8)
  exact close_sizesOf nonneg (le_trans (min_le_right _ _) sum)

/-- No container is empty. -/
theorem one_le_containerSize (length : Option LengthTrait) (unique : Bool) : 1 ≤ (containerSize length unique).min := by
  have least : (1 : ℤ) ≤ max 1 (minLength length 1) := le_max_left _ _
  simp only [containerSize, sizesOf]
  omega

/-! ## Texts with their places -/

/-- A text that is drawn within bounds. -/
structure Drawn (sizes : Sizes) (text : Bytes) : Prop where
  least : sizes.min ≤ text.length
  most : text.length ≤ sizes.max
  letters : ∀ c ∈ text, c ∈ Rng.kAlphabet

theorem gives_text {sizes : Sizes} (close : sizes.Close) {text : Bytes} :
    Gives (Rng.text false sizes.min sizes.max) text ↔ Drawn sizes text := by
  rw [Rng.gives_text_of_size, Rng.gives_size close.le close.small]
  exact ⟨fun both => ⟨both.1.1, both.1.2, both.2⟩, fun drawn => ⟨⟨drawn.least, drawn.most⟩, drawn.letters⟩⟩

theorem gives_text_of_gives {fillAll : Bool} {sizes : Sizes} (close : sizes.Close) {text : Bytes}
    (gives : Gives (Rng.text fillAll sizes.min sizes.max) text) : Gives (Rng.text false sizes.min sizes.max) text := by
  rw [Rng.gives_text_of_size] at gives ⊢
  exact ⟨Rng.gives_size_of_gives close.le close.small gives.1, gives.2⟩

/-- A text of every length in the bounds is drawn. -/
theorem drawn_replicate {sizes : Sizes} {n : ℕ} (least : sizes.min ≤ n) (most : n ≤ sizes.max) :
    Drawn sizes (List.replicate n 0x61) where
  least := by rwa [List.length_replicate]
  most := by rwa [List.length_replicate]
  letters c member := by
    rw [List.eq_of_mem_replicate member]
    decide

/-- Texts that are drawn, each with its place behind it. -/
def Indexed (sizes : Sizes) (texts : List Bytes) : Prop :=
  ∀ (place : ℕ) text, texts[place]? = some text → ∃ base, Drawn sizes base ∧ text = base ++ decimal place

theorem decimal_inj {n m : ℕ} (same : decimal n = decimal m) : n = m := by
  have reads := Decimal.read_decimal n
  rw [same, Decimal.read_decimal] at reads
  exact (Option.some.inj reads).symm

/-- Places of one digit, and texts of one length, make texts different. -/
theorem eq_of_append_decimal {base base' : Bytes} {n m : ℕ} (same : base ++ decimal n = base' ++ decimal m)
    (apart : n < 10 ∧ m < 10 ∨ base.length = base'.length) : n = m := by
  obtain digits | length := apart
  · apply decimal_inj
    rw [Decimal.decimal_of_lt digits.1, Decimal.decimal_of_lt digits.2] at same ⊢
    exact (List.append_inj' same rfl).2
  · exact decimal_inj (List.append_inj same length).2

/-- What is made of texts of different places is different. -/
theorem nodup_of_places {α : Type} {f : Bytes → α} (injective : Function.Injective f) {sizes : Sizes} {items : List α}
    (each : ∀ (place : ℕ) item, items[place]? = some item → ∃ base, Drawn sizes base ∧ item = f (base ++ decimal place))
    (apart : items.length ≤ 10 ∨ sizes.min = sizes.max) : items.Nodup := by
  rw [List.nodup_iff_injective_getElem]
  intro place place' same
  obtain ⟨base, drawn, item⟩ := each place _ (List.getElem?_eq_getElem place.2)
  obtain ⟨base', drawn', item'⟩ := each place' _ (List.getElem?_eq_getElem place'.2)
  apply Fin.ext
  apply eq_of_append_decimal (injective (item.symm.trans (same.trans item')))
  obtain few | fixed := apart
  · exact .inl ⟨lt_of_lt_of_le place.2 few, lt_of_lt_of_le place'.2 few⟩
  · have := drawn.least
    have := drawn.most
    have := drawn'.least
    have := drawn'.most
    exact .inr (by omega)

theorem Indexed.nodup {sizes : Sizes} {texts : List Bytes} (indexed : Indexed sizes texts)
    (apart : texts.length ≤ 10 ∨ sizes.min = sizes.max) : texts.Nodup :=
  nodup_of_places Function.injective_id indexed apart

theorem Indexed.take {sizes : Sizes} {texts : List Bytes} (indexed : Indexed sizes texts) (n : ℕ) :
    Indexed sizes (texts.take n) := by
  intro place text at_
  rw [List.getElem?_take] at at_
  split_ifs at at_ with inside
  exact indexed place text at_

theorem getElem?_map_range {α : Type} (f : ℕ → α) (n place : ℕ) :
    ((List.range n).map f)[place]? = if place < n then some (f place) else none := by
  rw [List.getElem?_map]
  split_ifs with inside
  · rw [List.getElem?_range inside, Option.map_some]
  · rw [List.getElem?_eq_none (by rw [List.length_range]; omega), Option.map_none]

theorem indexed_map_range {sizes : Sizes} {n : ℕ} {base : ℕ → Bytes} (drawn : ∀ place < n, Drawn sizes (base place)) :
    Indexed sizes ((List.range n).map fun place => base place ++ decimal place) := by
  intro place text at_
  rw [getElem?_map_range] at at_
  split_ifs at at_ with inside
  exact ⟨base place, drawn place inside, (Option.some.inj at_).symm⟩

/-- Any text that is drawn may be at any place. -/
theorem exists_indexed {sizes : Sizes} {base : Bytes} (drawn : Drawn sizes base) {place n : ℕ} (inside : place < n) :
    ∃ texts, Indexed sizes texts ∧ texts.length = n ∧ texts[place]? = some (base ++ decimal place) := by
  refine ⟨_, indexed_map_range fun _ _ => drawn, by rw [List.length_map, List.length_range], ?_⟩
  rw [getElem?_map_range, if_pos inside]

/-- With one base for all of them the texts are different. -/
theorem exists_indexed_nodup {sizes : Sizes} (le : sizes.min ≤ sizes.max) (n : ℕ) :
    ∃ texts, Indexed sizes texts ∧ texts.length = n ∧ texts.Nodup := by
  refine ⟨_, indexed_map_range fun _ _ => drawn_replicate le_rfl le, by rw [List.length_map, List.length_range], ?_⟩
  apply List.Nodup.map _ List.nodup_range
  intro place place' same
  exact eq_of_append_decimal same (.inr rfl)

/-- With an eleventh text, and room for a digit more, two may be the same: the first one with the digit before its
place is the eleventh one. -/
theorem exists_indexed_not_nodup {sizes : Sizes} {n : ℕ} (many : 10 < n) (room : sizes.min < sizes.max) :
    ∃ texts, Indexed sizes texts ∧ texts.length = n ∧ ¬ texts.Nodup := by
  obtain ⟨base, isBase⟩ : ∃ base, base = List.replicate sizes.min (0x61 : UInt8) := ⟨_, rfl⟩
  have drawn : Drawn sizes base := isBase ▸ drawn_replicate le_rfl room.le
  have longer : Drawn sizes (base ++ [0x31]) := by
    refine ⟨?_, ?_, ?_⟩
    · exact le_trans drawn.least (List.length_append ▸ Nat.le_add_right _ _)
    · rw [List.length_append, isBase, List.length_replicate]
      exact room
    · intro c member
      obtain before | last := List.mem_append.mp member
      · exact drawn.letters c before
      · rw [List.mem_singleton.mp last]
        decide
  refine ⟨(List.range n).map fun place => (if place = 0 then base ++ [0x31] else base) ++ decimal place, ?_, ?_, ?_⟩
  · apply indexed_map_range
    intro place _
    split_ifs
    · exact longer
    · exact drawn
  · rw [List.length_map, List.length_range]
  · intro nodup
    have first := getElem?_map_range (fun place => (if place = 0 then base ++ [0x31] else base) ++ decimal place) n 0
    have eleventh := getElem?_map_range (fun place => (if place = 0 then base ++ [0x31] else base) ++ decimal place) n 10
    have digits : decimal 0 = [0x30] ∧ decimal 10 = [0x31, 0x30] := by decide
    rw [if_pos (by omega), if_pos rfl, digits.1, List.append_assoc, List.singleton_append] at first
    rw [if_pos many, if_neg (by decide), digits.2] at eleventh
    exact List.nodup_iff_getElem?_ne_getElem?.mp nodup 0 10 (by decide) (by rwa [List.length_map, List.length_range])
      (first.trans eleventh.symm)

/-! ## The fewest keys -/

theorem length_dedup_le {texts others : List Bytes} (inside : texts ⊆ others) : texts.dedup.length ≤ others.dedup.length :=
  ((List.nodup_dedup texts).subperm fun _ member => List.mem_dedup.mpr (inside (List.mem_dedup.mp member))).length_le

/-- The fewest keys that texts with their places behind them come to. -/
noncomputable def fewestKeys (sizes : Sizes) (n : ℕ) : ℕ :=
  sInf {count | ∃ texts, Indexed sizes texts ∧ texts.length = n ∧ texts.dedup.length = count}

theorem Indexed.fewestKeys_le {sizes : Sizes} {texts : List Bytes} (indexed : Indexed sizes texts) :
    fewestKeys sizes texts.length ≤ texts.dedup.length := Nat.sInf_le ⟨texts, indexed, rfl, rfl⟩

theorem exists_fewestKeys {sizes : Sizes} (le : sizes.min ≤ sizes.max) (n : ℕ) :
    ∃ texts, Indexed sizes texts ∧ texts.length = n ∧ texts.dedup.length = fewestKeys sizes n := by
  obtain ⟨texts, indexed, length, -⟩ := exists_indexed_nodup le n
  have some_ : Set.Nonempty {count | ∃ texts, Indexed sizes texts ∧ texts.length = n ∧ texts.dedup.length = count} :=
    ⟨_, texts, indexed, length, rfl⟩
  exact Nat.sInf_mem some_

theorem fewestKeys_le_self {sizes : Sizes} (le : sizes.min ≤ sizes.max) (n : ℕ) : fewestKeys sizes n ≤ n := by
  obtain ⟨texts, indexed, length, -⟩ := exists_indexed_nodup le n
  exact length ▸ le_trans indexed.fewestKeys_le (List.dedup_sublist texts).length_le

theorem fewestKeys_mono {sizes : Sizes} (le : sizes.min ≤ sizes.max) {n m : ℕ} (fewer : n ≤ m) :
    fewestKeys sizes n ≤ fewestKeys sizes m := by
  obtain ⟨texts, indexed, length, count⟩ := exists_fewestKeys le m
  have less := (indexed.take n).fewestKeys_le
  rw [List.length_take, length, min_eq_left fewer] at less
  exact le_trans less (count ▸ length_dedup_le (List.take_subset n texts))

/-! ## What is admitted -/

section Admitted

variable {traits : ConstraintTraits}

theorem ConstraintTraits.AdmitsLength.between {low high n : ℕ} (least : traits.AdmitsLength low)
    (most : traits.AdmitsLength high)
    (above : low ≤ n) (below : n ≤ high) : traits.AdmitsLength n := by
  intro trait present
  exact ⟨fun bound member => le_trans ((least trait present).1 bound member) above,
    fun bound member => le_trans below ((most trait present).2 bound member)⟩

theorem ConstraintTraits.AdmitsNumber.between {low high number : ℚ} (least : traits.AdmitsNumber low)
    (most : traits.AdmitsNumber high) (above : low ≤ number) (below : number ≤ high) : traits.AdmitsNumber number := by
  intro trait present
  exact ⟨fun bound member => le_trans ((least trait present).1 bound member) above,
    fun bound member => le_trans below ((most trait present).2 bound member)⟩

/-- Doubles are admitted by their numbers. -/
theorem admitsDouble_iff {number : Binary64} {value : ℚ} (finite : number.value? = some value) :
    traits.AdmitsDouble number ↔ traits.AdmitsNumber value := by
  simp only [ConstraintTraits.AdmitsDouble, ConstraintTraits.AdmitsNumber, finite, Option.mem_def, Option.some_inj,
    exists_eq_left']

end Admitted

/-- Both ends of the sizes. -/
def SizesAdmitted (traits : ConstraintTraits) (sizes : Sizes) : Prop :=
  traits.AdmitsLength sizes.min ∧ traits.AdmitsLength sizes.max

/-- Both ends of the bounds, or the lower one where they are not in order. -/
def BoundsAdmitted (admits : ℤ → Prop) (bounds : Bounds) : Prop :=
  admits bounds.low ∧ (bounds.low < bounds.high → admits bounds.high)

/-- Integers of a type are admitted where the ends of their bounds are: nothing between them is another one as the type. -/
theorem forall_intBounds {traits : ConstraintTraits} {lowest highest : ℤ} {range : Option RangeTrait} {convert : ℤ → ℤ}
    (same : ∀ n, lowest ≤ n → n ≤ highest → convert n = n) :
    (∀ n, Gives (RandomValueGenerator.intExpression (intBounds lowest highest range)) n → traits.AdmitsNumber (convert n)) ↔
      BoundsAdmitted (fun n => traits.AdmitsNumber (convert n)) (intBounds lowest highest range) := by
  have above : lowest ≤ (intBounds lowest highest range).low := by
    rw [intBounds]
    cases range.bind RangeTrait.min with
    | none => exact le_rfl
    | some least => exact le_max_left _ _
  have below : (intBounds lowest highest range).high ≤ highest := by
    rw [intBounds]
    cases range.bind RangeTrait.max with
    | none => exact le_rfl
    | some most => exact min_le_left _ _
  apply Rng.forall_gives_int
  intro n least most admitsLow admitsHigh
  rw [same _ (by omega) (by omega)] at admitsLow admitsHigh ⊢
  exact admitsLow.between admitsHigh (by exact_mod_cast least) (by exact_mod_cast most)

theorem abs_roundedLong_le (rounded : ℚ → ℤ) (number : ℚ) : |(roundedLong rounded number : ℚ)| ≤ 2 ^ 63 := by
  have bounds : -2 ^ 63 ≤ roundedLong rounded number ∧ roundedLong rounded number ≤ 2 ^ 63 := by
    simp only [roundedLong]
    split
    · exact ⟨Int64.le_toInt _, Int64.toInt_lt _ |>.le⟩
    · split_ifs <;> decide
  rw [abs_le]
  exact ⟨by exact_mod_cast bounds.1, by exact_mod_cast bounds.2⟩

theorem abs_floatingBounds_le (range : RangeTrait) :
    |((floatingBounds range).low : ℚ)| ≤ 2 ^ 63 ∧ |((floatingBounds range).high : ℚ)| ≤ 2 ^ 63 := by
  rw [floatingBounds]
  constructor
  · cases range.min with
    | none => norm_num
    | some least => exact abs_roundedLong_le _ _
  · cases range.max with
    | none => norm_num
    | some most => exact abs_roundedLong_le _ _

/-- Floating-point numbers are admitted where those at the ends are, since rounding keeps the order. -/
theorem forall_floatingBounds {traits : ConstraintTraits} {range : RangeTrait} {format : FloatFormat} {double : ℤ → Binary64}
    (finite : format.nearestCode (2 ^ 63) < format.infinite)
    (value : ∀ n : ℤ, |(n : ℚ)| ≤ 2 ^ 63 → (double n).value? = some (format.rounded n)) :
    (∀ n, Gives (RandomValueGenerator.intExpression (floatingBounds range)) n → traits.AdmitsDouble (double n)) ↔
      BoundsAdmitted (fun n => traits.AdmitsDouble (double n)) (floatingBounds range) := by
  obtain ⟨smallLow, smallHigh⟩ := abs_floatingBounds_le range
  apply Rng.forall_gives_int
  intro n least most admitsLow admitsHigh
  have above : ((floatingBounds range).low : ℚ) ≤ n := by exact_mod_cast least
  have below : (n : ℚ) ≤ (floatingBounds range).high := by exact_mod_cast most
  have small : |(n : ℚ)| ≤ 2 ^ 63 :=
    abs_le.mpr ⟨le_trans (abs_le.mp smallLow).1 above, le_trans below (abs_le.mp smallHigh).2⟩
  rw [admitsDouble_iff (value _ smallLow)] at admitsLow
  rw [admitsDouble_iff (value _ smallHigh)] at admitsHigh
  rw [admitsDouble_iff (value _ small)]
  exact admitsLow.between admitsHigh (FloatFormat.rounded_mono finite smallLow small above)
    (FloatFormat.rounded_mono finite small smallHigh below)

theorem nearestCode_two_pow :
    FloatFormat.binary32.nearestCode (2 ^ 63) < FloatFormat.binary32.infinite ∧
      FloatFormat.binary64.nearestCode (2 ^ 63) < FloatFormat.binary64.infinite := by
  have single : FloatFormat.binary32.magnitude (190 * 2 ^ 23) = 2 ^ 63 := by
    norm_num [FloatFormat.magnitude, FloatFormat.binary32]
  have double : FloatFormat.binary64.magnitude (1086 * 2 ^ 52) = 2 ^ 63 := by
    norm_num [FloatFormat.magnitude, FloatFormat.binary64]
  constructor
  · rw [← single, FloatFormat.nearestCode_magnitude (by decide)]
    decide
  · rw [← double, FloatFormat.nearestCode_magnitude (by decide)]
    decide

theorem value?_nearest_single {x : ℚ} (small : |x| ≤ 2 ^ 63) :
    (Binary32.nearest x).toBinary64.value? = some (FloatFormat.binary32.rounded x) :=
  Binary32.value?_nearest (lt_of_le_of_lt (FloatFormat.nearestCode_mono (abs_nonneg x) small) nearestCode_two_pow.1)

theorem value?_nearest_double {x : ℚ} (small : |x| ≤ 2 ^ 63) :
    (Binary64.nearest x).value? = some (FloatFormat.binary64.rounded x) := by
  apply Binary64.value?_nearest_eq_rounded
  rw [← FloatFormat.binary64_nearestCode]
  exact lt_of_le_of_lt (FloatFormat.nearestCode_mono (abs_nonneg x) small) nearestCode_two_pow.2

/-- A text counts as long as it is. -/
theorem Drawn.count {sizes : Sizes} {text : Bytes} (drawn : Drawn sizes text) : utf8CodePointCount text = text.length := by
  have ascii : ∀ c ∈ Rng.kAlphabet, c < 0x80 := by decide
  exact utf8CodePointCount_of_ascii fun c member => ascii c (drawn.letters c member)

theorem Drawn.count_append {sizes : Sizes} {text : Bytes} (drawn : Drawn sizes text) (place : ℕ) :
    utf8CodePointCount (text ++ decimal place) = text.length + (decimal place).length := by
  have ascii : ∀ c ∈ Rng.kAlphabet, c < 0x80 := by decide
  rw [utf8CodePointCount_of_ascii, List.length_append]
  intro c member
  obtain letter | digit := List.mem_append.mp member
  · exact ascii c (drawn.letters c letter)
  · exact Decimal.lt_of_isDigit (Decimal.isDigit_of_mem_decimal c digit)

/-- Texts that are drawn have lengths that are admitted where the ends of their bounds are. -/
theorem forall_drawn {traits : ConstraintTraits} {sizes : Sizes} (le : sizes.min ≤ sizes.max) :
    (∀ text, Drawn sizes text → traits.AdmitsLength text.length) ↔ SizesAdmitted traits sizes := by
  constructor
  · intro all
    have at_ : ∀ n, sizes.min ≤ n → n ≤ sizes.max → traits.AdmitsLength n := by
      intro n least most
      have admitted := all _ (drawn_replicate least most)
      rwa [List.length_replicate] at admitted
    exact ⟨at_ _ le_rfl le, at_ _ le le_rfl⟩
  · rintro ⟨least, most⟩ text drawn
    exact least.between most drawn.least drawn.most

namespace RandomValueGenerator

variable {Id : Type} (generator : RandomValueGenerator Id)

/-! ## More that is built -/

section Mono

variable {generator} {fillAll : Bool} {random random' : Id → Draws Value}
  (within : ∀ target value, Gives (random target) value → Gives (random' target) value)

theorem gives_keyExpression_mono {traits : ConstraintTraits} {key : Bytes}
    (gives : Gives (generator.keyExpression fillAll traits) key) :
    Gives (generator.keyExpression false traits) key := by
  rw [keyExpression] at gives ⊢
  cases pattern : traits.pattern with
  | some pattern => rwa [pattern] at gives
  | none =>
    rw [pattern] at gives
    exact gives_text_of_gives (close_keySize _) gives

theorem gives_stringExpression_mono {traits : ConstraintTraits} {text : Bytes}
    (gives : Gives (generator.stringExpression fillAll traits) text) :
    Gives (generator.stringExpression false traits) text := by
  rw [stringExpression] at gives ⊢
  cases pattern : traits.pattern with
  | some pattern => rwa [pattern] at gives
  | none =>
    rw [pattern] at gives
    exact gives_text_of_gives (close_stringSize _) gives

include within

theorem gives_expression_mono {target : Id} {traits : ConstraintTraits} {value : Value}
    (gives : Gives (generator.expression fillAll random target traits) value) :
    Gives (generator.expression false random' target traits) value := by
  rw [expression] at gives ⊢
  cases type : (generator.model.shape target).type <;> simp only [type] at gives ⊢
  case string =>
    rw [gives_map] at gives ⊢
    exact gives.imp fun _ both => ⟨gives_stringExpression_mono both.1, both.2⟩
  case blob =>
    rw [gives_map] at gives ⊢
    exact gives.imp fun _ both => ⟨gives_text_of_gives (close_blobSize _) both.1, both.2⟩
  case struct | union | list | map => exact within _ _ gives
  all_goals exact gives

theorem gives_field_mono {container : Id} {place : ℕ} {member : Member Id} {value : Value}
    (gives : Gives (generator.field fillAll random container place member) value) :
    Gives (generator.field false random' container place member) value := by
  have set {optional : Bool} {value : Value}
      (gives : Gives (moved optional <$>
        generator.expression fillAll random member.target (generator.constraint container place member.target)) value) :
      Gives (moved optional <$>
        generator.expression false random' member.target (generator.constraint container place member.target)) value := by
    rw [gives_map] at gives ⊢
    exact gives.imp fun _ both => ⟨gives_expression_mono within both.1, both.2⟩
  simp only [field] at gives ⊢
  by_cases always : member.isRequired ∨ generator.idempotencyToken container place
  · rw [if_pos always] at gives ⊢
    exact set gives
  · rw [if_neg always, gives_bind] at gives ⊢
    obtain ⟨flag, -, gives⟩ := gives
    refine ⟨flag, Rng.gives_coin flag, ?_⟩
    cases flag with
    | false => exact gives
    | true => exact set gives

theorem gives_alternative_mono {container : Id} {members : List (Member Id)} {value : Value}
    (gives : Gives (generator.alternative fillAll random container members) value) :
    Gives (generator.alternative false random' container members) value := by
  rw [alternative, gives_word_bind] at gives ⊢
  obtain ⟨drawn, gives⟩ := gives
  refine ⟨drawn, ?_⟩
  cases at_ : members[drawn.toNat % members.length]? with
  | none => exact absurd (by simpa only [at_] using gives) not_gives_stuck
  | some member =>
    simp only [at_, gives_map] at gives ⊢
    exact gives.imp fun _ both => ⟨gives_expression_mono within both.1, both.2⟩

theorem gives_listItem_mono {container : Id} {element : Member Id} {sparse unique : Bool} {i : ℕ} {value : Value}
    (gives : Gives (generator.listItem fillAll random container element sparse unique i) value) :
    Gives (generator.listItem false random' container element sparse unique i) value := by
  have drops {absent : Bool} (drew : Gives (leftOut fillAll sparse) absent) : Gives (leftOut false sparse) absent := by
    cases fillAll with
    | false => exact drew
    | true =>
      rw [leftOut, Bool.not_true, Bool.and_false, if_neg (by decide), gives_pure] at drew
      cases sparse with
      | false => exact gives_pure.mpr drew
      | true =>
        rw [leftOut, if_pos (by decide), gives_map]
        exact ⟨1, gives_word, drew⟩
  simp only [listItem, gives_bind] at gives ⊢
  obtain ⟨absent, drew, gives⟩ := gives
  refine ⟨absent, drops drew, ?_⟩
  cases absent with
  | true => exact gives
  | false =>
    simp only [Bool.false_eq_true, if_false, gives_map] at gives ⊢
    obtain ⟨item, gave, rfl⟩ := gives
    refine ⟨item, ?_, rfl⟩
    split_ifs at gave ⊢ with text
    · rw [gives_bind] at gave ⊢
      exact gave.imp fun _ both => ⟨gives_expression_mono within both.1, both.2⟩
    · exact gives_expression_mono within gave

theorem gives_mapEntry_mono {container : Id} {key value : Member Id} {sparse : Bool} {i : ℕ} {entry : Bytes × Value}
    (gives : Gives (generator.mapEntry fillAll random container key value sparse i) entry) :
    Gives (generator.mapEntry false random' container key value sparse i) entry := by
  simp only [mapEntry] at gives ⊢
  split_ifs at gives ⊢ with first
  · simp only [gives_bind, gives_map] at gives ⊢
    obtain ⟨text, ⟨base, drew, rfl⟩, item, ⟨built, gave, rfl⟩, made⟩ := gives
    exact ⟨_, ⟨base, gives_keyExpression_mono drew, rfl⟩, _, ⟨built, gives_expression_mono within gave, rfl⟩, made⟩
  · simp only [gives_bind, gives_map] at gives ⊢
    obtain ⟨item, ⟨built, gave, rfl⟩, text, ⟨base, drew, rfl⟩, made⟩ := gives
    exact ⟨_, ⟨built, gives_expression_mono within gave, rfl⟩, _, ⟨base, gives_keyExpression_mono drew, rfl⟩, made⟩

/-- What is built with everything filled is built without, and so is what is built of less. -/
theorem gives_writeBuilder_mono {id : Id} {value : Value} (gives : Gives (generator.writeBuilder fillAll random id) value) :
    Gives (generator.writeBuilder false random' id) value := by
  rw [writeBuilder] at gives ⊢
  cases type : (generator.model.shape id).type <;> simp only [type] at gives ⊢
  case struct members =>
    rw [gives_map] at gives ⊢
    obtain ⟨values, gave, rfl⟩ := gives
    exact ⟨values, gives_mapM.mpr ((gives_mapM.mp gave).imp fun _ _ => gives_field_mono within), rfl⟩
  case union members discriminated => exact gives_alternative_mono within gives
  case list element sparse =>
    simp only [gives_bind, gives_map] at gives ⊢
    obtain ⟨n, sized, items, gave, rfl⟩ := gives
    have close := close_containerSize (generator.traits id).length (generator.hasEffective id)
    exact ⟨n, Rng.gives_size_of_gives close.le close.small sized, items,
      gives_mapM.mpr ((gives_mapM.mp gave).imp fun _ _ => gives_listItem_mono within), rfl⟩
  case map key item sparse =>
    simp only [gives_bind] at gives ⊢
    obtain ⟨n, sized, entries, gave, made⟩ := gives
    have close := close_containerSize (generator.traits id).length false
    exact ⟨n, Rng.gives_size_of_gives close.le close.small sized, entries,
      gives_mapM.mpr ((gives_mapM.mp gave).imp fun _ _ => gives_mapEntry_mono within), made⟩
  all_goals exact absurd gives not_gives_stuck

end Mono

theorem gives_random_mono {fillAll : Bool} {fuel more : ℕ} (le : fuel ≤ more) {id : Id} {value : Value}
    (gives : Gives (generator.random fillAll fuel id) value) : Gives (generator.random false more id) value := by
  induction fuel generalizing more id value with
  | zero => exact absurd gives not_gives_stuck
  | succ fuel ih =>
    obtain ⟨more, rfl⟩ := Nat.exists_eq_add_of_le' (Nat.lt_of_lt_of_le (Nat.succ_pos fuel) le)
    exact gives_writeBuilder_mono (fun _ _ gives => ih (Nat.le_of_succ_le_succ le) gives) gives

/-! ## What is built -/

section Built

variable {generator} {random : Id → Draws Value}

theorem gives_field {container : Id} {place : ℕ} {member : Member Id} {value : Value} :
    Gives (generator.field false random container place member) value ↔
      (∃ built, Gives (generator.expression false random member.target
        (generator.constraint container place member.target)) built ∧
        value = moved (!plain (generator.model.shape container) (generator.model.shape member.target).type member) built) ∨
      ¬ (member.isRequired ∨ generator.idempotencyToken container place) ∧
        value = if !plain (generator.model.shape container) (generator.model.shape member.target).type member then .nullopt
          else Typed.literal member := by
  simp only [field]
  by_cases always : member.isRequired ∨ generator.idempotencyToken container place
  · rw [if_pos always, Draws.gives_map]
    exact (or_iff_left fun unset => unset.1 always).symm
  · rw [if_neg always, gives_bind]
    constructor
    · rintro ⟨flag, -, gives⟩
      cases flag with
      | false =>
        rw [if_neg Bool.false_ne_true, gives_pure] at gives
        exact .inr ⟨always, gives⟩
      | true => exact .inl (Draws.gives_map.mp gives)
    · rintro (set | ⟨-, rfl⟩)
      · exact ⟨true, Rng.gives_coin true, Draws.gives_map.mpr set⟩
      · refine ⟨false, Rng.gives_coin false, ?_⟩
        rw [if_neg Bool.false_ne_true, gives_pure]

theorem gives_alternative {container : Id} {members : List (Member Id)} {value : Value} :
    Gives (generator.alternative false random container members) value ↔
      ∃ (place : ℕ) (member : Member Id) (built : Value), place < 2 ^ 32 ∧ members[place]? = some member ∧
        Gives (generator.expression false random member.target (generator.constraint container place member.target)) built ∧
        value = .alternative place built := by
  rw [alternative, gives_word_bind]
  constructor
  · rintro ⟨drawn, gives⟩
    cases at_ : members[drawn.toNat % members.length]? with
    | none => exact absurd (by simpa only [at_] using gives) not_gives_stuck
    | some member =>
      simp only [at_, Draws.gives_map] at gives
      obtain ⟨built, gave, rfl⟩ := gives
      exact ⟨_, member, built, lt_of_le_of_lt (Nat.mod_le _ _) drawn.toNat_lt, at_, gave, rfl⟩
  · rintro ⟨place, member, built, small, at_, gave, rfl⟩
    refine ⟨UInt32.ofNat place, ?_⟩
    obtain ⟨inside, -⟩ := List.getElem?_eq_some_iff.mp at_
    simp only [UInt32.toNat_ofNat', Nat.mod_eq_of_lt small, Nat.mod_eq_of_lt inside, at_]
    exact Draws.gives_map.mpr ⟨built, gave, rfl⟩

theorem gives_leftOut {sparse absent : Bool} : Gives (leftOut false sparse) absent ↔ (absent = true → sparse = true) := by
  rw [leftOut]
  cases sparse with
  | false => cases absent <;> simp [gives_pure]
  | true =>
    rw [if_pos (by decide), Draws.gives_map]
    constructor
    · exact fun _ _ => rfl
    · intro _
      cases absent with
      | false => exact ⟨1, gives_word, rfl⟩
      | true => exact ⟨0, gives_word, rfl⟩

theorem gives_listItem {container : Id} {element : Member Id} {sparse unique : Bool} {i : ℕ} {value : Value} :
    Gives (generator.listItem false random container element sparse unique i) value ↔
      sparse = true ∧ value = .nullopt ∨
      ∃ built, Gives (if unique && (generator.model.shape element.target).type matches .string | .enum _ then
          generator.expression false random element.target (generator.constraint container 0 element.target) >>= withIndex i
        else generator.expression false random element.target (generator.constraint container 0 element.target)) built ∧
        value = moved sparse built := by
  simp only [listItem, gives_bind, gives_leftOut]
  constructor
  · rintro ⟨absent, drops, gives⟩
    cases absent with
    | true => exact .inl ⟨drops rfl, gives_pure.mp gives⟩
    | false => exact .inr (Draws.gives_map.mp gives)
  · rintro (⟨absent, rfl⟩ | set)
    · exact ⟨true, fun _ => absent, gives_pure.mpr rfl⟩
    · exact ⟨false, fun never => absurd never Bool.false_ne_true, Draws.gives_map.mpr set⟩

theorem gives_keyExpression {traits : ConstraintTraits} (plain : traits.pattern = none) {key : Bytes} :
    Gives (generator.keyExpression false traits) key ↔ Drawn (keySize traits.length) key := by
  rw [keyExpression, plain]
  exact gives_text (close_keySize _)

theorem gives_stringExpression {traits : ConstraintTraits} (plain : traits.pattern = none) {text : Bytes} :
    Gives (generator.stringExpression false traits) text ↔ Drawn (stringSize traits.length) text := by
  rw [stringExpression, plain]
  exact gives_text (close_stringSize _)

theorem gives_expression_string {target : Id} (string : (generator.model.shape target).type = .string)
    {traits : ConstraintTraits}
    (plain : traits.pattern = none) {value : Value} :
    Gives (generator.expression false random target traits) value ↔
      ∃ text, Drawn (stringSize traits.length) text ∧ value = .string text := by
  rw [expression, string]
  simp only [Draws.gives_map, gives_stringExpression plain]

/-- The items of a list of strings are different by their places. -/
theorem gives_listItem_unique {container : Id} {element : Member Id}
    (string : (generator.model.shape element.target).type = .string)
    (plain : (generator.constraint container 0 element.target).pattern = none) {sparse : Bool} {i : ℕ} {value : Value} :
    Gives (generator.listItem false random container element sparse true i) value ↔
      sparse = true ∧ value = .nullopt ∨
      ∃ base, Drawn (stringSize (generator.constraint container 0 element.target).length) base ∧
        value = moved sparse (.string (base ++ decimal i)) := by
  rw [gives_listItem, string]
  apply or_congr_right
  simp only [Bool.true_and, if_true, gives_bind, gives_expression_string string plain]
  constructor
  · rintro ⟨built, ⟨_, ⟨text, drawn, rfl⟩, indexed⟩, rfl⟩
    exact ⟨text, drawn, congrArg (moved sparse) (gives_pure.mp indexed)⟩
  · rintro ⟨base, drawn, rfl⟩
    exact ⟨_, ⟨_, ⟨base, drawn, rfl⟩, gives_pure.mpr rfl⟩, rfl⟩

theorem gives_listItem_plain {container : Id} {element : Member Id} {sparse : Bool} {i : ℕ} {value : Value} :
    Gives (generator.listItem false random container element sparse false i) value ↔
      sparse = true ∧ value = .nullopt ∨
      ∃ built, Gives (generator.expression false random element.target
        (generator.constraint container 0 element.target)) built ∧
        value = moved sparse built := by
  rw [gives_listItem]
  simp only [Bool.false_and, Bool.false_eq_true, if_false]

theorem gives_mapEntry {container : Id} {key value : Member Id}
    (plain : (generator.constraint container 0 key.target).pattern = none)
    {sparse : Bool} {i : ℕ} {entry : Bytes × Value} :
    Gives (generator.mapEntry false random container key value sparse i) entry ↔
      ∃ base built, Drawn (keySize (generator.constraint container 0 key.target).length) base ∧
        Gives (generator.expression false random value.target (generator.constraint container 1 value.target)) built ∧
        entry = (base ++ decimal i, moved sparse built) := by
  simp only [mapEntry]
  split_ifs
  · simp only [gives_bind, Draws.gives_map, gives_keyExpression plain, gives_pure]
    constructor
    · rintro ⟨_, ⟨base, drawn, rfl⟩, _, ⟨built, gave, rfl⟩, rfl⟩
      exact ⟨base, built, drawn, gave, rfl⟩
    · rintro ⟨base, built, drawn, gave, rfl⟩
      exact ⟨_, ⟨base, drawn, rfl⟩, _, ⟨built, gave, rfl⟩, rfl⟩
  · simp only [gives_bind, Draws.gives_map, gives_keyExpression plain, gives_pure]
    constructor
    · rintro ⟨_, ⟨built, gave, rfl⟩, _, ⟨base, drawn, rfl⟩, rfl⟩
      exact ⟨base, built, drawn, gave, rfl⟩
    · rintro ⟨base, built, drawn, gave, rfl⟩
      exact ⟨_, ⟨built, gave, rfl⟩, _, ⟨base, drawn, rfl⟩, rfl⟩

/-- The bounds of the number of items or entries. -/
def containerSizes (generator : RandomValueGenerator Id) (id : Id) : Sizes :=
  containerSize (generator.traits id).length
    (match (generator.model.shape id).type with
      | .list _ _ => generator.hasEffective id
      | _ => false)

theorem gives_structBuilder {id : Id} {members : List (Member Id)} (type : (generator.model.shape id).type = .struct members)
    {value : Value} :
    Gives (generator.writeBuilder false random id) value ↔
      ∃ values : List Value, values.length = members.length ∧
        (∀ (place : ℕ) member built, members[place]? = some member → values[place]? = some built →
          Gives (generator.field false random id place member) built) ∧
        value = .struct values := by
  rw [writeBuilder, type]
  simp only [Draws.gives_map, gives_mapM_getElem?, List.length_zipIdx, List.getElem?_zipIdx, Nat.zero_add,
    Option.map_eq_some_iff]
  constructor
  · rintro ⟨values, ⟨length, each⟩, rfl⟩
    exact ⟨values, length, fun place member built at_ at' => each place _ built ⟨member, at_, rfl⟩ at', rfl⟩
  · rintro ⟨values, length, each, rfl⟩
    refine ⟨values, ⟨length, ?_⟩, rfl⟩
    rintro place _ built ⟨member, at_, rfl⟩ at'
    exact each place member built at_ at'

theorem gives_listBuilder {id : Id} {element : Member Id} {sparse : Bool}
    (type : (generator.model.shape id).type = .list element sparse) {value : Value} :
    Gives (generator.writeBuilder false random id) value ↔
      ∃ items : List Value, (generator.containerSizes id).min ≤ items.length ∧
        items.length ≤ (generator.containerSizes id).max ∧
        (∀ (place : ℕ) item, items[place]? = some item →
          Gives (generator.listItem false random id element sparse (generator.hasEffective id) place) item) ∧
        value = .list items := by
  have close := close_containerSize (generator.traits id).length (generator.hasEffective id)
  have same : generator.containerSizes id = containerSize (generator.traits id).length (generator.hasEffective id) := by
    rw [containerSizes, type]
  rw [writeBuilder, type, same]
  simp only [gives_bind, Rng.gives_size close.le close.small, Draws.gives_map, gives_mapM_range]
  constructor
  · rintro ⟨n, ⟨least, most⟩, items, ⟨rfl, each⟩, rfl⟩
    exact ⟨items, least, most, each, rfl⟩
  · rintro ⟨items, least, most, each, rfl⟩
    exact ⟨_, ⟨least, most⟩, items, ⟨rfl, each⟩, rfl⟩

theorem gives_mapBuilder {id : Id} {key item : Member Id} {sparse : Bool}
    (type : (generator.model.shape id).type = .map key item sparse) {value : Value} :
    Gives (generator.writeBuilder false random id) value ↔
      ∃ entries : List (Bytes × Value),
        (generator.containerSizes id).min ≤ entries.length ∧ entries.length ≤ (generator.containerSizes id).max ∧
        (∀ (place : ℕ) entry, entries[place]? = some entry →
          Gives (generator.mapEntry false random id key item sparse place) entry) ∧
        value = .map (entries.foldl (fun map entry => OrderedMap.put entry.1 entry.2 map) []) := by
  have close := close_containerSize (generator.traits id).length false
  have same : generator.containerSizes id = containerSize (generator.traits id).length false := by
    rw [containerSizes, type]
  rw [writeBuilder, type, same]
  simp only [gives_bind, Rng.gives_size close.le close.small, gives_pure, gives_mapM_range]
  constructor
  · rintro ⟨n, ⟨least, most⟩, entries, ⟨rfl, each⟩, rfl⟩
    exact ⟨entries, least, most, each, rfl⟩
  · rintro ⟨entries, least, most, each, rfl⟩
    exact ⟨_, ⟨least, most⟩, entries, ⟨rfl, each⟩, rfl⟩

end Built

end RandomValueGenerator

end OpalCpp.Codegen

import Mathlib.Data.UInt
import Mathlib.Data.List.Basic

/-! # Decimal digits

Numbers in decimal notation, as bytes: of as many digits as they have, or padded with zeros to a
number of digits.
-/

namespace OpalCpp

namespace Decimal

def isDigit (byte : UInt8) : Bool := 0x30 ≤ byte && byte ≤ 0x39

/-- The value of a digit. -/
def value (byte : UInt8) : ℕ := byte.toNat - 0x30

def digit (value : ℕ) : UInt8 := UInt8.ofNat (0x30 + value)

/-- The last digits of a number, as many as the width says. -/
def padded : ℕ → ℕ → List UInt8
  | 0, _ => []
  | width + 1, number => padded width (number / 10) ++ [digit (number % 10)]

/-- The digits of a number. -/
def decimal (number : ℕ) : List UInt8 := (Nat.toDigits 10 number).map Char.toUInt8

/-- The digits of a number, with zeros in front up to the width. -/
def zeroPadded (width number : ℕ) : List UInt8 :=
  List.replicate (width - (decimal number).length) (digit 0) ++ decimal number

/-- The number the digits stand for, if digits they are. -/
def read (bytes : List UInt8) : Option ℕ :=
  bytes.foldlM (fun number byte => if isDigit byte then some (number * 10 + value byte) else none) 0

theorem digit_facts {n : ℕ} (small : n < 10) : isDigit (digit n) = true ∧ value (digit n) = n := by
  have all : ∀ n < 10, isDigit (digit n) = true ∧ value (digit n) = n := by decide
  exact all n small

theorem lt_of_isDigit {byte : UInt8} (digit : isDigit byte = true) : byte < 0x80 := by
  rw [isDigit, Bool.and_eq_true, decide_eq_true_eq, decide_eq_true_eq] at digit
  exact UInt8.lt_of_le_of_lt digit.2 (by decide)

theorem value_le {byte : UInt8} (digit : isDigit byte = true) : value byte ≤ 9 := by
  rw [isDigit, Bool.and_eq_true, decide_eq_true_eq, decide_eq_true_eq, UInt8.le_iff_toNat_le, UInt8.le_iff_toNat_le] at digit
  have upper : byte.toNat ≤ 57 := digit.2
  rw [value]
  omega

/-- Digits stand for less than the power of ten with as many zeros. -/
theorem read_lt {bytes : List UInt8} {number : ℕ} (reads : read bytes = some number) : number < 10 ^ bytes.length := by
  have fold (bytes : List UInt8) {start result : ℕ} (reads : bytes.foldlM
      (fun number byte => if isDigit byte then some (number * 10 + value byte) else none) start = some result) :
      result < (start + 1) * 10 ^ bytes.length := by
    induction bytes generalizing start with
    | nil =>
      cases reads
      rw [List.length_nil, pow_zero, mul_one]
      exact Nat.lt_succ_self _
    | cons byte bytes ih =>
      rw [List.foldlM_cons] at reads
      split_ifs at reads with digit
      · have most := value_le digit
        apply lt_of_lt_of_le (ih reads)
        rw [List.length_cons, pow_succ, mul_comm (10 ^ bytes.length) 10, ← mul_assoc]
        apply Nat.mul_le_mul_right
        omega
      · cases reads
  simpa using fold bytes reads

/-- Digits stand for a number. -/
theorem exists_read {bytes : List UInt8} (digits : ∀ byte ∈ bytes, isDigit byte = true) :
    ∃ number, read bytes = some number := by
  have fold (number : ℕ) : ∃ result, bytes.foldlM
      (fun number byte => if isDigit byte then some (number * 10 + value byte) else none) number = some result := by
    induction bytes generalizing number with
    | nil => exact ⟨number, rfl⟩
    | cons byte bytes ih =>
      obtain ⟨result, same⟩ :=
        ih (fun other member => digits other (List.mem_cons_of_mem _ member)) (number * 10 + value byte)
      refine ⟨result, ?_⟩
      rw [List.foldlM_cons, if_pos (digits byte List.mem_cons_self)]
      exact same
  exact fold 0

theorem length_padded (width number : ℕ) : (padded width number).length = width := by
  induction width generalizing number with
  | zero => rfl
  | succ width ih => rw [padded, List.length_append, ih, List.length_singleton]

theorem isDigit_of_mem_padded {width number : ℕ} : ∀ byte ∈ padded width number, isDigit byte = true := by
  induction width generalizing number with
  | zero => exact fun _ none => absurd none List.not_mem_nil
  | succ width ih =>
    intro byte member
    rw [padded, List.mem_append, List.mem_singleton] at member
    obtain front | rfl := member
    · exact ih byte front
    · exact (digit_facts (Nat.mod_lt number (by decide))).1

theorem read_append_digit {bytes : List UInt8} {number last : ℕ} (before : read bytes = some number) (small : last < 10) :
    read (bytes ++ [digit last]) = some (number * 10 + last) := by
  obtain ⟨isDigit, value⟩ := digit_facts small
  rw [read] at before
  rw [read, List.foldlM_append, before]
  simp [isDigit, value]

/-- Digits that follow others scale the number the others stand for. -/
theorem read_append {bytes tail : List UInt8} {number more : ℕ} (before : read bytes = some number)
    (after : read tail = some more) :
    read (bytes ++ tail) = some (number * 10 ^ tail.length + more) := by
  induction tail using List.reverseRecOn generalizing more with
  | nil =>
    cases after
    rw [List.append_nil, List.length_nil, pow_zero, mul_one, before, add_zero]
  | append_singleton tail last ih =>
    rw [read, List.foldlM_append] at after
    cases first : read tail with
    | none =>
      rw [← read, first] at after
      cases after
    | some other =>
      rw [← read, first, Option.bind_eq_bind, Option.bind_some, List.foldlM_cons] at after
      split_ifs at after with digit
      · obtain rfl := Option.some.inj after
        rw [← List.append_assoc, read, List.foldlM_append, ← read, ih first, Option.bind_eq_bind, Option.bind_some,
          List.foldlM_cons, if_pos digit, List.length_append, List.length_singleton, pow_succ]
        rw [add_mul, mul_assoc, add_assoc]
        rfl
      · cases after

/-- Padded digits are read back. -/
theorem read_padded {width number : ℕ} (fits : number < 10 ^ width) : read (padded width number) = some number := by
  induction width generalizing number with
  | zero =>
    obtain rfl : number = 0 := by simpa using fits
    rfl
  | succ width ih =>
    have shorter : number / 10 < 10 ^ width := by
      rw [Nat.pow_succ] at fits
      omega
    rw [padded, read_append_digit (ih shorter) (Nat.mod_lt _ (by decide))]
    congr 1
    omega

theorem padded_zero (width : ℕ) : padded width 0 = List.replicate width (digit 0) := by
  induction width with
  | zero => rfl
  | succ width ih => rw [padded, Nat.zero_div, Nat.zero_mod, ih, List.replicate_succ']

theorem decimal_of_lt {number : ℕ} (one : number < 10) : decimal number = [digit number] := by
  have last : ∀ n < 10, (Nat.digitChar n).toUInt8 = digit n := by decide
  rw [decimal, Nat.toDigits_of_lt_base one, List.map_singleton, last number one]

theorem decimal_of_le {number : ℕ} (more : 10 ≤ number) :
    decimal number = decimal (number / 10) ++ decimal (number % 10) := by
  have split := Nat.toDigits_append_toDigits (by decide : 1 < 10) (by omega : 0 < number / 10)
    (Nat.mod_lt number (by decide : 0 < 10))
  rw [Nat.div_add_mod] at split
  rw [decimal, ← split, List.map_append]
  rfl

theorem read_decimal (number : ℕ) : read (decimal number) = some number := by
  induction number using Nat.strongRecOn with
  | ind number ih =>
    obtain one | more := Nat.lt_or_ge number 10
    · rw [decimal_of_lt one]
      simpa using @read_append_digit [] 0 number rfl one
    · rw [decimal_of_le more, decimal_of_lt (Nat.mod_lt number (by decide)),
        read_append_digit (ih _ (by omega)) (Nat.mod_lt number (by decide))]
      congr 1
      omega

theorem decimal_ne_nil (number : ℕ) : decimal number ≠ [] := by
  intro empty
  have one : number < 10 := by
    by_contra more
    rw [decimal_of_le (not_lt.mp more), decimal_of_lt (Nat.mod_lt number (by decide))] at empty
    exact List.append_ne_nil_of_right_ne_nil _ (List.cons_ne_nil _ _) empty
  rw [decimal_of_lt one] at empty
  cases empty

/-- Larger numbers have no fewer digits. -/
theorem length_decimal_mono {number more : ℕ} (le : number ≤ more) : (decimal number).length ≤ (decimal more).length := by
  induction more using Nat.strongRecOn generalizing number with
  | ind more ih =>
    obtain one | some_ := Nat.lt_or_ge more 10
    · rw [decimal_of_lt one, decimal_of_lt (by omega)]
      exact le_rfl
    rw [decimal_of_le some_, decimal_of_lt (Nat.mod_lt more (by decide)), List.length_append]
    obtain one | some_' := Nat.lt_or_ge number 10
    · rw [decimal_of_lt one]
      exact Nat.le_add_left _ _
    · rw [decimal_of_le some_', decimal_of_lt (Nat.mod_lt number (by decide)), List.length_append]
      exact Nat.add_le_add_right (ih (more / 10) (by omega) (by omega)) 1

theorem isDigit_of_mem_decimal {number : ℕ} : ∀ byte ∈ decimal number, isDigit byte = true := by
  induction number using Nat.strongRecOn with
  | ind number ih =>
    intro byte member
    obtain one | more := Nat.lt_or_ge number 10
    · rw [decimal_of_lt one, List.mem_singleton] at member
      exact member ▸ (digit_facts one).1
    · rw [decimal_of_le more, List.mem_append] at member
      exact member.elim (ih _ (by omega) byte) (ih _ (by omega) byte)

/-- Only zero starts with a zero. -/
theorem head?_decimal_ne {number : ℕ} (positive : 0 < number) : (decimal number).head? ≠ some (digit 0) := by
  induction number using Nat.strongRecOn with
  | ind number ih =>
    obtain one | more := Nat.lt_or_ge number 10
    · have all : ∀ n < 10, 0 < n → (decimal n).head? ≠ some (digit 0) := by decide
      exact all number one positive
    · rw [decimal_of_le more, List.head?_append_of_ne_nil _ (decimal_ne_nil _)]
      exact ih _ (by omega) (by omega)

/-- Enough zeros in front make the width. -/
theorem zeroPadded_eq {width number : ℕ} (some_ : 0 < width) (fits : number < 10 ^ width) :
    zeroPadded width number = padded width number := by
  induction width generalizing number with
  | zero => exact absurd some_ (Nat.lt_irrefl 0)
  | succ width ih =>
    obtain one | more := Nat.lt_or_ge number 10
    · rw [zeroPadded, decimal_of_lt one, padded, Nat.div_eq_of_lt one, Nat.mod_eq_of_lt one, padded_zero]
      rfl
    · have shorter : number / 10 < 10 ^ width := by
        rw [Nat.pow_succ] at fits
        omega
      have wide : 0 < width := Nat.pos_of_ne_zero fun none => by
        rw [none] at shorter
        omega
      have small : number % 10 < 10 := Nat.mod_lt number (by decide)
      rw [padded, ← ih wide shorter, zeroPadded, zeroPadded, decimal_of_le more, decimal_of_lt small,
        List.length_append, List.length_singleton, Nat.add_sub_add_right, List.append_assoc]

end Decimal

end OpalCpp

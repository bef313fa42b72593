import OpalCpp.Machine.Draws
import OpalCpp.Machine.OrderedMap
import OpalCpp.Model.Codegen.MemberDefaults
import OpalCpp.Model.Codegen.ValueChecks

/-! # Random values

The builders of random values that are emitted for the integration tests, as what they compute over the words of the
engine, and what the constraint traits of a model ask of a value. A `long` of the generator is an integer, and the sums
that can overflow wrap; so is an argument of `Int`, which is a `long` that was written as a literal.
-/

namespace OpalCpp.Codegen

open Bytes (ascii)
open Decimal (decimal)
open Draws (word stuck)
open Typed (Member ShapeType Value EnumValue Slot moved plain)
open scoped Bytes

/-- Bounds of any size and precision. -/
structure RangeTrait where
  min : Option ℚ := none
  max : Option ℚ := none

structure ConstraintTraits where
  length : Option LengthTrait := none
  range : Option RangeTrait := none
  pattern : Option (List Char) := none
  uniqueItems : Bool := false

/-! ## The source of randomness -/

namespace Rng

def kAlphabet : Bytes := ascii "abcdefghijklmnopqrstuvwxyzABCDEFGHIJKLMNOPQRSTUVWXYZ0123456789"

variable (fillAll : Bool)

def coin : Draws Bool :=
  if fillAll then pure true
  else do
    let drawn ← word
    return drawn &&& 1 != 0

def size (minSize maxSize : ℕ) : Draws ℕ :=
  if fillAll ∨ maxSize ≤ minSize then pure maxSize
  else do
    let drawn ← word
    return minSize + drawn.toNat % (maxSize - minSize + 1)

/-- Both bounds are included. The span and one more is 0 in 64 bits for the widest range, which it cannot be reduced by. -/
def int (minValue maxValue : ℤ) : Draws ℤ := do
  let pick ← word
  if pick.toNat % 10 = 0 ∨ maxValue ≤ minValue then return minValue
  else if pick.toNat % 10 = 1 then return maxValue
  else if maxValue - minValue + 1 = 2 ^ 64 then stuck
  else do
    let drawn ← word
    return minValue + drawn.toNat % (maxValue - minValue + 1)

def text (minLen maxLen : ℕ) : Draws Bytes := do
  let n ← size fillAll minLen maxLen
  (List.range n).mapM fun _ => do
    let drawn ← word
    return kAlphabet.getD (drawn.toNat % 62) 0

end Rng

/-! ## Bounds -/

/-- A sum of `long`s. -/
def longAdd (a b : ℤ) : ℤ := (a + b).bmod (2 ^ 64)

def minLength (length : Option LengthTrait) (orElse : ℤ) : ℤ := (length.bind LengthTrait.min).elim orElse Nat.cast

def maxLength (length : Option LengthTrait) (orElse : ℤ) : ℤ := (length.bind LengthTrait.max).elim orElse Nat.cast

/-- The bounds that the calls of `Size` and `Text` have as arguments. -/
structure Sizes where
  min : ℕ
  max : ℕ
deriving DecidableEq

def sizesOf (low high : ℤ) : Sizes := ⟨low.toNat, high.toNat⟩

def containerSize (length : Option LengthTrait) (unique : Bool) : Sizes :=
  let low := max 1 (minLength length 1)
  let cap := if unique then max low 2 else longAdd low 2
  let high := min (maxLength length cap) cap
  sizesOf low (max low high)

/-- The bounds of `keyExpression`, which leave room for a digit. -/
def keySize (length : Option LengthTrait) : Sizes :=
  let low := minLength length 1
  let high := min (longAdd (maxLength length (longAdd low 6)) (-1)) (longAdd low 6)
  sizesOf (max 1 low) (max (max 1 low) high)

def blobSize (length : Option LengthTrait) : Sizes :=
  let low := max 1 (minLength length 1)
  let high := min (maxLength length (longAdd low 8)) (longAdd low 8)
  sizesOf low (max low high)

def stringSize (length : Option LengthTrait) : Sizes :=
  let low := max 1 (minLength length 0)
  let high := min (maxLength length (longAdd low 8)) (longAdd low 8)
  sizesOf low (max low high)

/-- The bounds of a call of `Int`. -/
structure Bounds where
  low : ℤ
  high : ℤ
deriving DecidableEq

/-- `BigDecimal.longValue()`: the low bits of the integer towards zero. -/
def longValue (number : ℚ) : ℤ := (Binary64.truncate number).bmod (2 ^ 64)

def intBounds (lowest highest : ℤ) (range : Option RangeTrait) : Bounds where
  low := (range.bind RangeTrait.min).elim lowest fun least => max lowest (longValue least)
  high := (range.bind RangeTrait.max).elim highest fun most => min highest (longValue most)

/-- A double as a `long`, by way of what it is rounded to. -/
def roundedLong (rounded : ℚ → ℤ) (number : ℚ) : ℤ :=
  let double := Binary64.nearest number
  match double.value? with
  | some value => (NumberNode.saturate (rounded value)).toInt
  | none => if double.isNegative then -2 ^ 63 else 2 ^ 63 - 1

def floatingBounds (range : RangeTrait) : Bounds where
  low := range.min.elim (-1000) (roundedLong Int.ceil)
  high := range.max.elim 1000 (roundedLong Int.floor)

/-! ## Builders -/

/-- What the generator reads of a model: the constraint traits of shapes, and of members by the shape and the place they
are at (the element of a list at 0, the key of a map at 0 and its value at 1), `@idempotencyToken` and the values of
integer enumerations. Where a pattern is no regular expression there is nothing that it finds; which argument of a call
comes first is up to the compiler. -/
structure RandomValueGenerator (Id : Type) where
  model : Typed.Model Id
  traits : Id → ConstraintTraits
  memberTraits : Id → ℕ → ConstraintTraits
  idempotencyToken : Id → ℕ → Bool
  intEnumValues : Id → List Int32
  find : List Char → Bytes → Option Bool
  keyFirst : Bool

namespace RandomValueGenerator

variable {Id : Type} (generator : RandomValueGenerator Id)

/-- The traits of a member, or else those of its target. -/
def constraint (container : Id) (place : ℕ) (target : Id) : ConstraintTraits :=
  let onMember := generator.memberTraits container place
  let onTarget := generator.traits target
  { length := onMember.length.or onTarget.length
    range := onMember.range.or onTarget.range
    pattern := onMember.pattern.or onTarget.pattern
    uniqueItems := onMember.uniqueItems || onTarget.uniqueItems }

/-- Whether the items of a list are to be different: by the trait of the list or of its member. -/
def hasEffective (container : Id) : Bool :=
  (generator.memberTraits container 0).uniqueItems || (generator.traits container).uniqueItems

/-- The first of three fills that the pattern is found in, or that it is no regular expression for; a count that is
negative as an `int` is no count. -/
def patternCandidate (pattern : List Char) (least : ℤ) : Option Bytes :=
  let n := (max least 1).bmod (2 ^ 32)
  let candidate (fill : UInt8) := List.replicate n.toNat fill
  if n < 0 then none
  else
    match [0x30, 0x61, 0x41].find? fun fill => (generator.find pattern (candidate fill)).getD true with
    | some fill => some (candidate fill)
    | none => some (candidate 0x30)

section Expressions

variable (fillAll : Bool)

def keyExpression (traits : ConstraintTraits) : Draws Bytes :=
  match traits.pattern with
  | some pattern => (generator.patternCandidate pattern (minLength traits.length 1)).elim stuck pure
  | none => Rng.text fillAll (keySize traits.length).min (keySize traits.length).max

def stringExpression (traits : ConstraintTraits) : Draws Bytes :=
  match traits.pattern with
  | some pattern => (generator.patternCandidate pattern (minLength traits.length 0)).elim stuck pure
  | none => Rng.text fillAll (stringSize traits.length).min (stringSize traits.length).max

/-- `rng.Int` with the bounds as literals. -/
def intExpression (bounds : Bounds) : Draws ℤ := Rng.int bounds.low bounds.high

/-- One of several, by a word; there is none of none. -/
def choice {α : Type} (values : List α) : Draws α := do
  let drawn ← word
  match values[drawn.toNat % values.length]? with
  | some value => return value
  | none => stuck

/-- A number that is read off the range, or else one in eighths, which are exact. -/
def floatingExpression (range : Option RangeTrait) : Draws ℚ :=
  match range with
  | some range => (fun (number : ℤ) => (number : ℚ)) <$> intExpression (floatingBounds range)
  | none => (fun (number : ℤ) => (number : ℚ) / 8) <$> Rng.int (-8000000) 8000000

def expression (random : Id → Draws Value) (target : Id) (traits : ConstraintTraits) : Draws Value :=
  match (generator.model.shape target).type with
  | .unit => pure .unit
  | .boolean => (fun drawn => .boolean (drawn &&& 1 != 0)) <$> word
  | .byte => (fun number => .byte (Int8.ofInt number)) <$> intExpression (intBounds (-128) 127 traits.range)
  | .short => (fun number => .short (Int16.ofInt number)) <$> intExpression (intBounds (-32768) 32767 traits.range)
  | .integer =>
    (fun number => .integer (Int32.ofInt number)) <$> intExpression (intBounds (-2147483648) 2147483647 traits.range)
  | .long => (fun number => .long (Int64.ofInt number)) <$>
      intExpression (intBounds (-4611686018427387904) 4611686018427387903 traits.range)
  | .intEnum => Value.intEnum <$> choice (generator.intEnumValues target)
  | .float => (fun number => .float (Binary32.nearest number)) <$> floatingExpression traits.range
  | .double => (fun number => .double (Binary64.nearest number)) <$> floatingExpression traits.range
  | .string => Value.string <$> generator.stringExpression fillAll traits
  | .enum values => (fun text => .enum (EnumValue.fromText values (CppLiteral.cString text))) <$> choice values
  | .blob => Value.blob <$> Rng.text fillAll (blobSize traits.length).min (blobSize traits.length).max
  | .timestamp => (fun number => .timestamp ⟨Int64.ofInt (number * 1000)⟩) <$> Rng.int 0 4102444799
  | .document => (fun number => .document (.map [(ascii "key", .int (Int64.ofInt number))])) <$> Rng.int 0 1000
  | .struct _ | .union _ _ | .list _ _ | .map _ _ _ => random target

variable (random : Id → Draws Value)

/-- What the field of a structure is left with; the value of an idempotency token is not left to the client. -/
def field (container : Id) (place : ℕ) (member : Member Id) : Draws Value :=
  let optional := !plain (generator.model.shape container) (generator.model.shape member.target).type member
  let set :=
    moved optional <$> generator.expression fillAll random member.target (generator.constraint container place member.target)
  if member.isRequired ∨ generator.idempotencyToken container place then set
  else do
    if ← Rng.coin fillAll then set
    else return if optional then .nullopt else Typed.literal member

/-- The switch: the last case is the default, and each has a number. -/
def alternative (container : Id) (members : List (Member Id)) : Draws Value := do
  let drawn ← word
  let place := drawn.toNat % members.length
  match members[place]? with
  | some member => Value.alternative place <$>
      generator.expression fillAll random member.target (generator.constraint container place member.target)
  | none => stuck

/-- `+ std::to_string(i)`, which there is for strings only. -/
def withIndex (i : ℕ) : Value → Draws Value
  | .string text => pure (.string (text ++ decimal i))
  | _ => stuck

/-- Whether the entry of a sparse list is left out. -/
def leftOut (sparse : Bool) : Draws Bool := if sparse && !fillAll then (fun drawn => drawn % 4 == 0) <$> word else pure false

/-- The entry of a list, with its index where that makes it different from the others. -/
def listItem (container : Id) (element : Member Id) (sparse unique : Bool) (i : ℕ) : Draws Value := do
  let isStringShape := (generator.model.shape element.target).type matches .string | .enum _
  let absent ← leftOut fillAll sparse
  if absent then return .nullopt
  else
    let value := generator.expression fillAll random element.target (generator.constraint container 0 element.target)
    moved sparse <$> if unique && isStringShape then value >>= withIndex i else value

def mapEntry (container : Id) (key value : Member Id) (sparse : Bool) (i : ℕ) : Draws (Bytes × Value) :=
  let first :=
    (fun text => text ++ decimal i) <$> generator.keyExpression fillAll (generator.constraint container 0 key.target)
  let second := moved sparse <$>
    generator.expression fillAll random value.target (generator.constraint container 1 value.target)
  if generator.keyFirst then do
    let key ← first
    let value ← second
    return (key, value)
  else do
    let value ← second
    let key ← first
    return (key, value)

/-- The body of the builder of a shape, with the builders that it calls. -/
def writeBuilder (id : Id) : Draws Value :=
  match (generator.model.shape id).type with
  | .struct members =>
    Value.struct <$> members.zipIdx.mapM fun (member, place) => generator.field fillAll random id place member
  | .union members _ => generator.alternative fillAll random id members
  | .list element sparse => do
    let unique := generator.hasEffective id
    let sizes := containerSize (generator.traits id).length unique
    let n ← Rng.size fillAll sizes.min sizes.max
    Value.list <$> (List.range n).mapM (generator.listItem fillAll random id element sparse unique)
  | .map key value sparse => do
    let sizes := containerSize (generator.traits id).length false
    let n ← Rng.size fillAll sizes.min sizes.max
    let entries ← (List.range n).mapM (generator.mapEntry fillAll random id key value sparse)
    return .map (entries.foldl (fun map entry => OrderedMap.put entry.1 entry.2 map) [])
  | _ => stuck

end Expressions

/-- The builder of a shape, with calls as deep as the fuel. -/
def random (fillAll : Bool) : ℕ → Id → Draws Value
  | 0, _ => stuck
  | fuel + 1, id => generator.writeBuilder fillAll (random fillAll fuel) id

end RandomValueGenerator

/-! ## What the traits ask for -/

def LengthTrait.Admits (trait : LengthTrait) (length : ℕ) : Prop :=
  (∀ least ∈ trait.min, least ≤ length) ∧ ∀ most ∈ trait.max, length ≤ most

def RangeTrait.Admits (trait : RangeTrait) (number : ℚ) : Prop :=
  (∀ least ∈ trait.min, least ≤ number) ∧ ∀ most ∈ trait.max, number ≤ most

namespace ConstraintTraits

variable (traits : ConstraintTraits)

def AdmitsLength (length : ℕ) : Prop := ∀ trait ∈ traits.length, trait.Admits length

def AdmitsNumber (number : ℚ) : Prop := ∀ trait ∈ traits.range, trait.Admits number

/-- What is no number is not in a range. -/
def AdmitsDouble (number : Binary64) : Prop := ∀ trait ∈ traits.range, ∃ value ∈ number.value?, trait.Admits value

end ConstraintTraits

namespace RandomValueGenerator

variable {Id : Type} (generator : RandomValueGenerator Id)

/-- The text of a value of an enumeration. -/
def enumText (values : List Bytes) (value : EnumValue) : Bytes :=
  match value.value with
  | some index => values.getD index []
  | none => value.unknown

/-- A key satisfies the traits that it has; one that is of an enumeration is among its values. -/
def KeySatisfies (traits : ConstraintTraits) (type : ShapeType Id) (key : Bytes) : Prop :=
  traits.AdmitsLength (utf8CodePointCount key) ∧ ∀ values, type = .enum values → key ∈ values

mutual

/-- The value satisfies the constraint traits that it has, as one of the target, and everything in it those of its own. -/
def Satisfies : Value → Id → ConstraintTraits → Prop
  | .engaged value, target, traits => Satisfies value target traits
  | .byte number, _, traits => traits.AdmitsNumber number.toInt
  | .short number, _, traits => traits.AdmitsNumber number.toInt
  | .integer number, _, traits => traits.AdmitsNumber number.toInt
  | .long number, _, traits => traits.AdmitsNumber number.toInt
  | .intEnum number, _, traits => traits.AdmitsNumber number.toInt
  | .float number, _, traits => traits.AdmitsDouble number.toBinary64
  | .double number, _, traits => traits.AdmitsDouble number
  | .string text, _, traits => traits.AdmitsLength (utf8CodePointCount text)
  | .enum value, target, traits => ∀ values, (generator.model.shape target).type = .enum values →
      traits.AdmitsLength (utf8CodePointCount (enumText values value))
  | .blob bytes, _, traits => traits.AdmitsLength bytes.length
  | .list items, target, traits => traits.AdmitsLength items.length ∧ (traits.uniqueItems → items.Nodup) ∧
      ∀ element sparse, (generator.model.shape target).type = .list element sparse →
        AllSatisfy items element.target (generator.constraint target 0 element.target)
  | .map members, target, traits => traits.AdmitsLength members.length ∧
      ∀ key value sparse, (generator.model.shape target).type = .map key value sparse →
        (∀ entry ∈ members.map Prod.fst,
          KeySatisfies (generator.constraint target 0 key.target) (generator.model.shape key.target).type entry) ∧
        ValuesSatisfy members value.target (generator.constraint target 1 value.target)
  | .struct values, target, _ => ∀ members, (generator.model.shape target).type = .struct members →
      FieldsSatisfy target values members.zipIdx
  | .alternative place value, target, _ => ∀ members discriminated member,
      (generator.model.shape target).type = .union members discriminated → members[place]? = some member →
        Satisfies value member.target (generator.constraint target place member.target)
  | _, _, _ => True

def AllSatisfy : List Value → Id → ConstraintTraits → Prop
  | [], _, _ => True
  | item :: items, target, traits => Satisfies item target traits ∧ AllSatisfy items target traits

def ValuesSatisfy : List (Bytes × Value) → Id → ConstraintTraits → Prop
  | [], _, _ => True
  | (_, value) :: members, target, traits => Satisfies value target traits ∧ ValuesSatisfy members target traits

def FieldsSatisfy (container : Id) : List Value → List (Member Id × ℕ) → Prop
  | value :: values, (member, place) :: members =>
    Satisfies value member.target (generator.constraint container place member.target) ∧
      FieldsSatisfy container values members
  | _, _ => True

end

end RandomValueGenerator

end OpalCpp.Codegen

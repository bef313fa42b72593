import OpalCpp.Proofs.Codegen.RandomDraws

/-! # Random values and the traits of their model

What the builders come to, and when all of it has what the traits ask for.
-/

namespace OpalCpp.Codegen

open Decimal (decimal)
open Draws
open Typed (Member ShapeType Value EnumValue moved plain)
open scoped Bytes

namespace RandomValueGenerator

variable {Id : Type} (generator : RandomValueGenerator Id)

/-! ## What is satisfied -/

section Satisfied

variable {generator}

theorem satisfies_moved {optional : Bool} {value : Value} {target : Id} {traits : ConstraintTraits} :
    generator.Satisfies (moved optional value) target traits ↔ generator.Satisfies value target traits := by
  cases optional with
  | false => exact Iff.rfl
  | true => rw [moved, if_pos rfl, Satisfies]

theorem satisfies_nullopt (target : Id) (traits : ConstraintTraits) : generator.Satisfies .nullopt target traits := by
  simp only [Satisfies]

theorem allSatisfy_iff {items : List Value} {target : Id} {traits : ConstraintTraits} :
    generator.AllSatisfy items target traits ↔ ∀ item ∈ items, generator.Satisfies item target traits := by
  induction items with
  | nil => simp only [AllSatisfy, List.not_mem_nil, false_implies, implies_true]
  | cons item items ih => rw [AllSatisfy, ih, List.forall_mem_cons]

theorem valuesSatisfy_iff {members : List (Bytes × Value)} {target : Id} {traits : ConstraintTraits} :
    generator.ValuesSatisfy members target traits ↔ ∀ entry ∈ members, generator.Satisfies entry.2 target traits := by
  induction members with
  | nil => simp only [ValuesSatisfy, List.not_mem_nil, false_implies, implies_true]
  | cons entry members ih => rw [ValuesSatisfy, ih, List.forall_mem_cons]

theorem fieldsSatisfy_iff {container : Id} {values : List Value} {members : List (Member Id × ℕ)} :
    generator.FieldsSatisfy container values members ↔ ∀ (place : ℕ) value member, values[place]? = some value →
      members[place]? = some member →
        generator.Satisfies value member.1.target (generator.constraint container member.2 member.1.target) := by
  induction values generalizing members with
  | nil => simp [FieldsSatisfy]
  | cons value values ih =>
    cases members with
    | nil => simp [FieldsSatisfy]
    | cons member members =>
      rw [FieldsSatisfy, ih]
      constructor
      · rintro ⟨first, rest⟩ place other member' at_ at'
        cases place with
        | zero =>
          cases at_
          cases at'
          exact first
        | succ place => exact rest place other member' at_ at'
      · intro all
        exact ⟨all 0 value member rfl rfl, fun place => all (place + 1)⟩

end Satisfied

end RandomValueGenerator

/-! ## The condition -/

namespace RandomValueGenerator

variable {Id : Type} (generator : RandomValueGenerator Id)

/-- There are no patterns. -/
structure NoPatterns : Prop where
  shapes : ∀ id, (generator.traits id).pattern = none
  members : ∀ id place, (generator.memberTraits id place).pattern = none

/-- Items are to be different in lists of strings only. -/
structure UniqueStrings : Prop where
  lists : ∀ id, (generator.traits id).uniqueItems = true → ∃ element sparse,
    (generator.model.shape id).type = .list element sparse ∧ (generator.model.shape element.target).type = .string
  members : ∀ id place, (generator.memberTraits id place).uniqueItems = false

/-- A shape without a builder that there is a value of. -/
def Scalar (id : Id) : Prop :=
  match (generator.model.shape id).type with
  | .struct _ | .union _ _ | .list _ _ | .map _ _ _ => False
  | .enum values => values ≠ []
  | .intEnum => generator.intEnumValues id ≠ []
  | _ => True

/-- A value is built without an end: what is always set, one alternative, and an entry of each container are. -/
inductive Buildable : Id → Prop
  | scalar {id : Id} (scalar : generator.Scalar id) : Buildable id
  | struct {id : Id} {members : List (Member Id)} (type : (generator.model.shape id).type = .struct members)
      (each : ∀ (place : ℕ) member, members[place]? = some member →
        member.isRequired = true ∨ generator.idempotencyToken id place = true → Buildable member.target) : Buildable id
  | union {id : Id} {members : List (Member Id)} {discriminated : Option Bytes}
      (type : (generator.model.shape id).type = .union members discriminated) {place : ℕ} {member : Member Id}
      (small : place < 2 ^ 32) (at_ : members[place]? = some member) (value : Buildable member.target) : Buildable id
  | list {id : Id} {element : Member Id} {sparse : Bool} (type : (generator.model.shape id).type = .list element sparse)
      (item : sparse = false → Buildable element.target) : Buildable id
  | map {id : Id} {key value : Member Id} {sparse : Bool} (type : (generator.model.shape id).type = .map key value sparse)
      (item : Buildable value.target) : Buildable id

/-- The ends of what is drawn for a shape are admitted; of a map, the fewest keys that are left of the fewest entries. -/
def ExpressionSound (target : Id) (traits : ConstraintTraits) : Prop :=
  match (generator.model.shape target).type with
  | .byte => BoundsAdmitted (fun number => traits.AdmitsNumber (Int8.ofInt number).toInt) (intBounds (-128) 127 traits.range)
  | .short =>
    BoundsAdmitted (fun number => traits.AdmitsNumber (Int16.ofInt number).toInt) (intBounds (-32768) 32767 traits.range)
  | .integer => BoundsAdmitted (fun number => traits.AdmitsNumber (Int32.ofInt number).toInt)
      (intBounds (-2147483648) 2147483647 traits.range)
  | .long => BoundsAdmitted (fun number => traits.AdmitsNumber (Int64.ofInt number).toInt)
      (intBounds (-4611686018427387904) 4611686018427387903 traits.range)
  | .intEnum => ∀ value ∈ (generator.intEnumValues target).take (2 ^ 32), traits.AdmitsNumber value.toInt
  | .float => ∀ range ∈ traits.range,
      BoundsAdmitted (fun number => traits.AdmitsDouble (Binary32.nearest number).toBinary64) (floatingBounds range)
  | .double =>
    ∀ range ∈ traits.range, BoundsAdmitted (fun number => traits.AdmitsDouble (Binary64.nearest number))
      (floatingBounds range)
  | .string => SizesAdmitted traits (stringSize traits.length)
  | .enum values => ∀ text ∈ values.take (2 ^ 32), traits.AdmitsLength (utf8CodePointCount (CppLiteral.cString text))
  | .blob => SizesAdmitted traits (blobSize traits.length)
  | .list _ _ => SizesAdmitted traits (generator.containerSizes target)
  | .map key _ _ =>
    traits.AdmitsLength (fewestKeys (keySize (generator.constraint target 0 key.target).length)
      (generator.containerSizes target).min) ∧
      traits.AdmitsLength (generator.containerSizes target).max
  | _ => True

/-- The shortest and the longest of texts with their places behind them. -/
def SuffixedAdmitted (traits : ConstraintTraits) (sizes : Sizes) (count : ℕ) : Prop :=
  traits.AdmitsLength (sizes.min + 1) ∧ traits.AdmitsLength (sizes.max + (decimal (count - 1)).length)

/-- What is in a list. The items that are to be different are so with ten of them at most or all of one length, and where
none is left out of more than one. -/
def ListSound (id : Id) (element : Member Id) (sparse : Bool) : Prop :=
  let traits := generator.constraint id 0 element.target
  if generator.hasEffective id then
    (sparse = true → (generator.containerSizes id).max ≤ 1) ∧
    ((generator.containerSizes id).max ≤ 10 ∨ (stringSize traits.length).min = (stringSize traits.length).max) ∧
    SuffixedAdmitted traits (stringSize traits.length) (generator.containerSizes id).max
  else generator.Buildable element.target → generator.ExpressionSound element.target traits

/-- What is in a map. Keys that are to be of an enumeration are so only where it has all that may be drawn. -/
structure MapSound (id : Id) (key value : Member Id) : Prop where
  suffixed : SuffixedAdmitted (generator.constraint id 0 key.target) (keySize (generator.constraint id 0 key.target).length)
    (generator.containerSizes id).max
  enumerated : ∀ values, (generator.model.shape key.target).type = .enum values → ∀ base place,
    Drawn (keySize (generator.constraint id 0 key.target).length) base → place < (generator.containerSizes id).max →
      base ++ decimal place ∈ values
  values : generator.Buildable value.target → generator.ExpressionSound value.target (generator.constraint id 1 value.target)

/-- The condition of a shape that has a builder: its own sizes, and what is in it. -/
def ShapeSound (id : Id) : Prop :=
  generator.ExpressionSound id (generator.traits id) ∧
  match (generator.model.shape id).type with
  | .struct members => ∀ (place : ℕ) member, members[place]? = some member →
      (generator.Buildable member.target →
        generator.ExpressionSound member.target (generator.constraint id place member.target)) ∧
      (¬ (member.isRequired ∨ generator.idempotencyToken id place) →
        plain (generator.model.shape id) (generator.model.shape member.target).type member = true →
          generator.Satisfies (Typed.literal member) member.target (generator.constraint id place member.target))
  | .union members _ => ∀ (place : ℕ) member, place < 2 ^ 32 → members[place]? = some member →
      generator.Buildable member.target →
        generator.ExpressionSound member.target (generator.constraint id place member.target)
  | .list element sparse => generator.ListSound id element sparse
  | .map key value _ => generator.MapSound id key value
  | _ => True

/-- Whether the shape has a builder. -/
def Aggregate (id : Id) : Prop :=
  match (generator.model.shape id).type with
  | .struct _ | .union _ _ | .list _ _ | .map _ _ _ => True
  | _ => False

/-- The condition of a model. -/
def Sound : Prop := ∀ id, generator.Aggregate id → generator.Buildable id → generator.ShapeSound id

/-! ## Scalars -/

section Scalars

variable {generator} {random : Id → Draws Value}

theorem gives_choice {α : Type} {values : List α} {value : α} :
    Gives (choice values) value ↔ value ∈ values.take (2 ^ 32) := by
  rw [choice, gives_word_bind, List.mem_iff_getElem?]
  constructor
  · rintro ⟨drawn, gives⟩
    refine ⟨drawn.toNat % values.length, ?_⟩
    rw [List.getElem?_take_of_lt (lt_of_le_of_lt (Nat.mod_le _ _) drawn.toNat_lt)]
    cases at_ : values[drawn.toNat % values.length]? with
    | none => exact absurd (by simpa only [at_] using gives) not_gives_stuck
    | some other =>
      simp only [at_, gives_pure] at gives
      rw [gives]
  · rintro ⟨place, at_⟩
    rw [List.getElem?_take] at at_
    split_ifs at at_ with small
    obtain ⟨inside, -⟩ := List.getElem?_eq_some_iff.mp at_
    refine ⟨UInt32.ofNat place, ?_⟩
    simp only [UInt32.toNat_ofNat', Nat.mod_eq_of_lt small, Nat.mod_eq_of_lt inside, at_]
    exact gives_pure.mpr rfl

theorem enumText_fromText (values : List Bytes) (text : Bytes) : enumText values (.fromText values text) = text := by
  rw [EnumValue.fromText]
  cases found : values.findIdx? (· = text) with
  | none => rfl
  | some index =>
    obtain ⟨inside, same, -⟩ := List.findIdx?_eq_some_iff_getElem.mp found
    rw [decide_eq_true_eq] at same
    exact (List.getD_eq_getElem?_getD ..).trans (by rw [List.getElem?_eq_getElem inside, Option.getD_some, same])

theorem forall_floatingExpression {traits : ConstraintTraits} {format : FloatFormat} {double : ℚ → Binary64}
    (finite : format.nearestCode (2 ^ 63) < format.infinite)
    (value : ∀ {x : ℚ}, |x| ≤ 2 ^ 63 → (double x).value? = some (format.rounded x)) :
    (∀ number, Gives (floatingExpression traits.range) number → traits.AdmitsDouble (double number)) ↔
      ∀ range ∈ traits.range, BoundsAdmitted (fun number => traits.AdmitsDouble (double number)) (floatingBounds range) := by
  cases present : traits.range with
  | none =>
    constructor
    · intro _ range member
      cases member
    · intro _ number _ trait member
      rw [present] at member
      cases member
  | some range =>
    simp only [floatingExpression, forall_gives_map, Option.mem_def, Option.some_inj, forall_eq']
    exact forall_floatingBounds finite fun n small => value small

/-- What is drawn for a scalar satisfies its traits where the ends of it do. -/
theorem forall_expression_scalar {target : Id} (scalar : ¬ generator.Aggregate target) {traits : ConstraintTraits}
    (plain : traits.pattern = none) :
    (∀ value, Gives (generator.expression false random target traits) value → generator.Satisfies value target traits) ↔
      generator.ExpressionSound target traits := by
  rw [Aggregate] at scalar
  rw [expression, ExpressionSound]
  cases type : (generator.model.shape target).type <;> simp only [type, forall_gives_map, Satisfies] at scalar ⊢
  case byte => exact forall_intBounds fun n least most => Int8.toInt_ofInt_of_le least (by omega)
  case short => exact forall_intBounds fun n least most => Int16.toInt_ofInt_of_le least (by omega)
  case integer => exact forall_intBounds fun n least most => Int32.toInt_ofInt_of_le least (by omega)
  case long => exact forall_intBounds fun n least most => Int64.toInt_ofInt_of_le (by omega) (by omega)
  case intEnum => simp only [gives_choice]
  case enum values => simp only [gives_choice, ShapeType.enum.injEq, forall_eq', enumText_fromText]
  case float => exact forall_floatingExpression nearestCode_two_pow.1 value?_nearest_single
  case double => exact forall_floatingExpression nearestCode_two_pow.2 value?_nearest_double
  case string =>
    rw [← forall_drawn (close_stringSize _).le]
    exact forall_congr' fun text => imp_congr_ctx (gives_stringExpression plain) fun drawn => by rw [drawn.count]
  case blob =>
    rw [← forall_drawn (close_blobSize _).le]
    exact forall_congr' fun text => imp_congr_left (gives_text (close_blobSize _))
  case struct | union | list | map => exact absurd trivial scalar
  case unit =>
    apply iff_true_intro
    intro value gives
    rw [gives_pure.mp gives]
    simp only [Satisfies]
  all_goals exact iff_true_intro fun _ _ => trivial

end Scalars

/-! ## Containers -/

section Containers

variable {generator} {random : Id → Draws Value} {id : Id}

theorem NoPatterns.constraint (noPatterns : NoPatterns generator) (container : Id) (place : ℕ) (target : Id) :
    (generator.constraint container place target).pattern = none := by
  change (generator.memberTraits container place).pattern.or (generator.traits target).pattern = none
  rw [noPatterns.members, noPatterns.shapes, Option.or_none]

theorem close_containerSizes (generator : RandomValueGenerator Id) (id : Id) : (generator.containerSizes id).Close :=
  close_containerSize _ _

theorem one_le_containerSizes (generator : RandomValueGenerator Id) (id : Id) : 1 ≤ (generator.containerSizes id).min :=
  one_le_containerSize _ _

/-- The keys of a map that is built, which may be fewer than are drawn. -/
theorem exists_indexed_of_gives {key item : Member Id} {sparse : Bool}
    (type : (generator.model.shape id).type = .map key item sparse)
    (noPatterns : NoPatterns generator) {value : Value} (gives : Gives (generator.writeBuilder false random id) value) :
    ∃ texts members, Indexed (keySize (generator.constraint id 0 key.target).length) texts ∧
      (generator.containerSizes id).min ≤ texts.length ∧ texts.length ≤ (generator.containerSizes id).max ∧
      members.length = texts.dedup.length ∧ (∀ entry ∈ members, entry.1 ∈ texts ∧ ∃ built,
        Gives (generator.expression false random item.target (generator.constraint id 1 item.target)) built ∧
          entry.2 = moved sparse built) ∧ value = .map members := by
  obtain ⟨entries, least, most, each, rfl⟩ := (gives_mapBuilder type).mp gives
  simp only [gives_mapEntry (noPatterns.constraint id 0 key.target)] at each
  refine ⟨entries.map Prod.fst, _, ?_,
    by rwa [List.length_map], by rwa [List.length_map], OrderedMap.length_foldl_put entries, ?_, rfl⟩
  · intro place text at_
    rw [List.getElem?_map] at at_
    obtain ⟨entry, inside, rfl⟩ := Option.map_eq_some_iff.mp at_
    obtain ⟨base, built, drawn, -, rfl⟩ := each place entry inside
    exact ⟨base, drawn, rfl⟩
  · intro entry member
    obtain inside | never := OrderedMap.mem_foldl_put member
    · obtain ⟨place, at_⟩ := List.mem_iff_getElem?.mp inside
      obtain ⟨base, built, -, gave, same⟩ := each place entry at_
      exact ⟨List.mem_map_of_mem inside, built, gave, congrArg Prod.snd same⟩
    · cases never

/-- All keys may have one value. -/
theorem exists_gives_map {key item : Member Id} {sparse : Bool}
    (type : (generator.model.shape id).type = .map key item sparse)
    (noPatterns : NoPatterns generator) {texts : List Bytes}
    (indexed : Indexed (keySize (generator.constraint id 0 key.target).length) texts)
    (least : (generator.containerSizes id).min ≤ texts.length) (most : texts.length ≤ (generator.containerSizes id).max)
    {built : Value}
    (gives : Gives (generator.expression false random item.target (generator.constraint id 1 item.target)) built) :
    ∃ members, Gives (generator.writeBuilder false random id) (.map members) ∧ members.length = texts.dedup.length ∧
      (∀ text ∈ texts, text ∈ members.map Prod.fst) ∧ ∀ entry ∈ members, entry.2 = moved sparse built := by
  refine ⟨_, (gives_mapBuilder type).mpr ⟨texts.map fun text => (text, moved sparse built), by rwa [List.length_map],
    by rwa [List.length_map], ?_, rfl⟩, ?_, ?_, ?_⟩
  · intro place entry at_
    rw [List.getElem?_map] at at_
    obtain ⟨text, inside, rfl⟩ := Option.map_eq_some_iff.mp at_
    obtain ⟨base, drawn, rfl⟩ := indexed place text inside
    exact (gives_mapEntry (noPatterns.constraint id 0 key.target)).mpr ⟨base, built, drawn, gives, rfl⟩
  · rw [OrderedMap.length_foldl_put, List.map_map]
    exact congrArg (fun keys => (List.dedup keys).length) (List.map_id texts)
  · intro text member
    rw [OrderedMap.mem_keys_foldl_put, List.map_map]
    exact .inl ((List.map_id texts).symm ▸ member)
  · intro entry member
    obtain inside | never := OrderedMap.mem_foldl_put member
    · obtain ⟨text, -, rfl⟩ := List.mem_map.mp inside
      rfl
    · cases never

end Containers

/-! ## The condition is enough -/

section Enough

variable {generator} {random : Id → Draws Value} {id target : Id} {traits : ConstraintTraits} {value : Value}

theorem expression_of_aggregate (aggregate : generator.Aggregate target) (fillAll : Bool) (random : Id → Draws Value)
    (traits : ConstraintTraits) : generator.expression fillAll random target traits = random target := by
  rw [Aggregate] at aggregate
  rw [expression]
  cases type : (generator.model.shape target).type <;> simp only [type] at aggregate ⊢

theorem buildable_of_expression (built : ∀ id value, Gives (random id) value → generator.Buildable id)
    (gives : Gives (generator.expression false random target traits) value) : generator.Buildable target := by
  by_cases aggregate : generator.Aggregate target
  · rw [expression_of_aggregate aggregate] at gives
    exact built target value gives
  · apply Buildable.scalar
    rw [Aggregate] at aggregate
    rw [expression] at gives
    rw [Scalar]
    cases type : (generator.model.shape target).type <;> simp only [type, Draws.gives_map, gives_choice] at aggregate gives ⊢
    case enum values =>
      obtain ⟨text, member, -⟩ := gives
      exact List.ne_nil_of_mem (List.mem_of_mem_take member)
    case intEnum =>
      obtain ⟨number, member, -⟩ := gives
      exact List.ne_nil_of_mem (List.mem_of_mem_take member)
    all_goals exact aggregate trivial

theorem buildable_of_writeBuilder (noPatterns : NoPatterns generator)
    (built : ∀ id value, Gives (random id) value → generator.Buildable id)
    (gives : Gives (generator.writeBuilder false random id) value) : generator.Buildable id := by
  cases type : (generator.model.shape id).type
  case struct members =>
    obtain ⟨values, length, each, -⟩ := (gives_structBuilder type).mp gives
    apply Buildable.struct type
    intro place member at_ always
    obtain ⟨inside, -⟩ := List.getElem?_eq_some_iff.mp at_
    obtain ⟨item, gave, -⟩ | ⟨unset, -⟩ :=
      gives_field.mp (each place member _ at_ (List.getElem?_eq_getElem (length ▸ inside)))
    · exact buildable_of_expression built gave
    · exact absurd always unset
  case union members discriminated =>
    rw [writeBuilder, type] at gives
    obtain ⟨place, member, item, small, at_, gave, -⟩ := gives_alternative.mp gives
    exact .union type small at_ (buildable_of_expression built gave)
  case list element sparse =>
    obtain ⟨items, least, -, each, -⟩ := (gives_listBuilder type).mp gives
    apply Buildable.list type
    intro dense
    have some_ := le_trans (one_le_containerSizes generator id) least
    obtain ⟨absent, -⟩ | ⟨item, gave, -⟩ := gives_listItem.mp (each 0 _ (List.getElem?_eq_getElem some_))
    · exact absurd (dense.symm.trans absent) Bool.false_ne_true
    · split_ifs at gave
      · obtain ⟨inner, gave, -⟩ := gives_bind.mp gave
        exact buildable_of_expression built gave
      · exact buildable_of_expression built gave
  case map key item sparse =>
    obtain ⟨entries, least, -, each, -⟩ := (gives_mapBuilder type).mp gives
    have some_ := le_trans (one_le_containerSizes generator id) least
    obtain ⟨_, inner, -, gave, -⟩ :=
      (gives_mapEntry (noPatterns.constraint id 0 key.target)).mp (each 0 _ (List.getElem?_eq_getElem some_))
    exact .map type (buildable_of_expression built gave)
  all_goals
    rw [writeBuilder, type] at gives
    exact absurd gives not_gives_stuck

theorem buildable_of_gives (noPatterns : NoPatterns generator) {fuel : ℕ}
    (gives : Gives (generator.random false fuel id) value) :
    generator.Buildable id := by
  induction fuel generalizing id value with
  | zero => exact absurd gives not_gives_stuck
  | succ fuel ih => exact buildable_of_writeBuilder noPatterns (fun _ _ => ih) gives

/-- A value that has its own traits has those of a member in their place, where its sizes do. -/
theorem satisfies_restated (noPatterns : NoPatterns generator) (gives : Gives (generator.writeBuilder false random id) value)
    (own : generator.Satisfies value id (generator.traits id)) (sound : generator.ExpressionSound id traits)
    (unique : traits.uniqueItems = true → (generator.traits id).uniqueItems = true) :
    generator.Satisfies value id traits := by
  rw [ExpressionSound] at sound
  cases type : (generator.model.shape id).type
  case struct members =>
    obtain ⟨values, -, -, rfl⟩ := (gives_structBuilder type).mp gives
    simp only [Satisfies] at own ⊢
    exact own
  case union members discriminated =>
    rw [writeBuilder, type] at gives
    obtain ⟨place, member, item, -, -, -, rfl⟩ := gives_alternative.mp gives
    simp only [Satisfies] at own ⊢
    exact own
  case list element sparse =>
    simp only [type] at sound
    obtain ⟨items, least, most, -, rfl⟩ := (gives_listBuilder type).mp gives
    simp only [Satisfies] at own ⊢
    exact ⟨sound.1.between sound.2 least most, fun asked => own.2.1 (unique asked), own.2.2⟩
  case map key item sparse =>
    simp only [type] at sound
    obtain ⟨texts, members, indexed, least, most, count, -, rfl⟩ := exists_indexed_of_gives type noPatterns gives
    simp only [Satisfies] at own ⊢
    have fewest := le_trans (fewestKeys_mono (close_keySize _).le least) indexed.fewestKeys_le
    have all := le_trans (List.dedup_sublist texts).length_le most
    exact ⟨sound.1.between sound.2 (count ▸ fewest) (count ▸ all), own.2⟩
  all_goals
    rw [writeBuilder, type] at gives
    exact absurd gives not_gives_stuck

theorem UniqueStrings.hasEffective (uniqueStrings : UniqueStrings generator) (id : Id) :
    generator.hasEffective id = (generator.traits id).uniqueItems := by
  rw [RandomValueGenerator.hasEffective, uniqueStrings.members, Bool.false_or]

theorem UniqueStrings.constraint (uniqueStrings : UniqueStrings generator) (container : Id) (place : ℕ) (target : Id) :
    (generator.constraint container place target).uniqueItems = (generator.traits target).uniqueItems := by
  change ((generator.memberTraits container place).uniqueItems || (generator.traits target).uniqueItems) = _
  rw [uniqueStrings.members, Bool.false_or]

theorem UniqueStrings.string (uniqueStrings : UniqueStrings generator) {element : Member Id} {sparse : Bool}
    (type : (generator.model.shape id).type = .list element sparse) (unique : generator.hasEffective id = true) :
    (generator.model.shape element.target).type = .string := by
  obtain ⟨element', sparse', type', string⟩ := uniqueStrings.lists id (uniqueStrings.hasEffective id ▸ unique)
  rw [type, ShapeType.list.injEq] at type'
  exact type'.1 ▸ string

/-- Every length between the shortest and the longest. -/
theorem SuffixedAdmitted.admits {sizes : Sizes} {count : ℕ} (sound : SuffixedAdmitted traits sizes count) {base : Bytes}
    (drawn : Drawn sizes base) {place : ℕ} (inside : place < count) :
    traits.AdmitsLength (utf8CodePointCount (base ++ decimal place)) := by
  have least := drawn.least
  have most := drawn.most
  have some_ : 0 < (decimal place).length := List.length_pos_of_ne_nil (Decimal.decimal_ne_nil place)
  have digits := Decimal.length_decimal_mono (by omega : place ≤ count - 1)
  rw [drawn.count_append]
  exact sound.1.between sound.2 (by omega) (by omega)

/-- What builders with all they are asked for come to: for each member what it asks for. -/
structure Satisfying (generator : RandomValueGenerator Id) (random : Id → Draws Value) : Prop where
  built : ∀ id value, Gives (random id) value → generator.Buildable id
  member : ∀ (container : Id) (place : ℕ) (target : Id),
    (generator.Buildable target → generator.ExpressionSound target (generator.constraint container place target)) →
      ∀ value, Gives (generator.expression false random target (generator.constraint container place target)) value →
        generator.Satisfies value target (generator.constraint container place target)

theorem satisfies_struct (satisfying : Satisfying generator random) (sound : generator.ShapeSound id)
    {members : List (Member Id)}
    (type : (generator.model.shape id).type = .struct members)
    (gives : Gives (generator.writeBuilder false random id) value) :
    generator.Satisfies value id (generator.traits id) := by
  obtain ⟨values, -, each, rfl⟩ := (gives_structBuilder type).mp gives
  have sound := sound.2
  simp only [type] at sound
  simp only [Satisfies, type, ShapeType.struct.injEq, forall_eq', fieldsSatisfy_iff, List.getElem?_zipIdx, Nat.zero_add,
    Option.map_eq_some_iff]
  rintro place value _ at_ ⟨member, at', rfl⟩
  obtain ⟨set, unset⟩ := sound place member at'
  obtain ⟨built, gave, rfl⟩ | ⟨left_, rfl⟩ := gives_field.mp (each place member value at' at_)
  · exact satisfies_moved.mpr (satisfying.member id place member.target set built gave)
  · split_ifs with optional
    · exact satisfies_nullopt _ _
    · rw [Bool.not_eq_true', Bool.not_eq_false] at optional
      exact unset left_ optional

theorem satisfies_union (satisfying : Satisfying generator random) (sound : generator.ShapeSound id)
    {members : List (Member Id)}
    {discriminated : Option Bytes} (type : (generator.model.shape id).type = .union members discriminated)
    (gives : Gives (generator.writeBuilder false random id) value) : generator.Satisfies value id (generator.traits id) := by
  rw [writeBuilder, type] at gives
  obtain ⟨place, member, built, small, at_, gave, rfl⟩ := gives_alternative.mp gives
  have sound := sound.2
  simp only [type] at sound
  simp only [Satisfies, type]
  rintro _ _ other ⟨⟩ at'
  rw [at_, Option.some_inj] at at'
  exact at' ▸ satisfying.member id place member.target (sound place member small at_) built gave

theorem satisfies_list (noPatterns : NoPatterns generator) (uniqueStrings : UniqueStrings generator)
    (satisfying : Satisfying generator random)
    (sound : generator.ShapeSound id) {element : Member Id} {sparse : Bool}
    (type : (generator.model.shape id).type = .list element sparse)
    (gives : Gives (generator.writeBuilder false random id) value) : generator.Satisfies value id (generator.traits id) := by
  obtain ⟨items, least, most, each, rfl⟩ := (gives_listBuilder type).mp gives
  obtain ⟨sizes, inner⟩ := sound
  rw [ExpressionSound] at sizes
  simp only [type, ListSound] at sizes inner
  have length := sizes.1.between sizes.2 least most
  simp only [Satisfies, type]
  refine ⟨length, ?_⟩
  rw [← uniqueStrings.hasEffective id]
  cases unique : generator.hasEffective id with
  | true =>
    rw [unique] at each
    simp only [unique, if_true] at inner
    obtain ⟨few, apart, suffixed⟩ := inner
    have string := uniqueStrings.string type unique
    simp only [gives_listItem_unique string (noPatterns.constraint id 0 element.target)] at each
    constructor
    · intro _
      cases sparse with
      | true =>
        have one := le_trans most (few rfl)
        obtain - | ⟨first, - | ⟨second, rest⟩⟩ := items
        · exact List.nodup_nil
        · exact List.nodup_singleton _
        · exact absurd one (by simp)
      | false =>
        have injective : Function.Injective Value.string := fun _ _ same => Value.string.inj same
        refine nodup_of_places injective (fun place item at_ => ?_) (apart.imp_left (le_trans most))
        obtain ⟨never, -⟩ | ⟨base, drawn, same⟩ := each place item at_
        · exact absurd never Bool.false_ne_true
        · exact ⟨base, drawn, same⟩
    · rintro _ _ ⟨⟩
      rw [allSatisfy_iff]
      intro item member
      obtain ⟨place, at_⟩ := List.mem_iff_getElem?.mp member
      obtain ⟨inside, -⟩ := List.getElem?_eq_some_iff.mp at_
      obtain ⟨-, rfl⟩ | ⟨base, drawn, rfl⟩ := each place item at_
      · exact satisfies_nullopt _ _
      · rw [satisfies_moved, Satisfies]
        exact suffixed.admits drawn (lt_of_lt_of_le inside most)
  | false =>
    rw [unique] at each
    simp only [unique, Bool.false_eq_true, if_false] at inner
    simp only [gives_listItem_plain] at each
    refine ⟨fun never => absurd never Bool.false_ne_true, ?_⟩
    rintro _ _ ⟨⟩
    rw [allSatisfy_iff]
    intro item member
    obtain ⟨place, at_⟩ := List.mem_iff_getElem?.mp member
    obtain ⟨-, rfl⟩ | ⟨built, gave, rfl⟩ := each place item at_
    · exact satisfies_nullopt _ _
    · exact satisfies_moved.mpr (satisfying.member id 0 element.target inner built gave)

theorem satisfies_map (noPatterns : NoPatterns generator) (satisfying : Satisfying generator random)
    (sound : generator.ShapeSound id) {key item : Member Id} {sparse : Bool}
    (type : (generator.model.shape id).type = .map key item sparse)
    (gives : Gives (generator.writeBuilder false random id) value) : generator.Satisfies value id (generator.traits id) := by
  obtain ⟨texts, members, indexed, least, most, count, each, rfl⟩ := exists_indexed_of_gives type noPatterns gives
  obtain ⟨sizes, inner⟩ := sound
  rw [ExpressionSound] at sizes
  simp only [type] at sizes inner
  have fewest := le_trans (fewestKeys_mono (close_keySize _).le least) indexed.fewestKeys_le
  have all := le_trans (List.dedup_sublist texts).length_le most
  simp only [Satisfies, type]
  refine ⟨sizes.1.between sizes.2 (count ▸ fewest) (count ▸ all), ?_⟩
  rintro _ _ _ ⟨⟩
  constructor
  · intro text member
    obtain ⟨entry, present, rfl⟩ := List.mem_map.mp member
    obtain ⟨place, at_⟩ := List.mem_iff_getElem?.mp (each entry present).1
    obtain ⟨inside, -⟩ := List.getElem?_eq_some_iff.mp at_
    obtain ⟨base, drawn, same⟩ := indexed place entry.1 at_
    rw [KeySatisfies, same]
    exact ⟨inner.suffixed.admits drawn (lt_of_lt_of_le inside most),
      fun values enum => inner.enumerated values enum base place drawn (lt_of_lt_of_le inside most)⟩
  · rw [valuesSatisfy_iff]
    intro entry present
    obtain ⟨-, built, gave, same⟩ := each entry present
    rw [same, satisfies_moved]
    exact satisfying.member id 1 item.target inner.values built gave

/-- By induction on how deep the calls are: each builder relies on those that it calls. -/
theorem satisfies_of_sound (noPatterns : NoPatterns generator) (uniqueStrings : UniqueStrings generator)
    (sound : generator.Sound)
    {fuel : ℕ} (gives : Gives (generator.random false fuel id) value) :
    generator.Satisfies value id (generator.traits id) := by
  induction fuel generalizing id value with
  | zero => exact absurd gives not_gives_stuck
  | succ fuel ih =>
    have satisfying : Satisfying generator (generator.random false fuel) := by
      refine ⟨fun _ _ => buildable_of_gives noPatterns, ?_⟩
      intro container place target sound value gives
      have buildable := buildable_of_expression (fun _ _ => buildable_of_gives noPatterns) gives
      by_cases aggregate : generator.Aggregate target
      · rw [expression_of_aggregate aggregate] at gives
        cases fuel with
        | zero => exact absurd gives not_gives_stuck
        | succ fuel =>
          exact satisfies_restated noPatterns gives (ih gives) (sound buildable)
            fun asked => uniqueStrings.constraint container place target ▸ asked
      · exact (forall_expression_scalar aggregate (noPatterns.constraint container place target)).mpr
          (sound buildable) value gives
    have buildable := buildable_of_gives noPatterns gives
    have shape (aggregate : generator.Aggregate id) : generator.ShapeSound id := sound id aggregate buildable
    rw [Aggregate] at shape
    cases type : (generator.model.shape id).type
    case struct members => exact satisfies_struct satisfying (shape (by simp only [type])) type gives
    case union members discriminated => exact satisfies_union satisfying (shape (by simp only [type])) type gives
    case list element sparse =>
      exact satisfies_list noPatterns uniqueStrings satisfying (shape (by simp only [type])) type gives
    case map key item sparse => exact satisfies_map noPatterns satisfying (shape (by simp only [type])) type gives
    all_goals
      rw [random, writeBuilder, type] at gives
      exact absurd gives not_gives_stuck

end Enough

/-! ## The condition is needed -/

section Needed

variable {generator} {id target : Id} {traits : ConstraintTraits} {value : Value}

/-- An expression for the shape comes to something with calls as deep as the fuel. -/
def Given (generator : RandomValueGenerator Id) (fuel : ℕ) (target : Id) : Prop :=
  ∀ traits : ConstraintTraits, traits.pattern = none →
    ∃ value, Gives (generator.expression false (generator.random false fuel) target traits) value

theorem gives_expression_more {fuel more : ℕ} (le : fuel ≤ more)
    (gives : Gives (generator.expression false (generator.random false fuel) target traits) value) :
    Gives (generator.expression false (generator.random false more) target traits) value :=
  gives_expression_mono (fun _ _ => gives_random_mono generator le) gives

theorem Given.mono {fuel more : ℕ} (given : generator.Given fuel target) (le : fuel ≤ more) : generator.Given more target :=
  fun traits plain => (given traits plain).imp fun _ => gives_expression_more le

theorem given_of_writeBuilder {fuel : ℕ} (aggregate : generator.Aggregate id)
    (gives : Gives (generator.writeBuilder false (generator.random false fuel) id) value) :
    generator.Given (fuel + 1) id := by
  intro traits _
  rw [expression_of_aggregate aggregate]
  exact ⟨value, gives⟩

/-- One fuel for all of a list. -/
theorem exists_common {α : Type} {holds : ℕ → α → Prop} (mono : ∀ {n m item}, n ≤ m → holds n item → holds m item)
    {items : List α}
    (each : ∀ item ∈ items, ∃ n, holds n item) : ∃ n, ∀ item ∈ items, holds n item := by
  induction items with
  | nil => exact ⟨0, fun _ member => absurd member List.not_mem_nil⟩
  | cons item items ih =>
    rw [List.forall_mem_cons] at each
    obtain ⟨n, first⟩ := each.1
    obtain ⟨m, rest⟩ := ih each.2
    refine ⟨max n m, ?_⟩
    rw [List.forall_mem_cons]
    exact ⟨mono (le_max_left n m) first, fun other member => mono (le_max_right n m) (rest other member)⟩

theorem given_of_scalar (scalar : generator.Scalar target) (fuel : ℕ) : generator.Given fuel target := by
  intro traits plain
  rw [Scalar] at scalar
  rw [expression]
  cases type : (generator.model.shape target).type <;> simp only [type, Draws.gives_map, gives_choice] at scalar ⊢
  case boolean => exact ⟨_, 0, gives_word, rfl⟩
  case byte | short | integer | long => exact ⟨_, _, Rng.gives_int_low _ _, rfl⟩
  case timestamp | document => exact ⟨_, _, Rng.gives_int_low _ _, rfl⟩
  case unit => exact ⟨_, gives_pure.mpr rfl⟩
  case string => exact ⟨_, _, (gives_stringExpression plain).mpr (drawn_replicate le_rfl (close_stringSize _).le), rfl⟩
  case blob => exact ⟨_, _, (gives_text (close_blobSize _)).mpr (drawn_replicate le_rfl (close_blobSize _).le), rfl⟩
  case enum values =>
    obtain ⟨first, rest, rfl⟩ := List.exists_cons_of_ne_nil scalar
    exact ⟨_, first, List.mem_cons_self, rfl⟩
  case intEnum =>
    obtain ⟨first, rest, same⟩ := List.exists_cons_of_ne_nil scalar
    exact ⟨_, first, by rw [same]; exact List.mem_cons_self, rfl⟩
  case float | double =>
    cases range : traits.range with
    | none => exact ⟨_, _, Draws.gives_map.mpr ⟨_, Rng.gives_int_low _ _, rfl⟩, rfl⟩
    | some range => exact ⟨_, _, Draws.gives_map.mpr ⟨_, Rng.gives_int_low _ _, rfl⟩, rfl⟩

/-- A list of each length in the bounds. -/
theorem exists_gives_list (noPatterns : NoPatterns generator) (uniqueStrings : UniqueStrings generator) {element : Member Id}
    {sparse : Bool}
    (type : (generator.model.shape id).type = .list element sparse) {fuel : ℕ}
    (given : sparse = false → generator.Given fuel element.target) {n : ℕ} (least : (generator.containerSizes id).min ≤ n)
    (most : n ≤ (generator.containerSizes id).max) :
    ∃ items : List Value, items.length = n ∧
      Gives (generator.writeBuilder false (generator.random false fuel) id) (.list items) := by
  obtain ⟨item, each⟩ : ∃ item : ℕ → Value, ∀ place,
      Gives (generator.listItem false (generator.random false fuel) id element sparse (generator.hasEffective id) place)
        (item place) := by
    cases sparse with
    | true => exact ⟨fun _ => .nullopt, fun place => gives_listItem.mpr (.inl ⟨rfl, rfl⟩)⟩
    | false =>
      cases unique : generator.hasEffective id with
      | true =>
        have string := uniqueStrings.string type unique
        have drawn := drawn_replicate le_rfl (close_stringSize (generator.constraint id 0 element.target).length).le
        exact ⟨_, fun place => (gives_listItem_unique string (noPatterns.constraint id 0 element.target)).mpr
          (.inr ⟨_, drawn, rfl⟩)⟩
      | false =>
        obtain ⟨built, gave⟩ := given rfl _ (noPatterns.constraint id 0 element.target)
        exact ⟨fun _ => _, fun place => gives_listItem_plain.mpr (.inr ⟨built, gave, rfl⟩)⟩
  refine ⟨(List.range n).map item,
    by rw [List.length_map, List.length_range], (gives_listBuilder type).mpr ⟨_, ?_, ?_, ?_, rfl⟩⟩
  · rwa [List.length_map, List.length_range]
  · rwa [List.length_map, List.length_range]
  · intro place built at_
    rw [getElem?_map_range] at at_
    split_ifs at at_
    exact Option.some.inj at_ ▸ each place

/-! What is known of a shape with a value by its type. -/

theorem Buildable.of_struct (buildable : generator.Buildable id) {members : List (Member Id)}
    (type : (generator.model.shape id).type = .struct members) {place : ℕ} {member : Member Id}
    (at_ : members[place]? = some member)
    (always : member.isRequired = true ∨ generator.idempotencyToken id place = true) :
    generator.Buildable member.target := by
  cases buildable with
  | scalar scalar =>
    rw [Scalar, type] at scalar
    exact scalar.elim
  | struct type' each =>
    cases type.symm.trans type'
    exact each place member at_ always
  | union type' | list type' | map type' => cases type.symm.trans type'

theorem Buildable.of_list (buildable : generator.Buildable id) {element : Member Id} {sparse : Bool}
    (type : (generator.model.shape id).type = .list element sparse) (dense : sparse = false) :
    generator.Buildable element.target := by
  cases buildable with
  | scalar scalar =>
    rw [Scalar, type] at scalar
    exact scalar.elim
  | list type' item =>
    cases type.symm.trans type'
    exact item dense
  | struct type' | union type' | map type' => cases type.symm.trans type'

theorem Buildable.of_map (buildable : generator.Buildable id) {key item : Member Id} {sparse : Bool}
    (type : (generator.model.shape id).type = .map key item sparse) : generator.Buildable item.target := by
  cases buildable with
  | scalar scalar =>
    rw [Scalar, type] at scalar
    exact scalar.elim
  | map type' item =>
    cases type.symm.trans type'
    exact item
  | struct type' | union type' | list type' => cases type.symm.trans type'

/-- Where each member that is always set has a value, each field has one. -/
theorem exists_field (noPatterns : NoPatterns generator) {fuel : ℕ} {members : List (Member Id)}
    (given : ∀ (place : ℕ) member, members[place]? = some member →
      member.isRequired = true ∨ generator.idempotencyToken id place = true → generator.Given fuel member.target) :
    ∀ entry ∈ members.zipIdx, ∃ value,
      Gives (generator.field false (generator.random false fuel) id entry.2 entry.1) value := by
  intro entry inside
  have at_ := List.mem_zipIdx_iff_getElem?.mp inside
  by_cases always : entry.1.isRequired = true ∨ generator.idempotencyToken id entry.2 = true
  · obtain ⟨value, gave⟩ := given entry.2 entry.1 at_ always _ (noPatterns.constraint id entry.2 entry.1.target)
    exact ⟨_, gives_field.mpr (.inl ⟨value, gave, rfl⟩)⟩
  · exact ⟨_, gives_field.mpr (.inr ⟨always, rfl⟩)⟩

/-- One fuel for all members that are always set. -/
theorem exists_given_members {members : List (Member Id)}
    (each : ∀ (place : ℕ) member, members[place]? = some member →
      member.isRequired = true ∨ generator.idempotencyToken id place = true → ∃ fuel, generator.Given fuel member.target) :
    ∃ fuel, ∀ (place : ℕ) member, members[place]? = some member →
      member.isRequired = true ∨ generator.idempotencyToken id place = true → generator.Given fuel member.target := by
  have common : ∃ fuel, ∀ entry ∈ members.zipIdx,
      entry.1.isRequired = true ∨ generator.idempotencyToken id entry.2 = true → generator.Given fuel entry.1.target := by
    apply exists_common
    · exact fun le given always => (given always).mono le
    · intro entry inside
      by_cases always : entry.1.isRequired = true ∨ generator.idempotencyToken id entry.2 = true
      · exact (each entry.2 entry.1 (List.mem_zipIdx_iff_getElem?.mp inside) always).imp fun _ given _ => given
      · exact ⟨0, fun set => absurd set always⟩
  obtain ⟨fuel, given⟩ := common
  exact ⟨fuel, fun place member at_ => given (member, place) (List.mk_mem_zipIdx_iff_getElem?.mpr at_)⟩

/-- One of the fields may have anything of its own. -/
theorem exists_gives_struct {members : List (Member Id)} (type : (generator.model.shape id).type = .struct members)
    {fuel : ℕ}
    (each : ∀ entry ∈ members.zipIdx, ∃ value,
      Gives (generator.field false (generator.random false fuel) id entry.2 entry.1) value)
    {place : ℕ} {member : Member Id} (at_ : members[place]? = some member) {built : Value}
    (gives : Gives (generator.field false (generator.random false fuel) id place member) built) :
    ∃ values : List Value, values[place]? = some built ∧
      Gives (generator.writeBuilder false (generator.random false fuel) id) (.struct values) := by
  have inside : members.zipIdx[place]? = some (member, place) := by
    rw [List.getElem?_zipIdx, Nat.zero_add, at_, Option.map_some]
  obtain ⟨values, gave, at'⟩ := exists_mapM_of_gives each inside gives
  rw [writeBuilder, type]
  exact ⟨values, at', Draws.gives_map.mpr ⟨values, gave, rfl⟩⟩

/-- The items of a list need a value only where none may be left out. -/
theorem exists_given_item {sparse : Bool} (each : sparse = false → ∃ fuel, generator.Given fuel target) :
    ∃ fuel, sparse = false → generator.Given fuel target := by
  cases sparse with
  | false => exact (each rfl).imp fun _ given _ => given
  | true => exact ⟨0, fun never => absurd never.symm Bool.false_ne_true⟩

/-- A shape with a value has one that is built. -/
theorem exists_given (noPatterns : NoPatterns generator) (uniqueStrings : UniqueStrings generator)
    (buildable : generator.Buildable id) :
    ∃ fuel, generator.Given fuel id := by
  induction buildable with
  | scalar scalar => exact ⟨0, given_of_scalar scalar 0⟩
  | @struct id members type each ih =>
    have aggregate : generator.Aggregate id := by simp only [Aggregate, type]
    obtain ⟨fuel, given⟩ := exists_given_members ih
    obtain ⟨values, gave⟩ := exists_mapM (exists_field noPatterns given)
    have built : Gives (generator.writeBuilder false (generator.random false fuel) id) (.struct values) := by
      rw [writeBuilder, type]
      exact Draws.gives_map.mpr ⟨values, gave, rfl⟩
    exact ⟨fuel + 1, given_of_writeBuilder aggregate built⟩
  | @union id members discriminated type place member small at_ _ ih =>
    have aggregate : generator.Aggregate id := by simp only [Aggregate, type]
    obtain ⟨fuel, given⟩ := ih
    obtain ⟨value, gave⟩ := given _ (noPatterns.constraint id place member.target)
    have built : Gives (generator.writeBuilder false (generator.random false fuel) id) (.alternative place value) := by
      rw [writeBuilder, type]
      exact gives_alternative.mpr ⟨place, member, value, small, at_, gave, rfl⟩
    exact ⟨fuel + 1, given_of_writeBuilder aggregate built⟩
  | @list id element sparse type _ ih =>
    have aggregate : generator.Aggregate id := by simp only [Aggregate, type]
    obtain ⟨fuel, given⟩ := exists_given_item ih
    obtain ⟨items, -, built⟩ :=
      exists_gives_list noPatterns uniqueStrings type given le_rfl (close_containerSizes generator id).le
    exact ⟨fuel + 1, given_of_writeBuilder aggregate built⟩
  | @map id key item sparse type _ ih =>
    have aggregate : generator.Aggregate id := by simp only [Aggregate, type]
    obtain ⟨fuel, given⟩ := ih
    obtain ⟨value, gave⟩ := given _ (noPatterns.constraint id 1 item.target)
    obtain ⟨texts, indexed, length, -⟩ :=
      exists_fewestKeys (close_keySize (generator.constraint id 0 key.target).length).le (generator.containerSizes id).min
    obtain ⟨members, built, -⟩ :=
      exists_gives_map type noPatterns indexed length.ge (length ▸ (close_containerSizes generator id).le) gave
    exact ⟨fuel + 1, given_of_writeBuilder aggregate built⟩

theorem expressionSound_of_forall (noPatterns : NoPatterns generator) (uniqueStrings : UniqueStrings generator)
    (buildable : generator.Buildable target) (plain : traits.pattern = none)
    (all : ∀ fuel value, Gives (generator.expression false (generator.random false fuel) target traits) value →
      generator.Satisfies value target traits) : generator.ExpressionSound target traits := by
  by_cases aggregate : generator.Aggregate target
  · simp only [expression_of_aggregate aggregate] at all
    have close := close_containerSizes generator target
    rw [Aggregate] at aggregate
    rw [ExpressionSound]
    cases type : (generator.model.shape target).type <;> simp only [type] at aggregate ⊢
    case list element sparse =>
      obtain ⟨fuel, given⟩ :=
        exists_given_item fun dense => exists_given noPatterns uniqueStrings (buildable.of_list type dense)
      have admits {n : ℕ} (least : (generator.containerSizes target).min ≤ n)
          (most : n ≤ (generator.containerSizes target).max) :
          traits.AdmitsLength n := by
        obtain ⟨items, length, gives⟩ := exists_gives_list noPatterns uniqueStrings type given least most
        have satisfied := all (fuel + 1) _ gives
        simp only [Satisfies] at satisfied
        exact length ▸ satisfied.1
      exact ⟨admits le_rfl close.le, admits close.le le_rfl⟩
    case map key item sparse =>
      obtain ⟨fuel, given⟩ := exists_given noPatterns uniqueStrings (buildable.of_map type)
      obtain ⟨value, gave⟩ := given _ (noPatterns.constraint target 1 item.target)
      have admits {texts : List Bytes} (indexed : Indexed (keySize (generator.constraint target 0 key.target).length) texts)
          (least : (generator.containerSizes target).min ≤ texts.length)
          (most : texts.length ≤ (generator.containerSizes target).max) :
          traits.AdmitsLength texts.dedup.length := by
        obtain ⟨members, gives, length, -⟩ := exists_gives_map type noPatterns indexed least most gave
        have satisfied := all (fuel + 1) _ gives
        simp only [Satisfies] at satisfied
        exact length ▸ satisfied.1
      have bounds := close_keySize (generator.constraint target 0 key.target).length
      constructor
      · obtain ⟨texts, indexed, length, fewest⟩ := exists_fewestKeys bounds.le (generator.containerSizes target).min
        exact fewest ▸ admits indexed length.ge (length ▸ close.le)
      · obtain ⟨texts, indexed, length, nodup⟩ := exists_indexed_nodup bounds.le (generator.containerSizes target).max
        have admitted := admits indexed (length ▸ close.le) length.le
        rwa [nodup.dedup, length] at admitted
  · exact (forall_expression_scalar aggregate plain).mp (all 0)

/-- All that the builders come to satisfies the traits of its shape. -/
def AllSatisfied (generator : RandomValueGenerator Id) : Prop :=
  ∀ fuel id value, Gives (generator.random false fuel id) value → generator.Satisfies value id (generator.traits id)

theorem suffixedAdmitted_of_forall {sizes : Sizes} (le : sizes.min ≤ sizes.max) {count : ℕ} (some_ : 1 ≤ count)
    (admits : ∀ base place, Drawn sizes base → place < count → traits.AdmitsLength (base.length + (decimal place).length)) :
    SuffixedAdmitted traits sizes count := by
  have least := admits _ 0 (drawn_replicate le_rfl le) some_
  have most := admits _ (count - 1) (drawn_replicate le le_rfl) (by omega)
  rw [List.length_replicate] at least most
  exact ⟨least, most⟩

theorem structSound_of_forall (noPatterns : NoPatterns generator) (uniqueStrings : UniqueStrings generator)
    (all : generator.AllSatisfied)
    (buildable : generator.Buildable id) {members : List (Member Id)}
    (type : (generator.model.shape id).type = .struct members)
    {place : ℕ} {member : Member Id} (at_ : members[place]? = some member) :
    (generator.Buildable member.target →
      generator.ExpressionSound member.target (generator.constraint id place member.target)) ∧
      (¬ (member.isRequired ∨ generator.idempotencyToken id place) →
        plain (generator.model.shape id) (generator.model.shape member.target).type member = true →
          generator.Satisfies (Typed.literal member) member.target (generator.constraint id place member.target)) := by
  obtain ⟨fuel, given⟩ := exists_given_members fun place member at_ always =>
    exists_given noPatterns uniqueStrings (buildable.of_struct type at_ always)
  have satisfied {more : ℕ} {built : Value} (le : fuel ≤ more)
      (gives : Gives (generator.field false (generator.random false more) id place member) built) :
      generator.Satisfies built member.target (generator.constraint id place member.target) := by
    have given' : ∀ (place : ℕ) member, members[place]? = some member →
        member.isRequired = true ∨ generator.idempotencyToken id place = true → generator.Given more member.target :=
      fun place member at_ always => (given place member at_ always).mono le
    obtain ⟨values, at', gave⟩ := exists_gives_struct type (exists_field noPatterns given') at_ gives
    have whole := all (more + 1) id _ gave
    simp only [Satisfies, type, ShapeType.struct.injEq, forall_eq', fieldsSatisfy_iff] at whole
    exact whole place built (member, place) at' (by rw [List.getElem?_zipIdx, Nat.zero_add, at_, Option.map_some])
  constructor
  · intro buildable'
    apply expressionSound_of_forall noPatterns uniqueStrings buildable' (noPatterns.constraint id place member.target)
    intro more value gives
    have set :=
      satisfied (le_max_left fuel more)
        (gives_field.mpr (.inl ⟨value, gives_expression_more (le_max_right fuel more) gives, rfl⟩))
    exact satisfies_moved.mp set
  · intro unset isPlain
    have left_ := satisfied le_rfl (gives_field.mpr (.inr ⟨unset, rfl⟩))
    rwa [isPlain, Bool.not_true, if_neg Bool.false_ne_true] at left_

theorem listSound_of_forall (noPatterns : NoPatterns generator) (uniqueStrings : UniqueStrings generator)
    (all : generator.AllSatisfied)
    {element : Member Id} {sparse : Bool} (type : (generator.model.shape id).type = .list element sparse) :
    generator.ListSound id element sparse := by
  have close := close_containerSizes generator id
  -- What holds of a list of any items that may be at their places.
  have satisfied {fuel : ℕ} {items : List Value} (least : (generator.containerSizes id).min ≤ items.length)
      (most : items.length ≤ (generator.containerSizes id).max)
      (each : ∀ (place : ℕ) item, items[place]? = some item →
        Gives (generator.listItem false (generator.random false fuel) id element sparse
          (generator.hasEffective id) place) item) :
      ((generator.traits id).uniqueItems = true → items.Nodup) ∧
        ∀ item ∈ items, generator.Satisfies item element.target (generator.constraint id 0 element.target) := by
    have whole := all (fuel + 1) id _ ((gives_listBuilder type).mpr ⟨items, least, most, each, rfl⟩)
    simp only [Satisfies, type, ShapeType.list.injEq, and_imp, allSatisfy_iff] at whole
    exact ⟨whole.2.1, whole.2.2 element sparse rfl rfl⟩
  rw [ListSound]
  cases unique : generator.hasEffective id with
  | true =>
    have string := uniqueStrings.string type unique
    have asked := uniqueStrings.hasEffective id ▸ unique
    simp only [unique, gives_listItem_unique string (noPatterns.constraint id 0 element.target)] at satisfied
    rw [if_pos rfl]
    have bounds := close_stringSize (generator.constraint id 0 element.target).length
    -- The lists of strings whose texts may be at their places.
    have strings {texts : List Bytes}
        (indexed : Indexed (stringSize (generator.constraint id 0 element.target).length) texts)
        (length : texts.length = (generator.containerSizes id).max) :
        texts.Nodup ∧ ∀ text ∈ texts, (generator.constraint id 0 element.target).AdmitsLength (utf8CodePointCount text) := by
      have both :=
        @satisfied 0 (texts.map fun text => moved sparse (.string text)) (by rw [List.length_map, length]; exact close.le)
        (by rw [List.length_map, length]) fun place item at_ => by
          rw [List.getElem?_map] at at_
          obtain ⟨text, inside, rfl⟩ := Option.map_eq_some_iff.mp at_
          obtain ⟨base, drawn, rfl⟩ := indexed place text inside
          exact .inr ⟨base, drawn, rfl⟩
      refine ⟨(both.1 asked).of_map, fun text member => ?_⟩
      have one := both.2 _ (List.mem_map_of_mem member)
      rwa [satisfies_moved, Satisfies] at one
    have admits {base : Bytes} (drawn : Drawn (stringSize (generator.constraint id 0 element.target).length) base)
        {place : ℕ}
        (inside : place < (generator.containerSizes id).max) :
        (generator.constraint id 0 element.target).AdmitsLength (base.length + (decimal place).length) := by
      obtain ⟨texts, indexed, length, at_⟩ := exists_indexed drawn inside
      exact drawn.count_append place ▸ (strings indexed length).2 _ (List.mem_of_getElem? at_)
    refine ⟨?_, ?_, ?_⟩
    · rintro rfl
      have absent := @satisfied 0 (List.replicate (generator.containerSizes id).max .nullopt)
        (by rw [List.length_replicate]; exact close.le) (by rw [List.length_replicate])
        fun place item at_ => .inl ⟨rfl, List.eq_of_mem_replicate (List.mem_of_getElem? at_)⟩
      exact List.nodup_replicate.mp (absent.1 asked)
    · by_contra apart
      rw [not_or, not_le] at apart
      obtain ⟨texts, indexed, length, twice⟩ := exists_indexed_not_nodup apart.1 (lt_of_le_of_ne bounds.le apart.2)
      exact twice (strings indexed length).1
    · exact suffixedAdmitted_of_forall bounds.le
          (le_trans (one_le_containerSizes generator id) close.le) fun _ _ drawn inside =>
        admits drawn inside
  | false =>
    rw [if_neg Bool.false_ne_true]
    intro buildable
    apply expressionSound_of_forall noPatterns uniqueStrings buildable (noPatterns.constraint id 0 element.target)
    intro fuel value gives
    have both := @satisfied fuel (List.replicate (generator.containerSizes id).min (moved sparse value))
      (by rw [List.length_replicate]) (by rw [List.length_replicate]; exact close.le) fun place item at_ => by
        rw [List.eq_of_mem_replicate (List.mem_of_getElem? at_), unique]
        exact gives_listItem_plain.mpr (.inr ⟨value, gives, rfl⟩)
    have some_ : (generator.containerSizes id).min ≠ 0 := Nat.one_le_iff_ne_zero.mp (one_le_containerSizes generator id)
    exact satisfies_moved.mp (both.2 _ (List.mem_replicate.mpr ⟨some_, rfl⟩))

theorem mapSound_of_forall (noPatterns : NoPatterns generator) (uniqueStrings : UniqueStrings generator)
    (all : generator.AllSatisfied)
    (buildable : generator.Buildable id) {key item : Member Id} {sparse : Bool}
    (type : (generator.model.shape id).type = .map key item sparse) : generator.MapSound id key item := by
  have close := close_containerSizes generator id
  have bounds := close_keySize (generator.constraint id 0 key.target).length
  have one : 1 ≤ (generator.containerSizes id).max := le_trans (one_le_containerSizes generator id) close.le
  obtain ⟨fuel, given⟩ := exists_given noPatterns uniqueStrings (buildable.of_map type)
  obtain ⟨some_, gave⟩ := given _ (noPatterns.constraint id 1 item.target)
  have satisfied {base : Bytes} (drawn : Drawn (keySize (generator.constraint id 0 key.target).length) base) {place : ℕ}
      (inside : place < (generator.containerSizes id).max) :
      KeySatisfies (generator.constraint id 0 key.target) (generator.model.shape key.target).type
        (base ++ decimal place) := by
    obtain ⟨texts, indexed, length, at_⟩ := exists_indexed drawn inside
    obtain ⟨members, gives, -, keys, -⟩ := exists_gives_map type noPatterns indexed (length ▸ close.le) length.le gave
    have whole := all (fuel + 1) id _ gives
    simp only [Satisfies, type, ShapeType.map.injEq, and_imp] at whole
    exact (whole.2 key item sparse rfl rfl rfl).1 _ (keys _ (List.mem_of_getElem? at_))
  refine ⟨?_, ?_, ?_⟩
  · exact suffixedAdmitted_of_forall bounds.le one fun base place drawn inside =>
      drawn.count_append place ▸ (satisfied drawn inside).1
  · exact fun values enum base place drawn inside => (satisfied drawn inside).2 values enum
  · intro buildable'
    apply expressionSound_of_forall noPatterns uniqueStrings buildable' (noPatterns.constraint id 1 item.target)
    intro more value gives
    obtain ⟨texts, indexed, length, nodup⟩ := exists_indexed_nodup bounds.le (generator.containerSizes id).max
    obtain ⟨members, gave, count, -, same⟩ := exists_gives_map type noPatterns indexed (length ▸ close.le) length.le gives
    have whole := all (more + 1) id _ gave
    simp only [Satisfies, type, ShapeType.map.injEq, and_imp, valuesSatisfy_iff] at whole
    rw [nodup.dedup, length] at count
    obtain ⟨entry, rest, rfl⟩ := List.exists_cons_of_length_pos (count ▸ one : 0 < members.length)
    have first := (whole.2 key item sparse rfl rfl rfl).2 entry List.mem_cons_self
    rw [same entry List.mem_cons_self] at first
    exact satisfies_moved.mp first

theorem sound_of_forall (noPatterns : NoPatterns generator) (uniqueStrings : UniqueStrings generator)
    (all : generator.AllSatisfied) :
    generator.Sound := by
  intro id aggregate buildable
  constructor
  · apply expressionSound_of_forall noPatterns uniqueStrings buildable (noPatterns.shapes id)
    intro fuel value gives
    rw [expression_of_aggregate aggregate] at gives
    exact all fuel id value gives
  · cases type : (generator.model.shape id).type <;> simp only
    case struct members => exact fun place member at_ =>
      structSound_of_forall noPatterns uniqueStrings all buildable type at_
    case union members discriminated =>
      intro place member small at_ buildable'
      apply expressionSound_of_forall noPatterns uniqueStrings buildable' (noPatterns.constraint id place member.target)
      intro fuel value gives
      have built : Gives (generator.writeBuilder false (generator.random false fuel) id) (.alternative place value) := by
        rw [writeBuilder, type]
        exact gives_alternative.mpr ⟨place, member, value, small, at_, gives, rfl⟩
      have whole := all (fuel + 1) id _ built
      simp only [Satisfies, type, ShapeType.union.injEq, and_imp] at whole
      exact whole members discriminated member rfl rfl at_
    case list element sparse => exact listSound_of_forall noPatterns uniqueStrings all type
    case map key item sparse => exact mapSound_of_forall noPatterns uniqueStrings all buildable type

end Needed

/-- Whether a number is one of the type. -/
def Numeric (type : ShapeType Id) (number : ℚ) : Prop :=
  match type with
  | .byte => ∃ value : Int8, number = value.toInt
  | .short => ∃ value : Int16, number = value.toInt
  | .integer | .intEnum => ∃ value : Int32, number = value.toInt
  | .long => ∃ value : Int64, number = value.toInt
  | .float => ∃ value : Binary32, value.toBinary64.value? = some number
  | .double => ∃ value : Binary64, value.value? = some number
  | _ => True

/-- The targets of the members of a shape, in their places. -/
def memberTargets (id : Id) : List Id :=
  match (generator.model.shape id).type with
  | .struct members | .union members _ => members.map Member.target
  | .list element _ => [element.target]
  | .map key value _ => [key.target, value.target]
  | _ => []

/-- Every length and every range has something in it. -/
structure Admissible : Prop where
  lengths : ∀ id, ∀ trait ∈ (generator.traits id).length, ∃ n, trait.Admits n
  memberLengths : ∀ id place, ∀ trait ∈ (generator.memberTraits id place).length, ∃ n, trait.Admits n
  ranges : ∀ id, ∀ trait ∈ (generator.traits id).range, ∃ number,
    Numeric (generator.model.shape id).type number ∧ trait.Admits number
  memberRanges : ∀ id place target, (generator.memberTargets id)[place]? = some target →
    ∀ trait ∈ (generator.memberTraits id place).range, ∃ number,
      Numeric (generator.model.shape target).type number ∧ trait.Admits number

end RandomValueGenerator

inductive RegionId where
  | regions | code | open_

def regionShape : RegionId → Typed.Shape RegionId
  | .regions => { type := .map { target := .code, memberName := [] } { target := .open_, memberName := [] } false }
  | .code => { type := .string }
  | .open_ => { type := .boolean }

/-- At most one flag, under a code of three characters or some more. -/
def codedRegions (longest : ℕ) : RandomValueGenerator RegionId where
  model :=
    { shape := regionShape
      stringKeys := by
        rintro (_ | _ | _) key value sparse ⟨⟩
        exact .inl rfl
      grounded := Typed.Model.grounded_of_optional (by rintro (_ | _ | _) members ⟨⟩) }
  traits
    | .regions => { length := some { max := some 1 } }
    | .code => { length := some { min := some 3, max := some longest } }
    | .open_ => {}
  memberTraits _ _ := {}
  idempotencyToken _ _ := false
  intEnumValues _ := []
  find _ _ := none
  keyFirst := true

/-- The codes have three characters. -/
def regions : RandomValueGenerator RegionId := codedRegions 3

namespace RandomValueGenerator

theorem codedRegions_noPatterns (longest : ℕ) : (codedRegions longest).NoPatterns where
  shapes := by
    rintro (_ | _ | _)
    all_goals rfl
  members _ _ := rfl

theorem codedRegions_uniqueStrings (longest : ℕ) : (codedRegions longest).UniqueStrings where
  lists := by
    rintro (_ | _ | _) ⟨⟩
  members _ _ := rfl

/-- With a fourth character there is room for the digit. -/
theorem codedRegions_sound : (codedRegions 4).Sound := by
  intro id aggregate _
  cases id with
  | code | open_ => exact aggregate.elim
  | regions =>
    refine ⟨⟨?_, ?_⟩, ?_, ?_, ?_⟩
    · rintro _ ⟨⟩
      refine ⟨?_, ?_⟩
      · rintro _ ⟨⟩
      · rintro _ ⟨⟩
        exact fewestKeys_le_self (by decide) 1
    · rintro _ ⟨⟩
      exact ⟨by rintro _ ⟨⟩, by rintro _ ⟨⟩; decide⟩
    · constructor
      · rintro _ ⟨⟩
        exact ⟨by rintro _ ⟨⟩; decide, by rintro _ ⟨⟩; decide⟩
      · rintro _ ⟨⟩
        exact ⟨by rintro _ ⟨⟩; decide, by rintro _ ⟨⟩; decide⟩
    · rintro _ ⟨⟩
    · exact fun _ => trivial

theorem regions_admissible : regions.Admissible where
  lengths := by
    rintro (_ | _ | _) _ ⟨⟩
    · refine ⟨1, ?_, ?_⟩
      · rintro _ ⟨⟩
      · rintro _ ⟨⟩
        exact le_rfl
    · refine ⟨3, ?_, ?_⟩
      · rintro _ ⟨⟩
        exact le_rfl
      · rintro _ ⟨⟩
        exact le_rfl
  memberLengths := by
    rintro _ _ _ ⟨⟩
  ranges := by
    rintro (_ | _ | _) _ ⟨⟩
  memberRanges := by
    rintro _ _ _ _ _ ⟨⟩

theorem exists_regions_run {State : Type} (engine : State → UInt32 × State) (state : State) (fillAll : Bool) :
    ∃ value rest, (regions.random fillAll 1 .regions).run engine state = some (value, rest) := by
  cases fillAll
  · exact ⟨_, _, rfl⟩
  · exact ⟨_, _, rfl⟩

/-- The digit behind a key makes it a character too long. -/
theorem regions_not_satisfies {fillAll : Bool} {value : Value} (gives : Gives (regions.random fillAll 1 .regions) value) :
    ¬ regions.Satisfies value .regions (regions.traits .regions) := by
  have built : Gives (regions.writeBuilder false (regions.random false 0) .regions) value :=
    gives_random_mono regions le_rfl gives
  obtain ⟨texts, members, indexed, least, -, count, each, rfl⟩ :=
    exists_indexed_of_gives rfl (codedRegions_noPatterns 3) built
  intro satisfied
  simp only [Satisfies] at satisfied
  have keys := (satisfied.2 _ _ _ rfl).1
  have one : 0 < texts.length := least
  have some_ : 0 < members.length := by
    rw [count]
    exact List.length_pos_of_mem (List.mem_dedup.mpr (List.getElem_mem one))
  obtain ⟨entry, rest, rfl⟩ := List.exists_cons_of_length_pos some_
  obtain ⟨place, at_⟩ := List.mem_iff_getElem?.mp (each entry List.mem_cons_self).1
  obtain ⟨base, drawn, same⟩ := indexed place entry.1 at_
  have admitted := (keys entry.1 (List.mem_map_of_mem List.mem_cons_self)).1
  rw [same, drawn.count_append] at admitted
  have three : 3 ≤ base.length := drawn.least
  have digits := List.length_pos_of_ne_nil (Decimal.decimal_ne_nil place)
  have most : base.length + (decimal place).length ≤ 3 := (admitted _ rfl).2 3 rfl
  omega

end RandomValueGenerator

end OpalCpp.Codegen

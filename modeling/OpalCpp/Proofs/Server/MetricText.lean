import OpalCpp.Machine.Exposition
import OpalCpp.Model.Server.Metrics

/-! # The text of metrics

What the registry writes is text of the exposition format: labels, samples and headers are those of the
format, labels that are rendered have ascending names, and numbers are told apart by their texts.
-/

namespace OpalCpp.Server.Metrics

open scoped Bytes
open Bytes (ascii)
open Decimal (decimal)
open Exposition (Line SameLabels labelsText newline quote backslash comma write)

/-! ## Numbers -/

def plainBytes : Bytes := ascii "0123456789.+-e"

/-- What is known of the conversions of the C library: the bytes of a finite number, and that seventeen
digits are read back. -/
structure NumberText.Documented (library : NumberText) : Prop where
  fixed : ∀ value, value.value?.isSome → ∀ c ∈ library.fixed value, c ∈ plainBytes
  general : ∀ digits value, value.value?.isSome → ∀ c ∈ library.general digits value, c ∈ plainBytes
  exact : ∀ value, value.value?.isSome →
    fits (library.general 17 value) = true ∧ (library.strtod (library.general 17 value)).equals value = true

theorem finite_iff {value : Binary64} : value.value?.isSome ↔ value.isInfinite = false ∧ value.isNaN = false := by
  rw [Binary64.isInfinite, Binary64.isNaN, decide_eq_false_iff_not, decide_eq_false_iff_not]
  by_cases large : 2047 * 2 ^ 52 ≤ value.code
  · simp only [Binary64.value?, if_pos large, Option.isSome_none, Bool.false_eq_true, false_iff]
    omega
  · simp only [Binary64.value?, if_neg large, Option.isSome_some, true_iff]
    omega

theorem trimZeros_subset (text : Bytes) : trimZeros text ⊆ text := by
  have trimmed : text.rdropWhile (· = '0'.toUInt8) ⊆ text := (List.rdropWhile_prefix _ _).subset
  rw [trimZeros]
  split
  · dsimp only
    split
    · exact fun c member => trimmed (List.dropLast_subset _ member)
    · exact trimmed
  · exact fun c member => member

section Numbers

variable {library : NumberText} (documented : library.Documented) {value : Binary64} (finite : value.value?.isSome)

include documented finite

/-- A finite number is written with plain bytes, and its text is read back. -/
theorem formatNumber_finite :
    (∀ c ∈ formatNumber library value, c ∈ plainBytes) ∧
      (library.strtod (formatNumber library value)).equals value = true := by
  obtain ⟨notInfinite, notNaN⟩ := finite_iff.mp finite
  obtain ⟨short, back⟩ := documented.exact value finite
  rw [formatNumber]
  simp only [notInfinite, notNaN, Bool.false_eq_true, ↓reduceIte]
  split_ifs with plain
  · simp only [Bool.and_eq_true] at plain
    exact ⟨fun c member => documented.fixed value finite c (trimZeros_subset _ member), plain.2⟩
  · -- The last of the three forms is read back, so that one of them is found.
    cases found : ([15, 16, 17].map fun digits => library.general digits value).find? fun written =>
        fits written && (library.strtod written).equals value with
    | none =>
      have none_ := List.find?_eq_none.mp found (library.general 17 value) (by simp)
      simp [short, back] at none_
    | some written =>
      have reads := List.find?_some found
      obtain ⟨digits, _, rfl⟩ := List.mem_map.mp (List.mem_of_find?_eq_some found)
      simp only [Bool.and_eq_true] at reads
      exact ⟨documented.general digits value finite, reads.2⟩

end Numbers

/-- Numbers with one text are equal. -/
theorem value?_eq_of_formatNumber {library : NumberText} (documented : library.Documented) {first second : Binary64}
    (finite : first.value?.isSome) (finite' : second.value?.isSome)
    (same : formatNumber library first = formatNumber library second) : first.value? = second.value? := by
  have back := (formatNumber_finite documented finite).2
  have back' := (formatNumber_finite documented finite').2
  rw [← same] at back'
  obtain ⟨x, isFirst⟩ := Option.isSome_iff_exists.mp finite
  obtain ⟨y, isSecond⟩ := Option.isSome_iff_exists.mp finite'
  rw [Binary64.equals, isFirst] at back
  rw [Binary64.equals, isSecond] at back'
  cases read : (library.strtod (formatNumber library first)).value? with
  | none => simp [read] at back
  | some number =>
    simp only [read, decide_eq_true_eq] at back back'
    rw [isFirst, isSecond, ← back, ← back']

theorem newline_notMem_formatNumber {library : NumberText} (documented : library.Documented) (value : Binary64) :
    newline ∉ formatNumber library value := by
  by_cases finite : value.value?.isSome
  · exact fun member => absurd ((formatNumber_finite documented finite).1 newline member) (by decide)
  · rw [finite_iff, not_and_or, Bool.not_eq_false, Bool.not_eq_false] at finite
    rw [formatNumber]
    obtain infinite | nan := finite
    · simp only [infinite, ↓reduceIte]
      split_ifs <;> decide
    · have notInfinite : value.isInfinite = false := by
        rw [Binary64.isNaN, decide_eq_true_eq] at nan
        rw [Binary64.isInfinite, decide_eq_false_iff_not]
        omega
      simp only [notInfinite, nan, Bool.false_eq_true, ↓reduceIte]
      decide

theorem newline_notMem_decimal (number : ℕ) : newline ∉ decimal number :=
  fun member => absurd (Decimal.isDigit_of_mem_decimal newline member) (by decide)

theorem newline_notMem_signed (number : ℤ) : newline ∉ signed number := by
  rw [signed]
  split_ifs
  · rw [List.mem_cons, not_or]
    exact ⟨by decide, newline_notMem_decimal _⟩
  · exact newline_notMem_decimal _

/-! ## Names and labels -/

theorem isNameByte_of_start {allowColon : Bool} {c : UInt8} (start : isNameStart allowColon c = true) :
    Exposition.isNameByte c = true := by
  simp only [isNameStart, Bool.or_eq_true, Bool.and_eq_true, decide_eq_true_eq] at start
  simp only [Exposition.isNameByte, Bool.or_eq_true, Bool.and_eq_true, decide_eq_true_eq]
  obtain ((underscore | lower) | upper) | ⟨_, colon⟩ := start
  · exact .inr underscore
  · exact .inl (.inl (.inl lower))
  · exact .inl (.inl (.inr upper))
  · subst colon
    exact .inl (.inr (by decide))

theorem isNameByte_of_digit {c : UInt8} (digit : Decimal.isDigit c = true) : Exposition.isNameByte c = true := by
  simp only [Decimal.isDigit, Bool.and_eq_true, decide_eq_true_eq] at digit
  simp only [Exposition.isNameByte, Bool.or_eq_true, Bool.and_eq_true, decide_eq_true_eq]
  exact .inl (.inr ⟨digit.1, UInt8.le_trans digit.2 (by decide)⟩)

theorem isName_of_validName {name : Bytes} {allowColon : Bool} (valid : validName name allowColon = true) :
    Exposition.IsName name := by
  cases name with
  | nil => cases valid
  | cons first rest =>
    rw [validName, Bool.and_eq_true, List.all_eq_true] at valid
    refine ⟨List.cons_ne_nil _ _, ?_⟩
    intro c member
    obtain rfl | later := List.mem_cons.mp member
    · exact isNameByte_of_start valid.1
    · have either := valid.2 c later
      rw [Bool.or_eq_true] at either
      obtain start | digit := either
      · exact isNameByte_of_start start
      · exact isNameByte_of_digit digit

theorem escapeLabel_eq (value : Bytes) : escapeLabel value = Exposition.escape true value := by
  apply congrArg (fun f => value.flatMap f)
  funext c
  simp only [Exposition.escapeByte, Bool.true_and, decide_eq_true_eq]
  rfl

theorem escapeHelp_eq (help : Bytes) : escapeHelp help = Exposition.escape false help := by
  apply congrArg (fun f => help.flatMap f)
  funext c
  simp only [Exposition.escapeByte, Bool.false_and, Bool.false_eq_true, ↓reduceIte]
  rfl

theorem labelText_eq (label : Bytes × Bytes) : labelText label = Exposition.labelText label := by
  rw [labelText, escapeLabel_eq]
  rfl

/-- The labels of a series: names that ascend, and none of a histogram that is the one of the buckets. -/
structure SeriesLabels (histogram : Bool) (labels : MetricLabels) : Prop where
  ascending : labels.Pairwise fun first second => first.1 < second.1
  named : ∀ label ∈ labels, Exposition.IsName label.1
  bucket : histogram = true → ∀ label ∈ labels, label.1 ≠ ascii "le"

/-- There is one order for the labels of a series. -/
theorem SeriesLabels.eq_of_same {histogram : Bool} {first second : MetricLabels} (series : SeriesLabels histogram first)
    (series' : SeriesLabels histogram second) (same : SameLabels first second) : first = second := by
  have asymmetric : Std.Asymm fun first second : Bytes × Bytes => first.1 < second.1 := ⟨fun _ _ => lt_asymm⟩
  exact same.1.antisymm_of_pairwise series.ascending series'.ascending same.2

theorem renderSorted_ok {histogram : Bool} {previous : Option Bytes} {out text : Bytes} {labels : MetricLabels}
    (rendered : renderSorted histogram previous out labels = .ok text)
    (sorted : labels.Pairwise fun first second => first.1 ≤ second.1) :
    SeriesLabels histogram labels ∧ (∀ label ∈ labels.head?, previous ≠ some label.1) ∧
      ∀ before, out = labelsText before → text = labelsText (before ++ labels) := by
  induction labels generalizing previous out with
  | nil =>
    cases rendered
    exact ⟨⟨.nil, by simp, by simp⟩, by simp, fun before same => by rw [List.append_nil, same]⟩
  | cons label labels ih =>
    obtain ⟨least, sorted⟩ := List.pairwise_cons.mp sorted
    rw [renderSorted] at rendered
    generalize extended : (if out = [] then [] else out ++ [','.toUInt8]) ++ labelText (label.1, label.2) = next at rendered
    split_ifs at rendered with invalid duplicate reserved
    · cases rendered
    · cases rendered
    · cases rendered
    · obtain ⟨series, differs, texts⟩ := ih rendered sorted
      have valid : validName label.1 false = true := by simpa using invalid
      refine ⟨⟨List.pairwise_cons.mpr ⟨?_, series.ascending⟩, ?_, ?_⟩, ?_, ?_⟩
      · -- The next name is another one, and the later ones are not below it.
        intro other member
        cases labels with
        | nil => cases member
        | cons next labels =>
          have above : label.1 < next.1 :=
            lt_of_le_of_ne (least next List.mem_cons_self) fun same => differs next rfl (congrArg some same)
          obtain rfl | later := List.mem_cons.mp member
          · exact above
          · exact lt_trans above ((List.pairwise_cons.mp series.ascending).1 other later)
      · exact List.forall_mem_cons.mpr ⟨isName_of_validName valid, series.named⟩
      · intro isHistogram
        refine List.forall_mem_cons.mpr ⟨?_, series.bucket isHistogram⟩
        simpa [isHistogram] using reserved
      · intro first isFirst
        obtain rfl : label = first := by simpa using isFirst
        exact duplicate
      · intro before same
        have written : next = labelsText (before ++ [label]) := by
          subst same
          rw [← extended, labelText_eq]
          obtain rfl | some_ := eq_or_ne before []
          · rfl
          · have written : labelsText before ≠ [] := fun empty => some_ (Exposition.labelsText_eq_nil.mp empty)
            rw [Exposition.labelsText_concat some_, if_neg written, List.append_assoc]
            rfl
        rw [texts (before ++ [label]) written, List.append_assoc]
        rfl

/-- The text is that of the labels of a series. -/
def Rendered (histogram : Bool) (text : Bytes) : Prop := ∃ labels, SeriesLabels histogram labels ∧ text = labelsText labels

/-- The labels in the order in which they are rendered. -/
def sortedLabels (labels : MetricLabels) : MetricLabels := labels.insertionSort fun a b => a.1 ≤ b.1

theorem renderLabels_sorted {labels : MetricLabels} {histogram : Bool} {text : Bytes}
    (rendered : renderLabels labels histogram = .ok text) :
    SeriesLabels histogram (sortedLabels labels) ∧ text = labelsText (sortedLabels labels) := by
  have total : Std.Total fun first second : Bytes × Bytes => first.1 ≤ second.1 := ⟨fun _ _ => le_total _ _⟩
  have transitive : IsTrans (Bytes × Bytes) fun first second => first.1 ≤ second.1 := ⟨fun _ _ _ => le_trans⟩
  obtain ⟨series, _, texts⟩ := renderSorted_ok rendered (List.pairwise_insertionSort _ labels)
  exact ⟨series, texts [] rfl⟩

theorem renderLabels_ok {labels : MetricLabels} {histogram : Bool} {text : Bytes}
    (rendered : renderLabels labels histogram = .ok text) : Rendered histogram text :=
  ⟨_, renderLabels_sorted rendered⟩

/-- Different texts are those of different labels. -/
theorem Rendered.parseLabels {histogram : Bool} {text : Bytes} (rendered : Rendered histogram text) :
    SeriesLabels histogram (Exposition.parseLabels text) ∧ text = labelsText (Exposition.parseLabels text) := by
  obtain ⟨labels, series, rfl⟩ := rendered
  rw [Exposition.parseLabels_text series.named]
  exact ⟨series, rfl⟩

/-! ## Lines -/

theorem sampleLine_eq (name suffix value : Bytes) (labels : MetricLabels) :
    sampleLine name suffix (labelsText labels) value = write [.sample (name ++ suffix) labels value] := by
  rw [Exposition.write_sample, sampleLine, braced]
  simp only [List.append_assoc]
  rfl

theorem familyHeader_eq (name type help : Bytes) :
    familyHeader name type help = write [.help name help, .type name type] := by
  rw [familyHeader, escapeHelp_eq]
  simp only [write, List.flatMap_cons, List.flatMap_nil, Line.text, List.append_assoc, List.append_nil, List.cons_append,
    List.nil_append]
  rfl

/-- A text without a quote, a backslash and a line end is not changed. -/
theorem escape_of_plain {text : Bytes} (plain : ∀ c ∈ text, c ≠ quote ∧ c ≠ backslash ∧ c ≠ newline) :
    Exposition.escape true text = text := by
  induction text with
  | nil => rfl
  | cons c text ih =>
    obtain ⟨notQuote, notBackslash, notNewline⟩ := plain c List.mem_cons_self
    have rest := ih fun other member => plain other (List.mem_cons_of_mem _ member)
    rw [Exposition.escape] at rest
    rw [Exposition.escape, List.flatMap_cons, rest, Exposition.escapeByte]
    simp [notQuote, notBackslash, notNewline]

theorem bucketLabels_eq {bound : Bytes} (plain : ∀ c ∈ bound, c ≠ quote ∧ c ≠ backslash ∧ c ≠ newline)
    (labels : MetricLabels) :
    MetricsRegistry.bucketLabels (labelsText labels) bound = labelsText (labels ++ [(ascii "le", bound)]) := by
  have label : ascii "le=\"" ++ (bound ++ ascii "\"") = Exposition.labelText (ascii "le", bound) := by
    rw [Exposition.labelText, escape_of_plain plain]
    rfl
  rw [MetricsRegistry.bucketLabels, List.append_assoc, List.append_assoc, label]
  obtain rfl | some_ := eq_or_ne labels []
  · rfl
  · have written : labelsText labels ≠ [] := fun empty => some_ (Exposition.labelsText_eq_nil.mp empty)
    rw [Exposition.labelsText_concat some_, if_neg written, List.append_assoc]
    rfl

theorem builtInLabels_eq (registry : MetricsRegistry) (labels : MetricLabels) :
    registry.builtInLabels labels = labelsText ((kServiceLabel, registry.options.serviceName) :: labels) := by
  have fold (before : MetricLabels) (some_ : before ≠ []) :
      labels.foldl (fun out label => out ++ ','.toUInt8 :: labelText label) (labelsText before) =
        labelsText (before ++ labels) := by
    induction labels generalizing before with
    | nil => rw [List.append_nil, List.foldl_nil]
    | cons label labels ih =>
      have next : labelsText before ++ ','.toUInt8 :: labelText label = labelsText (before ++ [label]) := by
        rw [Exposition.labelsText_concat some_, labelText_eq]
        rfl
      rw [List.foldl_cons, next, ih _ (by simp), List.append_assoc]
      rfl
  have first := fold [(kServiceLabel, registry.options.serviceName)] (List.cons_ne_nil _ _)
  rw [MetricsRegistry.builtInLabels, labelText_eq]
  exact first

end OpalCpp.Server.Metrics

import Mathlib.Data.List.Basic
import Mathlib.Data.List.Pairwise
import Mathlib.Data.List.TakeWhile
import Mathlib.Data.UInt
import OpalCpp.Machine.Utf8

/-! # The text exposition format

A scrape is a text of lines: a help text, a type or a sample, which has a name, labels in braces and a
value. A family is a type line and the samples that follow it. A scrape is refused as a whole when a
sample is there twice, when a family is, or when a sample stands under another family than its own.
-/

namespace OpalCpp

namespace Exposition

abbrev Text := List UInt8

/-- A literal of the format. -/
def literal (text : String) : Text := text.toList.map Char.toUInt8

inductive Line where
  | help (name text : Text)
  | type (name kind : Text)
  | sample (name : Text) (labels : List (Text × Text)) (value : Text)
deriving DecidableEq, Repr

def newline : UInt8 := 0x0A
def space : UInt8 := 0x20
def quote : UInt8 := 0x22
def comma : UInt8 := 0x2C
def equal : UInt8 := 0x3D
def backslash : UInt8 := 0x5C
def opened : UInt8 := 0x7B
def closed : UInt8 := 0x7D

/-- The bytes of names: letters, digits, the underscore and the colon. -/
def isNameByte (c : UInt8) : Bool :=
  (0x61 ≤ c && c ≤ 0x7A) || (0x41 ≤ c && c ≤ 0x5A) || (0x30 ≤ c && c ≤ 0x3A) || c = 0x5F

/-- A name is not empty. -/
def IsName (name : Text) : Prop := name ≠ [] ∧ ∀ c ∈ name, isNameByte c = true

/-! ## Reading -/

/-- The byte that an escape stands for. -/
def escaped (c : UInt8) : Option UInt8 :=
  if c = 0x6E then some newline else if c = backslash ∨ c = quote then some c else none

/-- A help text, to the end of its line; the flag says that a backslash is before it. -/
def unescape (pending : Bool) : Text → Option Text
  | [] => if pending then none else some []
  | c :: rest =>
    if pending then do return (← escaped c) :: (← unescape false rest)
    else if c = backslash then unescape true rest
    else (unescape false rest).map (c :: ·)

/-- The value of a label up to its closing quote, and what follows; the flag says that a backslash is
before it. -/
def readQuoted (pending : Bool) : Text → Option (Text × Text)
  | [] => none
  | c :: rest =>
    if pending then do
      let c ← escaped c
      (readQuoted false rest).map fun (value, after) => (c :: value, after)
    else if c = quote then some ([], rest)
    else if c = backslash then readQuoted true rest
    else (readQuoted false rest).map fun (value, after) => (c :: value, after)

/-- Labels up to the closing brace, and what follows. There are no more labels than the fuel. -/
def readLabels : ℕ → Text → Option (List (Text × Text) × Text)
  | 0, _ => none
  | fuel + 1, text =>
    let name := text.takeWhile isNameByte
    match text.dropWhile isNameByte with
    | first :: second :: rest =>
      if name = [] ∨ first ≠ equal ∨ second ≠ quote then none
      else do
        let (value, rest) ← readQuoted false rest
        match rest with
        | [] => none
        | next :: rest =>
          if next = closed then return ([(name, value)], rest)
          else if next = comma then do
            let (labels, rest) ← readLabels fuel rest
            return ((name, value) :: labels, rest)
          else none
    | _ => none

def readSample (line : Text) : Option Line :=
  let name := line.takeWhile isNameByte
  match line.dropWhile isNameByte with
  | [] => none
  | next :: rest =>
    if name = [] then none
    else if next = space then some (.sample name [] rest)
    else if next = opened then do
      let (labels, rest) ← readLabels rest.length rest
      match rest with
      | [] => none
      | next :: value => if next = space then some (.sample name labels value) else none
    else none

def readLine (line : Text) : Option Line :=
  if literal "# HELP " <+: line then
    let body := line.drop 7
    (unescape false (body.dropWhile isNameByte).tail).map (.help (body.takeWhile isNameByte))
  else if literal "# TYPE " <+: line then
    let body := line.drop 7
    some (.type (body.takeWhile isNameByte) (body.dropWhile isNameByte).tail)
  else readSample line

/-- The lines of a text, each of which has its end. -/
def linesOf : Text → Option (List Text)
  | [] => some []
  | c :: rest => do
    let lines ← linesOf rest
    if c = newline then return [] :: lines
    else
      match lines with
      | [] => none
      | line :: lines => return (c :: line) :: lines

def read (text : Text) : Option (List Line) := (linesOf text).bind fun lines => lines.mapM readLine

/-! ## Scrapes that are accepted -/

/-- The same labels, in whatever order. -/
def SameLabels (first second : List (Text × Text)) : Prop := first ⊆ second ∧ second ⊆ first

instance (first second : List (Text × Text)) : Decidable (SameLabels first second) :=
  inferInstanceAs (Decidable (first ⊆ second ∧ second ⊆ first))

/-- Two samples of one name and the same labels. -/
def Repeats : Line → Line → Prop
  | .sample name labels _, .sample name' labels' _ => name = name' ∧ SameLabels labels labels'
  | _, _ => False

instance : (first second : Line) → Decidable (Repeats first second)
  | .sample .., .sample .. => inferInstanceAs (Decidable (_ ∧ _))
  | .help .., _ => .isFalse id
  | .type .., _ => .isFalse id
  | .sample .., .help .. => .isFalse id
  | .sample .., .type .. => .isFalse id

/-- A name and a type. -/
abbrev Family := Text × Text

def family? : Line → Option Family
  | .type name kind => some (name, kind)
  | _ => none

def families (lines : List Line) : List Family := lines.filterMap family?

def suffixes : List Text := [literal "_bucket", literal "_sum", literal "_count"]

/-- The names of the samples of a family: its own, and those that a histogram adds. -/
def Owns (family : Family) (name : Text) : Prop :=
  name = family.1 ∨ family.2 = literal "histogram" ∧ ∃ suffix ∈ suffixes, name = family.1 ++ suffix

/-- Each sample stands under its family, the last that began, and belongs to no other. -/
def Attributed (all : List Family) (current : Option Family) : List Line → Prop
  | [] => True
  | .help _ _ :: lines => Attributed all current lines
  | .type name kind :: lines => Attributed all (some (name, kind)) lines
  | .sample name _ _ :: lines =>
    (∃ family, current = some family ∧ ∀ other ∈ all, Owns other name ↔ other = family) ∧ Attributed all current lines

/-- What a scrape must keep to be accepted. -/
structure WellFormed (lines : List Line) : Prop where
  samples : lines.Pairwise fun first second => ¬ Repeats first second
  families : ((families lines).map Prod.fst).Nodup
  attributed : Attributed (Exposition.families lines) none lines

/-! ## Writing -/

def escapeByte (quoted : Bool) (c : UInt8) : Text :=
  if c = backslash then [backslash, backslash]
  else if quoted && c = quote then [backslash, quote]
  else if c = newline then [backslash, 0x6E]
  else [c]

def escape (quoted : Bool) (text : Text) : Text := text.flatMap (escapeByte quoted)

def labelText (label : Text × Text) : Text := label.1 ++ [equal, quote] ++ escape true label.2 ++ [quote]

def labelsText : List (Text × Text) → Text
  | [] => []
  | [label] => labelText label
  | label :: labels => labelText label ++ comma :: labelsText labels

theorem labelsText_cons (first second : Text × Text) (labels : List (Text × Text)) :
    labelsText (first :: second :: labels) = labelText first ++ comma :: labelsText (second :: labels) := rfl

namespace Line

def text : Line → Text
  | help name text => literal "# HELP " ++ name ++ space :: escape false text
  | type name kind => literal "# TYPE " ++ name ++ space :: kind
  | sample name labels value =>
    name ++ (if labels = [] then [] else opened :: labelsText labels ++ [closed]) ++ space :: value

/-- The line is read back. -/
def Plain : Line → Prop
  | help name _ => ∀ c ∈ name, isNameByte c = true
  | type name kind => (∀ c ∈ name, isNameByte c = true) ∧ newline ∉ kind
  | sample name labels value => IsName name ∧ (∀ label ∈ labels, IsName label.1) ∧ newline ∉ value

end Line

def write (lines : List Line) : Text := lines.flatMap fun line => line.text ++ [newline]

/-! ## What is written is read -/

theorem readQuoted_escape (value rest : Text) :
    readQuoted false (escape true value ++ quote :: rest) = some (value, rest) := by
  induction value with
  | nil => rw [escape, List.flatMap_nil, List.nil_append, readQuoted, if_neg Bool.false_ne_true, if_pos rfl]
  | cons c value ih =>
    rw [escape] at ih
    rw [escape, List.flatMap_cons, List.append_assoc, escapeByte]
    split_ifs with isBackslash isQuote isNewline
    · subst isBackslash
      simp [readQuoted, ih, escaped, show backslash ≠ quote by decide, show backslash ≠ 0x6E by decide]
    · obtain rfl : c = quote := by simpa using isQuote
      simp [readQuoted, ih, escaped, show backslash ≠ quote by decide, show quote ≠ 0x6E by decide]
    · subst isNewline
      simp [readQuoted, ih, escaped, show backslash ≠ quote by decide]
    · have other : c ≠ quote := by simpa using isQuote
      rw [List.singleton_append, readQuoted, if_neg Bool.false_ne_true, if_neg other, if_neg isBackslash, ih]
      rfl

theorem unescape_escape (text : Text) : unescape false (escape false text) = some text := by
  induction text with
  | nil => rfl
  | cons c text ih =>
    rw [escape] at ih
    rw [escape, List.flatMap_cons, escapeByte]
    split_ifs with isBackslash isQuote isNewline
    · subst isBackslash
      simp [unescape, ih, escaped, show backslash ≠ 0x6E by decide]
    · simp at isQuote
    · subst isNewline
      simp [unescape, ih, escaped]
    · rw [List.singleton_append, unescape, if_neg Bool.false_ne_true, if_neg isBackslash, ih]
      rfl

/-- A name ends where a byte stands that names do not have. -/
theorem span_name {name : Text} (named : ∀ c ∈ name, isNameByte c = true) {next : UInt8} (ends : isNameByte next = false)
    (rest : Text) :
    (name ++ next :: rest).takeWhile isNameByte = name ∧ (name ++ next :: rest).dropWhile isNameByte = next :: rest := by
  rw [List.takeWhile_append_of_pos named, List.dropWhile_append_of_pos named, List.takeWhile_cons_of_neg (by simp [ends]),
    List.dropWhile_cons_of_neg (by simp [ends]), List.append_nil]
  exact ⟨rfl, rfl⟩

theorem readLabels_succ {label : Text × Text} (named : IsName label.1) (fuel : ℕ) (rest : Text) :
    readLabels (fuel + 1) (labelText label ++ closed :: rest) = some ([label], rest) ∧
      readLabels (fuel + 1) (labelText label ++ comma :: rest) =
        (readLabels fuel rest).map fun read => (label :: read.1, read.2) := by
  have text : ∀ after, labelText label ++ after = label.1 ++ equal :: quote :: (escape true label.2 ++ quote :: after) := by
    simp [labelText]
  have spans (after : Text) := span_name named.2 (by decide : isNameByte equal = false)
    (quote :: (escape true label.2 ++ quote :: after))
  constructor
  · rw [text, readLabels, (spans _).1, (spans _).2]
    simp [named.1, readQuoted_escape]
  · rw [text, readLabels, (spans _).1, (spans _).2]
    cases more : readLabels fuel rest <;> simp [named.1, readQuoted_escape, more, show comma ≠ closed by decide]

theorem readLabels_text {labels : List (Text × Text)} (some_ : labels ≠ []) (named : ∀ label ∈ labels, IsName label.1)
    {fuel : ℕ} (enough : labels.length ≤ fuel) (rest : Text) :
    readLabels fuel (labelsText labels ++ closed :: rest) = some (labels, rest) := by
  induction labels generalizing fuel with
  | nil => exact absurd rfl some_
  | cons label labels ih =>
    obtain ⟨fuel, rfl⟩ := Nat.exists_eq_succ_of_ne_zero (Nat.ne_of_gt (lt_of_lt_of_le (Nat.succ_pos _) enough))
    have first := named label List.mem_cons_self
    cases labels with
    | nil => exact (readLabels_succ first fuel rest).1
    | cons second labels =>
      have more := ih (List.cons_ne_nil _ _) (fun other member => named other (List.mem_cons_of_mem _ member))
        (Nat.le_of_succ_le_succ enough)
      rw [labelsText_cons, List.append_assoc, List.cons_append, (readLabels_succ first fuel _).2, more]
      rfl

theorem length_labels_le (labels : List (Text × Text)) : labels.length ≤ (labelsText labels).length := by
  induction labels with
  | nil => exact Nat.zero_le _
  | cons label labels ih =>
    cases labels with
    | nil =>
      rw [labelsText, labelText, List.length_append, List.length_singleton, List.length_singleton]
      omega
    | cons second labels =>
      rw [labelsText_cons, List.length_append, List.length_cons, List.length_cons (a := comma)]
      omega

theorem readSample_text {name value : Text} {labels : List (Text × Text)} (named : IsName name)
    (labelled : ∀ label ∈ labels, IsName label.1) :
    readSample (Line.sample name labels value).text = some (.sample name labels value) := by
  by_cases bare : labels = []
  · subst bare
    have spans := span_name named.2 (by decide : isNameByte space = false) value
    rw [Line.text, if_pos rfl, List.append_nil, readSample, spans.1, spans.2]
    simp [named.1]
  · have text : (Line.sample name labels value).text =
        name ++ opened :: (labelsText labels ++ closed :: space :: value) := by
      simp [Line.text, bare]
    have spans := span_name named.2 (by decide : isNameByte opened = false)
      (labelsText labels ++ closed :: space :: value)
    have enough : labels.length ≤ (labelsText labels ++ closed :: space :: value).length := by
      rw [List.length_append]
      exact le_trans (length_labels_le labels) (Nat.le_add_right _ _)
    rw [text, readSample, spans.1, spans.2]
    simp only [named.1, ↓reduceIte, show opened ≠ space by decide, readLabels_text bare labelled enough]
    simp

theorem readLine_text {line : Line} (plain : line.Plain) : readLine line.text = some line := by
  cases line with
  | help name text =>
    have spans := span_name plain (by decide : isNameByte space = false) (escape false text)
    rw [readLine, Line.text, if_pos (by rw [List.append_assoc]; exact List.prefix_append _ _), List.append_assoc]
    simp only [List.drop_left' (by decide : (literal "# HELP ").length = 7), spans, List.tail_cons, unescape_escape]
    rfl
  | type name kind =>
    have spans := span_name plain.1 (by decide : isNameByte space = false) kind
    have other : ¬ literal "# HELP " <+: literal "# TYPE " ++ name ++ space :: kind := by
      rintro ⟨rest, same⟩
      have third := congrArg (fun text => text[2]?) same
      simp [literal] at third
      revert third
      decide
    rw [readLine, Line.text, if_neg other, if_pos (by rw [List.append_assoc]; exact List.prefix_append _ _),
      List.append_assoc]
    simp only [List.drop_left' (by decide : (literal "# TYPE ").length = 7), spans, List.tail_cons]
  | sample name labels value =>
    obtain ⟨named, labelled, _⟩ := plain
    have isSample (keyword : Text) (hash : keyword = 0x23 :: keyword.tail) :
        ¬ keyword <+: (Line.sample name labels value).text := by
      obtain ⟨some_, bytes⟩ := named
      obtain ⟨c, name, rfl⟩ := List.exists_cons_of_ne_nil some_
      rw [hash]
      intro starts
      have same : (0x23 : UInt8) = c := (List.cons_prefix_cons.mp starts).1
      have isName := bytes c List.mem_cons_self
      rw [← same] at isName
      exact absurd isName (by decide)
    rw [readLine, if_neg (isSample _ rfl), if_neg (isSample _ rfl)]
    exact readSample_text named labelled

theorem linesOf_append {line : Text} (plain : newline ∉ line) (rest : Text) :
    linesOf (line ++ newline :: rest) = (linesOf rest).map (line :: ·) := by
  induction line with
  | nil =>
    rw [List.nil_append, linesOf]
    cases linesOf rest <;> rfl
  | cons c line ih =>
    rw [List.mem_cons, not_or] at plain
    rw [List.cons_append, linesOf, ih plain.2]
    cases linesOf rest with
    | none => rfl
    | some lines => simp [Ne.symm plain.1]

theorem newline_notMem_name {name : Text} (named : ∀ c ∈ name, isNameByte c = true) : newline ∉ name :=
  fun member => absurd (named newline member) (by decide)

theorem newline_notMem_escape (quoted : Bool) (text : Text) : newline ∉ escape quoted text := by
  intro member
  obtain ⟨c, _, member⟩ := List.mem_flatMap.mp member
  rw [escapeByte] at member
  split_ifs at member with isBackslash isQuote isNewline
  · exact absurd member (by decide)
  · exact absurd member (by decide)
  · exact absurd member (by decide)
  · exact isNewline (List.mem_singleton.mp member).symm

theorem newline_notMem_labels {labels : List (Text × Text)} (named : ∀ label ∈ labels, IsName label.1) :
    newline ∉ labelsText labels := by
  have label (label : Text × Text) (named : IsName label.1) : newline ∉ labelText label := by
    simp only [labelText, List.mem_append, not_or]
    exact ⟨⟨⟨newline_notMem_name named.2, by decide⟩, newline_notMem_escape true _⟩, by decide⟩
  induction labels with
  | nil => exact List.not_mem_nil
  | cons first labels ih =>
    have one := label first (named first List.mem_cons_self)
    cases labels with
    | nil => exact one
    | cons second labels =>
      have more := ih fun other member => named other (List.mem_cons_of_mem _ member)
      rw [labelsText_cons, List.mem_append, List.mem_cons, not_or, not_or]
      exact ⟨one, by decide, more⟩

theorem Line.newline_notMem {line : Line} (plain : line.Plain) : newline ∉ line.text := by
  cases line with
  | help name text =>
    simp only [Line.text, List.mem_append, List.mem_cons, not_or]
    exact ⟨⟨by decide, newline_notMem_name plain⟩, by decide, newline_notMem_escape false text⟩
  | type name kind =>
    simp only [Line.text, List.mem_append, List.mem_cons, not_or]
    exact ⟨⟨by decide, newline_notMem_name plain.1⟩, by decide, plain.2⟩
  | sample name labels value =>
    obtain ⟨named, labelled, short⟩ := plain
    simp only [Line.text, List.mem_append, List.mem_cons, not_or]
    refine ⟨⟨newline_notMem_name named.2, ?_⟩, by decide, short⟩
    split_ifs
    · exact List.not_mem_nil
    · simp only [List.mem_append, List.mem_cons, not_or]
      exact ⟨⟨by decide, newline_notMem_labels labelled⟩, by decide, List.not_mem_nil⟩

theorem linesOf_write {lines : List Line} (plain : ∀ line ∈ lines, line.Plain) :
    linesOf (write lines) = some (lines.map Line.text) := by
  induction lines with
  | nil => rfl
  | cons line lines ih =>
    have rest := ih fun other member => plain other (List.mem_cons_of_mem _ member)
    rw [write] at rest
    rw [write, List.flatMap_cons, List.append_assoc, List.singleton_append,
      linesOf_append (Line.newline_notMem (plain line List.mem_cons_self)), rest]
    rfl

/-- A text of plain lines is read as those lines. -/
theorem read_write {lines : List Line} (plain : ∀ line ∈ lines, line.Plain) : read (write lines) = some lines := by
  rw [read, linesOf_write plain, Option.bind_some]
  induction lines with
  | nil => rfl
  | cons line lines ih =>
    rw [List.map_cons, List.mapM_cons, readLine_text (plain line List.mem_cons_self),
      ih fun other member => plain other (List.mem_cons_of_mem _ member)]
    rfl

/-! ## Labels -/

theorem labelsText_eq_nil {labels : List (Text × Text)} : labelsText labels = [] ↔ labels = [] := by
  constructor
  · intro empty
    have short := length_labels_le labels
    rw [empty] at short
    exact List.length_eq_zero_iff.mp (Nat.le_zero.mp short)
  · rintro rfl
    rfl

theorem labelsText_concat {labels : List (Text × Text)} (some_ : labels ≠ []) (label : Text × Text) :
    labelsText (labels ++ [label]) = labelsText labels ++ comma :: labelText label := by
  induction labels with
  | nil => exact absurd rfl some_
  | cons first labels ih =>
    cases labels with
    | nil => rfl
    | cons second labels =>
      have rest := ih (List.cons_ne_nil _ _)
      rw [List.cons_append] at rest
      rw [List.cons_append, List.cons_append, labelsText_cons, rest, labelsText_cons, List.append_assoc, List.cons_append]

/-- The labels that a text between braces stands for. -/
def parseLabels (text : Text) : List (Text × Text) :=
  ((readLabels (text.length + 1) (text ++ [closed])).map Prod.fst).getD []

theorem parseLabels_text {labels : List (Text × Text)} (named : ∀ label ∈ labels, IsName label.1) :
    parseLabels (labelsText labels) = labels := by
  obtain rfl | some_ := eq_or_ne labels []
  · rfl
  · have enough := le_trans (length_labels_le labels) (Nat.le_succ _)
    rw [parseLabels, readLabels_text some_ named enough]
    rfl

theorem write_append (first second : List Line) : write (first ++ second) = write first ++ write second :=
  List.flatMap_append

theorem write_cons (line : Line) (lines : List Line) : write (line :: lines) = write [line] ++ write lines :=
  write_append [line] lines

theorem write_map {α : Type*} (line : α → Line) (items : List α) :
    write (items.map line) = items.flatMap fun item => write [line item] := by
  simp [write, List.flatMap_map]

theorem write_flatMap {α : Type*} (lines : α → List Line) (items : List α) :
    write (items.flatMap lines) = items.flatMap fun item => write (lines item) := List.flatMap_assoc

theorem write_sample (name : Text) (labels : List (Text × Text)) (value : Text) :
    write [.sample name labels value] =
      name ++ (if labelsText labels = [] then [] else opened :: labelsText labels ++ [closed]) ++ space :: value ++
        [newline] := by
  simp [write, Line.text, labelsText_eq_nil]

/-! ## Families written one after the other -/

/-- A sample by its name, its labels and its value. -/
structure Sample where
  name : Text
  labels : List (Text × Text)
  value : Text

namespace Sample

def line (sample : Sample) : Line := .sample sample.name sample.labels sample.value

/-- The line of a sample repeats that of another. -/
def Repeats (first second : Sample) : Prop := first.name = second.name ∧ SameLabels first.labels second.labels

end Sample

/-- A family with its help text and its samples. -/
structure Block where
  family : Family
  help : Text
  samples : List Sample

namespace Block

def lines (block : Block) : List Line :=
  .help block.family.1 block.help :: .type block.family.1 block.family.2 :: block.samples.map Sample.line

/-- The samples are those of the family, and none is there twice. -/
structure Sound (block : Block) : Prop where
  named : IsName block.family.1
  kind : newline ∉ block.family.2
  owned : ∀ sample ∈ block.samples, Owns block.family sample.name
  plain : ∀ sample ∈ block.samples, (∀ label ∈ sample.labels, IsName label.1) ∧ newline ∉ sample.value
  distinct : block.samples.Pairwise fun first second => ¬ first.Repeats second

end Block

theorem isName_append {name suffix : Text} (named : IsName name) (bytes : ∀ c ∈ suffix, isNameByte c = true) :
    IsName (name ++ suffix) := by
  refine ⟨fun empty => named.1 (List.append_eq_nil_iff.mp empty).1, ?_⟩
  intro c member
  obtain first | last := List.mem_append.mp member
  · exact named.2 c first
  · exact bytes c last

theorem isName_of_owns {family : Family} (named : IsName family.1) {name : Text} (owns : Owns family name) :
    IsName name := by
  obtain rfl | ⟨_, suffix, known, rfl⟩ := owns
  · exact named
  · have bytes : ∀ suffix ∈ suffixes, ∀ c ∈ suffix, isNameByte c = true := by decide
    exact isName_append named (bytes suffix known)

theorem Block.Sound.lines_plain {block : Block} (sound : block.Sound) : ∀ line ∈ block.lines, line.Plain := by
  intro line member
  obtain rfl | rfl | ⟨sample, inside, rfl⟩ : line = _ ∨ line = _ ∨ ∃ sample ∈ block.samples, sample.line = line := by
    simpa [Block.lines] using member
  · exact sound.named.2
  · exact ⟨sound.named.2, sound.kind⟩
  · exact ⟨isName_of_owns sound.named (sound.owned sample inside), sound.plain sample inside⟩

/-- No name of a sample is that of two families. -/
def Apart (first second : Family) : Prop := ∀ name, ¬ (Owns first name ∧ Owns second name)

theorem Apart.symm {first second : Family} (apart : Apart first second) : Apart second first :=
  fun name owns => apart name owns.symm

theorem owns_self (family : Family) : Owns family family.1 := .inl rfl

def linesOfBlocks (blocks : List Block) : List Line := blocks.flatMap Block.lines

theorem families_blocks (blocks : List Block) : families (linesOfBlocks blocks) = blocks.map Block.family := by
  induction blocks with
  | nil => rfl
  | cons block blocks ih =>
    have none_ : (block.samples.map Sample.line).filterMap family? = [] := by
      rw [List.filterMap_map]
      exact List.filterMap_eq_nil_iff.mpr fun sample _ => rfl
    rw [linesOfBlocks, families] at ih
    rw [linesOfBlocks, families, List.flatMap_cons, List.filterMap_append, ih, Block.lines, List.filterMap_cons_none rfl]
    change (block.family.1, block.family.2) :: (block.samples.map Sample.line).filterMap family? ++ _ = _
    rw [none_]
    rfl

/-- A line repeats another only as a sample repeats another. -/
theorem Sample.of_repeats_lines {block : Block} {line : Line} {first : Sample} (member : line ∈ block.lines)
    (repeats : Exposition.Repeats first.line line) :
    ∃ second ∈ block.samples, line = second.line ∧ first.Repeats second := by
  obtain rfl | rfl | ⟨second, inside, rfl⟩ : line = _ ∨ line = _ ∨ ∃ sample ∈ block.samples, sample.line = line := by
    simpa [Block.lines] using member
  · cases repeats
  · cases repeats
  · exact ⟨second, inside, rfl, repeats⟩

theorem Block.Sound.samples_lines {block : Block} (sound : block.Sound) :
    block.lines.Pairwise fun first second => ¬ Exposition.Repeats first second := by
  refine List.pairwise_cons.mpr ⟨fun _ _ => id, List.pairwise_cons.mpr ⟨fun _ _ => id, ?_⟩⟩
  exact List.pairwise_map.mpr sound.distinct

theorem attributed_samples {all : List Family} {family : Family} {samples : List Sample} {lines : List Line}
    (own : ∀ sample ∈ samples, ∀ other ∈ all, Owns other sample.name ↔ other = family)
    (rest : Attributed all (some family) lines) : Attributed all (some family) (samples.map Sample.line ++ lines) := by
  induction samples with
  | nil => exact rest
  | cons sample samples ih =>
    refine ⟨⟨family, rfl, own sample List.mem_cons_self⟩, ?_⟩
    exact ih fun other member => own other (List.mem_cons_of_mem _ member)

section Blocks

variable {blocks : List Block} (sound : ∀ block ∈ blocks, block.Sound)
    (apart : blocks.Pairwise fun first second => Apart first.family second.family)

include sound apart

theorem samples_blocks : (linesOfBlocks blocks).Pairwise fun first second => ¬ Repeats first second := by
  refine List.pairwise_flatMap.mpr ⟨fun block member => (sound block member).samples_lines, ?_⟩
  refine apart.imp_of_mem ?_
  intro block other member later apart line inside line' inside' repeats
  obtain rfl | rfl | ⟨sample, own, rfl⟩ : line = _ ∨ line = _ ∨ ∃ sample ∈ block.samples, sample.line = line := by
    simpa [Block.lines] using inside
  · exact repeats
  · exact repeats
  · obtain ⟨second, own', _, same, _⟩ := Sample.of_repeats_lines inside' repeats
    exact apart sample.name ⟨(sound block member).owned sample own, same ▸ (sound other later).owned second own'⟩

theorem attributed_blocks {all : List Family}
    (alone : ∀ block ∈ blocks, block.family ∈ all ∧ ∀ other ∈ all, other = block.family ∨ Apart block.family other)
    (current : Option Family) : Attributed all current (linesOfBlocks blocks) := by
  induction blocks generalizing current with
  | nil => trivial
  | cons block blocks ih =>
    have rest := ih (fun other member => sound other (List.mem_cons_of_mem _ member)) (List.pairwise_cons.mp apart).2
      (fun other member => alone other (List.mem_cons_of_mem _ member)) (some block.family)
    apply attributed_samples _ rest
    intro sample own other known
    have owns := (sound block List.mem_cons_self).owned sample own
    constructor
    · intro also
      exact ((alone block List.mem_cons_self).2 other known).resolve_right fun apart => apart sample.name ⟨owns, also⟩
    · rintro rfl
      exact owns

/-- Families that are apart, each sound, make a scrape that is accepted, and it is read as it was meant. -/
theorem wellFormed_blocks :
    read (write (linesOfBlocks blocks)) = some (linesOfBlocks blocks) ∧ WellFormed (linesOfBlocks blocks) := by
  have names : ((blocks.map Block.family).map Prod.fst).Nodup := by
    rw [List.map_map]
    refine List.pairwise_map.mpr (apart.imp ?_)
    intro first second apart same
    exact apart first.family.1 ⟨owns_self _, .inl same⟩
  refine ⟨read_write ?_, samples_blocks sound apart, by rwa [families_blocks], ?_⟩
  · intro line member
    obtain ⟨block, inside, own⟩ := List.mem_flatMap.mp member
    exact (sound block inside).lines_plain line own
  · rw [families_blocks]
    refine attributed_blocks sound apart ?_ none
    intro block member
    refine ⟨List.mem_map_of_mem member, ?_⟩
    intro other known
    obtain ⟨second, inside, rfl⟩ := List.mem_map.mp known
    have symmetric : Std.Symm fun first second : Block => Apart first.family second.family := ⟨fun _ _ => Apart.symm⟩
    obtain rfl | differs := eq_or_ne block second
    · exact .inl rfl
    · exact .inr (apart.forall member inside differs)

end Blocks

/-! ## Families that are apart -/

/-- The name of a family is one that a histogram adds to another. -/
def Clash (first second : Family) : Prop := first.2 = literal "histogram" ∧ ∃ suffix ∈ suffixes, second.1 = first.1 ++ suffix

instance (first second : Family) : Decidable (Clash first second) := inferInstanceAs (Decidable (_ ∧ _))

/-- The three suffixes end differently. -/
theorem suffix_unique {first second name name' : Text} (known : first ∈ suffixes) (known' : second ∈ suffixes)
    (same : name ++ first = name' ++ second) : first = second := by
  have ends := congrArg (fun text => text.reverse.take 4) same
  have long : ∀ suffix ∈ suffixes, 4 ≤ suffix.reverse.length := by decide
  rw [List.reverse_append, List.reverse_append, List.take_append_of_le_length (long first known),
    List.take_append_of_le_length (long second known')] at ends
  have differ : ∀ first ∈ suffixes, ∀ second ∈ suffixes, first.reverse.take 4 = second.reverse.take 4 → first = second := by
    decide
  exact differ first known second known' ends

/-- Labels with the same names in one order are the same only when they are equal. -/
theorem eq_of_sameLabels {first second : List (Text × Text)} (names : first.map Prod.fst = second.map Prod.fst)
    (distinct : (first.map Prod.fst).Nodup) (same : SameLabels first second) : first = second := by
  have names_within {label : Text × Text} {labels labels' : List (Text × Text)}
      (names : labels.map Prod.fst = labels'.map Prod.fst)
      (member : label ∈ labels') : label.1 ∈ labels.map Prod.fst := names ▸ List.mem_map_of_mem member
  induction first generalizing second with
  | nil => exact (List.map_eq_nil_iff.mp names.symm).symm
  | cons label first ih =>
    cases second with
    | nil => cases names
    | cons label' second =>
      obtain ⟨head, tail⟩ := List.cons.inj names
      obtain ⟨fresh, distinct⟩ := List.nodup_cons.mp distinct
      have equal : label = label' := by
        obtain equal | later := List.mem_cons.mp (same.1 List.mem_cons_self)
        · exact equal
        · exact absurd (names_within tail later) fresh
      subst equal
      have forth : first ⊆ second := by
        intro other member
        obtain rfl | later := List.mem_cons.mp (same.1 (List.mem_cons_of_mem _ member))
        · exact absurd (List.mem_map_of_mem member) fresh
        · exact later
      have back : second ⊆ first := by
        intro other member
        obtain rfl | later := List.mem_cons.mp (same.2 (List.mem_cons_of_mem _ member))
        · exact absurd (names_within tail member) fresh
        · exact later
      rw [ih tail distinct ⟨forth, back⟩]

theorem apart_of_not_clash {first second : Family} (names : first.1 ≠ second.1) (clear : ¬ Clash first second)
    (clear' : ¬ Clash second first) : Apart first second := by
  rintro name ⟨owns, owns'⟩
  obtain rfl | ⟨histogram, suffix, known, rfl⟩ := owns
  · obtain same | ⟨histogram, suffix, known, same⟩ := owns'
    · exact names same
    · exact clear' ⟨histogram, suffix, known, same⟩
  · obtain same | ⟨histogram', suffix', known', same⟩ := owns'
    · exact clear ⟨histogram, suffix, known, same.symm⟩
    · obtain rfl := suffix_unique known known' same
      exact names (List.append_cancel_right same)

/-! ## Histograms -/

/-- A series of a histogram, with the texts of its boundaries and of their totals. -/
structure Series where
  labels : List (Text × Text)
  bounds : List (Text × Text)
  sum : Text
  count : Text

namespace Series

def bucket (name : Text) (labels : List (Text × Text)) (bound : Text × Text) : Sample :=
  ⟨name ++ literal "_bucket", labels ++ [(literal "le", bound.1)], bound.2⟩

def samples (name : Text) (series : Series) : List Sample :=
  series.bounds.map (bucket name series.labels) ++
    [⟨name ++ literal "_sum", series.labels, series.sum⟩, ⟨name ++ literal "_count", series.labels, series.count⟩]

/-- No label is the one of the buckets, and no boundary is there twice. -/
structure Sound (series : Series) : Prop where
  labels : ∀ label ∈ series.labels, label.1 ≠ literal "le"
  bounds : (series.bounds.map Prod.fst).Nodup

theorem mem_samples {name : Text} {series : Series} {sample : Sample} (member : sample ∈ series.samples name) :
    (∃ bound ∈ series.bounds, sample = bucket name series.labels bound) ∨
      sample = ⟨name ++ literal "_sum", series.labels, series.sum⟩ ∨
        sample = ⟨name ++ literal "_count", series.labels, series.count⟩ := by
  simpa [samples, eq_comm] using member

theorem owns_samples {name : Text} {series : Series} {sample : Sample} (member : sample ∈ series.samples name) :
    Owns (name, literal "histogram") sample.name := by
  obtain ⟨bound, _, rfl⟩ | rfl | rfl := mem_samples member
  · exact .inr ⟨rfl, literal "_bucket", by decide, rfl⟩
  · exact .inr ⟨rfl, literal "_sum", by decide, rfl⟩
  · exact .inr ⟨rfl, literal "_count", by decide, rfl⟩

/-- The names of the labels are names, and no text has a line end. -/
structure Plain (series : Series) : Prop where
  labels : ∀ label ∈ series.labels, IsName label.1
  bounds : ∀ bound ∈ series.bounds, newline ∉ bound.2
  sum : newline ∉ series.sum
  count : newline ∉ series.count

theorem Plain.samples {series : Series} (plain : series.Plain) {name : Text} :
    ∀ sample ∈ series.samples name, (∀ label ∈ sample.labels, IsName label.1) ∧ newline ∉ sample.value := by
  have le : IsName (literal "le") := ⟨by decide, by decide⟩
  intro sample member
  obtain ⟨bound, inside, rfl⟩ | rfl | rfl := mem_samples member
  · refine ⟨?_, plain.bounds bound inside⟩
    intro label member
    obtain own | last := List.mem_append.mp member
    · exact plain.labels label own
    · rw [List.mem_singleton.mp last]
      exact le
  · exact ⟨plain.labels, plain.sum⟩
  · exact ⟨plain.labels, plain.count⟩

/-- Bucket lines are the same only of one boundary and of the same series. -/
theorem of_bucket_repeats {name : Text} {first second : Series} (sound : first.Sound) (sound' : second.Sound)
    {bound bound' : Text × Text} (repeats : (bucket name first.labels bound).Repeats (bucket name second.labels bound')) :
    bound.1 = bound'.1 ∧ SameLabels first.labels second.labels := by
  obtain ⟨_, forth, back⟩ := repeats
  have side {one other : List (Text × Text)} {text text' : Text} (clean : ∀ label ∈ one, label.1 ≠ literal "le")
      (within : one ++ [(literal "le", text)] ⊆ other ++ [(literal "le", text')]) : one ⊆ other := by
    intro label member
    obtain inside | last := List.mem_append.mp (within (List.mem_append.mpr (.inl member)))
    · exact inside
    · exact absurd (congrArg Prod.fst (List.mem_singleton.mp last)) (clean label member)
  refine ⟨?_, side sound.labels forth, side sound'.labels back⟩
  obtain inside | last := List.mem_append.mp (forth (List.mem_append.mpr (.inr (List.mem_singleton.mpr rfl))))
  · exact absurd rfl (sound'.labels _ inside)
  · exact congrArg Prod.snd (List.mem_singleton.mp last)

/-- What two series repeat, they repeat with the same labels. -/
theorem sameLabels_of_repeats {name : Text} {first second : Series} (sound : first.Sound) (sound' : second.Sound)
    {sample sample' : Sample} (member : sample ∈ first.samples name) (member' : sample' ∈ second.samples name)
    (repeats : sample.Repeats sample') : SameLabels first.labels second.labels := by
  have names := repeats.1
  obtain ⟨bound, _, rfl⟩ | rfl | rfl := mem_samples member <;>
    obtain ⟨bound', _, rfl⟩ | rfl | rfl := mem_samples member'
  · exact (of_bucket_repeats sound sound' repeats).2
  · exact absurd (List.append_cancel_left names) (by decide)
  · exact absurd (List.append_cancel_left names) (by decide)
  · exact absurd (List.append_cancel_left names) (by decide)
  · exact repeats.2
  · exact absurd (List.append_cancel_left names) (by decide)
  · exact absurd (List.append_cancel_left names) (by decide)
  · exact absurd (List.append_cancel_left names) (by decide)
  · exact repeats.2

theorem Sound.distinct {series : Series} (sound : series.Sound) (name : Text) :
    (series.samples name).Pairwise fun first second => ¬ first.Repeats second := by
  refine List.pairwise_append.mpr ⟨?_, ?_, ?_⟩
  · have bounds := List.pairwise_map.mp sound.bounds
    refine List.pairwise_map.mpr (bounds.imp ?_)
    intro bound bound' differ repeats
    exact differ (of_bucket_repeats sound sound repeats).1
  · refine List.pairwise_pair.mpr fun repeats => ?_
    exact absurd (List.append_cancel_left repeats.1) (by decide)
  · intro sample member sample' member' repeats
    obtain ⟨bound, _, rfl⟩ := List.mem_map.mp member
    obtain rfl | last := List.mem_cons.mp member'
    · exact absurd (List.append_cancel_left repeats.1) (by decide)
    · obtain rfl := List.mem_singleton.mp last
      exact absurd (List.append_cancel_left repeats.1) (by decide)

end Series

/-- Series with different labels repeat nothing. -/
theorem distinct_series {all : List Series} (sound : ∀ series ∈ all, series.Sound)
    (differ : all.Pairwise fun first second => ¬ SameLabels first.labels second.labels) (name : Text) :
    (all.flatMap (Series.samples name)).Pairwise fun first second => ¬ first.Repeats second := by
  refine List.pairwise_flatMap.mpr ⟨fun series member => (sound series member).distinct name, ?_⟩
  refine differ.imp_of_mem ?_
  intro first second member member' differ sample inside sample' inside' repeats
  exact differ (Series.sameLabels_of_repeats (sound first member) (sound second member') inside inside' repeats)

end Exposition

end OpalCpp

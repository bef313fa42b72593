import OpalCpp.Model.Server.Router

/-! # Patterns: their grammar, their ranking and what they match

A greedy label is the last segment of a pattern, if there is one. The comparison of patterns is the
lexicographic one of their ranks, the end of a pattern ranking last; two patterns of one rank that
match a common target have the same shape.
-/

namespace OpalCpp.Server

open scoped Bytes
open Bytes (ascii)
open Delimited (cut join)

/-! ## The grammar -/

namespace Segment

/-- What the parser makes sure of: a literal is a piece between slashes, and no name is empty. -/
def Parsed (segment : Segment) : Prop :=
  segment.text ≠ [] ∧ (segment.kind = .literal → '/'.toUInt8 ∉ segment.text)

end Segment

/-- Only the last segment may be greedy. -/
def GreedyLast (pattern : List Segment) : Prop := ∀ segment ∈ pattern.dropLast, segment.kind ≠ .greedy

instance (pattern : List Segment) : Decidable (GreedyLast pattern) :=
  inferInstanceAs (Decidable (∀ segment ∈ pattern.dropLast, segment.kind ≠ .greedy))

theorem GreedyLast.cons {segment : Segment} {pattern : List Segment} (notGreedy : segment.kind ≠ .greedy)
    (last : GreedyLast pattern) : GreedyLast (segment :: pattern) := by
  cases pattern with
  | nil => exact fun other member => absurd member List.not_mem_nil
  | cons next rest =>
    intro other member
    rw [List.dropLast_cons_cons, List.mem_cons] at member
    obtain rfl | later := member
    · exact notGreedy
    · exact last other later

/-- Nothing follows a greedy label. -/
theorem GreedyLast.tail {segment : Segment} {pattern : List Segment} (last : GreedyLast (segment :: pattern)) :
    GreedyLast pattern ∧ (segment.kind = .greedy → pattern = []) := by
  cases pattern with
  | nil => exact ⟨fun other member => absurd member List.not_mem_nil, fun _ => rfl⟩
  | cons next rest =>
    constructor
    · intro other member
      exact last other (List.mem_cons_of_mem _ member)
    · intro greedy
      exact absurd greedy (last segment List.mem_cons_self)

theorem parseSegment_parsed {pattern raw : Bytes} {segment : Segment} (piece : '/'.toUInt8 ∉ raw)
    (parsed : parseSegment pattern raw = .ok segment) : segment.Parsed := by
  simp only [parseSegment] at parsed
  by_cases braces : 2 ≤ raw.length ∧ raw.head? = some '\x7b'.toUInt8 ∧ raw.getLast? = some '\x7d'.toUInt8
  · rw [if_pos braces] at parsed
    by_cases named : (if (raw.substr 1 (raw.length - 2)).getLast? = some '+'.toUInt8 then
        (raw.substr 1 (raw.length - 2)).dropLast else raw.substr 1 (raw.length - 2)) = []
    · rw [if_pos named] at parsed
      cases parsed
    · rw [if_neg named] at parsed
      cases parsed
      refine ⟨named, fun literal => ?_⟩
      split_ifs at literal
  · rw [if_neg braces] at parsed
    by_cases some_ : raw = []
    · rw [if_pos some_] at parsed
      cases parsed
    · rw [if_neg some_] at parsed
      cases parsed
      exact ⟨some_, fun _ => piece⟩

theorem parseSegments_facts {pattern rest : Bytes} {segments : List Segment}
    (parsed : parseSegments pattern rest = .ok segments) :
    segments ≠ [] ∧ GreedyLast segments ∧ ∀ segment ∈ segments, segment.Parsed := by
  fun_induction parseSegments pattern rest generalizing segments with
  | case1 rest raw split =>
    cases piece : parseSegment pattern raw with
    | error error =>
      rw [piece] at parsed
      cases parsed
    | ok segment =>
      rw [piece] at parsed
      cases parsed
      refine ⟨List.cons_ne_nil _ _, fun other member => absurd member List.not_mem_nil, ?_⟩
      rw [List.forall_mem_singleton]
      exact parseSegment_parsed (Delimited.of_cut split).1 piece
  | case2 rest raw next split ih =>
    obtain ⟨segment, piece, parsed⟩ := Outcome.bind_eq_ok.mp parsed
    split_ifs at parsed with greedy
    obtain ⟨segments, parsedNext, parsed⟩ := Outcome.bind_eq_ok.mp parsed
    cases parsed
    obtain ⟨some_, last, each⟩ := ih parsedNext
    refine ⟨List.cons_ne_nil _ _, last.cons greedy, ?_⟩
    rw [List.forall_mem_cons]
    exact ⟨parseSegment_parsed (Delimited.of_cut split).1 piece, each⟩

theorem parsePattern_facts {pattern : Bytes} {segments : List Segment} (parsed : parsePattern pattern = .ok segments) :
    GreedyLast segments ∧ ∀ segment ∈ segments, segment.Parsed := by
  rw [parsePattern] at parsed
  split_ifs at parsed with slash root
  · cases parsed
    exact ⟨fun other member => absurd member List.not_mem_nil, fun other member => absurd member List.not_mem_nil⟩
  · exact (parseSegments_facts parsed).2

/-! ## The ranking -/

/-- The ranks of the segments, and the end of the pattern after all of them. -/
def ranks (pattern : List Segment) : List ℕ := pattern.map rank ++ [3]

theorem rank_lt (segment : Segment) : rank segment < 3 := by
  rw [rank]
  cases segment.kind with
  | literal => decide
  | label => decide
  | greedy => decide

theorem rank_inj {a b : Segment} : rank a = rank b ↔ a.kind = b.kind := by
  rw [rank, rank]
  cases a.kind <;> cases b.kind <;> decide

theorem ranks_cons (segment : Segment) (pattern : List Segment) :
    ranks (segment :: pattern) = rank segment :: ranks pattern := rfl

/-- The comparison of patterns is a lexicographic one. -/
theorem moreSpecific_iff {a b : List Segment} : moreSpecific a b = true ↔ ranks a < ranks b := by
  induction a generalizing b with
  | nil =>
    cases b with
    | nil => simp [moreSpecific]
    | cons t b =>
      have below : ¬ ranks [] < ranks (t :: b) := by
        have := rank_lt t
        rw [ranks_cons, show ranks [] = 3 :: [] from rfl, List.cons_lt_cons_iff]
        omega
      simp [moreSpecific, below]
  | cons s a ih =>
    cases b with
    | nil =>
      have above : ranks (s :: a) < ranks [] := by
        rw [ranks_cons, show ranks [] = 3 :: [] from rfl, List.cons_lt_cons_iff]
        exact .inl (rank_lt s)
      simp [moreSpecific, above]
    | cons t b =>
      rw [moreSpecific, ranks_cons, ranks_cons, List.cons_lt_cons_iff]
      by_cases same : rank s = rank t
      · simp [same, ih]
      · simp [same]

/-- Patterns of one rank have the same kinds of segments. -/
theorem kinds_of_ranks {a b : List Segment} (same : ranks a = ranks b) : a.map Segment.kind = b.map Segment.kind := by
  have ranked : a.map rank = b.map rank := List.append_cancel_right same
  rw [← List.forall₂_eq_eq_eq] at ranked ⊢
  rw [List.forall₂_map_left_iff, List.forall₂_map_right_iff] at ranked ⊢
  exact ranked.imp fun _ _ => rank_inj.mp

theorem sameShape_iff {a b : List Segment} : sameShape a b = true ↔
    List.Forall₂ (fun s t => s.kind = t.kind ∧ (s.kind = .literal → s.text = t.text)) a b := by
  induction a generalizing b with
  | nil =>
    cases b with
    | nil => simp [sameShape]
    | cons t b => simp [sameShape]
  | cons s a ih =>
    cases b with
    | nil => simp [sameShape]
    | cons t b =>
      rw [sameShape, Bool.and_eq_true, Bool.and_eq_true, ih, List.forall₂_cons]
      simp only [decide_eq_true_eq, Bool.or_eq_true, and_congr_left_iff, and_congr_right_iff]
      intro _ _
      tauto

theorem sameShape_symm {a b : List Segment} (same : sameShape a b = true) : sameShape b a = true := by
  rw [sameShape_iff] at same ⊢
  exact (List.Forall₂.flip same).imp fun t s ⟨kind, text⟩ => ⟨kind.symm, fun literal => (text (kind.trans literal)).symm⟩

/-! ## Matching -/

section Steps

variable {expected : Segment} {pattern : List Segment} {segment : Bytes} {target : List Bytes} {labels : PathLabels}

theorem matchLoop_literal (kind : expected.kind = .literal) :
    matchLoop labels (expected :: pattern) (segment :: target) =
      if segment = expected.text then matchLoop labels pattern target else none := by
  rw [matchLoop, kind]
  exact ite_not ..

theorem matchLoop_label (kind : expected.kind = .label) :
    matchLoop labels (expected :: pattern) (segment :: target) =
      if segment = [] then none
      else matchLoop (OrderedMap.tryEmplace expected.text segment labels) pattern target := by
  rw [matchLoop, kind]

theorem matchLoop_greedy (kind : expected.kind = .greedy) :
    matchLoop labels (expected :: pattern) (segment :: target) =
      if segment :: target = [[]] then none
      else some (OrderedMap.tryEmplace expected.text (join '/'.toUInt8 (segment :: target)) labels) := by
  rw [matchLoop, kind]
  simp only [List.cons.injEq, and_comm]

end Steps

/-- Two patterns with the same kinds of segments that match a target agree on their literals. -/
theorem sameShape_of_matchLoop {a b : List Segment} {target : List Bytes} {labels labels' : PathLabels}
    (last : GreedyLast a) (last' : GreedyLast b) (kinds : a.map Segment.kind = b.map Segment.kind)
    (matched : (matchLoop labels a target).isSome) (matched' : (matchLoop labels' b target).isSome) :
    sameShape a b = true := by
  induction a generalizing b target labels labels' with
  | nil =>
    rw [List.map_nil, eq_comm, List.map_eq_nil_iff] at kinds
    rw [kinds]
    rfl
  | cons s a ih =>
    cases b with
    | nil => cases kinds
    | cons t b =>
      obtain ⟨kind, kinds⟩ := List.cons.inj kinds
      cases target with
      | nil => cases matched
      | cons segment target =>
        rw [sameShape]
        cases shape : s.kind with
        | literal =>
          rw [matchLoop_literal shape] at matched
          rw [matchLoop_literal (kind.symm.trans shape)] at matched'
          have here : segment = s.text := by
            by_contra differs
            rw [if_neg differs] at matched
            cases matched
          have here' : segment = t.text := by
            by_contra differs
            rw [if_neg differs] at matched'
            cases matched'
          rw [if_pos here] at matched
          rw [if_pos here'] at matched'
          rw [ih last.tail.1 last'.tail.1 kinds matched matched', ← here, ← here', ← kind, shape]
          simp
        | label =>
          rw [matchLoop_label shape] at matched
          rw [matchLoop_label (kind.symm.trans shape)] at matched'
          by_cases empty : segment = []
          · rw [if_pos empty] at matched
            cases matched
          · rw [if_neg empty] at matched matched'
            rw [ih last.tail.1 last'.tail.1 kinds matched matched', ← kind, shape]
            rfl
        | greedy =>
          rw [last.tail.2 shape, last'.tail.2 (kind.symm.trans shape), ← kind, shape]
          rfl

/-- The lengths are right and the loop goes through. -/
theorem matchSegments_eq_some {pattern : List Segment} {target : List Bytes} {labels : PathLabels} :
    matchSegments pattern target = some labels ↔
      (if hasGreedy pattern then pattern.length ≤ target.length else target.length = pattern.length) ∧
        matchLoop [] pattern target = some labels := by
  rw [matchSegments]
  cases hasGreedy pattern with
  | false =>
    by_cases same : target.length = pattern.length
    · simp [same]
    · simp [same]
  | true =>
    by_cases short : target.length < pattern.length
    · simp [short]
    · simp [short, not_lt.mp short]

theorem matchLoop_of_matchSegments {pattern : List Segment} {target : List Bytes}
    (matched : (matchSegments pattern target).isSome) : (matchLoop [] pattern target).isSome := by
  obtain ⟨labels, matched⟩ := Option.isSome_iff_exists.mp matched
  rw [(matchSegments_eq_some.mp matched).2]
  rfl

/-- Among the patterns that match a target, those of one rank have one shape. -/
theorem sameShape_of_matchSegments {a b : List Segment} {target : List Bytes} (last : GreedyLast a)
    (last' : GreedyLast b) (matched : (matchSegments a target).isSome) (matched' : (matchSegments b target).isSome)
    (same : ranks a = ranks b) : sameShape a b = true :=
  sameShape_of_matchLoop last last' (kinds_of_ranks same) (matchLoop_of_matchSegments matched)
    (matchLoop_of_matchSegments matched')

end OpalCpp.Server

import OpalCpp.Model.Server.GeneratedRoutes
import OpalCpp.Proofs.Server.GreedyLabels
import OpalCpp.Proofs.Server.RouteOrder

/-! # Reaching an operation through its own client

The routes of a generated server and the target of a generated client come from one URI pattern. The router
takes the pattern where its greedy label is the last segment, and a target leads back to the pattern it is made
from where the pattern has a segment, its literals are nothing else when decoded and the greedy text is not a
slash alone.
-/

namespace OpalCpp.Server

open scoped Bytes
open Bytes (ascii)
open Delimited (cut join)
open Http (HttpRequest HttpResponse writeTarget targetPiece percentDecode)

/-! ## Patterns -/

/-- What Smithy checks of the segments of a URI pattern: texts that are not empty, delimiters in none of them,
identifiers as the names of labels. -/
structure Admitted (segments : List Segment) : Prop where
  named : ∀ segment ∈ segments, segment.text ≠ []
  plain : ∀ segment ∈ segments, '/'.toUInt8 ∉ segment.text
  literals : ∀ segment ∈ segments, segment.kind = .literal →
    '\x7b'.toUInt8 ∉ segment.text ∧ '\x7d'.toUInt8 ∉ segment.text ∧ '?'.toUInt8 ∉ segment.text
  labels : ∀ segment ∈ segments, segment.kind ≠ .literal → '+'.toUInt8 ∉ segment.text

theorem Admitted.tail {segment : Segment} {segments : List Segment} (admitted : Admitted (segment :: segments)) :
    Admitted segments where
  named other member := admitted.named other (List.mem_cons_of_mem _ member)
  plain other member := admitted.plain other (List.mem_cons_of_mem _ member)
  literals other member := admitted.literals other (List.mem_cons_of_mem _ member)
  labels other member := admitted.labels other (List.mem_cons_of_mem _ member)

/-- What is between the braces is the name of a label, with a plus sign at its end if it is greedy. -/
theorem parseSegment_braces (pattern name : Bytes) : parseSegment pattern (ascii "\x7b" ++ name ++ ascii "\x7d") =
    let greedy := name.getLast? = some '+'.toUInt8
    let text := if greedy then name.dropLast else name
    if text = [] then .error (.Validation ("router: empty label in pattern: " ++ pattern.text))
    else .ok ⟨if greedy then .greedy else .label, text⟩ := by
  have size : (ascii "\x7b" ++ name ++ ascii "\x7d").length = name.length + 2 := by
    rw [List.length_append, List.length_append]
    have opening : (ascii "\x7b").length = 1 := rfl
    have closing : (ascii "\x7d").length = 1 := rfl
    omega
  have inner :
      (ascii "\x7b" ++ name ++ ascii "\x7d").substr 1 ((ascii "\x7b" ++ name ++ ascii "\x7d").length - 2) = name := by
    have rest : (ascii "\x7b" ++ name ++ ascii "\x7d").drop 1 = name ++ ascii "\x7d" := rfl
    rw [size, Bytes.substr, rest, Nat.add_sub_cancel, List.take_left]
  have braces : 2 ≤ (ascii "\x7b" ++ name ++ ascii "\x7d").length ∧
      (ascii "\x7b" ++ name ++ ascii "\x7d").head? = some '\x7b'.toUInt8 ∧
        (ascii "\x7b" ++ name ++ ascii "\x7d").getLast? = some '\x7d'.toUInt8 := by
    exact ⟨size ▸ Nat.le_add_left 2 _, rfl, List.getLast?_concat⟩
  rw [parseSegment, if_pos braces, inner]

theorem notMem_braces {name : Bytes} (plain : '/'.toUInt8 ∉ name) : '/'.toUInt8 ∉ ascii "\x7b" ++ name ++ ascii "\x7d" := by
  rw [List.mem_append, List.mem_append, not_or, not_or]
  exact ⟨⟨by decide, plain⟩, by decide⟩

/-- A segment that is written as a piece of a pattern is read as it was. -/
theorem Admitted.piece {segments : List Segment} (admitted : Admitted segments) {segment : Segment}
    (member : segment ∈ segments) (pattern : Bytes) :
    '/'.toUInt8 ∉ patternPiece segment ∧ parseSegment pattern (patternPiece segment) = .ok segment := by
  have named := admitted.named segment member
  have plain := admitted.plain segment member
  rcases segment with ⟨_ | _ | _, text⟩
  · obtain ⟨opening, _, _⟩ := admitted.literals _ member rfl
    refine ⟨plain, ?_⟩
    have bare : ¬ (2 ≤ text.length ∧ text.head? = some '\x7b'.toUInt8 ∧ text.getLast? = some '\x7d'.toUInt8) :=
      fun braces => opening (List.mem_of_head? braces.2.1)
    rw [patternPiece, parseSegment, if_neg bare, if_neg named]
  · have noPlus : text.getLast? ≠ some '+'.toUInt8 :=
      fun last => admitted.labels _ member (fun same => by cases same) (List.mem_of_getLast? last)
    refine ⟨notMem_braces plain, ?_⟩
    rw [patternPiece, parseSegment_braces]
    simp only [noPlus, if_false, if_neg named]
  · have whole : patternPiece ⟨.greedy, text⟩ = ascii "\x7b" ++ (text ++ ['+'.toUInt8]) ++ ascii "\x7d" := by
      simp only [patternPiece, List.append_assoc]
      rfl
    have plainPlus : '/'.toUInt8 ∉ text ++ ['+'.toUInt8] := by
      rw [List.mem_append, not_or]
      exact ⟨plain, by decide⟩
    refine ⟨whole ▸ notMem_braces plainPlus, ?_⟩
    rw [whole, parseSegment_braces]
    simp only [List.getLast?_concat, if_true, List.dropLast_concat, if_neg named]

theorem parseSegments_next {pattern piece rest : Bytes} (plain : '/'.toUInt8 ∉ piece) :
    parseSegments pattern (piece ++ '/'.toUInt8 :: rest) = (parseSegment pattern piece).bind fun segment =>
      if segment.kind = .greedy then
        .error (.Validation ("router: greedy label must be the final segment: " ++ pattern.text))
      else (parseSegments pattern rest).map (segment :: ·) := by
  rw [parseSegments]
  split
  · rename_i split
    rw [Delimited.cut_append plain] at split
    cases split
  · rename_i split
    rw [Delimited.cut_append plain] at split
    cases split
    cases parseSegment pattern piece with
    | error error => rfl
    | ok segment =>
      simp only [bind, Except.bind]
      split_ifs
      · rfl
      · cases parseSegments pattern rest with
        | error error => rfl
        | ok segments => rfl

theorem parseSegments_last {pattern piece : Bytes} (plain : '/'.toUInt8 ∉ piece) :
    parseSegments pattern piece = (parseSegment pattern piece).map ([·]) := by
  rw [parseSegments]
  split
  · rename_i split
    rw [Delimited.cut_of_notMem plain] at split
    cases split
    rfl
  · rename_i split
    rw [Delimited.cut_of_notMem plain] at split
    cases split

/-- The pieces of segments are read as the segments, if no greedy one of them is before the last. -/
theorem Admitted.parseSegments {segments : List Segment} (admitted : Admitted segments) (some_ : segments ≠ [])
    (last : GreedyLast segments) (pattern : Bytes) :
    Server.parseSegments pattern (join '/'.toUInt8 (segments.map patternPiece)) = .ok segments := by
  induction segments with
  | nil => exact absurd rfl some_
  | cons segment rest ih =>
    obtain ⟨plain, read⟩ := admitted.piece List.mem_cons_self pattern
    cases rest with
    | nil =>
      rw [List.map_singleton, join, parseSegments_last plain, read]
      rfl
    | cons next rest =>
      have notGreedy : segment.kind ≠ .greedy := fun greedy => by cases last.tail.2 greedy
      rw [List.map_cons, Delimited.join_cons _ (by simp), parseSegments_next plain, read, Except.bind, if_neg notGreedy,
        ih admitted.tail (List.cons_ne_nil _ _) last.tail.1]
      rfl

/-- They are read as nothing else. -/
theorem Admitted.eq_of_parseSegments {segments parsed : List Segment} (admitted : Admitted segments) (some_ : segments ≠ [])
    {pattern : Bytes} (accepted : Server.parseSegments pattern (join '/'.toUInt8 (segments.map patternPiece)) = .ok parsed) :
    parsed = segments := by
  induction segments generalizing parsed with
  | nil => exact absurd rfl some_
  | cons segment rest ih =>
    obtain ⟨plain, read⟩ := admitted.piece List.mem_cons_self pattern
    cases rest with
    | nil =>
      rw [List.map_singleton, join, parseSegments_last plain, read] at accepted
      cases accepted
      rfl
    | cons next rest =>
      rw [List.map_cons, Delimited.join_cons _ (by simp), parseSegments_next plain, read, Except.bind] at accepted
      split_ifs at accepted with greedy
      obtain ⟨segments, readNext, accepted⟩ := Outcome.map_eq_ok.mp accepted
      rw [← accepted, ih admitted.tail (List.cons_ne_nil _ _) readNext]

theorem routePattern_of_ne_nil {segments : List Segment} (some_ : segments ≠ []) :
    routePattern segments = '/'.toUInt8 :: join '/'.toUInt8 (segments.map patternPiece) := by
  rw [routePattern, foldl_pieces, List.nil_append, flatMap_pieces _ some_]
  exact if_neg (Nat.succ_ne_zero _)

/-- No piece is empty, so that neither are the pieces together. -/
theorem Admitted.join_ne_nil {segments : List Segment} (admitted : Admitted segments) (some_ : segments ≠ []) :
    join '/'.toUInt8 (segments.map patternPiece) ≠ [] := by
  intro empty
  rcases Delimited.join_eq_nil.mp empty with none_ | lone
  · exact some_ (List.map_eq_nil_iff.mp none_)
  · obtain ⟨segment, rfl, nothing⟩ := List.map_eq_singleton_iff.mp lone
    have named := admitted.named segment (List.mem_singleton_self _)
    rw [patternPiece] at nothing
    rcases segment with ⟨_ | _ | _, text⟩
    · exact named nothing
    · exact absurd nothing (List.cons_ne_nil _ _)
    · exact absurd nothing (List.cons_ne_nil _ _)

/-- A pattern that is written for the router is read as it was, if its greedy label is the last segment, and is
refused otherwise. -/
theorem Admitted.parsePattern {segments parsed : List Segment} (admitted : Admitted segments) :
    Server.parsePattern (routePattern segments) = .ok parsed ↔ parsed = segments ∧ GreedyLast segments := by
  cases none_ : segments with
  | nil =>
    have root : Server.parsePattern (routePattern []) = .ok [] := rfl
    rw [root, Except.ok.injEq, eq_comm, iff_self_and]
    exact fun _ segment member => absurd member List.not_mem_nil
  | cons segment rest =>
    have some_ : segments ≠ [] := none_ ▸ List.cons_ne_nil _ _
    rw [← none_, Server.parsePattern, routePattern_of_ne_nil some_, List.head?_cons, List.tail_cons,
      if_neg (fun other => other rfl), if_neg (admitted.join_ne_nil some_)]
    constructor
    · intro accepted
      have same := admitted.eq_of_parseSegments some_ accepted
      exact ⟨same, same ▸ (parseSegments_facts accepted).2.1⟩
    · rintro ⟨rfl, last⟩
      exact admitted.parseSegments some_ last _

/-! ## Targets -/

/-- The additions to the query that the generated code makes. -/
def queryAdditions (literals members : List (Bytes × Bytes)) : List Http.Addition :=
  literals.map (fun (key, value) => if value = [] then .addFlag key else .add key value) ++
    members.map fun (key, value) => .add key value

theorem writeQuery_eq (literals members : List (Bytes × Bytes)) :
    writeQuery literals members = (queryAdditions literals members).foldl Http.Addition.apply {} := by
  rw [writeQuery, queryAdditions, List.foldl_append, List.foldl_map, List.foldl_map]
  congr 2
  funext query literal
  dsimp only
  split_ifs
  · rfl
  · rfl

theorem exists_front {segments : List Segment} (last : GreedyLast segments) :
    ∃ front, (∀ segment ∈ front, segment.kind ≠ .greedy) ∧
      (segments = front ∨ ∃ name, segments = front ++ [⟨.greedy, name⟩]) := by
  rcases List.eq_nil_or_concat segments with rfl | ⟨front, final, rfl⟩
  · exact ⟨[], fun _ member => absurd member List.not_mem_nil, .inl rfl⟩
  · rw [GreedyLast, List.concat_eq_append, List.dropLast_concat] at last
    by_cases greedy : final.kind = .greedy
    · exact ⟨front, last, .inr ⟨final.text, by rw [List.concat_eq_append, ← greedy]⟩⟩
    · refine ⟨front.concat final, ?_, .inl rfl⟩
      rw [List.concat_eq_append, List.forall_mem_append, List.forall_mem_singleton]
      exact ⟨last, greedy⟩

/-- A loop that goes through has taken its literals from the target. -/
theorem literals_of_matchLoop {front rest : List Segment} {target : List Bytes} {start : PathLabels}
    (notGreedy : ∀ segment ∈ front, segment.kind ≠ .greedy)
    (matched : (matchLoop start (front ++ rest) target).isSome = true) :
    ∃ taken others, target = taken ++ others ∧
      List.Forall₂ (fun segment piece => segment.kind = .literal → piece = segment.text) front taken := by
  induction front generalizing start target with
  | nil => exact ⟨[], target, rfl, .nil⟩
  | cons segment front ih =>
    rw [List.forall_mem_cons] at notGreedy
    cases target with
    | nil => cases matched
    | cons piece target =>
      rw [List.cons_append] at matched
      cases kind : segment.kind with
      | literal =>
        rw [matchLoop_literal kind] at matched
        split_ifs at matched with same
        · obtain ⟨taken, others, rfl, each⟩ := ih notGreedy.2 matched
          exact ⟨piece :: taken, others, rfl, .cons (fun _ => same) each⟩
        · cases matched
      | label =>
        rw [matchLoop_label kind] at matched
        split_ifs at matched with empty
        · cases matched
        · obtain ⟨taken, others, rfl, each⟩ := ih notGreedy.2 matched
          exact ⟨piece :: taken, others, rfl, .cons (fun literal => by rw [kind] at literal; cases literal) each⟩
      | greedy => exact absurd kind notGreedy.1

section Target

variable {segments : List Segment} {labels : Bytes → Bytes}

/-- No piece of a target has a delimiter in it, escapes or not. -/
theorem Admitted.targetPiece (admitted : Admitted segments) {segment : Segment} (member : segment ∈ segments)
    (notGreedy : segment.kind ≠ .greedy) :
    '/'.toUInt8 ∉ targetPiece labels segment ∧ '?'.toUInt8 ∉ targetPiece labels segment := by
  have plain := admitted.plain segment member
  have literals := admitted.literals segment member
  rw [Http.targetPiece]
  cases kind : segment.kind with
  | literal => exact ⟨plain, (literals kind).2.2⟩
  | label =>
    exact ⟨Http.notMem_encode (by decide) (by decide) (.inl rfl), Http.notMem_encode (by decide) (by decide) (.inl rfl)⟩
  | greedy => exact absurd kind notGreedy

/-- A target is made of the pieces before the greedy label and of those that its text is cut into. -/
theorem Admitted.exists_raws (admitted : Admitted segments) (some_ : segments ≠ []) {front : List Segment}
    (notGreedy : ∀ segment ∈ front, segment.kind ≠ .greedy)
    (whole : segments = front ∨ ∃ name, segments = front ++ [⟨.greedy, name⟩])
    (texts : ∀ segment ∈ segments, segment.kind ≠ .literal → labels segment.text ≠ []) (query : Http.QueryString) :
    ∃ raws, writeTarget [] segments labels query =
        '/'.toUInt8 :: join '/'.toUInt8 (front.map (Http.targetPiece labels) ++ raws) ++ query.toString ∧
      (∀ raw ∈ front.map (Http.targetPiece labels) ++ raws, '/'.toUInt8 ∉ raw ∧ '?'.toUInt8 ∉ raw) ∧
      front.map (Http.targetPiece labels) ++ raws ≠ [[]] := by
  have inFront : ∀ segment ∈ front, segment ∈ segments := by
    rcases whole with rfl | ⟨name, rfl⟩
    · exact fun segment member => member
    · exact fun segment member => List.mem_append_left _ member
  have plain : ∀ raw ∈ front.map (Http.targetPiece labels), '/'.toUInt8 ∉ raw ∧ '?'.toUInt8 ∉ raw := by
    rw [List.forall_mem_map]
    exact fun segment member => admitted.targetPiece (inFront segment member) (notGreedy segment member)
  have some_pieces : ∀ raw ∈ front.map (Http.targetPiece labels), raw ≠ [] := by
    rw [List.forall_mem_map]
    intro segment member
    have named := admitted.named segment (inFront segment member)
    have text := texts segment (inFront segment member)
    rw [Http.targetPiece]
    cases kind : segment.kind with
    | literal => exact named
    | label => exact fun empty => text (by rw [kind]; decide) (Http.encode_eq_nil.mp empty)
    | greedy => exact absurd kind (notGreedy segment member)
  rcases whole with rfl | ⟨name, rfl⟩
  · refine ⟨[], ?_, ?_, ?_⟩
    · rw [List.append_nil, Http.writeTarget, foldl_pieces, List.nil_append, flatMap_pieces _ some_]
    · rwa [List.append_nil]
    · rw [List.append_nil]
      intro lone
      exact some_pieces [] (lone ▸ List.mem_singleton_self _) rfl
  · obtain ⟨pieces, notNil, cutUp, without⟩ := Delimited.exists_join '/'.toUInt8 (labels name)
    have encoded : pieces.map Http.encodePathSegment ≠ [] := by rwa [ne_eq, List.map_eq_nil_iff]
    refine ⟨pieces.map Http.encodePathSegment, ?_, ?_, ?_⟩
    · rw [Http.writeTarget, foldl_pieces, List.nil_append, List.flatMap_append, List.flatMap_singleton,
        ← flatMap_join _ _ encoded, Http.targetPiece, ← cutUp, Http.encodeGreedyPathSegment_join without]
    · rw [List.forall_mem_append]
      refine ⟨plain, ?_⟩
      rw [List.forall_mem_map]
      exact fun piece _ => ⟨Http.notMem_encode (by decide) (by decide) (.inl rfl),
        Http.notMem_encode (by decide) (by decide) (.inl rfl)⟩
    · intro lone
      rcases List.append_eq_singleton_iff.mp lone with ⟨_, one⟩ | ⟨_, none_⟩
      · obtain ⟨piece, rfl, empty⟩ := List.map_eq_singleton_iff.mp one
        rw [Http.encodePathSegment, Http.encode_eq_nil] at empty
        rw [empty] at cutUp
        exact texts _ (List.mem_append_right _ (List.mem_singleton_self _)) (fun same => by cases same) cutUp.symm
      · exact encoded none_

/-- A target that its pattern takes has a segment and literals without escapes. -/
theorem Admitted.of_matched (admitted : Admitted segments) (last : GreedyLast segments)
    (texts : ∀ segment ∈ segments, segment.kind ≠ .literal → labels segment.text ≠ []) {query : Http.QueryString}
    {request : HttpRequest} (target : request.target = writeTarget [] segments labels query)
    {parsed : Http.RequestTarget} (normalized : normalizedTarget request = .ok parsed)
    (matched : (matchSegments segments parsed.pathSegments).isSome = true) :
    segments ≠ [] ∧ ∀ segment ∈ segments, segment.kind = .literal → '%'.toUInt8 ∉ segment.text := by
  obtain ⟨whole, parsedWhole, trimmedWhole⟩ := Outcome.map_eq_ok.mp normalized
  have some_ : segments ≠ [] := by
    rintro rfl
    rw [target, Http.writeTarget, List.foldl_nil, List.nil_append, ← List.nil_append query.toString] at parsedWhole
    cases (Http.parsePath_of_parseRequestTarget List.not_mem_nil parsedWhole).1
  refine ⟨some_, ?_⟩
  obtain ⟨front, notGreedy, frontLast⟩ := exists_front last
  obtain ⟨raws, written, plain, notLone⟩ := admitted.exists_raws some_ notGreedy frontLast texts query
  have question : '?'.toUInt8 ∉ '/'.toUInt8 :: join '/'.toUInt8 (front.map (Http.targetPiece labels) ++ raws) := by
    rw [List.mem_cons, not_or]
    exact ⟨by decide, Delimited.notMem_join (by decide) fun raw member => (plain raw member).2⟩
  rw [target, written] at parsedWhole
  have decoded := Http.of_parsePath_join notLone (fun raw member => (plain raw member).1)
    (Http.parsePath_of_parseRequestTarget question parsedWhole).2
  have shorter : parsed.pathSegments <+: whole.pathSegments := by
    rw [← trimmedWhole]
    split_ifs
    · exact List.dropLast_prefix _
    · exact List.prefix_rfl
  have looped : ∃ more, (matchLoop [] (front ++ more) parsed.pathSegments).isSome = true := by
    have goes := matchLoop_of_matchSegments matched
    rcases frontLast with rfl | ⟨name, rfl⟩
    · exact ⟨[], by rwa [List.append_nil]⟩
    · exact ⟨_, goes⟩
  obtain ⟨more, goes⟩ := looped
  obtain ⟨taken, others, same, each⟩ := literals_of_matchLoop notGreedy goes
  obtain ⟨rest, wholeEq⟩ := shorter
  rw [← wholeEq, same, List.append_assoc] at decoded
  have own := List.forall₂_take_append _ taken (others ++ rest) decoded
  rw [← each.length_eq, ← List.length_map (Http.targetPiece labels), List.take_left, List.forall₂_map_left_iff] at own
  -- A literal goes into the target as it stands, and its piece has been compared with it.
  have plainLiteral :
      List.Forall₂ (fun segment _ => (segment.kind = .literal → '%'.toUInt8 ∉ segment.text) ∧ True) front taken := by
    refine each.mp (fun segment piece equal ok => ⟨fun literal => ?_, trivial⟩) own
    rw [Http.targetPiece, literal, equal literal] at ok
    exact (Http.notMem_of_percentDecode ok).2 rfl
  have inFront := ((List.forall₂_and_left _ _).mp plainLiteral).1
  rcases frontLast with rfl | ⟨name, rfl⟩
  · exact inFront
  · rw [List.forall_mem_append, List.forall_mem_singleton]
    exact ⟨inFront, fun literal => by cases literal⟩

/-- Without a greedy label the router sees the texts of the labels between the literals. -/
theorem Fills.normalizedTarget_of_labels (fills : Fills labels segments) (some_ : segments ≠ [])
    (additions : List Http.Addition)
    {request : HttpRequest} (target : request.target =
      writeTarget [] segments labels (additions.foldl Http.Addition.apply {})) :
    ∃ params, Server.normalizedTarget request = .ok ⟨segments.map (decodedPiece labels), params⟩ := by
  have written : request.target = '/'.toUInt8 :: join '/'.toUInt8 (segments.map (Http.targetPiece labels)) ++
      (additions.foldl Http.Addition.apply {}).toString := by
    rw [target, Http.writeTarget, foldl_pieces, List.nil_append, flatMap_pieces _ some_]
  have nonempty : ∀ segment ∈ segments, decodedPiece labels segment ≠ [] := by
    intro segment member
    rw [decodedPiece]
    split_ifs with literal
    · exact (fills.parsed segment member).1.1
    · refine fills.texts segment member ?_
      have notGreedy := (fills.parsed segment member).2
      cases kind : segment.kind with
      | literal => exact absurd kind literal
      | label => rfl
      | greedy => exact absurd kind notGreedy
  have piecesNonempty : ∀ segment ∈ segments, Http.targetPiece labels segment ≠ [] := by
    intro segment member empty
    have decoded := (fills.piece member).2.2
    rw [empty, percentDecode, Except.ok.injEq] at decoded
    exact nonempty segment member decoded.symm
  have question : '?'.toUInt8 ∉ join '/'.toUInt8 (segments.map (Http.targetPiece labels)) := by
    apply Delimited.notMem_join (by decide)
    rw [List.forall_mem_map]
    exact fun segment member => (fills.piece member).1
  have parsed : Http.parsePath (join '/'.toUInt8 (segments.map (Http.targetPiece labels))) =
      .ok (segments.map (decodedPiece labels)) := by
    apply Http.parsePath_join
    · intro lone
      obtain ⟨segment, rfl, empty⟩ := List.map_eq_singleton_iff.mp lone
      exact piecesNonempty segment (List.mem_singleton_self _) empty
    · rw [List.forall₂_map_left_iff, List.forall₂_map_right_iff, List.forall₂_same]
      exact fun segment member => (fills.piece member).2
  have kept : (segments.map (decodedPiece labels)).getLast? ≠ some [] := by
    intro ends
    obtain ⟨segment, member, empty⟩ := List.mem_map.mp (List.mem_of_getLast? ends)
    exact nonempty segment member empty
  have whole := Http.parseRequestTarget_append additions question parsed
  rw [← written] at whole
  refine ⟨(additions.filter Http.Addition.Named).map Http.Addition.pair, ?_⟩
  rw [Server.normalizedTarget, whole]
  exact congrArg Except.ok (if_neg kept)

/-- A target leads back to the pattern it is made from: there is a segment, the literals are nothing else when
they are decoded, and something is left of the text of a greedy label. -/
structure LeadsBack (labels : Bytes → Bytes) (segments : List Segment) : Prop where
  some_ : segments ≠ []
  literals : ∀ segment ∈ segments, segment.kind = .literal → '%'.toUInt8 ∉ segment.text
  greedy : ∀ segment ∈ segments, segment.kind = .greedy → labels segment.text ≠ ascii "/"

theorem Admitted.matched_iff (admitted : Admitted segments) (last : GreedyLast segments)
    (texts : ∀ segment ∈ segments, segment.kind ≠ .literal → labels segment.text ≠ []) (additions : List Http.Addition)
    {request : HttpRequest} (target : request.target =
      writeTarget [] segments labels (additions.foldl Http.Addition.apply {})) :
    (∃ parsed, normalizedTarget request = .ok parsed ∧ (matchSegments segments parsed.pathSegments).isSome = true) ↔
      LeadsBack labels segments := by
  obtain ⟨front, notGreedy, frontLast⟩ := exists_front last
  have fills (literals : ∀ segment ∈ segments, segment.kind = .literal → '%'.toUInt8 ∉ segment.text)
      (inFront : ∀ segment ∈ front, segment ∈ segments) : Fills labels front := by
    constructor
    · intro segment member
      have within := inFront segment member
      exact ⟨⟨admitted.named segment within, fun _ => admitted.plain segment within⟩, notGreedy segment member⟩
    · intro segment member literal
      have within := inFront segment member
      exact ⟨literals segment within literal, (admitted.literals segment within literal).2.2⟩
    · intro segment member label
      exact texts segment (inFront segment member) (by rw [label]; decide)
  constructor
  · rintro ⟨parsed, normalized, matched⟩
    obtain ⟨some_, literals⟩ := admitted.of_matched last texts target normalized matched
    refine ⟨some_, literals, ?_⟩
    rcases frontLast with rfl | ⟨name, rfl⟩
    · exact fun segment member greedy => absurd greedy (notGreedy segment member)
    · rw [List.forall_mem_append, List.forall_mem_singleton]
      refine ⟨fun segment member greedy => absurd greedy (notGreedy segment member), fun _ slash => ?_⟩
      have nonempty : labels name ≠ [] := slash ▸ List.cons_ne_nil _ _
      have fills := fills literals fun segment member => List.mem_append_left _ member
      obtain ⟨pieces, notNil, params, joined, normalized'⟩ := fills.normalizedTarget nonempty additions target
      have none_ := fills.matchSegments name notNil
      rw [joined, if_pos ((trimmed_eq_nil nonempty).mpr slash)] at none_
      rw [normalized', Except.ok.injEq] at normalized
      rw [← normalized, none_] at matched
      cases matched
  · rintro ⟨some_, literals, slash⟩
    rcases frontLast with rfl | ⟨name, rfl⟩
    · have fills := fills literals fun segment member => member
      obtain ⟨params, normalized⟩ := fills.normalizedTarget_of_labels some_ additions target
      refine ⟨_, normalized, ?_⟩
      have goes := fills.matchLoop [] [] []
      rw [List.append_nil, List.append_nil, matchLoop] at goes
      have noGreedy : hasGreedy segments = false := by
        rw [hasGreedy, Option.any_eq_false]
        intro final ends
        exact decide_eq_false (notGreedy final (List.mem_of_getLast? ends))
      rw [matchSegments, noGreedy, if_neg (by decide), if_neg (fun differs => differs (List.length_map _)), goes]
      rfl
    · have nonempty :=
        texts ⟨.greedy, name⟩ (List.mem_append_right _ (List.mem_singleton_self _)) (fun same => by cases same)
      have differs := slash ⟨.greedy, name⟩ (List.mem_append_right _ (List.mem_singleton_self _)) rfl
      have fills := fills literals fun segment member => List.mem_append_left _ member
      obtain ⟨pieces, notNil, params, joined, normalized⟩ := fills.normalizedTarget nonempty additions target
      have found := fills.matchSegments name notNil
      rw [joined, if_neg fun nothing => differs ((trimmed_eq_nil nonempty).mp nothing)] at found
      obtain ⟨captured, found, _⟩ := found
      refine ⟨_, normalized, ?_⟩
      rw [found]
      rfl

end Target

/-! ## The service -/

theorem pairwise_of_rejectRouteConflicts {seen operations : List HttpOperation}
    (accepted : rejectRouteConflicts seen operations = .ok ()) :
    (∀ operation ∈ operations, ∀ existing ∈ seen, existing.routeShape ≠ operation.routeShape) ∧
      operations.Pairwise (·.routeShape ≠ ·.routeShape) := by
  induction operations generalizing seen with
  | nil => exact ⟨fun _ member => absurd member List.not_mem_nil, .nil⟩
  | cons operation operations ih =>
    rw [rejectRouteConflicts] at accepted
    cases found : seen.find? fun existing => existing.routeShape = operation.routeShape with
    | some existing =>
      rw [found] at accepted
      cases accepted
    | none =>
      rw [found] at accepted
      obtain ⟨later, apart⟩ := ih accepted
      rw [List.find?_eq_none] at found
      constructor
      · rw [List.forall_mem_cons]
        refine ⟨fun existing member => by simpa using found existing member, ?_⟩
        exact fun other member existing before => later other member existing (List.mem_append_left _ before)
      · refine .cons (fun other member => ?_) apart
        exact later other member operation (List.mem_append_right _ (List.mem_singleton_self _))

/-- Patterns of one shape have one text where labels are interchangeable. -/
theorem routeShape_of_sameShape {operation other : HttpOperation} (method : operation.method = other.method)
    (same : sameShape operation.segments other.segments = true) : operation.routeShape = other.routeShape := by
  rw [HttpOperation.routeShape, HttpOperation.routeShape, foldl_pieces, foldl_pieces, method]
  have pieces : operation.segments.map (fun segment => '/'.toUInt8 :: shapePiece segment) =
      other.segments.map fun segment => '/'.toUInt8 :: shapePiece segment := by
    rw [← List.forall₂_eq_eq_eq, List.forall₂_map_left_iff, List.forall₂_map_right_iff]
    refine (sameShape_iff.mp same).imp fun segment segment' ⟨kind, text⟩ => ?_
    rw [shapePiece, shapePiece, ← kind]
    cases literal : segment.kind with
    | literal => rw [text literal]
    | label => rfl
    | greedy => rfl
  rw [List.flatMap_def, List.flatMap_def, pieces]

theorem Router.foldl_of_addAll {start router : Router} {specs : List RouteSpec} (added : addAll start specs = .ok router) :
    specs.foldl (fun router spec => (spec.addTo router).1) start = router := by
  induction specs generalizing start with
  | nil =>
    cases added
    rfl
  | cons spec specs ih =>
    rw [addAll] at added
    rw [List.foldl_cons]
    generalize spec.addTo start = result at added ⊢
    obtain ⟨next, outcome⟩ := result
    cases outcome with
    | error error => cases added
    | ok done => exact ih added

/-- A request is dispatched to the entry that is found for its target. -/
theorem Router.exists_dispatch {router : Router} {request : HttpRequest} {best : RouteEntry} :
    (∃ context, router.dispatch request = .ok (best, context)) ↔ ∃ target, normalizedTarget request = .ok target ∧
      findBest RouteEntry.segments router.routes request.method target.pathSegments = some best := by
  rw [dispatch]
  cases normalizedTarget request with
  | error error => simp
  | ok target =>
    cases found : findBest RouteEntry.segments router.routes request.method target.pathSegments with
    | none => simp [found]
    | some other => simp [found]

namespace HttpOperation

/-- The arguments of its `Add`. -/
def spec (operation : HttpOperation) : RouteSpec :=
  ⟨operation.method, routePattern operation.segments, operation.handler, operation.name⟩

def entry (operation : HttpOperation) : RouteEntry := ⟨operation.segments, operation.handler, operation.name⟩

theorem generatedRouter_eq {operations : List HttpOperation} {router : Router}
    (added : Router.addAll {} ((unaryOperations operations).map spec) = .ok router) :
    generatedRouter operations = router := by
  rw [← Router.foldl_of_addAll added, List.foldl_map]
  rfl

theorem parsed_spec {operation : HttpOperation} (admitted : Admitted operation.segments)
    (last : GreedyLast operation.segments) :
    operation.spec.addition.parsed = operation.segments := by
  have parsed := admitted.parsePattern.mpr ⟨rfl, last⟩
  change (parsePattern (routePattern operation.segments)).toOption.getD [] = _
  rw [parsed]
  rfl

section Service

variable {operations : List HttpOperation} (admitted : ∀ operation ∈ operations, Admitted operation.segments)
  (generated : rejectRouteConflicts [] operations = .ok ())

include admitted generated in
/-- The routes of a server that is generated are added if no pattern has a greedy label before its last segment. -/
theorem exists_addAll : (∃ router, Router.addAll {} ((unaryOperations operations).map spec) = .ok router) ↔
    ∀ operation ∈ unaryOperations operations, GreedyLast operation.segments := by
  have inAll : ∀ operation ∈ unaryOperations operations, operation ∈ operations :=
    fun operation member => (List.mem_filter.mp member).1
  constructor
  · rintro ⟨router, added⟩ operation member
    have within : operation.spec.addition ∈ ((unaryOperations operations).map spec).map RouteSpec.addition :=
      List.mem_map_of_mem (List.mem_map_of_mem member)
    obtain ⟨parsed, parsing⟩ := (Router.holds_addAll added).compatible.1 _ within
    exact ((admitted operation (inAll operation member)).parsePattern.mp parsing).2
  · intro last
    have compatible : Compatible (((unaryOperations operations).map spec).map RouteSpec.addition) := by
      constructor
      · rw [List.forall_mem_map, List.forall_mem_map]
        intro operation member
        exact ⟨_, (admitted operation (inAll operation member)).parsePattern.mpr ⟨rfl, last operation member⟩⟩
      · rw [List.pairwise_map, List.pairwise_map]
        have apart : (unaryOperations operations).Pairwise (·.routeShape ≠ ·.routeShape) :=
          (pairwise_of_rejectRouteConflicts generated).2.filter _
        refine apart.imp_of_mem fun {operation other} member member' shapes method => ?_
        rw [parsed_spec (admitted _ (inAll _ member)) (last _ member),
          parsed_spec (admitted _ (inAll _ member')) (last _ member')]
        by_contra same
        exact shapes (routeShape_of_sameShape method (Bool.not_eq_false _ ▸ same))
    obtain ⟨routes, built⟩ := exists_addRoutes holds_nil compatible
    refine ⟨⟨routes⟩, ?_⟩
    rw [Router.addAll_routes]
    change (addRoutes [] _).map Router.mk = _
    rw [built]
    rfl

include admitted in
/-- The bucket of a method has the entries of its operations. -/
theorem mem_bucket (last : ∀ operation ∈ unaryOperations operations, GreedyLast operation.segments) {router : Router}
    (added : Router.addAll {} ((unaryOperations operations).map spec) = .ok router) (method : Bytes) (entry : RouteEntry) :
    entry ∈ bucket router.routes method ↔
      ∃ operation ∈ unaryOperations operations, operation.method = method ∧ operation.entry = entry := by
  have made {operation : HttpOperation} (member : operation ∈ unaryOperations operations) :
      operation.spec.addition.made = operation.entry :=
    congrArg _ (parsed_spec (admitted operation (List.mem_filter.mp member).1) (last operation member))
  rw [(Router.holds_addAll added).buckets, List.map_map, List.filter_map, List.map_map, List.mem_map]
  constructor
  · rintro ⟨operation, within, rfl⟩
    obtain ⟨within, same⟩ := List.mem_filter.mp within
    exact ⟨operation, within, of_decide_eq_true same, (made within).symm⟩
  · rintro ⟨operation, within, same, rfl⟩
    exact ⟨operation, List.mem_filter.mpr ⟨within, decide_eq_true same⟩, made within⟩

include admitted generated in
/-- Every route of the server is added and the request that an operation's own client builds is dispatched to the
operation, unless a route that is more specific takes its target, exactly if no pattern has a greedy label before its
last segment and the target leads back to the pattern it is made from. -/
theorem exists_dispatch_iff {operation : HttpOperation} (member : operation ∈ unaryOperations operations)
    {labels : Bytes → Bytes}
    (texts : ∀ segment ∈ operation.segments, segment.kind ≠ .literal → labels segment.text ≠ [])
    (members : List (Bytes × Bytes)) {request : HttpRequest} (method : request.method = operation.method)
    (target : request.target = operation.target labels members)
    (first : ∀ other ∈ unaryOperations operations, other.method = operation.method →
      moreSpecific other.segments operation.segments = true → ∀ parsed, normalizedTarget request = .ok parsed →
        (matchSegments other.segments parsed.pathSegments).isSome = false) :
    ((∃ router, Router.addAll {} ((unaryOperations operations).map spec) = .ok router) ∧
      ∃ context, (generatedRouter operations).dispatch request = .ok (operation.entry, context)) ↔
        (∀ other ∈ unaryOperations operations, GreedyLast other.segments) ∧ LeadsBack labels operation.segments := by
  have inAll : ∀ operation ∈ unaryOperations operations, operation ∈ operations :=
    fun operation member => (List.mem_filter.mp member).1
  rw [HttpOperation.target, writeQuery_eq] at target
  rw [exists_addAll admitted generated]
  refine and_congr_right fun last => ?_
  rw [← (admitted operation (inAll operation member)).matched_iff (last operation member) texts _ target]
  obtain ⟨router, added⟩ := (exists_addAll admitted generated).mpr last
  have holds := Router.holds_addAll added
  rw [generatedRouter_eq added, Router.exists_dispatch]
  refine exists_congr fun parsed => and_congr_right fun normalized => ?_
  constructor
  · intro found
    exact (List.mem_filter.mp (holds.findBest_eq_some.mp found).1).2
  · intro matched
    have inBucket := mem_bucket admitted last added operation.method
    have own : operation.entry ∈ bucket router.routes operation.method := (inBucket _).mpr ⟨operation, member, rfl, rfl⟩
    rw [method, holds.findBest_eq_some]
    refine ⟨List.mem_filter.mpr ⟨own, matched⟩, fun entry within differs => ?_⟩
    obtain ⟨within, matched'⟩ := List.mem_filter.mp within
    rw [moreSpecific_iff]
    rcases lt_trichotomy (ranks operation.entry.segments) (ranks entry.segments) with above | same | below
    · exact above
    · exact absurd (holds.distinct operation.method parsed.pathSegments entry within operation.entry own matched' matched
        same.symm)
        differs
    · obtain ⟨other, inUnary, sameMethod, rfl⟩ := (inBucket _).mp within
      have missed := first other inUnary sameMethod (moreSpecific_iff.mpr below) parsed normalized
      rw [Matches, HttpOperation.entry, missed] at matched'
      cases matched'

include admitted generated in
/-- Where every greedy label is the last segment, every route is added; and an operation that has a segment and no escape
in its literals is reached by its own client unless a greedy text is a slash alone or a route that is more specific takes
the target. -/
theorem dispatch_target (last : ∀ other ∈ unaryOperations operations, GreedyLast other.segments) {operation : HttpOperation}
    (member : operation ∈ unaryOperations operations) (some_ : operation.segments ≠ [])
    (literals : ∀ segment ∈ operation.segments, segment.kind = .literal → '%'.toUInt8 ∉ segment.text)
    {labels : Bytes → Bytes}
    (texts : ∀ segment ∈ operation.segments, segment.kind ≠ .literal → labels segment.text ≠ [])
    (members : List (Bytes × Bytes)) {request : HttpRequest} (method : request.method = operation.method)
    (target : request.target = operation.target labels members)
    (first : ∀ other ∈ unaryOperations operations, other.method = operation.method →
      moreSpecific other.segments operation.segments = true → ∀ parsed, normalizedTarget request = .ok parsed →
        (matchSegments other.segments parsed.pathSegments).isSome = false) :
    (∃ router, Router.addAll {} ((unaryOperations operations).map spec) = .ok router) ∧
      ((∃ context, (generatedRouter operations).dispatch request = .ok (operation.entry, context)) ↔
        ∀ segment ∈ operation.segments, segment.kind = .greedy → labels segment.text ≠ ascii "/") := by
  have reached := exists_dispatch_iff admitted generated member texts members method target first
  have added := (exists_addAll admitted generated).mpr last
  refine ⟨added, ?_⟩
  constructor
  · intro dispatched
    exact (reached.mp ⟨added, dispatched⟩).2.greedy
  · intro slash
    exact (reached.mpr ⟨last, some_, literals, slash⟩).2

end Service

/-- A label beside a literal that its text is not. -/
theorem dispatch_target_label :
    let get : HttpOperation :=
      ⟨ascii "ns#Get", ascii "Get", ascii "GET", [⟨.literal, ascii "a"⟩, ⟨.label, ascii "x"⟩], [], false, fun _ _ => {}⟩
    let list : HttpOperation :=
      ⟨ascii "ns#List", ascii "List", ascii "GET", [⟨.literal, ascii "a"⟩, ⟨.literal, ascii "b"⟩], [], false, fun _ _ => {}⟩
    (∃ router, Router.addAll {} ((unaryOperations [get, list]).map spec) = .ok router) ∧
      ∃ context, (generatedRouter [get, list]).dispatch { method := ascii "GET", target := ascii "/a/c%2Fd?k=v" } =
        .ok (get.entry, context) := by
  intro get list
  have admitted : ∀ operation ∈ [get, list], Admitted operation.segments := by
    rw [List.forall_mem_cons, List.forall_mem_singleton]
    exact ⟨⟨by decide, by decide, by decide, by decide⟩, ⟨by decide, by decide, by decide, by decide⟩⟩
  have generated : rejectRouteConflicts [] [get, list] = .ok () := by decide
  have first : ∀ other ∈ unaryOperations [get, list], other.method = get.method →
      moreSpecific other.segments get.segments = true → ∀ parsed,
        normalizedTarget { method := ascii "GET", target := ascii "/a/c%2Fd?k=v" } = .ok parsed →
          (matchSegments other.segments parsed.pathSegments).isSome = false := by
    intro other member _ above parsed normalized
    have whole : normalizedTarget { method := ascii "GET", target := ascii "/a/c%2Fd?k=v" } =
        .ok ⟨[ascii "a", ascii "c/d"], [(ascii "k", ascii "v")]⟩ := by decide +kernel
    rw [whole] at normalized
    cases normalized
    rcases List.mem_pair.mp member with rfl | rfl
    · exact absurd above (by decide)
    · decide
  let labels : Bytes → Bytes := fun _ => ascii "c/d"
  let request : HttpRequest := { method := ascii "GET", target := ascii "/a/c%2Fd?k=v" }
  have texts : ∀ segment ∈ get.segments, segment.kind ≠ .literal → labels segment.text ≠ [] :=
    fun _ _ _ => List.cons_ne_nil _ _
  have target : request.target = get.target labels [(ascii "k", ascii "v")] := by decide
  have reached :=
    dispatch_target admitted generated (by decide) List.mem_cons_self (by decide) (by decide) texts _ rfl target first
  exact ⟨reached.1, reached.2.mpr (by decide)⟩

/-- The client of the operation at the root sends a target that is none, a route with a literal after its greedy label is
dropped so that another operation answers, a literal with an escape is not what the router compares with, and nothing is
left of a slash. -/
theorem dispatch_target_fails :
    let operation (name : Bytes) (segments : List Segment) : HttpOperation :=
      ⟨ascii "ns#" ++ name, name, ascii "GET", segments, [], false, fun _ _ => {}⟩
    let root := operation (ascii "Root") []
    let nested := operation (ascii "Nested") [⟨.greedy, ascii "p"⟩, ⟨.literal, ascii "x"⟩]
    let pair := operation (ascii "Pair") [⟨.label, ascii "q"⟩, ⟨.label, ascii "r"⟩]
    let escaped := operation (ascii "Escaped") [⟨.literal, ascii "a%41"⟩]
    let files := operation (ascii "Files") [⟨.literal, ascii "files"⟩, ⟨.greedy, ascii "p"⟩]
    let operations := [root, nested, pair, escaped, files]
    let reached (operation : HttpOperation) (text : Bytes) := ((generatedRouter operations).dispatch
      { method := ascii "GET", target := operation.target (fun _ => text) [] }).toOption.map (·.1.operation)
    (∀ operation ∈ operations, Admitted operation.segments) ∧ rejectRouteConflicts [] operations = .ok () ∧
      (writeRoute {} nested).2.toOption = none ∧ reached root [] = none ∧
      reached nested (ascii "a") = some (ascii "Pair") ∧ reached escaped [] = none ∧
      reached files (ascii "/") = none ∧ reached files (ascii "a/b") = some (ascii "Files") := by
  refine ⟨?_, by decide, by decide +kernel, by decide +kernel, by decide +kernel, by decide +kernel, by decide +kernel,
    by decide +kernel⟩
  rintro operation member
  simp only [List.mem_cons, List.not_mem_nil, or_false] at member
  rcases member with rfl | rfl | rfl | rfl | rfl
  all_goals exact ⟨by decide, by decide, by decide, by decide⟩

end HttpOperation

end OpalCpp.Server

import OpalCpp.Model.Server.GeneratedRoutes
import OpalCpp.Proofs.Http.Uri
import OpalCpp.Proofs.Server.RouteTables

/-! # Greedy labels on the wire

The text of a greedy label keeps its slashes in the target, is cut at them and put together again. The
one that ends it is lost with the empty segment that the router drops.
-/

namespace OpalCpp.Server

open scoped Bytes
open Bytes (ascii)
open Delimited (cut join)
open OrderedMap (tryEmplace find? Ordered)
open Http (HttpRequest HttpResponse writeTarget targetPiece percentDecode)

/-- The text without the slash that ends it, if one does. -/
def trimmed (text : Bytes) : Bytes := if text.getLast? = some '/'.toUInt8 then text.dropLast else text

/-! ## The target -/

theorem foldl_pieces (piece : Segment → Bytes) (segments : List Segment) (start : Bytes) :
    segments.foldl (fun target segment => target ++ '/'.toUInt8 :: piece segment) start =
      start ++ segments.flatMap fun segment => '/'.toUInt8 :: piece segment := by
  induction segments generalizing start with
  | nil => rw [List.foldl_nil, List.flatMap_nil, List.append_nil]
  | cons segment segments ih => rw [List.foldl_cons, ih, List.flatMap_cons, List.append_assoc]

theorem flatMap_join (piece : Segment → Bytes) (segments : List Segment) {rest : List Bytes} (some_ : rest ≠ []) :
    (segments.flatMap fun segment => '/'.toUInt8 :: piece segment) ++ '/'.toUInt8 :: join '/'.toUInt8 rest =
      '/'.toUInt8 :: join '/'.toUInt8 (segments.map piece ++ rest) := by
  induction segments with
  | nil => rfl
  | cons segment segments ih =>
    rw [List.flatMap_cons, List.append_assoc, ih, List.map_cons, List.cons_append, List.cons_append,
      Delimited.join_cons _ (List.append_ne_nil_of_right_ne_nil _ some_)]

theorem flatMap_pieces (piece : Segment → Bytes) {segments : List Segment} (some_ : segments ≠ []) :
    (segments.flatMap fun segment => '/'.toUInt8 :: piece segment) =
      '/'.toUInt8 :: join '/'.toUInt8 (segments.map piece) := by
  obtain ⟨front, last, rfl⟩ : ∃ front last, segments = front ++ [last] :=
    ⟨_, _, (List.dropLast_append_getLast some_).symm⟩
  rw [List.flatMap_append, List.flatMap_singleton, List.map_append, List.map_singleton,
    ← flatMap_join piece front (List.cons_ne_nil _ _)]
  rfl

section Target

variable {front : List Segment} {name : Bytes} {labels : Bytes → Bytes}

/-- The decoded segment that a segment of the pattern makes. -/
def decodedPiece (labels : Bytes → Bytes) (segment : Segment) : Bytes :=
  if segment.kind = .literal then segment.text else labels segment.text

/-- What the generated client fills in: literals that mean themselves and texts that are not empty. -/
structure Fills (labels : Bytes → Bytes) (front : List Segment) : Prop where
  parsed : ∀ segment ∈ front, segment.Parsed ∧ segment.kind ≠ .greedy
  literals : ∀ segment ∈ front, segment.kind = .literal → '%'.toUInt8 ∉ segment.text ∧ '?'.toUInt8 ∉ segment.text
  texts : ∀ segment ∈ front, segment.kind = .label → labels segment.text ≠ []

/-- A piece of the target has no delimiter in it and is decoded to what it stands for. -/
theorem Fills.piece (fills : Fills labels front) {segment : Segment} (member : segment ∈ front) :
    '?'.toUInt8 ∉ targetPiece labels segment ∧ '/'.toUInt8 ∉ targetPiece labels segment ∧
      percentDecode (targetPiece labels segment) = .ok (decodedPiece labels segment) := by
  obtain ⟨⟨_, piece⟩, notGreedy⟩ := fills.parsed segment member
  have literals := fills.literals segment member
  rw [targetPiece, decodedPiece]
  cases kind : segment.kind with
  | literal =>
    obtain ⟨percent, question⟩ := literals kind
    exact ⟨question, piece kind, Http.percentDecode_plain percent⟩
  | label =>
    exact ⟨Http.notMem_encode (by decide) (by decide) (.inl rfl), Http.notMem_encode (by decide) (by decide) (.inl rfl),
      Http.percentDecode_encode false _⟩
  | greedy => exact absurd kind notGreedy

theorem Fills.parseRequestTarget (fills : Fills labels front) {pieces : List Bytes}
    (cutUp : join '/'.toUInt8 pieces = labels name)
    (without : ∀ piece ∈ pieces, '/'.toUInt8 ∉ piece) (some_ : labels name ≠ []) (additions : List Http.Addition) :
    ∃ params, Http.parseRequestTarget (writeTarget [] (front ++ [⟨.greedy, name⟩]) labels
      (additions.foldl Http.Addition.apply {})) = .ok ⟨front.map (decodedPiece labels) ++ pieces, params⟩ := by
  have notNil : pieces.map Http.encodePathSegment ≠ [] := by
    rw [ne_eq, List.map_eq_nil_iff]
    rintro rfl
    exact some_ cutUp.symm
  have path : writeTarget [] (front ++ [⟨.greedy, name⟩]) labels (additions.foldl Http.Addition.apply {}) =
      '/'.toUInt8 :: join '/'.toUInt8 (front.map (targetPiece labels) ++ pieces.map Http.encodePathSegment) ++
        (additions.foldl Http.Addition.apply {}).toString := by
    rw [writeTarget, foldl_pieces, List.nil_append, List.flatMap_append, List.flatMap_singleton, ← flatMap_join _ _ notNil,
      targetPiece, ← cutUp, Http.encodeGreedyPathSegment_join without]
  refine ⟨_, path ▸ Http.parseRequestTarget_append additions ?_ (Http.parsePath_join ?_ ?_)⟩
  · apply Delimited.notMem_join (by decide)
    rw [List.forall_mem_append]
    constructor
    · intro raw member
      obtain ⟨segment, inFront, rfl⟩ := List.mem_map.mp member
      exact (fills.piece inFront).1
    · intro raw member
      obtain ⟨piece, _, rfl⟩ := List.mem_map.mp member
      exact Http.notMem_encode (by decide) (by decide) (.inl rfl)
  · intro lone
    cases front with
    | nil =>
      obtain ⟨piece, rfl, empty⟩ := List.map_eq_singleton_iff.mp lone
      rw [Http.encodePathSegment, Http.encode_eq_nil] at empty
      rw [empty] at cutUp
      exact some_ cutUp.symm
    | cons segment front => exact notNil (List.append_eq_nil_iff.mp (List.cons.inj lone).2).2
  · apply List.rel_append
    · rw [List.forall₂_map_left_iff, List.forall₂_map_right_iff, List.forall₂_same]
      exact fun segment member => (fills.piece member).2
    · rw [List.forall₂_map_left_iff, List.forall₂_same]
      exact fun piece _ => ⟨Http.notMem_encode (by decide) (by decide) (.inl rfl), Http.percentDecode_encode false piece⟩

/-- The router sees the text without the slash that ends it, cut into pieces. -/
theorem Fills.normalizedTarget (fills : Fills labels front) (some_ : labels name ≠ []) (additions : List Http.Addition)
    {request : HttpRequest} (target : request.target = writeTarget [] (front ++ [⟨.greedy, name⟩]) labels
      (additions.foldl Http.Addition.apply {})) :
    ∃ pieces ≠ [], ∃ params, join '/'.toUInt8 pieces = trimmed (labels name) ∧
      normalizedTarget request = .ok ⟨front.map (decodedPiece labels) ++ pieces, params⟩ := by
  obtain ⟨pieces, notNil, cutUp, without⟩ := Delimited.exists_join '/'.toUInt8 (labels name)
  obtain ⟨params, parsed⟩ := fills.parseRequestTarget cutUp without some_ additions
  obtain ⟨before, last, rfl⟩ : ∃ before last, pieces = before ++ [last] :=
    ⟨_, _, (List.dropLast_append_getLast notNil).symm⟩
  have lastPiece : (front.map (decodedPiece labels) ++ (before ++ [last])).getLast? = some last := by
    rw [← List.append_assoc, List.getLast?_concat]
  by_cases empty : last = []
  · subst empty
    have notNil : before ≠ [] := by
      rintro rfl
      exact some_ cutUp.symm
    refine ⟨before, notNil, params, ?_, ?_⟩
    · rw [← cutUp, Delimited.join_concat notNil, trimmed, if_pos List.getLast?_concat, List.dropLast_concat]
    · rw [Server.normalizedTarget, target, parsed]
      simp only [Except.map]
      rw [if_pos lastPiece, ← List.append_assoc, List.dropLast_concat]
  · have kept : ¬ (labels name).getLast? = some '/'.toUInt8 := by
      intro slash
      have ends : (labels name).getLast? = last.getLast? := by
        rw [← cutUp]
        by_cases none_ : before = []
        · rw [none_]
          rfl
        · rw [Delimited.join_concat none_, List.getLast?_append_cons, List.getLast?_cons_of_ne_nil empty]
      rw [ends] at slash
      exact without last (List.mem_append_right _ (List.mem_singleton_self _)) (List.mem_of_getLast? slash)
    refine ⟨before ++ [last], notNil, params, ?_, ?_⟩
    · rw [trimmed, if_neg kept, cutUp]
    · rw [Server.normalizedTarget, target, parsed]
      simp only [Except.map]
      rw [if_neg]
      rw [lastPiece]
      simpa using empty

/-! ## The match -/

/-- The labels before the greedy one, as the loop captures them. -/
def captured (labels : Bytes → Bytes) (front : List Segment) (start : PathLabels) : PathLabels :=
  front.foldl (fun captured segment =>
    if segment.kind = .label then tryEmplace segment.text (labels segment.text) captured else captured) start

theorem Fills.matchLoop (fills : Fills labels front) (rest : List Segment) (target : List Bytes) (start : PathLabels) :
    matchLoop start (front ++ rest) (front.map (decodedPiece labels) ++ target) =
      matchLoop (captured labels front start) rest target := by
  induction front generalizing start with
  | nil => rfl
  | cons segment front ih =>
    obtain ⟨parsed, literals, texts⟩ := fills
    rw [List.forall_mem_cons] at parsed literals texts
    have next := ih ⟨parsed.2, literals.2, texts.2⟩
    rw [List.cons_append, List.map_cons, List.cons_append, captured, List.foldl_cons, ← captured, decodedPiece]
    cases kind : segment.kind with
    | literal =>
      simp only [reduceCtorEq, if_false, if_true]
      rw [matchLoop_literal kind, if_pos rfl, next]
    | label =>
      simp only [reduceCtorEq, if_false, if_true]
      rw [matchLoop_label kind, if_neg (texts.1 kind), next]
    | greedy => exact absurd kind parsed.1.2

/-- The labels hold their own texts, in order. -/
def Own (labels : Bytes → Bytes) (found : PathLabels) : Prop :=
  Ordered found ∧ ∀ name value, find? name found = some value → value = labels name

theorem Own.captured {start : PathLabels} (own : Own labels start) (front : List Segment) :
    Own labels (captured labels front start) := by
  induction front generalizing start with
  | nil => exact own
  | cons segment front ih =>
    rw [Server.captured, List.foldl_cons, ← Server.captured]
    split_ifs with label
    · refine ih ⟨own.1.tryEmplace _ _, ?_⟩
      intro name value found
      by_cases same : name = segment.text
      · rw [same, OrderedMap.find?_tryEmplace_self own.1] at found
        cases old : find? segment.text start with
        | none =>
          rw [old] at found
          cases found
          rw [same]
          rfl
        | some kept =>
          rw [old] at found
          cases found
          rw [same]
          exact own.2 _ _ old
      · rw [OrderedMap.find?_tryEmplace_of_ne same] at found
        exact own.2 name value found
    · exact ih own

theorem mem_keys_captured {start : PathLabels} {front : List Segment} :
    name ∈ (captured labels front start).map Prod.fst ↔
      name ∈ start.map Prod.fst ∨ ∃ segment ∈ front, segment.kind = .label ∧ segment.text = name := by
  induction front generalizing start with
  | nil => simp [captured]
  | cons segment front ih =>
    rw [captured, List.foldl_cons, ← captured, ih]
    split_ifs with label
    · rw [OrderedMap.mem_keys_tryEmplace, or_comm (a := name = segment.text), or_assoc]
      simp [label, eq_comm]
    · simp [label]

theorem trimmed_eq_nil {text : Bytes} (some_ : text ≠ []) : trimmed text = [] ↔ text = ascii "/" := by
  constructor
  · intro empty
    rw [trimmed] at empty
    split_ifs at empty with slash
    · have whole := List.dropLast_append_getLast? _ slash
      rw [empty] at whole
      exact whole.symm
    · exact absurd empty some_
  · rintro rfl
    rfl

/-- The pattern takes the target that was made from it, unless nothing is left of the greedy text. -/
theorem Fills.matchSegments (fills : Fills labels front) (name : Bytes) {pieces : List Bytes} (notNil : pieces ≠ []) :
    if join '/'.toUInt8 pieces = [] then
      Server.matchSegments (front ++ [⟨.greedy, name⟩]) (front.map (decodedPiece labels) ++ pieces) = none
    else ∃ found, Server.matchSegments (front ++ [⟨.greedy, name⟩]) (front.map (decodedPiece labels) ++ pieces) =
      some found ∧
      find? name found = some (if ∃ segment ∈ front, segment.kind = .label ∧ segment.text = name then labels name
        else join '/'.toUInt8 pieces) := by
  have greedy : hasGreedy (front ++ [⟨.greedy, name⟩]) = true := by
    rw [hasGreedy, List.getLast?_concat]
    rfl
  have long : ¬ (front.map (decodedPiece labels) ++ pieces).length < (front ++ [(⟨.greedy, name⟩ : Segment)]).length := by
    have := List.length_pos_iff.mpr notNil
    rw [List.length_append, List.length_append, List.length_map, List.length_singleton]
    omega
  have empty : Own labels [] := ⟨List.Pairwise.nil, fun _ _ found => by cases found⟩
  have own := empty.captured front
  rw [Server.matchSegments, if_pos greedy, if_neg long, fills.matchLoop]
  cases pieces with
  | nil => exact absurd rfl notNil
  | cons piece rest =>
    rw [matchLoop_greedy rfl]
    by_cases nothing : join '/'.toUInt8 (piece :: rest) = []
    · rw [if_pos nothing]
      have lone := (Delimited.join_eq_nil.mp nothing).resolve_left (List.cons_ne_nil _ _)
      rw [if_pos lone]
    · rw [if_neg nothing]
      have more : ¬ piece :: rest = [[]] := fun lone => nothing (by rw [lone]; rfl)
      refine ⟨_, if_neg more, ?_⟩
      rw [OrderedMap.find?_tryEmplace_self own.1]
      have named : name ∈ (captured labels front []).map Prod.fst ↔
          ∃ segment ∈ front, segment.kind = .label ∧ segment.text = name := by
        rw [mem_keys_captured]
        simp
      rw [← OrderedMap.find?_isSome] at named
      by_cases earlier : ∃ segment ∈ front, segment.kind = .label ∧ segment.text = name
      · obtain ⟨value, found⟩ := Option.isSome_iff_exists.mp (named.mpr earlier)
        rw [if_pos earlier, found, Option.getD_some, own.2 name value found]
      · have absent : find? name (captured labels front []) = none :=
          Option.not_isSome_iff_eq_none.mp fun found => earlier (named.mp found)
        rw [if_neg earlier, absent, Option.getD_none]

end Target

/-! ## The router -/

/-- A router with one route. -/
theorem add_empty {method pattern : Bytes} {segments : List Segment} (parsed : parsePattern pattern = .ok segments)
    (handler : RouteHandler) (operation : Bytes) :
    ({} : Router).add method pattern handler operation = (⟨[(method, [⟨segments, handler, operation⟩])]⟩, .ok ()) := by
  simp [Router.add, addRoute, parsed, tryEmplace, find?, OrderedMap.modify]

theorem dispatch_single {method : Bytes} {route : RouteEntry} {request : HttpRequest} {target : Http.RequestTarget}
    (same : request.method = method) (normalized : normalizedTarget request = .ok target) :
    (⟨[(method, [route])]⟩ : Router).dispatch request =
      match matchSegments route.segments target.pathSegments with
      | none => .error (makeErrorResponse 404 (ascii "NotFound") (ascii "no route matches the request"))
      | some labels => .ok (route, ⟨labels, target.queryParams, some request⟩) := by
  subst same
  rw [Router.dispatch, normalized]
  cases found : matchSegments route.segments target.pathSegments with
  | none => simp [findBest, find?, Selection.select, Selection.step, found, missed, allowed]
  | some labels => simp [findBest, find?, Selection.select, Selection.step, found]

/-- The text of a greedy label reaches the route without the slash that ends it; a slash alone reaches
nothing. An earlier label of the same name is captured in its place. -/
theorem dispatch_greedy {method pattern name : Bytes} {front : List Segment}
    (parsed : parsePattern pattern = .ok (front ++ [⟨.greedy, name⟩])) (handler : RouteHandler) (operation : Bytes)
    (literals : ∀ segment ∈ front, segment.kind = .literal → '%'.toUInt8 ∉ segment.text ∧ '?'.toUInt8 ∉ segment.text)
    (labels : Bytes → Bytes) (texts : ∀ segment ∈ front, segment.kind = .label → labels segment.text ≠ [])
    (some_ : labels name ≠ []) (additions : List Http.Addition) {request : HttpRequest} (same : request.method = method)
    (target : request.target = writeTarget [] (front ++ [⟨.greedy, name⟩]) labels
      (additions.foldl Http.Addition.apply {})) :
    if labels name = ascii "/" then
      (({} : Router).add method pattern handler operation).1.dispatch request =
        .error (makeErrorResponse 404 (ascii "NotFound") (ascii "no route matches the request"))
    else ∃ context, (({} : Router).add method pattern handler operation).1.dispatch request =
        .ok (⟨front ++ [⟨.greedy, name⟩], handler, operation⟩, context) ∧
      find? name context.labels = some (if ∃ segment ∈ front, segment.kind = .label ∧ segment.text = name then labels name
        else trimmed (labels name)) := by
  obtain ⟨greedyLast, each⟩ := parsePattern_facts parsed
  rw [GreedyLast, List.dropLast_concat] at greedyLast
  have fills : Fills labels front :=
    ⟨fun segment member => ⟨each segment (List.mem_append_left _ member), greedyLast segment member⟩, literals, texts⟩
  obtain ⟨pieces, notNil, params, joined, normalized⟩ := fills.normalizedTarget some_ additions target
  have matched := fills.matchSegments name notNil
  rw [add_empty parsed, dispatch_single same normalized]
  rw [joined] at matched
  dsimp only
  by_cases slash : labels name = ascii "/"
  · rw [if_pos ((trimmed_eq_nil some_).mpr slash)] at matched
    rw [if_pos slash, matched]
  · rw [if_neg fun nothing => slash ((trimmed_eq_nil some_).mp nothing)] at matched
    obtain ⟨found, matched, captured⟩ := matched
    rw [if_neg slash, matched]
    exact ⟨_, rfl, captured⟩

/-- Doubled slashes and one that ends the text, after a label that has a slash in its own. -/
theorem dispatch_greedy_doubled : ∃ context,
    (({} : Router).add (ascii "GET") (ascii "/b/\x7bx\x7d/\x7bp+\x7d") (fun _ _ => {}) []).1.dispatch
        { target := ascii "/b/1%2F2/a//b/" } =
      .ok (⟨[⟨.literal, ascii "b"⟩, ⟨.label, ascii "x"⟩] ++ [⟨.greedy, ascii "p"⟩], fun _ _ => {}, []⟩, context) ∧
    find? (ascii "p") context.labels = some (ascii "a//b") := by
  have parsed : parsePattern (ascii "/b/\x7bx\x7d/\x7bp+\x7d") =
      .ok ([⟨.literal, ascii "b"⟩, ⟨.label, ascii "x"⟩] ++ [⟨.greedy, ascii "p"⟩]) := by decide +kernel
  let request : HttpRequest := { target := ascii "/b/1%2F2/a//b/" }
  have same : request.method = ascii "GET" := rfl
  have routed := dispatch_greedy parsed (fun _ _ => {}) [] (by decide)
    (fun name => if name = ascii "x" then ascii "1/2" else ascii "a//b/") (by decide) (by decide) [] same (by decide)
  rw [if_neg (by decide)] at routed
  obtain ⟨context, dispatched, found⟩ := routed
  refine ⟨context, dispatched, found.trans ?_⟩
  decide

/-- The text of the label `path`, or the error response, when a client with these texts sends to a router
with this one route. -/
def roundTrip (pattern : Bytes) (segments : List Segment) (labels : Bytes → Bytes) : Except HttpResponse (Option Bytes) :=
  ((({} : Router).add (ascii "GET") pattern (fun _ _ => {}) []).1.dispatch
    { target := writeTarget [] segments labels {} }).map fun routed => find? (ascii "path") routed.2.labels

/-- The slash that ends the text is lost, a slash alone is not found, and neither is any text after a label
with an empty one or after a literal that means something else when it is decoded. -/
theorem roundTrip_fails :
    roundTrip (ascii "/files/\x7bpath+\x7d") [⟨.literal, ascii "files"⟩, ⟨.greedy, ascii "path"⟩] (fun _ => ascii "a/") =
      .ok (some (ascii "a")) ∧
    (∀ found, roundTrip (ascii "/files/\x7bpath+\x7d") [⟨.literal, ascii "files"⟩, ⟨.greedy, ascii "path"⟩]
      (fun _ => ascii "/") ≠ .ok found) ∧
    (∀ found, roundTrip (ascii "/\x7bx\x7d/\x7bpath+\x7d") [⟨.label, ascii "x"⟩, ⟨.greedy, ascii "path"⟩]
      (fun name => if name = ascii "x" then [] else ascii "a") ≠ .ok found) ∧
    ∀ found, roundTrip (ascii "/a%41/\x7bpath+\x7d") [⟨.literal, ascii "a%41"⟩, ⟨.greedy, ascii "path"⟩]
      (fun _ => ascii "a") ≠ .ok found := by
  have refuses {outcome : Except HttpResponse (Option Bytes)} (refused : outcome.toOption = none) :
      ∀ found, outcome ≠ .ok found := by
    rintro found rfl
    cases refused
  exact ⟨by decide +kernel, refuses (by decide +kernel), refuses (by decide +kernel), refuses (by decide +kernel)⟩

end OpalCpp.Server

import OpalCpp.Machine.Utf8
import OpalCpp.Model.Http.Uri

/-! # Request targets round-trip

What the encoder writes has none of the delimiters in it, so that cutting at the delimiters gives the
encoded parts again, and each of them is decoded to what it was.
-/

namespace OpalCpp.Http

open Bytes (ascii)
open Delimited (cut join)

/-! ## Percent-encoding -/

theorem kHex_facts {n : ℕ} (small : n < 16) :
    hexValue (kHex.getD n 0) = some (UInt8.ofNat n) ∧ isUnreserved (kHex.getD n 0) = true := by
  have all : ∀ n < 16, hexValue (kHex.getD n 0) = some (UInt8.ofNat n) ∧ isUnreserved (kHex.getD n 0) = true := by
    decide
  exact all n small

/-- The two halves of a byte. -/
theorem nibbles (c : UInt8) : (c >>> 4).toNat < 16 ∧ (c &&& 0xF).toNat < 16 ∧ (c >>> 4) <<< 4 ||| (c &&& 0xF) = c := by
  revert c
  exact forall_byte (by decide +kernel)

theorem hexValue_kHex {d : UInt8} (small : d.toNat < 16) : hexValue (kHex.getD d.toNat 0) = some d := by
  rw [(kHex_facts small).1, UInt8.ofNat_toNat]

theorem percentDecode_cons {c : UInt8} (plain : c ≠ '%'.toUInt8) (rest : Bytes) :
    percentDecode (c :: rest) = (percentDecode rest).map (c :: ·) := by
  rw [percentDecode.eq_def]
  exact if_pos plain

theorem percentDecode_plain {text : Bytes} (plain : '%'.toUInt8 ∉ text) : percentDecode text = .ok text := by
  induction text with
  | nil => rfl
  | cons c text ih =>
    rw [List.mem_cons, not_or] at plain
    rw [percentDecode_cons (Ne.symm plain.1), ih plain.2]
    rfl

theorem percentDecode_encode_append (keepSlash : Bool) (text rest : Bytes) :
    percentDecode (encode keepSlash text ++ rest) = (percentDecode rest).map (text ++ ·) := by
  induction text with
  | nil =>
    cases decoded : percentDecode rest with
    | error error => rw [encode, List.flatMap_nil, List.nil_append, decoded]; rfl
    | ok bytes => rw [encode, List.flatMap_nil, List.nil_append, decoded]; rfl
  | cons c text ih =>
    have step : percentDecode (encode keepSlash (c :: text) ++ rest) =
        (percentDecode (encode keepSlash text ++ rest)).map (c :: ·) := by
      rw [encode, List.flatMap_cons, ← encode, List.append_assoc]
      split_ifs with kept
      · have plain : c ≠ '%'.toUInt8 := by
          rintro rfl
          revert kept
          cases keepSlash with
          | false => decide
          | true => decide
        rw [List.singleton_append, percentDecode_cons plain]
      · obtain ⟨high, low, whole⟩ := nibbles c
        simp only [List.cons_append, List.nil_append, percentDecode, ne_eq, not_true_eq_false, if_false,
          hexValue_kHex high, hexValue_kHex low, whole]
    rw [step, ih]
    cases percentDecode rest with
    | error error => rfl
    | ok bytes => rfl

theorem percentDecode_encode (keepSlash : Bool) (text : Bytes) : percentDecode (encode keepSlash text) = .ok text := by
  have whole := percentDecode_encode_append keepSlash text []
  rwa [List.append_nil, percentDecode, Except.map, List.append_nil] at whole

/-- Every byte the encoder writes is unreserved, a percent sign or a slash that it keeps. -/
theorem mem_encode {keepSlash : Bool} {text : Bytes} {c : UInt8} (member : c ∈ encode keepSlash text) :
    isUnreserved c = true ∨ c = '%'.toUInt8 ∨ keepSlash = true ∧ c = '/'.toUInt8 := by
  obtain ⟨byte, _, written⟩ := List.mem_flatMap.mp member
  split_ifs at written with kept
  · rw [List.mem_singleton] at written
    rw [← written, Bool.or_eq_true, Bool.and_eq_true, decide_eq_true_eq] at kept
    exact kept.imp_right .inr
  · obtain ⟨high, low, _⟩ := nibbles byte
    simp only [List.mem_cons, List.not_mem_nil, or_false] at written
    obtain rfl | rfl | rfl := written
    · exact .inr (.inl rfl)
    · exact .inl (kHex_facts high).2
    · exact .inl (kHex_facts low).2

theorem notMem_encode {keepSlash : Bool} {text : Bytes} {c : UInt8} (reserved : isUnreserved c = false)
    (percent : c ≠ '%'.toUInt8) (slash : keepSlash = false ∨ c ≠ '/'.toUInt8) : c ∉ encode keepSlash text := by
  intro member
  obtain unreserved | same | ⟨kept, same⟩ := mem_encode member
  · rw [reserved] at unreserved
    cases unreserved
  · exact percent same
  · exact slash.elim (fun cut => by rw [kept] at cut; cases cut) fun other => other same

theorem encode_eq_nil {keepSlash : Bool} {text : Bytes} : encode keepSlash text = [] ↔ text = [] := by
  constructor
  · intro empty
    have decoded := percentDecode_encode keepSlash text
    rw [empty] at decoded
    cases decoded
    rfl
  · rintro rfl
    rfl

/-- A text that keeps its slashes is encoded piece by piece. -/
theorem encodeGreedyPathSegment_join {pieces : List Bytes} (without : ∀ piece ∈ pieces, '/'.toUInt8 ∉ piece) :
    encodeGreedyPathSegment (join '/'.toUInt8 pieces) = join '/'.toUInt8 (pieces.map encodePathSegment) := by
  have plain {piece : Bytes} (without : '/'.toUInt8 ∉ piece) : encodeGreedyPathSegment piece = encodePathSegment piece := by
    apply List.flatMap_congr
    intro c member
    have other : c ≠ '/'.toUInt8 := fun same => without (same ▸ member)
    simp [other]
  induction pieces with
  | nil => rfl
  | cons piece pieces ih =>
    rw [List.forall_mem_cons] at without
    by_cases none_ : pieces = []
    · rw [none_]
      exact plain without.1
    · have slash : encodeGreedyPathSegment ['/'.toUInt8] = ['/'.toUInt8] := by decide
      have append (first second : Bytes) : encodeGreedyPathSegment (first ++ second) =
          encodeGreedyPathSegment first ++ encodeGreedyPathSegment second := List.flatMap_append ..
      rw [Delimited.join_cons piece none_, List.map_cons, Delimited.join_cons _ (by simpa using none_), List.append_cons,
        append, append, slash, plain without.1, ih without.2, ← List.append_cons]

/-- A text that is itself when it is decoded has no escape in it. -/
theorem notMem_of_percentDecode {text decoded : Bytes} (accepted : percentDecode text = .ok decoded) :
    decoded.length ≤ text.length ∧ (decoded.length = text.length → '%'.toUInt8 ∉ text) := by
  fun_induction percentDecode text generalizing decoded with
  | case1 =>
    cases accepted
    exact ⟨le_refl _, fun _ => List.not_mem_nil⟩
  | case2 c rest plain ih =>
    obtain ⟨later, ok, rfl⟩ := Outcome.map_eq_ok.mp accepted
    obtain ⟨short, same⟩ := ih ok
    refine ⟨Nat.succ_le_succ short, fun equal => ?_⟩
    rw [List.mem_cons, not_or]
    exact ⟨Ne.symm plain, same (Nat.succ_injective equal)⟩
  | case3 c rest percent first second high highOk low lowOk ih =>
    obtain ⟨later, ok, rfl⟩ := Outcome.map_eq_ok.mp accepted
    have short := (ih ok).1
    simp only [List.length_cons]
    omega
  | case4 => cases accepted
  | case5 => cases accepted

/-! ## The path -/

theorem parsePath_last {path raw : Bytes} (some_ : path ≠ []) (last : cut '/'.toUInt8 path = (raw, none)) :
    parsePath path = (percentDecode raw).map ([·]) := by
  rw [parsePath, if_neg some_]
  split
  · rename_i split
    rw [last] at split
    cases split
    rfl
  · rename_i split
    rw [last] at split
    cases split

theorem parsePath_next {path raw rest : Bytes} (next : cut '/'.toUInt8 path = (raw, some rest)) :
    parsePath path = (percentDecode raw).bind fun decoded =>
      if rest = [] then .ok [decoded, []] else (parsePath rest).map (decoded :: ·) := by
  have some_ : path ≠ [] := by
    rintro rfl
    cases next
  rw [parsePath, if_neg some_]
  split
  · rename_i split
    rw [next] at split
    cases split
  · rename_i split
    rw [next] at split
    cases split
    cases percentDecode raw with
    | error error => rfl
    | ok decoded =>
      by_cases ends : rest = []
      · simp only [ends, if_true]
        rfl
      · simp only [ends, if_false, bind, Except.bind]
        cases parsePath rest with
        | error error => rfl
        | ok segments => rfl

/-- Pieces without slashes come back from between the slashes, each of them decoded; a single empty piece
leaves no path. -/
theorem parsePath_join {raws segments : List Bytes} (notLone : raws ≠ [[]])
    (decoded : List.Forall₂ (fun raw segment => '/'.toUInt8 ∉ raw ∧ percentDecode raw = .ok segment) raws segments) :
    parsePath (join '/'.toUInt8 raws) = .ok segments := by
  induction decoded with
  | nil => rw [join, parsePath, if_pos rfl]
  | @cons raw segment raws segments first rest ih =>
    cases rest with
    | nil =>
      have some_ : raw ≠ [] := fun empty => notLone (by rw [empty])
      rw [join, parsePath_last some_ (Delimited.cut_of_notMem first.1), first.2]
      rfl
    | @cons next decodedNext raws segments second rest =>
      rw [join, parsePath_next (Delimited.cut_append first.1 _), first.2, Except.bind]
      by_cases lone : next :: raws = [[]]
      · obtain ⟨rfl, rfl⟩ := List.cons.inj lone
        cases rest
        cases second.2
        rfl
      · rw [if_neg fun empty => (Delimited.join_eq_nil.mp empty).elim (List.cons_ne_nil _ _) lone, ih lone]
        rfl

/-- The segments of a path are its pieces, decoded. -/
theorem of_parsePath_join {raws segments : List Bytes} (notLone : raws ≠ [[]]) (plain : ∀ raw ∈ raws, '/'.toUInt8 ∉ raw)
    (accepted : parsePath (join '/'.toUInt8 raws) = .ok segments) :
    List.Forall₂ (fun raw segment => percentDecode raw = .ok segment) raws segments := by
  induction raws generalizing segments with
  | nil =>
    rw [join, parsePath, if_pos rfl] at accepted
    cases accepted
    exact .nil
  | cons raw raws ih =>
    rw [List.forall_mem_cons] at plain
    cases raws with
    | nil =>
      have some_ : raw ≠ [] := fun empty => notLone (by rw [empty])
      rw [join, parsePath_last some_ (Delimited.cut_of_notMem plain.1)] at accepted
      obtain ⟨segment, ok, rfl⟩ := Outcome.map_eq_ok.mp accepted
      exact .cons ok .nil
    | cons next rest =>
      rw [join, parsePath_next (Delimited.cut_append plain.1 _)] at accepted
      obtain ⟨segment, ok, accepted⟩ := Outcome.bind_eq_ok.mp accepted
      by_cases lone : next :: rest = [[]]
      · obtain ⟨rfl, rfl⟩ := List.cons.inj lone
        rw [if_pos (Delimited.join_eq_nil.mpr (.inr rfl))] at accepted
        cases accepted
        exact .cons ok (.cons rfl .nil)
      · rw [if_neg fun empty => (Delimited.join_eq_nil.mp empty).elim (List.cons_ne_nil _ _) lone] at accepted
        obtain ⟨segments, okNext, rfl⟩ := Outcome.map_eq_ok.mp accepted
        exact .cons ok (ih lone plain.2 okNext)

theorem parsePath_encoded {segments : List Bytes} (notLone : segments ≠ [[]]) :
    parsePath (join '/'.toUInt8 (segments.map encodePathSegment)) = .ok segments := by
  apply parsePath_join
  · intro lone
    obtain ⟨segment, rfl, empty⟩ := List.map_eq_singleton_iff.mp lone
    rw [encodePathSegment, encode_eq_nil] at empty
    exact notLone (by rw [empty])
  · rw [List.forall₂_map_left_iff, List.forall₂_same]
    exact fun segment _ => ⟨notMem_encode (by decide) (by decide) (.inl rfl), percentDecode_encode false segment⟩

/-! ## The query -/

theorem parseQuery_last {query : Bytes} (last : '&'.toUInt8 ∉ query) : parseQuery query = parsePair query := by
  by_cases none_ : query = []
  · rw [parseQuery, if_pos none_, parsePair, if_pos none_]
  rw [parseQuery, if_neg none_]
  split
  · rename_i split
    rw [Delimited.cut_of_notMem last] at split
    cases split
    rfl
  · rename_i split
    rw [Delimited.cut_of_notMem last] at split
    cases split

theorem parseQuery_next {pair rest : Bytes} (plain : '&'.toUInt8 ∉ pair) :
    parseQuery (pair ++ '&'.toUInt8 :: rest) =
      (parsePair pair).bind fun params => (parseQuery rest).map (params ++ ·) := by
  rw [parseQuery, if_neg (by simp)]
  split
  · rename_i split
    rw [Delimited.cut_append plain] at split
    cases split
  · rename_i split
    rw [Delimited.cut_append plain] at split
    cases split
    cases parsePair pair with
    | error error => rfl
    | ok params =>
      simp only [bind, Except.bind]
      cases parseQuery rest with
      | error error => rfl
      | ok more => rfl

/-- A parameter as it is added to a query string. -/
inductive Addition where
  | add (key value : Bytes)
  | addFlag (key : Bytes)

namespace Addition

def apply (query : QueryString) : Addition → QueryString
  | add key value => query.add key value
  | addFlag key => query.addFlag key

/-- The key and the value that are meant. -/
def pair : Addition → Bytes × Bytes
  | add key value => (key, value)
  | addFlag key => (key, [])

/-- A flag has a name. -/
def Named : Addition → Prop
  | add _ _ => True
  | addFlag key => key ≠ []

instance : DecidablePred Named
  | add _ _ => inferInstanceAs (Decidable True)
  | addFlag key => inferInstanceAs (Decidable (key ≠ []))

def param : Addition → Param
  | add key value => ⟨encodeQueryComponent key, encodeQueryComponent value, false⟩
  | addFlag key => ⟨encodeQueryComponent key, [], true⟩

theorem params_foldl (additions : List Addition) (query : QueryString) :
    (additions.foldl apply query).params = query.params ++ additions.map param := by
  induction additions generalizing query with
  | nil => rw [List.foldl_nil, List.map_nil, List.append_nil]
  | cons addition additions ih =>
    rw [List.foldl_cons, ih, List.map_cons]
    cases addition with
    | add key value => rw [apply, QueryString.add, List.append_assoc]; rfl
    | addFlag key => rw [apply, QueryString.addFlag, List.append_assoc]; rfl

theorem notMem_component (text : Bytes) {c : UInt8} (reserved : isUnreserved c = false) (percent : c ≠ '%'.toUInt8) :
    c ∉ encodeQueryComponent text := notMem_encode reserved percent (.inl rfl)

/-- The written parameter has no ampersand, and is parsed to what was meant; a flag without a name is
nothing. -/
theorem printed_facts (addition : Addition) : '&'.toUInt8 ∉ QueryString.printed addition.param ∧
    parsePair (QueryString.printed addition.param) = .ok (if addition.Named then [addition.pair] else []) := by
  cases addition with
  | add key value =>
    constructor
    · simp only [QueryString.printed, param, Bool.false_eq_true, if_false, List.mem_append, List.mem_cons, not_or]
      exact ⟨notMem_component key (by decide) (by decide), by decide, notMem_component value (by decide) (by decide)⟩
    · have split : cut '='.toUInt8 (encodeQueryComponent key ++ '='.toUInt8 :: encodeQueryComponent value) =
          (encodeQueryComponent key, some (encodeQueryComponent value)) :=
        Delimited.cut_append (notMem_component key (by decide) (by decide)) _
      simp only [QueryString.printed, param, Bool.false_eq_true, if_false]
      rw [parsePair, if_neg (by simp), split]
      dsimp only
      rw [Option.getD_some, encodeQueryComponent, encodeQueryComponent, percentDecode_encode, percentDecode_encode]
      rfl
  | addFlag key =>
    refine ⟨notMem_component key (by decide) (by decide), ?_⟩
    simp only [QueryString.printed, param, if_true]
    by_cases none_ : key = []
    · rw [none_]
      rfl
    · have split : cut '='.toUInt8 (encodeQueryComponent key) = (encodeQueryComponent key, none) :=
        Delimited.cut_of_notMem (notMem_component key (by decide) (by decide))
      have some_ : encodeQueryComponent key ≠ [] := fun empty => none_ (encode_eq_nil.mp empty)
      rw [parsePair, if_neg some_, split, if_pos (show (addFlag key).Named from none_)]
      dsimp only
      rw [Option.getD_none, encodeQueryComponent, percentDecode_encode]
      rfl

/-- The written parameters with ampersands between them are parsed to what was meant. -/
theorem parseQuery_join (additions : List Addition) :
    parseQuery (join '&'.toUInt8 ((additions.map param).map QueryString.printed)) =
      .ok ((additions.filter Named).map pair) := by
  induction additions with
  | nil => rw [List.map_nil, List.map_nil, join, parseQuery, if_pos rfl, List.filter_nil, List.map_nil]
  | cons addition additions ih =>
    obtain ⟨plain, parsed⟩ := printed_facts addition
    have head : (if addition.Named then [addition.pair] else []) ++ (additions.filter Named).map pair =
        ((addition :: additions).filter Named).map pair := by
      rw [List.filter_cons]
      by_cases named : addition.Named
      · simp [named]
      · simp [named]
    cases additions with
    | nil =>
      rw [List.filter_nil, List.map_nil, List.append_nil] at head
      rw [List.map_singleton, List.map_singleton, join, parseQuery_last plain, parsed, head]
    | cons next rest =>
      rw [List.map_cons, List.map_cons] at ih
      rw [List.map_cons, List.map_cons, List.map_cons, List.map_cons, join, parseQuery_next plain, parsed, Except.bind, ih,
        ← head]
      rfl

end Addition

/-! ## The target -/

theorem parseRequestTarget_append {path : Bytes} {segments : List Bytes} (additions : List Addition)
    (plain : '?'.toUInt8 ∉ path) (parsed : parsePath path = .ok segments) :
    parseRequestTarget ('/'.toUInt8 :: path ++ (additions.foldl Addition.apply {}).toString) =
      .ok ⟨segments, (additions.filter Addition.Named).map Addition.pair⟩ := by
  have plain' : '?'.toUInt8 ∉ '/'.toUInt8 :: path := by
    rw [List.mem_cons, not_or]
    exact ⟨by decide, plain⟩
  have params : (additions.foldl Addition.apply {}).params = additions.map Addition.param := by
    rw [Addition.params_foldl, List.nil_append]
  by_cases none_ : additions = []
  · subst none_
    rw [List.foldl_nil, QueryString.toString, if_pos rfl, List.append_nil, parseRequestTarget,
      Delimited.cut_of_notMem plain']
    simp only [List.head?_cons, ne_eq, not_true_eq_false, if_false, List.tail_cons, parsed]
    rw [Option.getD_none, parseQuery, if_pos rfl]
    rfl
  · have some_ : (additions.foldl Addition.apply {}).params ≠ [] := by
      rw [params, ne_eq, List.map_eq_nil_iff]
      exact none_
    rw [QueryString.toString, if_neg some_, params, parseRequestTarget, Delimited.cut_append plain']
    simp only [List.head?_cons, ne_eq, not_true_eq_false, if_false, List.tail_cons, parsed]
    rw [Option.getD_some, Addition.parseQuery_join]
    rfl

theorem QueryString.toString_cases (query : QueryString) :
    query.toString = [] ∨ ∃ rest, query.toString = '?'.toUInt8 :: rest := by
  rw [toString]
  split_ifs
  · exact .inl rfl
  · exact .inr ⟨_, rfl⟩

/-- What is parsed as the path is what is before the query. -/
theorem parsePath_of_parseRequestTarget {path : Bytes} {query : QueryString} {target : RequestTarget}
    (plain : '?'.toUInt8 ∉ path)
    (accepted : parseRequestTarget (path ++ query.toString) = .ok target) :
    path.head? = some '/'.toUInt8 ∧ parsePath path.tail = .ok target.pathSegments := by
  have before : ∃ rest, cut '?'.toUInt8 (path ++ query.toString) = (path, rest) := by
    rcases query.toString_cases with none_ | ⟨rest, some_⟩
    · rw [none_, List.append_nil]
      exact ⟨_, Delimited.cut_of_notMem plain⟩
    · rw [some_]
      exact ⟨_, Delimited.cut_append plain rest⟩
  obtain ⟨rest, before⟩ := before
  rw [parseRequestTarget, before] at accepted
  dsimp only at accepted
  split_ifs at accepted with slash
  obtain ⟨segments, parsed, accepted⟩ := Outcome.bind_eq_ok.mp accepted
  obtain ⟨params, _, accepted⟩ := Outcome.bind_eq_ok.mp accepted
  cases accepted
  exact ⟨not_not.mp slash, parsed⟩

/-- Request targets round-trip from client to server. -/
theorem parseRequestTarget_encoded {segments : List Bytes} {additions : List Addition} (notLone : segments ≠ [[]])
    (named : ∀ addition ∈ additions, addition.Named) :
    parseRequestTarget ('/'.toUInt8 :: join '/'.toUInt8 (segments.map encodePathSegment) ++
      (additions.foldl Addition.apply {}).toString) = .ok ⟨segments, additions.map Addition.pair⟩ := by
  have every : additions.filter Addition.Named = additions :=
    List.filter_eq_self.mpr fun addition member => decide_eq_true (named addition member)
  rw [← every, parseRequestTarget_append _ _ (parsePath_encoded notLone), every, every]
  apply Delimited.notMem_join (by decide)
  intro raw member
  obtain ⟨segment, _, rfl⟩ := List.mem_map.mp member
  exact notMem_encode (by decide) (by decide) (.inl rfl)

/-- Delimiters in a segment, in a key and in a value, an empty last segment and a flag. -/
theorem parseRequestTarget_encoded_delimiters : parseRequestTarget ('/'.toUInt8 ::
    join '/'.toUInt8 ([ascii "a/b?", []].map encodePathSegment) ++
      ([Addition.add (ascii "k=") (ascii "&"), Addition.addFlag (ascii "f")].foldl Addition.apply {}).toString) =
      .ok ⟨[ascii "a/b?", []], [(ascii "k=", ascii "&"), (ascii "f", [])]⟩ := by
  have named : ∀ addition ∈ [Addition.add (ascii "k=") (ascii "&"), Addition.addFlag (ascii "f")], addition.Named := by
    rw [List.forall_mem_cons, List.forall_mem_singleton]
    exact ⟨trivial, by rw [Addition.Named]; decide⟩
  exact parseRequestTarget_encoded (by decide) named

end OpalCpp.Http

import OpalCpp.Model.Http.ServerDispatch

/-! # The identity of a request

Fields by their name, the contexts that are minted, and what a handler finds of the trace of the request that it is
called with.
-/

namespace OpalCpp.Http

open Bytes (ascii)

/-! ## Fields of a name -/

theorem headerNameEquals_comm (a b : Bytes) : headerNameEquals a b = headerNameEquals b a := by
  rw [headerNameEquals, headerNameEquals, decide_eq_decide, eq_comm]

/-- Names that are equal are equal to the same names. -/
theorem headerNameEquals_congr {a b : Bytes} (same : headerNameEquals a b = true) (c : Bytes) :
    headerNameEquals a c = headerNameEquals b c := by
  rw [headerNameEquals, decide_eq_true_eq] at same
  rw [headerNameEquals, headerNameEquals, same]

namespace Headers

variable {headers : Headers} {name other value : Bytes}

theorem get?_eq_head? (headers : Headers) (name : Bytes) : headers.get? name = (headers.getAll name).head? := by
  rw [get?, getAll, List.head?_map, List.head?_filter]

theorem has_eq_isSome (headers : Headers) (name : Bytes) : headers.has name = !(headers.getAll name).isEmpty := by
  rw [has, get?_eq_head?]
  cases headers.getAll name <;> rfl

theorem getAll_nil (name : Bytes) : getAll {} name = [] := rfl

theorem getAll_cons (field : Bytes × Bytes) (fields : List (Bytes × Bytes)) (name : Bytes) :
    getAll ⟨field :: fields⟩ name =
      if headerNameEquals field.1 name then field.2 :: getAll ⟨fields⟩ name else getAll ⟨fields⟩ name := by
  rw [getAll, getAll, List.filter_cons]
  split_ifs <;> rfl

theorem getAll_append (fields more : List (Bytes × Bytes)) (name : Bytes) :
    getAll ⟨fields ++ more⟩ name = getAll ⟨fields⟩ name ++ getAll ⟨more⟩ name := by
  rw [getAll, getAll, getAll, List.filter_append, List.map_append]

theorem getAll_add (headers : Headers) (name value other : Bytes) :
    (headers.add name value).getAll other = headers.getAll other ++ if headerNameEquals name other then [value] else [] := by
  rw [add, getAll_append, getAll_cons]
  rfl

theorem getAll_remove (headers : Headers) (name other : Bytes) :
    (headers.remove name).getAll other = if headerNameEquals name other then [] else headers.getAll other := by
  rw [remove, getAll, getAll, List.filter_filter]
  split_ifs with same
  · rw [List.map_eq_nil_iff, List.filter_eq_nil_iff]
    intro field _
    rw [headerNameEquals_comm field.1, headerNameEquals_comm field.1, headerNameEquals_congr same]
    cases headerNameEquals other field.1 <;> decide
  · congr 1
    apply List.filter_congr
    intro field _
    cases found : headerNameEquals field.1 other with
    | false => rw [Bool.false_and]
    | true =>
      rw [headerNameEquals_comm, ← headerNameEquals_congr found, Bool.not_eq_true] at same
      rw [same]
      rfl

theorem getAll_set (headers : Headers) (name value other : Bytes) :
    (headers.set name value).getAll other = if headerNameEquals name other then [value] else headers.getAll other := by
  rw [set, getAll_add, getAll_remove]
  split_ifs <;> simp

end Headers

/-! ## Contexts -/

/-- The fields have the digits that the header takes. -/
structure TraceContext.Valid (context : TraceContext) : Prop where
  traceHex : isLowerHex context.traceId = true
  traceLength : context.traceId.length = 32
  traceSome : allZeros context.traceId = false
  parentHex : isLowerHex context.parentId = true
  parentLength : context.parentId.length = 16
  parentSome : allZeros context.parentId = false

theorem substr_middle {before text : Bytes} {pos count : ℕ} (at_ : before.length = pos) (long : text.length = count)
    (after : Bytes) : (before ++ (text ++ after)).substr pos count = text := by
  rw [Bytes.substr, List.drop_left' at_, List.take_left' long]

theorem getElem?_middle {before : Bytes} {pos : ℕ} (at_ : before.length = pos) (c : UInt8) (after : Bytes) :
    (before ++ c :: after)[pos]? = some c := by
  rw [List.getElem?_append_right at_.le, at_, Nat.sub_self, List.getElem?_cons_zero]

/-- What is printed is parsed. -/
theorem parseTraceparent_formatTraceparent {context : TraceContext} (valid : context.Valid) :
    parseTraceparent (formatTraceparent context) = some context := by
  obtain ⟨traceHex, traceLength, traceSome, parentHex, parentLength, parentSome⟩ := valid
  obtain ⟨traceId, parentId, sampled⟩ := context
  simp only [] at *
  have flags : (if sampled then ascii "-01" else ascii "-00") =
      '-'.toUInt8 :: (if sampled then ascii "01" else ascii "00") := by
    cases sampled <;> rfl
  have written : formatTraceparent ⟨traceId, parentId, sampled⟩ =
      ascii "00" ++ '-'.toUInt8 :: (traceId ++ '-'.toUInt8 :: (parentId ++
        '-'.toUInt8 :: (if sampled then ascii "01" else ascii "00"))) := by
    rw [formatTraceparent, flags]
    simp [ascii]
  have behind : (traceId ++ '-'.toUInt8 :: parentId).length = 49 := by
    rw [List.length_append, List.length_cons, traceLength, parentLength]
  have flagsLong : (if sampled then ascii "01" else ascii "00").length = 2 := by
    cases sampled <;> rfl
  generalize shown : (if sampled then ascii "01" else ascii "00") = digits at *
  have long : (formatTraceparent ⟨traceId, parentId, sampled⟩).length = 55 := by
    rw [written]
    simp [traceLength, parentLength, flagsLong, ascii]
  have first : (formatTraceparent ⟨traceId, parentId, sampled⟩)[2]? = some '-'.toUInt8 := by
    rw [written]
    exact getElem?_middle (by decide) _ _
  have second : (formatTraceparent ⟨traceId, parentId, sampled⟩)[35]? = some '-'.toUInt8 := by
    have middle := getElem?_middle (show (ascii "00" ++ '-'.toUInt8 :: traceId).length = 35 by simp [traceLength, ascii])
      '-'.toUInt8 (parentId ++ '-'.toUInt8 :: digits)
    simpa [written] using middle
  have third : (formatTraceparent ⟨traceId, parentId, sampled⟩)[52]? = some '-'.toUInt8 := by
    have middle := getElem?_middle (show (ascii "00" ++ '-'.toUInt8 :: (traceId ++ '-'.toUInt8 :: parentId)).length = 52 by
      simp [traceLength, parentLength, ascii]) '-'.toUInt8 digits
    simpa [written] using middle
  have version : (formatTraceparent ⟨traceId, parentId, sampled⟩).substr 0 2 = ascii "00" := by
    rw [written]
    exact @substr_middle [] (ascii "00") 0 2 rfl rfl _
  have traced : (formatTraceparent ⟨traceId, parentId, sampled⟩).substr 3 32 = traceId := by
    have middle := substr_middle (show (ascii "00" ++ ['-'.toUInt8]).length = 3 from rfl) traceLength
      ('-'.toUInt8 :: (parentId ++ '-'.toUInt8 :: digits))
    simpa [written] using middle
  have spanned : (formatTraceparent ⟨traceId, parentId, sampled⟩).substr 36 16 = parentId := by
    have middle := substr_middle (show (ascii "00" ++ '-'.toUInt8 :: (traceId ++ ['-'.toUInt8])).length = 36 by
      simp [traceLength, ascii]) parentLength ('-'.toUInt8 :: digits)
    simpa [written] using middle
  have flagged : (formatTraceparent ⟨traceId, parentId, sampled⟩).substr 53 2 = digits := by
    have middle :=
        substr_middle (show (ascii "00" ++ '-'.toUInt8 :: (traceId ++ '-'.toUInt8 :: (parentId ++ ['-'.toUInt8]))).length =
          53 by
      simp [traceLength, parentLength, ascii]) flagsLong []
    simpa [written] using middle
  rw [parseTraceparent]
  simp only [long, first, second, third, version, traced, spanned, flagged, traceHex, parentHex, traceSome, parentSome]
  have hex : isLowerHex digits = true := by
    cases sampled <;> exact shown ▸ rfl
  have refused : ¬ ((!isLowerHex (ascii "00")) = true ∨ ascii "00" = ascii "ff" ∨ (!true) = true ∨ (!true) = true ∨
      (!isLowerHex digits) = true) := by
    rw [hex]
    decide
  rw [if_neg (by decide), if_neg fun long => lt_irrefl _ long.1, if_neg refused, if_neg (by decide)]
  cases sampled <;> exact shown ▸ rfl

theorem mem_lowerHex {text : Bytes} (hex : isLowerHex text = true) {c : UInt8} (inside : c ∈ text) :
    ('0'.toUInt8 ≤ c ∧ c ≤ '9'.toUInt8) ∨ ('a'.toUInt8 ≤ c ∧ c ≤ 'f'.toUInt8) := by
  have digit := List.all_eq_true.mp hex c inside
  simpa using digit

/-- What is parsed has the digits of an id. -/
theorem traceId_of_parseTraceparent {value : Bytes} {context : TraceContext}
    (parsed : parseTraceparent value = some context) :
    isLowerHex context.traceId = true ∧ context.traceId.length ≤ 32 := by
  rw [parseTraceparent] at parsed
  simp only [] at parsed
  split_ifs at parsed with _ _ refused
  -- The last digit is one of two kinds.
  all_goals
    cases parsed
    simp only [not_or, Bool.not_eq_true, Bool.not_eq_false'] at refused
    exact ⟨refused.2.2.1, List.length_take_le _ _⟩

/-! ## Digits of random words -/

theorem length_randomHex (words : List UInt64) : (randomHex words).length = 16 * words.length := by
  rw [randomHex, List.length_flatMap]
  simp [Nat.mul_comm]

theorem isLowerHex_digit : ∀ nibble < 16, isLowerHex [(ascii "0123456789abcdef").getD nibble 0] = true := by
  decide

theorem isLowerHex_randomHex (words : List UInt64) : isLowerHex (randomHex words) = true := by
  rw [isLowerHex, List.all_eq_true, randomHex]
  intro c inside
  obtain ⟨bits, _, inside⟩ := List.mem_flatMap.mp inside
  obtain ⟨i, _, rfl⟩ := List.mem_map.mp inside
  have small : ((bits >>> UInt64.ofNat (4 * i)) &&& 0xF).toNat < 16 := by
    rw [UInt64.toNat_and]
    exact Nat.lt_succ_of_le Nat.and_le_right
  have hex := isLowerHex_digit _ small
  rwa [isLowerHex, List.all_cons, List.all_nil, Bool.and_true] at hex

theorem of_generateSpanId {words rest : List UInt64} {text : Bytes} (generated : generateSpanId words = some (text, rest)) :
    isLowerHex text = true ∧ text.length = 16 ∧ allZeros text = false := by
  induction words with
  | nil => cases generated
  | cons bits words ih =>
    rw [generateSpanId] at generated
    split_ifs at generated with zeros
    · exact ih generated
    · cases generated
      exact ⟨isLowerHex_randomHex _, length_randomHex _, Bool.not_eq_true _ ▸ zeros⟩

theorem of_generateTraceId {words rest : List UInt64} {text : Bytes}
    (generated : generateTraceId words = some (text, rest)) :
    isLowerHex text = true ∧ text.length = 32 ∧ allZeros text = false := by
  induction words using generateTraceId.induct with
  | case1 bits more words zeros ih =>
    rw [generateTraceId, if_pos zeros] at generated
    exact ih generated
  | case2 bits more words some_ =>
    rw [generateTraceId, if_neg some_] at generated
    cases generated
    exact ⟨isLowerHex_randomHex _, length_randomHex _, Bool.not_eq_true _ ▸ some_⟩
  | case3 words short =>
    rw [generateTraceId] at generated
    · cases generated
    · exact short

/-- A context that is minted can be written. -/
theorem TraceContext.Valid.of_generate {words : List UInt64} {context : TraceContext}
    (generated : generateTraceContext words = some context) : context.Valid ∧ context.sampled = true := by
  rw [generateTraceContext] at generated
  simp only [Option.bind_eq_bind, Option.bind_eq_some_iff] at generated
  obtain ⟨⟨traceId, more⟩, traced, ⟨parentId, _⟩, spanned, same⟩ := generated
  obtain ⟨traceHex, traceLength, traceSome⟩ := of_generateTraceId traced
  obtain ⟨parentHex, parentLength, parentSome⟩ := of_generateSpanId spanned
  cases same
  exact ⟨⟨traceHex, traceLength, traceSome, parentHex, parentLength, parentSome⟩, rfl⟩

/-! ## The request of a handler -/

/-- The trace of a request by the one `traceparent` that it has. -/
def ownTrace (headers : Headers) : Option TraceContext :=
  match headers.getAll (ascii "traceparent") with
  | [value] => parseTraceparent value
  | _ => none

theorem ownTrace_eq_some {headers : Headers} {context : TraceContext} :
    ownTrace headers = some context ↔
      ∃ value, headers.getAll (ascii "traceparent") = [value] ∧ parseTraceparent value = some context := by
  rw [ownTrace]
  constructor
  · intro own
    split at own
    · next value single => exact ⟨value, single, own⟩
    · cases own
  · rintro ⟨value, single, parsed⟩
    rw [single]
    exact parsed

/-- A request of which the trace is that of the context. -/
structure Traced (minted : TraceContext) (request traced : HttpRequest) : Prop where
  rest : traced = { request with headers := traced.headers }
  identity : ownTrace traced.headers = some ((ownTrace request.headers).getD minted)
  state : traced.headers.getAll (ascii "tracestate") =
    if (ownTrace request.headers).isSome then request.headers.getAll (ascii "tracestate") else []
  others : ∀ name, headerNameEquals (ascii "traceparent") name = false → headerNameEquals (ascii "tracestate") name = false →
    traced.headers.getAll name = request.headers.getAll name

theorem ensureInboundTraceIdentity_eq (minted : TraceContext) (request : HttpRequest) :
    ensureInboundTraceIdentity minted request =
      if (ownTrace request.headers).isSome then request
      else
        { request with
          headers :=
            (request.headers.set (ascii "traceparent") (formatTraceparent minted)).remove (ascii "tracestate") } := by
  rw [ensureInboundTraceIdentity, ownTrace]
  rcases request.headers.getAll (ascii "traceparent") with _ | ⟨value, _ | ⟨other, values⟩⟩ <;> rfl

theorem ensureInboundTraceIdentity_traced {minted : TraceContext} (valid : minted.Valid) (request : HttpRequest) :
    Traced minted request (ensureInboundTraceIdentity minted request) := by
  rw [ensureInboundTraceIdentity_eq]
  cases found : ownTrace request.headers with
  | some context =>
    rw [Option.isSome_some, if_pos rfl]
    exact ⟨rfl, by rw [found, Option.getD_some], by rw [found, Option.isSome_some, if_pos rfl], fun _ _ _ => rfl⟩
  | none =>
    rw [Option.isSome_none, if_neg Bool.false_ne_true]
    have parent : ((request.headers.set (ascii "traceparent") (formatTraceparent minted)).remove (ascii "tracestate")).getAll
        (ascii "traceparent") = [formatTraceparent minted] := by
      rw [Headers.getAll_remove, if_neg (by decide), Headers.getAll_set, if_pos (by decide)]
    refine ⟨rfl, ?_, ?_, ?_⟩
    · rw [found, Option.getD_none]
      exact ownTrace_eq_some.mpr ⟨_, parent, parseTraceparent_formatTraceparent valid⟩
    · rw [found, Headers.getAll_remove, if_pos (by decide)]
      rfl
    · intro name parent state
      rw [Headers.getAll_remove, if_neg (Bool.eq_false_iff.mp state), Headers.getAll_set,
        if_neg (Bool.eq_false_iff.mp parent)]

theorem requestTraceId_eq {request : HttpRequest} {context : TraceContext} (own : ownTrace request.headers = some context) :
    requestTraceId request = context.traceId := by
  obtain ⟨value, single, parsed⟩ := ownTrace_eq_some.mp own
  rw [requestTraceId, Headers.get?_eq_head?, single]
  simp only [List.head?_cons, Option.getD_some, parsed, Option.map_some]

end OpalCpp.Http

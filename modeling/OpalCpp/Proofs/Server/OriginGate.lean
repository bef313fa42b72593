import OpalCpp.Model.Server.OriginGate
import OpalCpp.Proofs.Http.Endpoint

/-! # The allowlist of an origin gate

A text has a normal form exactly if it is `null` or spells an origin, and two texts have the same one exactly if
they spell the same origin. The host of an origin is any text without a slash or an `@`; it is plain if nothing
in it starts a query, a fragment or a port.
-/

namespace OpalCpp.Server.OriginGate

open Bytes (ascii)
open Delimited (cutLast_append)
open Http (HttpRequest HttpResponse Endpoint asciiLower)
open Http.Endpoint (Ported parseEndpoint_iff)

/-! ## Origins -/

structure Origin where
  scheme : Bytes
  host : Bytes
  port : ℕ

namespace Origin

variable (origin : Origin)

def defaultPort : ℕ := if origin.scheme = ascii "https" then 443 else 80

/-- The normal form. -/
def text : Bytes := origin.scheme ++ ascii "://" ++ origin.host ++ ascii ":" ++ Decimal.decimal origin.port

structure Plain : Prop where
  noQuery : '?'.toUInt8 ∉ origin.host
  noFragment : '#'.toUInt8 ∉ origin.host
  noColon : ':'.toUInt8 ∉ origin.host

/-- A text is the origin in any case, its port left out or not if it is the default, and slashes behind it. -/
structure SpelledBy (text slashes : Bytes) : Prop where
  scheme : origin.scheme = ascii "http" ∨ origin.scheme = ascii "https"
  host : origin.host ≠ []
  noSlash : '/'.toUInt8 ∉ origin.host
  noUserinfo : '@'.toUInt8 ∉ origin.host
  lowered : ∃ port, text.map asciiLower = origin.scheme ++ ascii "://" ++ origin.host ++ port ++ slashes ∧
    Ported origin.defaultPort origin.host port origin.port
  slash : ∀ c ∈ slashes, c = '/'.toUInt8

/-- An allowlist tolerates slashes. -/
def NamedBy (text : Bytes) : Prop := ∃ slashes, origin.SpelledBy text slashes

end Origin

/-- What the endpoint parser reads, with no path but slashes. -/
theorem Origin.namedBy_iff {origin : Origin} {text : Bytes} : origin.NamedBy text ↔
    Endpoint.parseEndpoint (text.map asciiLower) = .ok { origin with pathPrefix := [] } ∧ '@'.toUInt8 ∉ origin.host := by
  have only (path : Bytes) : [] = path.rdropWhile (· = '/'.toUInt8) ↔ ∀ c ∈ path, c = '/'.toUInt8 := by
    rw [eq_comm, List.rdropWhile_eq_nil_iff]
    simp only [decide_eq_true_eq]
  obtain ⟨scheme, host, port⟩ := origin
  rw [parseEndpoint_iff]
  constructor
  · rintro ⟨slashes, scheme', some_, noSlash, noUserinfo, ⟨text, lowered, ported⟩, slash⟩
    refine ⟨?_, noUserinfo⟩
    have start : slashes = [] ∨ slashes.head? = some '/'.toUInt8 := by
      cases slashes with
      | nil => exact .inl rfl
      | cons c rest => exact .inr (congrArg some (slash c List.mem_cons_self))
    rcases scheme' with rfl | rfl
    · refine .inl ⟨host ++ text ++ slashes, ?_, rfl, some_, noSlash, text, slashes, rfl, ported, start,
        (only slashes).mpr slash⟩
      simp only [lowered, List.append_assoc]
      rfl
    · refine .inr ⟨host ++ text ++ slashes, ?_, rfl, some_, noSlash, text, slashes, rfl, ported, start,
        (only slashes).mpr slash⟩
      simp only [lowered, List.append_assoc]
      rfl
  · rintro ⟨⟨rest, lowered, rfl, some_, noSlash, text, slashes, rfl, ported, -, slash⟩ |
      ⟨rest, lowered, rfl, some_, noSlash, text, slashes, rfl, ported, -, slash⟩, noUserinfo⟩
    · refine ⟨slashes, .inl rfl, some_, noSlash, noUserinfo, ⟨text, ?_, ported⟩, (only slashes).mp slash⟩
      simp only [lowered, List.append_assoc]
      rfl
    · refine ⟨slashes, .inr rfl, some_, noSlash, noUserinfo, ⟨text, ?_, ported⟩, (only slashes).mp slash⟩
      simp only [lowered, List.append_assoc]
      rfl

def IsNull (text : Bytes) : Prop := text.map asciiLower = ascii "null"

theorem text_ne_null {origin : Origin} (scheme : origin.scheme = ascii "http" ∨ origin.scheme = ascii "https")
    (more : Bytes) :
    origin.scheme ++ more ≠ ascii "null" := by
  intro same
  have first : some 'h'.toUInt8 = some 'n'.toUInt8 := by
    rcases scheme with scheme | scheme <;> rw [scheme] at same <;> exact congrArg List.head? same
  exact absurd first (by decide)

theorem normalizeOrigin_iff {text normalized : Bytes} : normalizeOrigin text = some normalized ↔
    (IsNull text ∧ normalized = ascii "null") ∨ ∃ origin : Origin, origin.NamedBy text ∧ normalized = origin.text := by
  rw [normalizeOrigin]
  by_cases null : text.map asciiLower = ascii "null"
  · have unnamed : ∀ origin : Origin, ¬ origin.NamedBy text := by
      rintro origin ⟨slashes, scheme, -, -, -, ⟨port, lowered, -⟩, -⟩
      rw [List.append_assoc, List.append_assoc, List.append_assoc, null] at lowered
      exact text_ne_null scheme _ lowered.symm
    simp [null, IsNull, unnamed, eq_comm]
  · simp only [null, if_false, IsNull, false_and, false_or, Origin.namedBy_iff]
    cases parsed : Endpoint.parseEndpoint (text.map asciiLower) with
    | error error => simp
    | ok endpoint =>
      obtain ⟨scheme, host, port, pathPrefix⟩ := endpoint
      simp only [Except.ok.injEq, Endpoint.mk.injEq]
      constructor
      · intro normal
        split_ifs at normal with refused
        rw [not_or, not_not] at refused
        exact ⟨⟨scheme, host, port⟩, ⟨⟨rfl, rfl, rfl, refused.1⟩, refused.2⟩, (Option.some.inj normal).symm⟩
      · rintro ⟨origin, ⟨⟨rfl, rfl, rfl, rfl⟩, noUserinfo⟩, rfl⟩
        rw [if_neg (by simpa using noUserinfo)]
        rfl

/-- The last colon is the one before the port. -/
theorem text_injective {first second : Origin} (scheme : first.scheme = ascii "http" ∨ first.scheme = ascii "https")
    (scheme' : second.scheme = ascii "http" ∨ second.scheme = ascii "https") (same : first.text = second.text) :
    first = second := by
  have noColon (port : ℕ) : ':'.toUInt8 ∉ Decimal.decimal port :=
    fun member => absurd (Decimal.isDigit_of_mem_decimal _ member) (by decide)
  have split (origin : Origin) : Delimited.cutLast ':'.toUInt8 origin.text =
      (origin.scheme ++ ascii "://" ++ origin.host, some (Decimal.decimal origin.port)) := by
    rw [Origin.text, List.append_assoc _ (ascii ":")]
    exact cutLast_append (noColon origin.port) _
  have parts := (split first).symm.trans (same ▸ split second)
  have ports : Decimal.decimal first.port = Decimal.decimal second.port := Option.some.inj (Prod.mk.inj parts).2
  have hosts := (Prod.mk.inj parts).1
  obtain ⟨scheme₁, host₁, port₁⟩ := first
  obtain ⟨scheme₂, host₂, port₂⟩ := second
  have port : port₁ = port₂ := Option.some.inj
    ((Decimal.read_decimal port₁).symm.trans ((congrArg Decimal.read ports).trans (Decimal.read_decimal port₂)))
  have apart (rest rest' : Bytes) : ascii "http" ++ ascii "://" ++ rest ≠ ascii "https" ++ ascii "://" ++ rest' := by
    intro same
    have fifth : some ':'.toUInt8 = some 's'.toUInt8 := congrArg (·[4]?) same
    exact absurd fifth (by decide)
  dsimp only at scheme scheme' hosts
  rcases scheme with rfl | rfl <;> rcases scheme' with rfl | rfl
  · rw [List.append_cancel_left hosts, port]
  · exact absurd hosts (apart host₁ host₂)
  · exact absurd hosts.symm (apart host₂ host₁)
  · rw [List.append_cancel_left hosts, port]

theorem Origin.NamedBy.scheme {origin : Origin} {text : Bytes} (named : origin.NamedBy text) :
    origin.scheme = ascii "http" ∨ origin.scheme = ascii "https" := by
  obtain ⟨slashes, spelled⟩ := named
  exact spelled.scheme

/-- Two texts that have one normal form are both `null`, or name one origin. -/
theorem normalizeOrigin_same_iff {first second : Bytes} :
    (∃ normalized, normalizeOrigin first = some normalized ∧ normalizeOrigin second = some normalized) ↔
      (IsNull first ∧ IsNull second) ∨ ∃ origin : Origin, origin.NamedBy first ∧ origin.NamedBy second := by
  have notNull {origin : Origin} {text : Bytes} (named : origin.NamedBy text) : origin.text ≠ ascii "null" := by
    rw [Origin.text, List.append_assoc, List.append_assoc, List.append_assoc]
    exact text_ne_null named.scheme _
  simp only [normalizeOrigin_iff]
  constructor
  · rintro ⟨normalized, ⟨null, rfl⟩ | ⟨origin, named, rfl⟩, ⟨null', same⟩ | ⟨origin', named', same⟩⟩
    · exact .inl ⟨null, null'⟩
    · exact absurd same.symm (notNull named')
    · exact absurd same (notNull named)
    · rw [← text_injective named.scheme named'.scheme same] at named'
      exact .inr ⟨origin, named, named'⟩
  · rintro (⟨null, null'⟩ | ⟨origin, named, named'⟩)
    · exact ⟨_, .inl ⟨null, rfl⟩, .inl ⟨null', rfl⟩⟩
    · exact ⟨_, .inr ⟨origin, named, rfl⟩, .inr ⟨origin, named', rfl⟩⟩

/-! ## The gate -/

theorem allowedOrigins_ok {entries : List Bytes} {allowed result : Finset Bytes}
    (accepted : allowedOrigins allowed entries = .ok result) :
    (∀ entry ∈ entries, ∃ normalized, normalizeOrigin entry = some normalized) ∧
    ∀ normalized, normalized ∈ result ↔
      normalized ∈ allowed ∨ ∃ entry ∈ entries, normalizeOrigin entry = some normalized := by
  induction entries generalizing allowed with
  | nil =>
    cases accepted
    simp
  | cons entry rest ih =>
    rw [allowedOrigins] at accepted
    split at accepted
    · cases accepted
    · next normal form_ =>
      obtain ⟨every, members⟩ := ih accepted
      refine ⟨?_, ?_⟩
      · rw [List.forall_mem_cons]
        exact ⟨⟨normal, form_⟩, every⟩
      · intro normalized
        rw [members, Finset.mem_insert, List.exists_mem_cons_iff, form_, Option.some_inj, or_assoc, or_left_comm,
          eq_comm (a := normalized)]

theorem gate_eq_none_iff {allowed : Finset Bytes} {request : HttpRequest} : gate allowed request = none ↔
    request.headers.getAll (ascii "origin") = [] ∨ ∃ origin, request.headers.getAll (ascii "origin") = [origin] ∧
      ∃ normalized ∈ allowed, normalizeOrigin origin = some normalized := by
  rw [gate]
  rcases request.headers.getAll (ascii "origin") with _ | ⟨origin, _ | ⟨second, rest⟩⟩
  · simp
  · cases form_ : normalizeOrigin origin with
    | none => simp [form_]
    | some normalized => simp [form_]
  · simp

/-- What an allowlist admits. -/
inductive Admitted (entries : List Bytes) (request : HttpRequest) : Prop
  | absent (none_ : request.headers.getAll (ascii "origin") = [])
  | null (value entry : Bytes) (only : request.headers.getAll (ascii "origin") = [value]) (member : entry ∈ entries)
      (value_ : IsNull value) (entry_ : IsNull entry)
  | listed (origin : Origin) (value entry : Bytes) (only : request.headers.getAll (ascii "origin") = [value])
      (member : entry ∈ entries) (plain : origin.Plain) (value_ : origin.NamedBy value) (entry_ : origin.NamedBy entry)

/-- The entries of an allowlist are `null` or origins with slashes behind them, and a request is admitted exactly
if it has no `Origin` or one that the allowlist has, but for those that name an origin with a host that is not plain. -/
theorem origins_admitted_iff (entries : List Bytes) (gate : HttpRequest → Option HttpResponse)
    (accepted : requireOrigin entries = .ok gate) :
    (∀ entry ∈ entries, IsNull entry ∨ ∃ origin : Origin, origin.NamedBy entry) ∧
    ∀ request : HttpRequest, (∀ value, request.headers.getAll (ascii "origin") = [value] →
      ∀ origin : Origin, origin.NamedBy value → origin.Plain) → (gate request = none ↔ Admitted entries request) := by
  obtain ⟨allowed, normal, rfl⟩ : ∃ allowed, allowedOrigins ∅ entries = .ok allowed ∧ OriginGate.gate allowed = gate := by
    rw [requireOrigin] at accepted
    cases result : allowedOrigins ∅ entries with
    | error message => rw [result] at accepted; cases accepted
    | ok allowed => rw [result] at accepted; exact ⟨allowed, rfl, Except.ok.inj accepted⟩
  obtain ⟨every, members⟩ := allowedOrigins_ok normal
  refine ⟨?_, ?_⟩
  · intro entry member
    obtain ⟨normalized, form_⟩ := every entry member
    rcases normalizeOrigin_iff.mp form_ with ⟨null, -⟩ | ⟨origin, named, -⟩
    · exact .inl null
    · exact .inr ⟨origin, named⟩
  · intro request plain
    rw [gate_eq_none_iff]
    constructor
    · rintro (none_ | ⟨value, only, normalized, listed, form_⟩)
      · exact .absent none_
      · obtain ⟨entry, member, form'⟩ := ((members normalized).mp listed).resolve_left (Finset.notMem_empty _)
        rcases normalizeOrigin_same_iff.mp ⟨normalized, form_, form'⟩ with ⟨value', entry'⟩ | ⟨origin, value', entry'⟩
        · exact .null value entry only member value' entry'
        · exact .listed origin value entry only member (plain value only origin value') value' entry'
    · have listed {value entry : Bytes} (member : entry ∈ entries)
          (same : (IsNull value ∧ IsNull entry) ∨ ∃ origin : Origin, origin.NamedBy value ∧ origin.NamedBy entry) :
          ∃ normalized ∈ allowed, normalizeOrigin value = some normalized := by
        obtain ⟨normalized, form_, form'⟩ := normalizeOrigin_same_iff.mpr same
        exact ⟨normalized, (members normalized).mpr (.inr ⟨entry, member, form'⟩), form_⟩
      rintro (none_ | ⟨value, entry, only, member, value', entry'⟩ | ⟨origin, value, entry, only, member, -, value', entry'⟩)
      · exact .inl none_
      · exact .inr ⟨value, only, listed member (.inl ⟨value', entry'⟩)⟩
      · exact .inr ⟨value, only, listed member (.inr ⟨origin, value', entry'⟩)⟩

/-- The default port spelled out, against an entry in another case. -/
theorem origins_admitted_default_port :
    let entries := [ascii "https://MuchQ.com/", ascii "NULL"]
    let request : HttpRequest := { headers := ({} : Http.Headers).set (ascii "Origin") (ascii "HTTPS://muchq.COM:443") }
    ∃ gate, requireOrigin entries = .ok gate ∧ gate request = none ∧ Admitted entries request := by
  intro entries request
  have accepted : (requireOrigin entries) = .ok (gate (insert (ascii "null") {ascii "https://muchq.com:443"})) := rfl
  have facts := origins_admitted_iff entries _ accepted
  have plain : ∀ value, request.headers.getAll (ascii "origin") = [value] →
      ∀ origin : Origin, origin.NamedBy value → origin.Plain := by
    intro value only origin named
    obtain rfl : value = ascii "HTTPS://muchq.COM:443" := (List.cons.inj only).1.symm
    have parsed : (.ok ⟨ascii "https", ascii "muchq.com", 443, []⟩ : Outcome Endpoint) =
        .ok { origin with pathPrefix := [] } := (Origin.namedBy_iff.mp named).1
    have host : ascii "muchq.com" = origin.host := congrArg Endpoint.host (Except.ok.inj parsed)
    refine ⟨?_, ?_, ?_⟩ <;> rw [← host] <;> decide
  have admitted : gate (insert (ascii "null") {ascii "https://muchq.com:443"}) request = none := by decide
  exact ⟨_, accepted, admitted, (facts.2 request plain).mp admitted⟩

/-- A slash behind the host is tolerated, in the allowlist and in the header. -/
theorem trailing_slash_admitted :
    let text := ascii "https://muchq.com/"
    let request : HttpRequest := { headers := ({} : Http.Headers).set (ascii "origin") text }
    (∃ gate, requireOrigin [text] = .ok gate ∧ gate request = none) ∧ ¬ IsNull text ∧
      ∀ origin : Origin, ¬ origin.SpelledBy text [] := by
  intro text request
  refine ⟨⟨gate {ascii "https://muchq.com:443"}, rfl, by decide⟩, ?_, ?_⟩
  · exact of_decide_eq_false (p := text.map asciiLower = ascii "null") rfl
  · rintro origin ⟨-, host, noSlash, -, ⟨port, lowered, ported⟩, -⟩
    have noSlash' : '/'.toUInt8 ∉ origin.host ++ port := by
      rw [List.mem_append, not_or]
      exact ⟨noSlash, ported.notMem (by decide) (by decide)⟩
    have last : (origin.scheme ++ ascii "://" ++ (origin.host ++ port)).getLast? = some '/'.toUInt8 := by
      rw [← List.append_assoc, ← List.append_nil (_ ++ port), ← lowered]
      decide
    rw [List.getLast?_append_of_ne_nil _ (List.append_ne_nil_of_left_ne_nil host port)] at last
    exact noSlash' (List.mem_of_getLast? last)

end OpalCpp.Server.OriginGate

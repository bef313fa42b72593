import OpalCpp.Model.Http.Uri

/-! # Endpoints

Which texts the endpoint parser reads, and as what: a scheme, a host that is any text without a slash, a port
behind the last colon, and a path.
-/

namespace OpalCpp.Http.Endpoint

open Bytes (ascii)
open Delimited (cut cutLast cut_append cut_of_notMem of_cut cutLast_append cutLast_of_notMem of_cutLast of_cutLast_none)

/-! ## Ports -/

theorem le_of_fold {digits : Bytes} {start result : ℕ} (reads : digits.foldlM
    (fun number byte => if Decimal.isDigit byte then some (number * 10 + Decimal.value byte) else none) start =
      some result) :
    start ≤ result := by
  induction digits generalizing start with
  | nil =>
    cases reads
    exact le_rfl
  | cons c rest ih =>
    rw [List.foldlM_cons] at reads
    split_ifs at reads
    · have after := ih reads
      omega
    · cases reads

/-- The bound is on every number on the way, none of which is more than the last. -/
theorem parsePort_iff {digits : Bytes} {start port : ℕ} (small : start ≤ 65535) :
    parsePort start digits = .ok port ↔ digits.foldlM
      (fun number byte => if Decimal.isDigit byte then some (number * 10 + Decimal.value byte) else none) start = some port ∧
      0 < port ∧ port ≤ 65535 := by
  induction digits generalizing start with
  | nil =>
    rw [parsePort]
    split_ifs with zero
    · refine iff_of_false nofun ?_
      rintro ⟨same, positive, -⟩
      rw [← Option.some.inj same, zero] at positive
      exact Nat.lt_irrefl 0 positive
    · rw [Except.ok.injEq]
      refine ⟨?_, fun found => Option.some.inj found.1⟩
      rintro rfl
      exact ⟨rfl, Nat.pos_of_ne_zero zero, small⟩
  | cons c rest ih =>
    rw [parsePort, List.foldlM_cons]
    by_cases digit : Decimal.isDigit c = true
    · simp only [digit, Bool.not_true, Bool.false_eq_true, if_false, if_true, Option.bind_eq_bind, Option.bind_some]
      split_ifs with above
      · refine iff_of_false nofun fun found => ?_
        have least := le_of_fold found.1
        omega
      · exact ih (Nat.le_of_not_lt above)
    · simp [digit]

theorem parsePort_zero_iff {digits : Bytes} {port : ℕ} :
    parsePort 0 digits = .ok port ↔ Decimal.read digits = some port ∧ 0 < port ∧ port ≤ 65535 :=
  parsePort_iff (Nat.zero_le _)

/-! ## Endpoints -/

/-- What stands behind a host for a port: nothing, where it is the default and no colon of the host takes its
place, or a colon and digits. -/
inductive Ported (default : ℕ) (host : Bytes) : Bytes → ℕ → Prop
  | omitted (plain : ':'.toUInt8 ∉ host) : Ported default host [] default
  | digits {digits : Bytes} {port : ℕ} (reads : Decimal.read digits = some port) (positive : 0 < port)
      (bounded : port ≤ 65535) :
    Ported default host (':'.toUInt8 :: digits) port

/-- What does not read as a digit is not among digits. -/
theorem notMem_of_fold {digits : Bytes} {start port : ℕ} (reads : digits.foldlM
    (fun number byte => if Decimal.isDigit byte then some (number * 10 + Decimal.value byte) else none) start = some port)
    {mark : UInt8} (other : Decimal.isDigit mark = false) : mark ∉ digits := by
  induction digits generalizing start with
  | nil => exact List.not_mem_nil
  | cons c rest ih =>
    rw [List.foldlM_cons] at reads
    split_ifs at reads with digit
    · rw [List.mem_cons, not_or]
      refine ⟨?_, ih reads⟩
      rintro rfl
      rw [other] at digit
      cases digit
    · cases reads

theorem Ported.notMem {default : ℕ} {host text : Bytes} {port : ℕ} (ported : Ported default host text port) {mark : UInt8}
    (other : Decimal.isDigit mark = false) (colon : mark ≠ ':'.toUInt8) : mark ∉ text := by
  cases ported with
  | omitted plain => exact List.not_mem_nil
  | digits reads positive bounded =>
    rw [List.mem_cons, not_or]
    exact ⟨colon, notMem_of_fold reads other⟩

structure Reads (scheme : Bytes) (default : ℕ) (rest : Bytes) (endpoint : Endpoint) : Prop where
  scheme : endpoint.scheme = scheme
  host : endpoint.host ≠ []
  noSlash : '/'.toUInt8 ∉ endpoint.host
  text : ∃ port path, rest = endpoint.host ++ port ++ path ∧ Ported default endpoint.host port endpoint.port ∧
    (path = [] ∨ path.head? = some '/'.toUInt8) ∧ endpoint.pathPrefix = path.rdropWhile (· = '/'.toUInt8)

theorem parseAuthority_iff {authority host : Bytes} {default port : ℕ} :
    parseAuthority default authority = .ok (host, port) ↔
      ∃ text, authority = host ++ text ∧ Ported default host text port := by
  constructor
  · intro parsed
    rw [parseAuthority] at parsed
    split at parsed
    · next last =>
      cases parsed
      exact ⟨[], (List.append_nil _).symm, .omitted (of_cutLast_none last).1⟩
    · next before digits last =>
      obtain ⟨number, reads, pair⟩ : ∃ number, parsePort 0 digits = .ok number ∧ (before, number) = (host, port) := by
        cases result : parsePort 0 digits with
        | error error => rw [result] at parsed; cases parsed
        | ok number => rw [result] at parsed; exact ⟨number, rfl, Except.ok.inj parsed⟩
      cases pair
      obtain ⟨reads, positive, bounded⟩ := parsePort_zero_iff.mp reads
      exact ⟨_, (of_cutLast last).2, .digits reads positive bounded⟩
  · rintro ⟨text, rfl, ported⟩
    cases ported with
    | omitted plain => rw [List.append_nil, parseAuthority, cutLast_of_notMem plain]
    | @digits digits _ reads positive bounded =>
      have number := parsePort_zero_iff.mpr ⟨reads, positive, bounded⟩
      have noColon : ':'.toUInt8 ∉ digits := notMem_of_fold reads (by decide)
      simp only [parseAuthority, cutLast_append noColon, number]
      rfl

theorem parseRest_iff {scheme rest : Bytes} {default : ℕ} {endpoint : Endpoint} :
    parseRest scheme default rest = .ok endpoint ↔ Reads scheme default rest endpoint := by
  constructor
  · intro parsed
    obtain ⟨authority, path, first⟩ : ∃ authority path, cut '/'.toUInt8 rest = (authority, path) := ⟨_, _, rfl⟩
    obtain ⟨noSlash, whole⟩ := of_cut first
    simp only [parseRest, first] at parsed
    cases hosted : parseAuthority default authority with
    | error error => rw [hosted] at parsed; cases parsed
    | ok pair =>
      obtain ⟨host, port⟩ := pair
      obtain ⟨text, rfl, ported⟩ := parseAuthority_iff.mp hosted
      rw [hosted] at parsed
      simp only [bind, Except.bind] at parsed
      split_ifs at parsed with missing
      cases parsed
      refine ⟨rfl, missing, fun member => noSlash (List.mem_append_left _ member), text, _, whole, ported, ?_, rfl⟩
      cases path with
      | none => exact .inl rfl
      | some path => exact .inr rfl
  · obtain ⟨_, host, port, pathPrefix⟩ := endpoint
    rintro ⟨rfl, some_, noSlash, text, path, rfl, ported, slash, rfl⟩
    have hosted := parseAuthority_iff.mpr ⟨text, rfl, ported⟩
    have without : '/'.toUInt8 ∉ host ++ text := by
      rw [List.mem_append, not_or]
      exact ⟨noSlash, ported.notMem (by decide) (by decide)⟩
    rcases slash with rfl | slash
    · rw [List.append_nil]
      simp only [parseRest, cut_of_notMem without, hosted, bind, Except.bind]
      exact if_neg some_
    · obtain ⟨more, rfl⟩ : ∃ more, path = '/'.toUInt8 :: more := ⟨path.tail, (List.cons_head?_tail slash).symm⟩
      simp only [parseRest, cut_append without, hosted, bind, Except.bind]
      exact if_neg some_

theorem parseEndpoint_iff {url : Bytes} {endpoint : Endpoint} : parseEndpoint url = .ok endpoint ↔
    (∃ rest, url = ascii "http://" ++ rest ∧ Reads (ascii "http") 80 rest endpoint) ∨
      ∃ rest, url = ascii "https://" ++ rest ∧ Reads (ascii "https") 443 rest endpoint := by
  have apart (rest rest' : Bytes) : ascii "http://" ++ rest ≠ ascii "https://" ++ rest' := by
    intro same
    have fifth : some ':'.toUInt8 = some 's'.toUInt8 := congrArg (·[4]?) same
    exact absurd fifth (by decide)
  rw [parseEndpoint]
  split_ifs with plain tls
  · obtain ⟨rest, rfl⟩ := plain
    rw [show (ascii "http://" ++ rest).drop 7 = rest from rfl, parseRest_iff]
    constructor
    · exact fun reads => .inl ⟨rest, rfl, reads⟩
    · rintro (⟨rest', same, reads⟩ | ⟨rest', same, reads⟩)
      · exact List.append_cancel_left same ▸ reads
      · exact absurd same (apart rest rest')
  · obtain ⟨rest, rfl⟩ := tls
    rw [show (ascii "https://" ++ rest).drop 8 = rest from rfl, parseRest_iff]
    constructor
    · exact fun reads => .inr ⟨rest, rfl, reads⟩
    · rintro (⟨rest', same, reads⟩ | ⟨rest', same, reads⟩)
      · exact absurd same.symm (apart rest' rest)
      · exact List.append_cancel_left same ▸ reads
  · refine iff_of_false nofun ?_
    rintro (⟨rest, rfl, -⟩ | ⟨rest, rfl, -⟩)
    · exact plain (List.prefix_append _ _)
    · exact tls (List.prefix_append _ _)

end OpalCpp.Http.Endpoint

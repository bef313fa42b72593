import OpalCpp.Model.Http.Forwarded

/-! # A client cannot forge its address

The walk looks at the entries from the right up to the first that it cannot parse or does not trust. What
it gives is a function of the peer and of these, so that two requests that agree there get one answer; and
the position where it ends is the peer or an entry with nothing but trusted ones to its right.
-/

namespace OpalCpp.Http.Forwarded

open Bytes (ascii)

variable {inet : Inet} {trusted : TrustedProxies}

/-! ## The scanned entries -/

section UpTo

variable {α : Type*} (stops : α → Bool)

/-- The items up to and including the first that stops. -/
def upTo : List α → List α
  | [] => []
  | item :: items => item :: if stops item then [] else upTo items

theorem upTo_prefix (items : List α) : upTo stops items <+: items := by
  induction items with
  | nil => exact List.prefix_rfl
  | cons item items ih =>
    rw [upTo, List.cons_prefix_cons]
    split_ifs
    · exact ⟨rfl, List.nil_prefix⟩
    · exact ⟨rfl, ih⟩

/-- Behind an item that stops, nothing matters. -/
theorem upTo_append {items : List α} (stopped : ∃ item ∈ upTo stops items, stops item = true) (more : List α) :
    upTo stops (upTo stops items ++ more) = upTo stops items := by
  induction items with
  | nil =>
    obtain ⟨item, member, _⟩ := stopped
    cases member
  | cons item items ih =>
    rw [upTo] at stopped ⊢
    split_ifs at stopped ⊢ with stop
    · rw [List.cons_append, upTo, if_pos stop]
    · have later : ∃ item ∈ upTo stops items, stops item = true := by
        obtain ⟨other, member, stop'⟩ := stopped
        obtain rfl | tail := List.mem_cons.mp member
        · exact absurd stop' stop
        · exact ⟨other, tail, stop'⟩
      rw [List.cons_append, upTo, if_neg stop, ih later]

end UpTo

/-- The entry is malformed, or outside the trust set. -/
def Stops (inet : Inet) (trusted : TrustedProxies) (element : Bytes) : Bool :=
  !(parseEndpoint inet element).any trusted.containsBytes

/-- The entries that are scanned from the right, in their order. -/
def scanned (inet : Inet) (trusted : TrustedProxies) (entries : List Bytes) : List Bytes :=
  (upTo (Stops inet trusted) entries.reverse).reverse

theorem scanned_suffix (entries : List Bytes) : scanned inet trusted entries <:+ entries := by
  rw [scanned, ← List.reverse_prefix, List.reverse_reverse]
  exact upTo_prefix _ _

/-- Where the scan is stopped, it does not matter what precedes it. -/
theorem scanned_of_stopped {entries others : List Bytes}
    (stopped : ∃ element ∈ scanned inet trusted entries, Stops inet trusted element = true)
    (agree : scanned inet trusted entries <:+ others) : scanned inet trusted others = scanned inet trusted entries := by
  obtain ⟨before, rfl⟩ := agree
  have stopped' : ∃ element ∈ upTo (Stops inet trusted) entries.reverse, Stops inet trusted element = true := by
    obtain ⟨element, member, stop⟩ := stopped
    exact ⟨element, List.mem_reverse.mp member, stop⟩
  rw [scanned, List.reverse_append, scanned, List.reverse_reverse, upTo_append _ stopped']

/-! ## The walk -/

/-- The walk does not look behind the entry that stops it. -/
theorem walk_upTo (client : Address) (elements : List Bytes) :
    walk inet trusted client elements = walk inet trusted client (upTo (Stops inet trusted) elements) := by
  induction elements generalizing client with
  | nil => rfl
  | cons element elements ih =>
    rw [upTo, walk, walk]
    cases parsed : parseEndpoint inet element with
    | none => rfl
    | some entry =>
      dsimp only
      split_ifs with inside stop
      · simp [Stops, parsed, inside] at stop
      · exact ih entry
      · rfl

/-- Every element is an address of the trust set. -/
def Vetted (inet : Inet) (trusted : TrustedProxies) (elements : List Bytes) : Prop :=
  ∀ element ∈ elements, ∃ entry, parseEndpoint inet element = some entry ∧ trusted.containsBytes entry = true

/-- The walk ends where it began, or at an element that it reached through vetted ones. -/
theorem walk_address (client : Address) (elements : List Bytes) :
    (walk inet trusted client elements).address = formatAddress inet client ∨
      ∃ vetted element rest entry, elements = vetted ++ element :: rest ∧ Vetted inet trusted vetted ∧
        parseEndpoint inet element = some entry ∧
          (walk inet trusted client elements).address = formatAddress inet entry := by
  induction elements generalizing client with
  | nil => exact .inl rfl
  | cons element elements ih =>
    rw [walk]
    cases parsed : parseEndpoint inet element with
    | none => exact .inl rfl
    | some entry =>
      dsimp only
      right
      split_ifs with inside
      · obtain here | ⟨vetted, later, rest, last, rfl, through, parsed', there⟩ := ih entry
        · exact ⟨[], element, elements, entry, rfl, fun _ member => absurd member List.not_mem_nil, parsed, here⟩
        · refine ⟨element :: vetted, later, rest, last, rfl, ?_, parsed', there⟩
          rw [Vetted, List.forall_mem_cons]
          exact ⟨⟨entry, parsed, inside⟩, through⟩
      · exact ⟨[], element, elements, entry, rfl, fun _ member => absurd member List.not_mem_nil, parsed, rfl⟩

/-! ## The derived client -/

theorem deriveClient_of_untrusted {request : HttpRequest} {peer : Address}
    (parsed : parseEndpoint inet request.peerAddress = some peer)
    (outside : trusted.containsBytes peer = false) :
    (deriveClient inet request trusted).address = formatAddress inet peer := by
  rw [deriveClient, parsed]
  simp [outside]

theorem deriveClient_of_trusted {request : HttpRequest} {peer : Address}
    (parsed : parseEndpoint inet request.peerAddress = some peer)
    (inside : trusted.containsBytes peer = true) :
    deriveClient inet request trusted = walk inet trusted peer (scanned inet trusted (entries request)).reverse := by
  rw [deriveClient, parsed]
  simp only [inside, if_true]
  rw [walk_upTo, scanned, List.reverse_reverse]

/-- Of a peer outside the trust set the address is its own, whatever the headers hold. Behind a trusted
peer the answer is decided by the scanned entries, however they are split over the headers and, where the
scan is stopped, whatever precedes them. The address is that of the peer, or of an entry with nothing but
trusted ones to its right, or empty where the peer has none. -/
theorem client_cannot_forge (inet : Inet) (trusted : TrustedProxies) (request : HttpRequest) :
    (∀ peer, parseEndpoint inet request.peerAddress = some peer → trusted.containsBytes peer = false →
      ∀ other, other.peerAddress = request.peerAddress →
        (deriveClient inet other trusted).address = (deriveClient inet request trusted).address) ∧
    (∀ peer, parseEndpoint inet request.peerAddress = some peer → trusted.containsBytes peer = true →
      ∀ other, other.peerAddress = request.peerAddress →
        (scanned inet trusted (entries other) = scanned inet trusted (entries request) ∨
          (∃ element ∈ scanned inet trusted (entries request), Stops inet trusted element = true) ∧
            scanned inet trusted (entries request) <:+ entries other) →
        deriveClient inet other trusted = deriveClient inet request trusted) ∧
    match parseEndpoint inet request.peerAddress with
    | none => (deriveClient inet request trusted).address = []
    | some peer => (deriveClient inet request trusted).address = formatAddress inet peer ∨
      ∃ left element right entry, entries request = left ++ element :: right ∧ Vetted inet trusted right ∧
        parseEndpoint inet element = some entry ∧
          (deriveClient inet request trusted).address = formatAddress inet entry := by
  refine ⟨?_, ?_, ?_⟩
  · intro peer parsed outside other same
    rw [deriveClient_of_untrusted parsed outside, deriveClient_of_untrusted (same.symm ▸ parsed) outside]
  · intro peer parsed inside other same agree
    rw [deriveClient_of_trusted parsed inside, deriveClient_of_trusted (same.symm ▸ parsed) inside]
    obtain equal | ⟨stopped, suffix⟩ := agree
    · rw [equal]
    · rw [scanned_of_stopped stopped suffix]
  · cases parsed : parseEndpoint inet request.peerAddress with
    | none =>
      dsimp only
      rw [deriveClient, parsed]
    | some peer =>
      dsimp only
      cases inside : trusted.containsBytes peer with
      | false => exact .inl (deriveClient_of_untrusted parsed inside)
      | true =>
        rw [deriveClient_of_trusted parsed inside]
        obtain here | ⟨vetted, element, rest, entry, split, through, parsed', there⟩ :=
            walk_address peer (scanned inet trusted (entries request)).reverse
        · exact .inl here
        · have suffix : scanned inet trusted (entries request) <:+ entries request := scanned_suffix _
          obtain ⟨before, whole⟩ := suffix
          refine .inr ⟨before ++ rest.reverse, element, vetted.reverse, entry, ?_, ?_, parsed', there⟩
          · rw [← whole, ← List.reverse_reverse (scanned inet trusted (entries request)), split]
            simp
          · intro other member
            exact through other (List.mem_reverse.mp member)

/-- A peer that is no address gives no address, neither its own nor that of an entry. -/
theorem unknown_peer_has_no_address : ∃ (inet : Inet) (trusted : TrustedProxies) (request : HttpRequest),
    request.peerAddress = ascii "unknown" ∧ (∀ family, inet.pton family request.peerAddress = none) ∧
    ¬ ((deriveClient inet request trusted).address = request.peerAddress ∨
      (∃ peer, parseEndpoint inet request.peerAddress = some peer ∧
        (deriveClient inet request trusted).address = formatAddress inet peer) ∨
      ∃ left element right entry, entries request = left ++ element :: right ∧ Vetted inet trusted right ∧
        parseEndpoint inet element = some entry ∧
          (deriveClient inet request trusted).address = formatAddress inet entry) := by
  refine ⟨⟨fun _ _ => none, fun _ _ => none⟩, .None, { peerAddress := ascii "unknown" }, rfl, fun _ => rfl, ?_⟩
  rintro (same | ⟨peer, parsed, _⟩ | ⟨left, element, right, entry, split, _⟩)
  · revert same
    decide
  · have none_ : parseEndpoint ⟨fun _ _ => none, fun _ _ => none⟩ (ascii "unknown") = none := by decide
    rw [none_] at parsed
    cases parsed
  · exact absurd split (List.append_ne_nil_of_right_ne_nil left (List.cons_ne_nil element right)).symm

end OpalCpp.Http.Forwarded

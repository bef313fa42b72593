import OpalCpp.Machine.BitString
import OpalCpp.Model.Http.Forwarded

/-! # The trust set is a union of blocks

A block is all the addresses of one family that agree with its base on the bits of its prefix. What the
entries say is a relation of its own, between a text and a base with its prefix: the parser accepts the lists
all of whose entries stand in it, and the trust set it gives holds the addresses in the block of some entry.
-/

namespace OpalCpp.Http.Forwarded

open Bytes (ascii)

/-- The addresses are in network order, four bytes and sixteen; the texts of one family have colons and
those of the other have none. -/
structure Inet.Lawful (inet : Inet) : Prop where
  inet_length : ∀ text bytes, inet.pton .inet text = some bytes → bytes.length = 4
  inet6_length : ∀ text bytes, inet.pton .inet6 text = some bytes → bytes.length = 16
  inet_text : ∀ text bytes, inet.pton .inet text = some bytes → ':'.toUInt8 ∉ text
  inet6_text : ∀ text bytes, inet.pton .inet6 text = some bytes → ':'.toUInt8 ∈ text

variable {inet : Inet} {text cidr : Bytes} {mapped : Bool} {address base : Address} {bits : ℕ} {trusted : TrustedProxies}

/-! ## Addresses -/

/-- The texts that no platform reads in a way of its own. -/
structure StrictText (text : Bytes) : Prop where
  nonempty : text ≠ []
  short : text.length < INET6_ADDRSTRLEN
  terminated : 0 ∉ text
  unzoned : '%'.toUInt8 ∉ text
  octets : '.'.toUInt8 ∈ tailOf text → ∀ octet ∈ (tailOf text).splitOn '.'.toUInt8,
    octet ≠ [] ∧ octet.length ≤ 3 ∧ (1 < octet.length → octet.head? ≠ some '0'.toUInt8)

/-- The address of a strict text, and if it is an IPv4 address that is written as one of IPv6. -/
inductive Reads (inet : Inet) (text : Bytes) : Bool → Address → Prop
  | inet {bytes : Bytes} : StrictText text → inet.pton .inet text = some bytes →
      Reads inet text false ⟨bytes ++ List.replicate 12 0, .inet⟩
  | mapped {bytes : Bytes} : StrictText text → inet.pton .inet text = none →
      inet.pton .inet6 text = some (kV4MappedPrefix ++ bytes) → Reads inet text true ⟨bytes ++ List.replicate 12 0, .inet⟩
  | inet6 {bytes : Bytes} : StrictText text → inet.pton .inet text = none → inet.pton .inet6 text = some bytes →
      ¬ kV4MappedPrefix <+: bytes → Reads inet text false ⟨bytes, .inet6⟩

theorem strictDottedOctets_iff (dotted : Bytes) : strictDottedOctets dotted = true ↔
    ∀ octet ∈ dotted.splitOn '.'.toUInt8,
      octet ≠ [] ∧ octet.length ≤ 3 ∧ (1 < octet.length → octet.head? ≠ some '0'.toUInt8) := by
  rw [strictDottedOctets, List.all_eq_true]
  apply forall₂_congr
  intro octet _
  rw [imp_iff_not_or, Nat.not_lt]
  simp [and_assoc]

theorem strictText_iff : StrictText text ↔ ¬ (text = [] ∨ INET6_ADDRSTRLEN ≤ text.length ∨ 0 ∈ text) ∧ '%'.toUInt8 ∉ text ∧
    ¬ ('.'.toUInt8 ∈ tailOf text ∧ strictDottedOctets (tailOf text) = false) := by
  have dotted : ¬ ('.'.toUInt8 ∈ tailOf text ∧ strictDottedOctets (tailOf text) = false) ↔
      ('.'.toUInt8 ∈ tailOf text → strictDottedOctets (tailOf text) = true) := by
    rw [not_and, Bool.not_eq_false]
  rw [dotted, strictDottedOctets_iff]
  constructor
  · rintro ⟨nonempty, short, terminated, unzoned, octets⟩
    refine ⟨?_, unzoned, octets⟩
    rintro (empty | long | zero)
    · exact nonempty empty
    · exact absurd short (Nat.not_lt.mpr long)
    · exact terminated zero
  · rintro ⟨plain, unzoned, octets⟩
    rw [not_or, not_or, Nat.not_le] at plain
    exact ⟨plain.1, plain.2.1, plain.2.2, unzoned, octets⟩

theorem parseAddress_of_strict (strict : StrictText text) : parseAddress inet text =
    match inet.pton .inet text with
    | some bytes => some ⟨bytes ++ List.replicate 12 0, .inet⟩
    | none => (inet.pton .inet6 text).map fun bytes =>
      if bytes.take 12 = kV4MappedPrefix then ⟨bytes.drop 12 ++ List.replicate 12 0, .inet⟩ else ⟨bytes, .inet6⟩ := by
  obtain ⟨plain, unzoned, octets⟩ := strictText_iff.mp strict
  rw [parseAddress, if_neg plain, if_neg unzoned]
  exact if_neg octets

theorem strict_of_parseAddress (parsed : parseAddress inet text = some address) : StrictText text := by
  rw [parseAddress] at parsed
  split_ifs at parsed with plain zone octets
  exact strictText_iff.mpr ⟨plain, zone, octets⟩

theorem mapped_iff (bytes : Bytes) : bytes.take 12 = kV4MappedPrefix ↔ kV4MappedPrefix <+: bytes := by
  constructor
  · intro same
    exact same ▸ List.take_prefix 12 bytes
  · rintro ⟨rest, rfl⟩
    rfl

/-- The parser of addresses reads the strict texts. -/
theorem parseAddress_iff : parseAddress inet text = some address ↔ ∃ mapped, Reads inet text mapped address := by
  constructor
  · intro parsed
    have strict := strict_of_parseAddress parsed
    rw [parseAddress_of_strict strict] at parsed
    cases four : inet.pton .inet text with
    | some bytes =>
      rw [four] at parsed
      obtain rfl := Option.some.inj parsed
      exact ⟨false, .inet strict four⟩
    | none =>
      rw [four] at parsed
      dsimp only at parsed
      obtain ⟨bytes, sixteen, rfl⟩ := Option.map_eq_some_iff.mp parsed
      split_ifs with embedded
      · obtain ⟨rest, rfl⟩ := (mapped_iff bytes).mp embedded
        exact ⟨true, .mapped strict four sixteen⟩
      · rw [mapped_iff] at embedded
        exact ⟨false, .inet6 strict four sixteen embedded⟩
  · rintro ⟨mapped, reads⟩
    cases reads with
    | inet strict four => rw [parseAddress_of_strict strict, four]
    | mapped strict four sixteen =>
      rw [parseAddress_of_strict strict, four, sixteen]
      rfl
    | inet6 strict four sixteen embedded =>
      rw [parseAddress_of_strict strict, four, sixteen]
      rw [← mapped_iff] at embedded
      simp [embedded]

/-- A text of IPv4 with a colon is one that is written as IPv6. -/
theorem Reads.mapped_iff_colon (lawful : inet.Lawful) (reads : Reads inet text mapped address) :
    address.family = .inet ∧ ':'.toUInt8 ∈ text ↔ mapped = true := by
  cases reads with
  | inet _ four => simpa using lawful.inet_text _ _ four
  | mapped _ _ sixteen => simpa using lawful.inet6_text _ _ sixteen
  | inet6 _ _ _ _ => simp

theorem Reads.length (lawful : inet.Lawful) (reads : Reads inet text mapped address) : address.bytes.length = 16 := by
  cases reads with
  | inet _ four => rw [List.length_append, lawful.inet_length _ _ four, List.length_replicate]
  | mapped _ _ sixteen =>
    have length := lawful.inet6_length _ _ sixteen
    rw [List.length_append] at length ⊢
    rw [List.length_replicate]
    exact (Nat.add_comm _ _).trans length
  | inet6 _ _ sixteen _ => exact lawful.inet6_length _ _ sixteen

/-! ## Entries -/

/-- The value of one to three digits. -/
def PrefixDigits (digits : Bytes) (number : ℕ) : Prop :=
  1 ≤ digits.length ∧ digits.length ≤ 3 ∧ (∀ digit ∈ digits, Decimal.isDigit digit = true) ∧
    Decimal.read digits = some number

/-- What an entry says: an address, the block of itself, or an address and the bits of its prefix. The
prefix of an IPv4 address that is written as one of IPv6 is that of the latter. -/
inductive Denotes (inet : Inet) : Bytes → Address → ℕ → Prop
  | host {text : Bytes} {mapped : Bool} {base : Address} : Reads inet text mapped base → '/'.toUInt8 ∉ text →
      Denotes inet text base base.family.maxBits
  | network {text digits : Bytes} {mapped : Bool} {base : Address} {bits : ℕ} :
      Reads inet text mapped base → '/'.toUInt8 ∉ text →
      PrefixDigits digits (bits + if mapped then 96 else 0) → bits ≤ base.family.maxBits →
      Denotes inet (text ++ '/'.toUInt8 :: digits) base bits

theorem prefixDigits_iff (digits : Bytes) :
    (¬ (allDigits digits = false ∨ 3 < digits.length)) ↔ ∃ number, PrefixDigits digits number := by
  rw [not_or, Bool.not_eq_false, Nat.not_lt, allDigits, Bool.and_eq_true, List.all_eq_true, decide_eq_true_eq]
  constructor
  · rintro ⟨⟨nonempty, isDigits⟩, short⟩
    obtain ⟨number, value⟩ := Decimal.exists_read isDigits
    exact ⟨number, List.length_pos_iff.mpr nonempty, short, isDigits, value⟩
  · rintro ⟨number, positive, short, isDigits, _⟩
    exact ⟨⟨List.length_pos_iff.mp positive, isDigits⟩, short⟩

theorem ne_slash {text : Bytes} (plain : '/'.toUInt8 ∉ text) : ∀ byte ∈ text, decide (byte ≠ '/'.toUInt8) = true := by
  intro byte member
  rw [decide_eq_true_eq]
  rintro rfl
  exact plain member

theorem takeWhile_slash {text : Bytes} (plain : '/'.toUInt8 ∉ text) (rest : Bytes) :
    (text ++ '/'.toUInt8 :: rest).takeWhile (· ≠ '/'.toUInt8) = text := by
  rw [List.takeWhile_append_of_pos (ne_slash plain)]
  simp

theorem dropWhile_slash {text : Bytes} (plain : '/'.toUInt8 ∉ text) (rest : Bytes) :
    (text ++ '/'.toUInt8 :: rest).dropWhile (· ≠ '/'.toUInt8) = '/'.toUInt8 :: rest := by
  rw [List.dropWhile_append_of_pos (ne_slash plain)]
  simp

/-- The shift of the prefix that the parser makes is that of the relation. -/
theorem shifted_iff {number maxBits bits : ℕ} {shift : Prop} [Decidable shift] :
    ((shift → 96 ≤ number) ∧ (if shift then number - 96 else number) ≤ maxBits) ∧
      bits = (if shift then number - 96 else number) ↔
      number = bits + (if shift then 96 else 0) ∧ bits ≤ maxBits := by
  split_ifs with shift
  · simp only [shift, true_imp_iff]
    omega
  · simp only [shift, false_imp_iff, true_and, Nat.add_zero]
    omega

theorem parseNetwork_host (parsed : parseAddress inet text = some base) (plain : '/'.toUInt8 ∉ text) :
    TrustedProxies.parseNetwork inet text = .ok ⟨base.bytes, base.family, base.family.maxBits, le_refl _⟩ := by
  have whole : text.takeWhile (· ≠ '/'.toUInt8) = text := List.takeWhile_eq_self_iff.mpr (ne_slash plain)
  simp only [TrustedProxies.parseNetwork, whole, parsed, if_neg plain]

theorem parseNetwork_ok {network : Network} (accepted : TrustedProxies.parseNetwork inet cidr = .ok network) :
    ∃ base, parseAddress inet (cidr.takeWhile (· ≠ '/'.toUInt8)) = some base ∧
      network.bytes = base.bytes ∧ network.family = base.family ∧
      ('/'.toUInt8 ∉ cidr ∧ network.prefixBits = base.family.maxBits ∨
        ∃ number, '/'.toUInt8 ∈ cidr ∧ PrefixDigits (cidr.dropWhile (· ≠ '/'.toUInt8)).tail number ∧
          number = network.prefixBits +
            if base.family = .inet ∧ ':'.toUInt8 ∈ cidr.takeWhile (· ≠ '/'.toUInt8) then 96 else 0) := by
  rw [TrustedProxies.parseNetwork] at accepted
  cases parsed : parseAddress inet (cidr.takeWhile (· ≠ '/'.toUInt8)) with
  | none =>
    rw [parsed] at accepted
    cases accepted
  | some base =>
    rw [parsed] at accepted
    refine ⟨base, rfl, ?_⟩
    dsimp only at accepted
    split at accepted
    · rename_i slash
      split at accepted
      · cases accepted
      · rename_i malformed
        obtain ⟨number, digits⟩ := (prefixDigits_iff _).mp malformed
        obtain ⟨fits, accepted⟩ | ⟨_, refused⟩ := dite_eq_iff.mp accepted
        · obtain rfl := Except.ok.inj accepted
          refine ⟨rfl, rfl, .inr ⟨number, slash, digits, ?_⟩⟩
          rw [digits.2.2.2, Option.getD_some] at fits
          simp only [digits.2.2.2, Option.getD_some]
          exact (shifted_iff.mp ⟨fits, rfl⟩).1
        · cases refused
    · rename_i plain
      obtain rfl := Except.ok.inj accepted
      exact ⟨rfl, rfl, .inl ⟨plain, rfl⟩⟩

theorem parseNetwork_network {digits : Bytes} {number : ℕ} (parsed : parseAddress inet text = some base)
    (plain : '/'.toUInt8 ∉ text)
    (value : PrefixDigits digits number) (same : number = bits + if base.family = .inet ∧ ':'.toUInt8 ∈ text then 96 else 0)
    (bounded : bits ≤ base.family.maxBits) :
    TrustedProxies.parseNetwork inet (text ++ '/'.toUInt8 :: digits) = .ok ⟨base.bytes, base.family, bits, bounded⟩ := by
  obtain ⟨fits, prefixBits⟩ := shifted_iff.mpr ⟨same, bounded⟩
  have wellFormed := (prefixDigits_iff digits).mpr ⟨_, value⟩
  have slash : '/'.toUInt8 ∈ text ++ '/'.toUInt8 :: digits := by simp
  simp only [TrustedProxies.parseNetwork, takeWhile_slash plain, parsed, if_pos slash, dropWhile_slash plain, List.tail_cons,
    if_neg wellFormed, value.2.2.2, Option.getD_some, dif_pos fits, prefixBits]

/-- The parser of entries accepts what stands in the relation, and gives the block. -/
theorem parseNetwork_iff (lawful : inet.Lawful) {network : Network} : TrustedProxies.parseNetwork inet cidr = .ok network ↔
    Denotes inet cidr ⟨network.bytes, network.family⟩ network.prefixBits := by
  constructor
  · intro accepted
    obtain ⟨base, parsed, bytes, family, here⟩ := parseNetwork_ok accepted
    obtain ⟨mapped, reads⟩ := parseAddress_iff.mp parsed
    have same : base = ⟨network.bytes, network.family⟩ := by rw [bytes, family]
    have bounded := network.bounded
    rw [family] at bounded
    rw [← same]
    obtain ⟨plain, bits⟩ | ⟨number, slash, digits, value⟩ := here
    · rw [List.takeWhile_eq_self_iff.mpr (ne_slash plain)] at reads
      rw [bits]
      exact .host reads plain
    · obtain ⟨text, rest, rfl, plain⟩ := List.eq_append_cons_of_mem slash
      rw [takeWhile_slash plain] at reads value
      rw [dropWhile_slash plain, List.tail_cons] at digits
      simp only [reads.mapped_iff_colon lawful] at value
      exact .network reads plain (value ▸ digits) bounded
  · obtain ⟨bytes, family, bits, bounded⟩ := network
    intro denotes
    generalize same : (⟨bytes, family⟩ : Address) = base at denotes
    cases denotes with
    | host reads plain =>
      obtain rfl := same
      exact parseNetwork_host (parseAddress_iff.mpr ⟨_, reads⟩) plain
    | network reads plain value inside =>
      obtain rfl := same
      apply parseNetwork_network (parseAddress_iff.mpr ⟨_, reads⟩) plain value
      simp only [reads.mapped_iff_colon lawful]

/-! ## The trust set -/

theorem mapM_ok_iff {α β : Type} {f : α → Outcome β} {items : List α} {results : List β} :
    items.mapM f = .ok results ↔ List.Forall₂ (fun item result => f item = .ok result) items results := by
  induction items generalizing results with
  | nil =>
    rw [List.mapM_nil, List.forall₂_nil_left_iff]
    constructor
    · rintro ⟨⟩
      rfl
    · rintro rfl
      rfl
  | cons item items ih =>
    rw [List.mapM_cons, List.forall₂_cons_left_iff]
    constructor
    · intro accepted
      obtain ⟨result, first, accepted⟩ := Outcome.bind_eq_ok.mp accepted
      obtain ⟨others, rest, same⟩ := Outcome.bind_eq_ok.mp accepted
      obtain rfl := Except.ok.inj same
      exact ⟨result, others, first, ih.mp rest, rfl⟩
    · rintro ⟨result, others, first, rest, rfl⟩
      rw [first, ih.mpr rest]
      rfl

theorem exists_forall₂_iff {α β : Type*} {R : α → β → Prop} {items : List α} :
    (∃ results, List.Forall₂ R items results) ↔ ∀ item ∈ items, ∃ result, R item result := by
  induction items with
  | nil => simp
  | cons item items ih =>
    rw [List.forall_mem_cons, ← ih]
    constructor
    · rintro ⟨_, _ | ⟨first, rest⟩⟩
      exact ⟨⟨_, first⟩, _, rest⟩
    · rintro ⟨⟨result, first⟩, results, rest⟩
      exact ⟨result :: results, .cons first rest⟩

/-- An address is in the block of its family and of the bits of its prefix. -/
def InBlock (base : Address) (bits : ℕ) (address : Address) : Prop :=
  base.family = address.family ∧ BitString.Agree bits base.bytes address.bytes

theorem prefixMatch_iff {network address : Bytes} {prefixBits : ℕ} (inNetwork : network.length = 16)
    (inAddress : address.length = 16)
    (bounded : prefixBits ≤ 128) :
    prefixMatch network address prefixBits = true ↔ BitString.Agree prefixBits network address := by
  rw [← BitString.compare_iff (by omega) (by omega), prefixMatch]
  simp [BitString.highMask]

theorem parse_ok_iff {cidrs : List Bytes} : TrustedProxies.parse inet cidrs = .ok trusted ↔
    List.Forall₂ (fun cidr network => TrustedProxies.parseNetwork inet cidr = .ok network) cidrs trusted.networks := by
  rw [← mapM_ok_iff, TrustedProxies.parse]
  constructor
  · intro accepted
    obtain ⟨networks, all, same⟩ := Outcome.bind_eq_ok.mp accepted
    obtain rfl := Except.ok.inj same
    exact all
  · intro all
    rw [all]
    rfl

theorem parseNetwork_base (lawful : inet.Lawful) {network : Network}
    (accepted : TrustedProxies.parseNetwork inet cidr = .ok network) :
    network.bytes.length = 16 ∧ network.prefixBits ≤ 128 := by
  obtain ⟨base, parsed, bytes, _⟩ := parseNetwork_ok accepted
  obtain ⟨mapped, reads⟩ := parseAddress_iff.mp parsed
  refine ⟨bytes ▸ reads.length lawful, network.bounded.trans ?_⟩
  cases network.family <;> decide

theorem Denotes.bounded (denotes : Denotes inet cidr base bits) : bits ≤ base.family.maxBits := by
  cases denotes with
  | host _ _ => exact le_refl _
  | network _ _ _ bounded => exact bounded

theorem parse_accepts_iff (lawful : inet.Lawful) (cidrs : List Bytes) :
    (∃ trusted, TrustedProxies.parse inet cidrs = .ok trusted) ↔
      ∀ cidr ∈ cidrs, ∃ base bits, Denotes inet cidr base bits := by
  have entries : (∀ cidr ∈ cidrs, ∃ base bits, Denotes inet cidr base bits) ↔
      ∀ cidr ∈ cidrs, ∃ network, TrustedProxies.parseNetwork inet cidr = .ok network := by
    apply forall₂_congr
    intro cidr _
    constructor
    · rintro ⟨base, bits, denotes⟩
      exact ⟨⟨base.bytes, base.family, bits, denotes.bounded⟩, (parseNetwork_iff lawful).mpr denotes⟩
    · rintro ⟨network, accepted⟩
      exact ⟨_, _, (parseNetwork_iff lawful).mp accepted⟩
  rw [entries, ← exists_forall₂_iff]
  constructor
  · rintro ⟨trusted, accepted⟩
    exact ⟨trusted.networks, parse_ok_iff.mp accepted⟩
  · rintro ⟨networks, accepted⟩
    exact ⟨⟨networks⟩, parse_ok_iff.mpr accepted⟩

/-- An address that is read is in the trust set when it is in the block of some entry. -/
theorem containsBytes_iff (lawful : inet.Lawful) {cidrs : List Bytes}
    (accepted : TrustedProxies.parse inet cidrs = .ok trusted)
    (reads : Reads inet text mapped address) : trusted.containsBytes address = true ↔
      ∃ cidr ∈ cidrs, ∃ base bits, Denotes inet cidr base bits ∧ InBlock base bits address := by
  have blocks := parse_ok_iff.mp accepted
  have length := reads.length lawful
  rw [TrustedProxies.containsBytes]
  clear accepted
  generalize trusted.networks = networks at blocks
  induction blocks with
  | nil => simp
  | @cons cidr network cidrs networks first _ ih =>
    obtain ⟨inNetwork, bounded⟩ := parseNetwork_base lawful first
    rw [List.any_cons, Bool.or_eq_true, List.exists_mem_cons_iff]
    refine or_congr ?_ ih
    rw [Bool.and_eq_true, decide_eq_true_eq, prefixMatch_iff inNetwork length bounded]
    constructor
    · rintro ⟨family, agree⟩
      exact ⟨_, _, (parseNetwork_iff lawful).mp first, family, agree⟩
    · rintro ⟨base, bits, denotes, family, agree⟩
      have again : TrustedProxies.parseNetwork inet cidr = .ok ⟨base.bytes, base.family, bits, denotes.bounded⟩ :=
        (parseNetwork_iff lawful).mpr denotes
      obtain rfl := Except.ok.inj (first.symm.trans again)
      exact ⟨family, agree⟩

/-- A list of entries is accepted when each of them says something, so that one that does not fails them
all. The trust set is then the union of the blocks that they say: a text is in it when it is an address, one
of IPv4 where it is mapped into IPv6, that agrees with the base of some entry on the bits of its prefix. -/
theorem trusted_is_union (lawful : inet.Lawful) (cidrs : List Bytes) :
    ((∃ trusted, TrustedProxies.parse inet cidrs = .ok trusted) ↔ ∀ cidr ∈ cidrs, ∃ base bits, Denotes inet cidr base bits) ∧
    ((∃ cidr ∈ cidrs, ¬ ∃ base bits, Denotes inet cidr base bits) →
      ∃ error, TrustedProxies.parse inet cidrs = .error error) ∧
    ∀ trusted, TrustedProxies.parse inet cidrs = .ok trusted → ∀ text,
      TrustedProxies.contains inet trusted text = true ↔ ∃ mapped address, Reads inet text mapped address ∧
        ∃ cidr ∈ cidrs, ∃ base bits, Denotes inet cidr base bits ∧ base.family = address.family ∧
          ∀ index < bits, BitString.bit base.bytes index = BitString.bit address.bytes index := by
  have accepts := parse_accepts_iff lawful cidrs
  refine ⟨accepts, ?_, ?_⟩
  · rintro ⟨cidr, member, malformed⟩
    cases parsed : TrustedProxies.parse inet cidrs with
    | error error => exact ⟨error, rfl⟩
    | ok trusted => exact absurd (accepts.mp ⟨trusted, parsed⟩ cidr member) malformed
  · intro trusted accepted text
    rw [TrustedProxies.contains, Option.any_eq_true]
    constructor
    · rintro ⟨address, parsed, inside⟩
      obtain ⟨mapped, reads⟩ := parseAddress_iff.mp parsed
      exact ⟨mapped, address, reads, (containsBytes_iff lawful accepted reads).mp inside⟩
    · rintro ⟨mapped, address, reads, inside⟩
      exact ⟨address, parseAddress_iff.mpr ⟨mapped, reads⟩, (containsBytes_iff lawful accepted reads).mpr inside⟩

/-- What a platform says of the addresses of two private networks. -/
def privateInet : Inet where
  pton
    | .inet, text =>
      if text = ascii "10.1.0.0" then some [10, 1, 0, 0] else if text = ascii "10.1.15.9" then some [10, 1, 15, 9] else none
    | .inet6, text => if text = ascii "::ffff:192.168.1.0" then some (kV4MappedPrefix ++ [192, 168, 1, 0]) else none
  ntop _ _ := none

theorem privateInet_lawful : privateInet.Lawful := by
  constructor <;> intro text bytes read <;> simp only [privateInet] at read <;> split_ifs at read
  all_goals
    obtain rfl := Option.some.inj read
    subst_vars
    decide

theorem trusted_is_union_private :
    let cidrs := [ascii "10.1.0.0/20", ascii "::ffff:192.168.1.0/120"]
    (∃ trusted, TrustedProxies.parse privateInet cidrs = .ok trusted) ∧
      ∀ trusted, TrustedProxies.parse privateInet cidrs = .ok trusted →
        TrustedProxies.contains privateInet trusted (ascii "10.1.15.9") = true := by
  intro cidrs
  obtain ⟨accepts, _, union⟩ := trusted_is_union privateInet_lawful cidrs
  have ten : Denotes privateInet (ascii "10.1.0.0/20") ⟨[10, 1, 0, 0] ++ List.replicate 12 0, .inet⟩ 20 := by
    have reads : Reads privateInet (ascii "10.1.0.0") false ⟨[10, 1, 0, 0] ++ List.replicate 12 0, .inet⟩ :=
      .inet (strictText_iff.mpr (by decide)) rfl
    have digits : PrefixDigits (ascii "20") 20 := ⟨by decide, by decide, by decide, by decide⟩
    exact .network reads (by decide) digits (by decide)
  have mapped :
      Denotes privateInet (ascii "::ffff:192.168.1.0/120") ⟨[192, 168, 1, 0] ++ List.replicate 12 0, .inet⟩ 24 := by
    have reads : Reads privateInet (ascii "::ffff:192.168.1.0") true ⟨[192, 168, 1, 0] ++ List.replicate 12 0, .inet⟩ :=
      .mapped (strictText_iff.mpr (by decide)) rfl rfl
    have digits : PrefixDigits (ascii "120") 120 := ⟨by decide, by decide, by decide, by decide⟩
    exact .network reads (by decide) digits (by decide)
  constructor
  · rw [accepts]
    intro cidr member
    obtain rfl | rfl := List.mem_pair.mp member
    · exact ⟨_, _, ten⟩
    · exact ⟨_, _, mapped⟩
  · intro trusted accepted
    rw [union trusted accepted]
    exact ⟨false, ⟨[10, 1, 15, 9] ++ List.replicate 12 0, .inet⟩, .inet (strictText_iff.mpr (by decide)) rfl, _,
      List.mem_cons_self,
      _, _, ten, rfl, by decide⟩

end OpalCpp.Http.Forwarded

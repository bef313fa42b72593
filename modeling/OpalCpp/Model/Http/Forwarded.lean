import OpalCpp.Model.Core.Error
import OpalCpp.Model.Http.Headers

/-! # The address of the client

The trust boundary and the walk over the entries of `x-forwarded-for`. `inet_pton` and `inet_ntop` are
parameters: functions of their text and of their bytes.
-/

namespace OpalCpp.Http

open Bytes (ascii)

namespace Forwarded

inductive Family where
  | inet | inet6
deriving DecidableEq, Repr

namespace Family

def maxBits : Family → ℕ
  | inet => 32
  | inet6 => 128

end Family

/-- The conversions of the platform. -/
structure Inet where
  pton : Family → Bytes → Option Bytes
  ntop : Family → Bytes → Option Bytes

/-- Sixteen bytes, of which those of the family are significant. -/
structure Address where
  bytes : Bytes
  family : Family
deriving DecidableEq

def kV4MappedPrefix : Bytes := List.replicate 10 0 ++ [0xff, 0xff]

def INET6_ADDRSTRLEN : ℕ := 46

/-- No octet has a leading zero, which one platform reads as a decimal and another refuses. -/
def strictDottedOctets (dotted : Bytes) : Bool :=
  (dotted.splitOn '.'.toUInt8).all fun octet =>
    !(octet = [] || 3 < octet.length || (1 < octet.length && octet.head? = some '0'.toUInt8))

/-- What stands behind the last colon. -/
def tailOf (text : Bytes) : Bytes := text.rtakeWhile (· ≠ ':'.toUInt8)

/-- An IPv4 address that is mapped into IPv6 is that IPv4 address. -/
def parseAddress (inet : Inet) (text : Bytes) : Option Address :=
  if text = [] ∨ INET6_ADDRSTRLEN ≤ text.length ∨ 0 ∈ text then none
  else if '%'.toUInt8 ∈ text then none
  else if '.'.toUInt8 ∈ tailOf text ∧ strictDottedOctets (tailOf text) = false then none
  else match inet.pton .inet text with
    | some bytes => some ⟨bytes ++ List.replicate 12 0, .inet⟩
    | none => (inet.pton .inet6 text).map fun bytes =>
      if bytes.take 12 = kV4MappedPrefix then ⟨bytes.drop 12 ++ List.replicate 12 0, .inet⟩ else ⟨bytes, .inet6⟩

def formatAddress (inet : Inet) (address : Address) : Bytes := (inet.ntop address.family address.bytes).getD []

/-- A zone is not part of the identity of a client. One that is empty is left for the parser to refuse. -/
def dropZone (text : Bytes) : Bytes :=
  let zone := text.dropWhile (· ≠ '%'.toUInt8)
  if zone.length ≤ 1 then text else text.takeWhile (· ≠ '%'.toUInt8)

/-- The forms that entries and the addresses of peers share: `v4`, `v4:port`, `[v6]`, `[v6]:port` and `v6`. -/
def parseEndpoint (inet : Inet) (entry : Bytes) : Option Address :=
  match entry with
  | [] => none
  | first :: rest =>
    if first = '['.toUInt8 then
      match rest.dropWhile (· ≠ ']'.toUInt8) with
      | [] => none
      | _ :: port =>
        if port ≠ [] ∧ (port.head? ≠ some ':'.toUInt8 ∨ allDigits port.tail = false) then none
        else parseAddress inet (dropZone (rest.takeWhile (· ≠ ']'.toUInt8)))
    else
      let colons := entry.count ':'.toUInt8
      if colons = 1 then
        if allDigits (entry.dropWhile (· ≠ ':'.toUInt8)).tail then parseAddress inet (entry.takeWhile (· ≠ ':'.toUInt8))
          else none
      else parseAddress inet (if colons = 0 then entry else dropZone entry)

/-- The bytes of the prefix, and then the bits of the last one. -/
def prefixMatch (network address : Bytes) (prefixBits : ℕ) : Bool :=
  let fullBytes := prefixBits / 8
  let remainder := prefixBits % 8
  let mask : UInt8 := 0xff <<< UInt8.ofNat (8 - remainder)
  network.take fullBytes = address.take fullBytes &&
    (remainder = 0 || network.getD fullBytes 0 &&& mask = address.getD fullBytes 0 &&& mask)

/-- A prefix is no longer than an address of its family. -/
structure Network where
  bytes : Bytes
  family : Family
  prefixBits : ℕ
  bounded : prefixBits ≤ family.maxBits

structure TrustedProxies where
  networks : List Network := []

namespace TrustedProxies

def None : TrustedProxies := {}

/-- One entry: a network, or the route to a host. -/
def parseNetwork (inet : Inet) (cidr : Bytes) : Outcome Network :=
  let baseText := cidr.takeWhile (· ≠ '/'.toUInt8)
  match parseAddress inet baseText with
  | none => .error (.Validation ("TrustedProxies: unparseable address in \"" ++ cidr.text ++ "\""))
  | some base =>
    if '/'.toUInt8 ∈ cidr then
      let digits : Bytes := (cidr.dropWhile (· ≠ '/'.toUInt8)).tail
      if allDigits digits = false ∨ 3 < digits.length then
        .error (.Validation ("TrustedProxies: malformed prefix in \"" ++ cidr.text ++ "\""))
      else
        -- The prefix of a mapped base moves with it across the range of the mapping.
        let mapped := base.family = .inet ∧ ':'.toUInt8 ∈ baseText
        let bits := (Decimal.read digits).getD 0
        if fits : (mapped → 96 ≤ bits) ∧ (if mapped then bits - 96 else bits) ≤ base.family.maxBits then
          .ok ⟨base.bytes, base.family, if mapped then bits - 96 else bits, fits.2⟩
        else .error (.Validation ("TrustedProxies: prefix out of range in \"" ++ cidr.text ++ "\""))
    else .ok ⟨base.bytes, base.family, base.family.maxBits, le_refl _⟩

/-- The first entry that is malformed fails all of them. -/
def parse (inet : Inet) (cidrs : List Bytes) : Outcome TrustedProxies := do
  return ⟨← cidrs.mapM (parseNetwork inet)⟩

def containsBytes (trusted : TrustedProxies) (address : Address) : Bool :=
  trusted.networks.any fun network =>
    network.family = address.family && prefixMatch network.bytes address.bytes network.prefixBits

def contains (inet : Inet) (trusted : TrustedProxies) (address : Bytes) : Bool :=
  (parseAddress inet address).any trusted.containsBytes

end TrustedProxies

inductive Source where
  | directPeer | untrustedHeaderIgnored | forwarded | trustedTier | unknown
deriving DecidableEq, Repr

structure DerivedClient where
  address : Bytes := []
  source : Source := .unknown
deriving DecidableEq

/-- The entries of all the headers, joined in order. -/
def entries (request : HttpRequest) : List Bytes :=
  (request.headers.getAll (ascii "x-forwarded-for")).flatMap splitHeaderListValues

/-- The walk from the last vetted position over the entries that are left, the rightmost first. -/
def walk (inet : Inet) (trusted : TrustedProxies) (client : Address) : List Bytes → DerivedClient
  | [] => ⟨formatAddress inet client, .trustedTier⟩
  | element :: rest =>
    match parseEndpoint inet element with
    | none => ⟨formatAddress inet client, .trustedTier⟩
    | some entry =>
      if trusted.containsBytes entry then walk inet trusted entry rest else ⟨formatAddress inet entry, .forwarded⟩

def deriveClient (inet : Inet) (request : HttpRequest) (trusted : TrustedProxies) : DerivedClient :=
  match parseEndpoint inet request.peerAddress with
  | none => {}
  | some peer =>
    if trusted.containsBytes peer then walk inet trusted peer (entries request).reverse
    else ⟨formatAddress inet peer, if request.headers.has (ascii "x-forwarded-for") then .untrustedHeaderIgnored
      else .directPeer⟩

end Forwarded

end OpalCpp.Http

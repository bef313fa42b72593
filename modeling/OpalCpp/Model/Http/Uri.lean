import Mathlib.Data.List.DropRight
import OpalCpp.Machine.Decimal
import OpalCpp.Machine.Delimited
import OpalCpp.Model.Core.Bytes
import OpalCpp.Model.Core.Error

/-! # Request targets

Percent-encoding, the query string a client builds and the parsers of a request target and of an endpoint.
-/

namespace OpalCpp.Http

open Bytes (ascii)
open Delimited (cut cutLast join)

def kHex : Bytes := ascii "0123456789ABCDEF"

def isUnreserved (c : UInt8) : Bool :=
  ('A'.toUInt8 ≤ c && c ≤ 'Z'.toUInt8) || ('a'.toUInt8 ≤ c && c ≤ 'z'.toUInt8) ||
    ('0'.toUInt8 ≤ c && c ≤ '9'.toUInt8) || c = '-'.toUInt8 || c = '_'.toUInt8 || c = '.'.toUInt8 ||
    c = '~'.toUInt8

def encode (keepSlash : Bool) (text : Bytes) : Bytes :=
  text.flatMap fun c =>
    if isUnreserved c || (keepSlash && c = '/'.toUInt8) then [c]
    else ['%'.toUInt8, kHex.getD (c >>> 4).toNat 0, kHex.getD (c &&& 0xF).toNat 0]

/-- Nothing where the source has -1. -/
def hexValue (c : UInt8) : Option UInt8 :=
  if '0'.toUInt8 ≤ c ∧ c ≤ '9'.toUInt8 then some (c - '0'.toUInt8)
  else if 'A'.toUInt8 ≤ c ∧ c ≤ 'F'.toUInt8 then some (c - 'A'.toUInt8 + 10)
  else if 'a'.toUInt8 ≤ c ∧ c ≤ 'f'.toUInt8 then some (c - 'a'.toUInt8 + 10)
  else none

def encodePathSegment (text : Bytes) : Bytes := encode false text

def encodeGreedyPathSegment (text : Bytes) : Bytes := encode true text

def encodeQueryComponent (text : Bytes) : Bytes := encode false text

def percentDecode : Bytes → Outcome Bytes
  | [] => .ok []
  | c :: rest =>
    if c ≠ '%'.toUInt8 then (percentDecode rest).map (c :: ·)
    else
      match rest with
      | first :: second :: rest =>
        match hexValue first, hexValue second with
        | some high, some low => (percentDecode rest).map ((high <<< 4 ||| low) :: ·)
        | _, _ => .error (.Serialization "uri: malformed percent escape")
      | _ => .error (.Serialization "uri: malformed percent escape")

structure Param where
  key : Bytes
  value : Bytes
  flag : Bool

/-- `QueryString`: parameters, already encoded. -/
structure QueryString where
  params : List Param := []

namespace QueryString

def add (query : QueryString) (key value : Bytes) : QueryString :=
  ⟨query.params ++ [⟨encodeQueryComponent key, encodeQueryComponent value, false⟩]⟩

def addFlag (query : QueryString) (key : Bytes) : QueryString :=
  ⟨query.params ++ [⟨encodeQueryComponent key, [], true⟩]⟩

/-- A parameter as `ToString` writes it: an empty value still has its `=`. -/
def printed (param : Param) : Bytes :=
  if param.flag then param.key else param.key ++ '='.toUInt8 :: param.value

def toString (query : QueryString) : Bytes :=
  if query.params = [] then [] else '?'.toUInt8 :: join '&'.toUInt8 (query.params.map printed)

end QueryString

structure RequestTarget where
  pathSegments : List Bytes := []
  queryParams : List (Bytes × Bytes) := []
deriving DecidableEq

/-- The loop over the path. A path that ends with a slash has an empty segment behind it. -/
def parsePath (path : Bytes) : Outcome (List Bytes) :=
  if path = [] then .ok []
  else
    match _split : cut '/'.toUInt8 path with
    | (raw, none) => (percentDecode raw).map ([·])
    | (raw, some rest) => do
      let decoded ← percentDecode raw
      if rest = [] then return [decoded, []]
      return decoded :: (← parsePath rest)
termination_by path.length
decreasing_by exact Delimited.length_of_cut _split

/-- A key and a value, or nothing when there is nothing between two ampersands. -/
def parsePair (pair : Bytes) : Outcome (List (Bytes × Bytes)) :=
  if pair = [] then .ok []
  else do
    let (rawKey, rawValue) := cut '='.toUInt8 pair
    let key ← percentDecode rawKey
    let value ← percentDecode (rawValue.getD [])
    return [(key, value)]

/-- The loop over the query. -/
def parseQuery (query : Bytes) : Outcome (List (Bytes × Bytes)) :=
  if query = [] then .ok []
  else
    match _split : cut '&'.toUInt8 query with
    | (pair, none) => parsePair pair
    | (pair, some rest) => do
      let params ← parsePair pair
      return params ++ (← parseQuery rest)
termination_by query.length
decreasing_by exact Delimited.length_of_cut _split

def parseRequestTarget (target : Bytes) : Outcome RequestTarget :=
  match cut '?'.toUInt8 target with
  | (path, query) =>
    if path.head? ≠ some '/'.toUInt8 then
      .error (.Serialization "uri: request target must start with '/'")
    else do
      let pathSegments ← parsePath path.tail
      let queryParams ← parseQuery (query.getD [])
      return { pathSegments, queryParams }

/-! ## Endpoints -/

structure Endpoint where
  scheme : Bytes
  host : Bytes
  port : ℕ
  pathPrefix : Bytes := []
deriving DecidableEq

namespace Endpoint

/-- The loop over the digits of a port. -/
def parsePort (port : ℕ) : Bytes → Outcome ℕ
  | [] => if port = 0 then .error (.Validation "endpoint: invalid port") else .ok port
  | c :: rest =>
    if !Decimal.isDigit c then .error (.Validation "endpoint: invalid port")
    else
      let port := port * 10 + Decimal.value c
      if 65535 < port then .error (.Validation "endpoint: invalid port") else parsePort port rest

/-- The host and the port, which is the default if no colon is there. -/
def parseAuthority (default : ℕ) (authority : Bytes) : Outcome (Bytes × ℕ) :=
  match cutLast ':'.toUInt8 authority with
  | (_, none) => .ok (authority, default)
  | (host, some digits) => (parsePort 0 digits).map (host, ·)

/-- What follows the scheme. -/
def parseRest (scheme : Bytes) (default : ℕ) (rest : Bytes) : Outcome Endpoint := do
  let (authority, path) := cut '/'.toUInt8 rest
  let pathPrefix := (path.elim [] ('/'.toUInt8 :: ·)).rdropWhile (· = '/'.toUInt8)
  let (host, port) ← parseAuthority default authority
  if host = [] then .error (.Validation "endpoint: missing host") else return { scheme, host, port, pathPrefix }

def parseEndpoint (url : Bytes) : Outcome Endpoint :=
  if ascii "http://" <+: url then parseRest (ascii "http") 80 (url.drop 7)
  else if ascii "https://" <+: url then parseRest (ascii "https") 443 (url.drop 8)
  else .error (.Validation ("endpoint: expected an http:// or https:// URL (got: " ++ url.text ++ ")"))

end Endpoint

end OpalCpp.Http

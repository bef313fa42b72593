import Mathlib.Data.Finset.Insert
import OpalCpp.Model.Http.Headers
import OpalCpp.Model.Server.Router

/-! # The origin gate

The gate before a WebSocket upgrade: an allowlist of origins, compared in a normal form with the port spelled
out. An allowlist with an entry that has none ends the process.
-/

namespace OpalCpp.Server.OriginGate

open Bytes (ascii)
open Http (HttpRequest HttpResponse Endpoint asciiLower)

def normalizeOrigin (text : Bytes) : Option Bytes :=
  let lowered := text.map asciiLower
  if lowered = ascii "null" then some lowered
  else
    match Endpoint.parseEndpoint lowered with
    | .error _ => none
    | .ok endpoint =>
      -- A path or userinfo means this is a URL, not an origin.
      if endpoint.pathPrefix ≠ [] ∨ '@'.toUInt8 ∈ endpoint.host then none
      else some (endpoint.scheme ++ ascii "://" ++ endpoint.host ++ ascii ":" ++ Decimal.decimal endpoint.port)

/-- The normal forms of an allowlist. -/
def allowedOrigins (allowed : Finset Bytes) : List Bytes → Except String (Finset Bytes)
  | [] => .ok allowed
  | entry :: rest =>
    match normalizeOrigin entry with
    | none => .error ("RequireOrigin: not an http(s) origin or \"null\": " ++ entry.text)
    | some normalized => allowedOrigins (insert normalized allowed) rest

/-- What the gate refuses with, if it refuses. -/
def gate (allowed : Finset Bytes) (request : HttpRequest) : Option HttpResponse :=
  let refusal := some (makeErrorResponse 403 (ascii "Forbidden") (ascii "origin is not allowed"))
  match request.headers.getAll (ascii "origin") with
  | [] => none
  | [origin] =>
    match normalizeOrigin origin with
    | some normalized => if normalized ∈ allowed then none else refusal
    | none => refusal
  | _ => refusal

def requireOrigin (entries : List Bytes) : Except String (HttpRequest → Option HttpResponse) :=
  (allowedOrigins ∅ entries).map gate

end OpalCpp.Server.OriginGate

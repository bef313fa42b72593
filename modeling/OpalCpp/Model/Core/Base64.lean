import OpalCpp.Model.Core.Bytes
import OpalCpp.Model.Core.Error

/-! # Base64

The encoder: three bytes at a time, and what is left of them. The decoder: four characters at a time.
-/

namespace OpalCpp

def kAlphabet : Bytes := Bytes.ascii "ABCDEFGHIJKLMNOPQRSTUVWXYZabcdefghijklmnopqrstuvwxyz0123456789+/"

/-- `kAlphabet[(group >> shift) & 0x3F]`. -/
def sextet (group shift : UInt32) : UInt8 := kAlphabet.getD ((group >>> shift) &&& 0x3F).toNat 0

def base64Encode : Bytes → Bytes
  | [] => []
  | [first] =>
    let group := first.toUInt32 <<< 16
    [sextet group 18, sextet group 12] ++ Bytes.ascii "=="
  | [first, second] =>
    let group := (first.toUInt32 <<< 16) ||| (second.toUInt32 <<< 8)
    [sextet group 18, sextet group 12, sextet group 6] ++ Bytes.ascii "="
  | first :: second :: third :: rest =>
    let group := (first.toUInt32 <<< 16) ||| (second.toUInt32 <<< 8) ||| third.toUInt32
    [sextet group 18, sextet group 12, sextet group 6, sextet group 0] ++ base64Encode rest

/-- `kDecode`: the place of a character in the alphabet. -/
def kDecode (c : UInt8) : Option UInt32 :=
  if c ∈ kAlphabet then some (UInt32.ofNat (kAlphabet.idxOf c)) else none

/-- One character of a group, of which the padding and the bits so far are known; `next` is the one after
it. -/
def base64Character (last : Bool) (j : ℕ) (c next : UInt8) (state : ℕ × UInt32) : Outcome (ℕ × UInt32) :=
  let (padding, group) := state
  if c = '='.toUInt8 then
    if !last || j < 2 || (j = 2 && next ≠ '='.toUInt8) then .error (.Serialization "base64: misplaced padding")
    else .ok (padding + 1, group <<< 6)
  else
    match kDecode c with
    | none => .error (.Serialization "base64: invalid character")
    | some value => .ok (padding, (group <<< 6) ||| value)

/-- The bytes of four characters. -/
def base64Group (last : Bool) (a b c d : UInt8) : Outcome Bytes := do
  let state ← base64Character last 0 a b (0, 0)
  let state ← base64Character last 1 b c state
  let state ← base64Character last 2 c d state
  let (padding, group) ← base64Character last 3 d 0 state
  if padding = 1 ∧ group &&& 0xFF ≠ 0 ∨ padding = 2 ∧ group &&& 0xFFFF ≠ 0 then
    .error (.Serialization "base64: non-canonical trailing bits")
  else
    return [((group >>> 16) &&& 0xFF).toUInt8] ++
      (if padding < 2 then [((group >>> 8) &&& 0xFF).toUInt8] else []) ++
      if padding < 1 then [(group &&& 0xFF).toUInt8] else []

def base64Groups : Bytes → Outcome Bytes
  | a :: b :: c :: d :: rest => do
    let bytes ← base64Group rest.isEmpty a b c d
    let more ← base64Groups rest
    return bytes ++ more
  | _ => .ok []

def base64Decode (text : Bytes) : Outcome Bytes :=
  if text.length % 4 ≠ 0 then .error (.Serialization "base64: length must be a multiple of 4") else base64Groups text

end OpalCpp

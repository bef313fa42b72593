import OpalCpp.Machine.Audited
import OpalCpp.Model.Cbor.Cbor

/-! # The CBOR decoder on machine words

`Decoder` with `pos_` and `size_` as the words they are, so that a sum may wrap and a difference may
underflow. On the way it notes every access to its input, every value of `pos_` and every difference it
takes, every iteration of its loops and every value it enters. As in `Cbor.decode`, the loops take fuel;
here it is noted when they run out of it.
-/

namespace OpalCpp.Cbor.Decoder

inductive Access where
  /-- `data_[index]` -/
  | byte (index : UInt64)
  /-- The bytes from `data_ + first` on. -/
  | block (first count : UInt64)
  /-- A new value of `pos_`. -/
  | position (pos : UInt64)
  /-- `size_ - pos_` -/
  | remaining (pos : UInt64)
  /-- An iteration of a loop that ends without an error, by the positions around it. -/
  | iteration (first last : UInt64)
  /-- A value is read, the last of this many that are open. -/
  | value (levels : ℕ)
  /-- A loop goes on and has no fuel. -/
  | exhausted
deriving DecidableEq, Repr

/-- The world is `pos_`. -/
abbrev Run (α : Type) := Audited Error Access UInt64 α

def fail {α : Type} (what : String) : Run α := throw (.Serialization ("cbor: " ++ what))

def outOfFuel {α : Type} : Run α := do
  Audited.note .exhausted
  fail "out of fuel"

def setPos (pos : UInt64) : Run PUnit := do
  Audited.note (.position pos)
  Audited.move pos

variable (data : Bytes)

/-- `size_` -/
def size : UInt64 := UInt64.ofNat data.length

/-- `data_[index]`; a byte that is not there is read as zero. -/
def byteAt (index : UInt64) : Run UInt8 := do
  Audited.note (.byte index)
  return data.getD index.toNat 0

def take : Run (Option UInt8) := do
  let pos ← Audited.look
  if size data ≤ pos then return none
  else do
    let byte ← byteAt data pos
    setPos (pos + 1)
    return some byte

/-- The loop over the bytes of a number. -/
def takeBytes : ℕ → UInt64 → Run UInt64
  | 0, value => return value
  | bytes + 1, value => do
    let pos ← Audited.look
    let byte ← byteAt data pos
    setPos (pos + 1)
    takeBytes bytes ((value <<< 8) ||| byte.toUInt64)

def takeBigEndian (bytes : ℕ) : Run (Option UInt64) := do
  let pos ← Audited.look
  if size data < pos + UInt64.ofNat bytes then return none
  else do
    let value ← takeBytes data bytes 0
    return some value

def readArgument (info : UInt8) : Run (UInt64 × Bool) :=
  if info < 24 then return (info.toUInt64, false)
  else if info = 24 ∨ info = 25 ∨ info = 26 ∨ info = 27 then do
    let taken ← takeBigEndian data (1 <<< (info.toNat - 24))
    match taken with
    | none => fail "truncated argument"
    | some value => return (value, false)
  else if info = 31 then return (0, true)
  else fail "reserved additional-information value"

/-- The bytes of a string or of a chunk, once its length is compared with what remains. -/
def takeText (truncated : String) (length : UInt64) : Run Bytes := do
  let pos ← Audited.look
  Audited.note (.remaining pos)
  if size data - pos < length then fail truncated
  else do
    Audited.note (.block pos length)
    setPos (pos + length)
    return data.substr pos.toNat length.toNat

def decodeChunks (major : Major) : ℕ → Bytes → Run Bytes
  | 0, _ => outOfFuel
  | fuel + 1, out => do
    let first ← Audited.look
    let taken ← take data
    match taken with
    | none => fail "unterminated indefinite string"
    | some initial =>
      if initial = kBreak then do
        let last ← Audited.look
        Audited.note (.iteration first last)
        return out
      else if initial >>> 5 ≠ major.code then fail "mixed types in indefinite string"
      else do
        let (length, indefinite) ← readArgument data (initial &&& 0x1F)
        if indefinite then fail "nested indefinite string chunk"
        else do
          let chunk ← takeText data "truncated string chunk" length
          let last ← Audited.look
          Audited.note (.iteration first last)
          decodeChunks major fuel (out ++ chunk)

def decodeChunkedString (major : Major) (indefinite : Bool) (length : UInt64) : Run Bytes := do
  let pos ← Audited.look
  if indefinite then decodeChunks data major (data.length - pos.toNat + 1) []
  else takeText data "truncated string" length

/-- `indefinite && pos_ < size_ && data_[pos_] == kBreak` -/
def atBreak (indefinite : Bool) : Run Bool := do
  let pos ← Audited.look
  if indefinite && pos < size data then do
    let byte ← byteAt data pos
    return byte = kBreak
  else return false

def decodeItems (decode : Run Document) (indefinite : Bool) (length : UInt64) :
    ℕ → UInt64 → List Document → Run (List Document)
  | 0, _, _ => outOfFuel
  | fuel + 1, i, list =>
    if indefinite || i < length then do
      let first ← Audited.look
      let broken ← atBreak data indefinite
      if broken then do
        setPos (first + 1)
        Audited.note (.iteration first (first + 1))
        return list
      else do
        let item ← decode
        let last ← Audited.look
        Audited.note (.iteration first last)
        decodeItems decode indefinite length fuel (i + 1) (list ++ [item])
    else return list

def decodeMembers (decode : Run Document) (indefinite : Bool) (length : UInt64) :
    ℕ → UInt64 → DocumentMap → Run DocumentMap
  | 0, _, _ => outOfFuel
  | fuel + 1, i, map =>
    if indefinite || i < length then do
      let first ← Audited.look
      let broken ← atBreak data indefinite
      if broken then do
        setPos (first + 1)
        Audited.note (.iteration first (first + 1))
        return map
      else do
        let key ← decode
        match key with
        | .string key => do
          let value ← decode
          let last ← Audited.look
          Audited.note (.iteration first last)
          decodeMembers decode indefinite length fuel (i + 1) (map.insertOrAssign key value)
        | _ => fail "map key is not a text string"
    else return map

def decodeSimple (info : UInt8) : Run Document :=
  if info = kSimpleFalse then return .bool false
  else if info = kSimpleTrue then return .bool true
  else if info = kSimpleNull ∨ info = kSimpleUndefined then return .null
  else if info = 25 ∨ info = 26 ∨ info = 27 then do
    let taken ← takeBigEndian data (1 <<< (info.toNat - 24))
    match taken with
    | none => fail "truncated float"
    | some bits =>
      if info = 25 then return .double (decodeHalf bits)
      else if info = 26 then return .double (.ofBinary32 bits.toUInt32)
      else return .double ⟨bits⟩
  else fail "unsupported simple value"

def decodeInteger (info : UInt8) (make : Int64 → Int64) : Run Document := do
  let (value, indefinite) ← readArgument data info
  if indefinite then fail "indefinite length on integer"
  else if Int64.maxValue.toUInt64 < value then fail "integer exceeds int64 range"
  else return .int (make value.toInt64)

/-- One value, inside as many others as there are levels. -/
def decodeValue : ℕ → ℕ → Run Document
  | 0, _ => fail "nesting too deep"
  | depth + 1, levels => do
    Audited.note (.value (levels + 1))
    let taken ← take data
    match taken with
    | none => fail "truncated input"
    | some initial =>
      let info := initial &&& 0x1F
      match Major.ofCode (initial >>> 5) with
      | .unsigned => decodeInteger data info fun value => value
      | .negative => decodeInteger data info fun value => -1 - value
      | .bytes => do
        let (length, indefinite) ← readArgument data info
        let text ← decodeChunkedString data .bytes indefinite length
        return .blob text
      | .text => do
        let (length, indefinite) ← readArgument data info
        let text ← decodeChunkedString data .text indefinite length
        return .string text
      | .array => do
        let (length, indefinite) ← readArgument data info
        let pos ← Audited.look
        let list ←
          decodeItems data (decodeValue depth (levels + 1)) indefinite length (data.length - pos.toNat + 1) 0 []
        return .list list
      | .map => do
        let (length, indefinite) ← readArgument data info
        let pos ← Audited.look
        let map ←
          decodeMembers data (decodeValue depth (levels + 1)) indefinite length (data.length - pos.toNat + 1) 0 []
        return .map map
      | .tag => do
        let (tag, indefinite) ← readArgument data info
        if indefinite then fail "indefinite length on tag"
        else do
          let inner ← decodeValue depth (levels + 1)
          Audited.lift (decodeTagged tag inner)
      | .simple => decodeSimple data info

def decodeDocument : Run Document := do
  let document ← decodeValue data kMaxDepth 0
  let pos ← Audited.look
  if pos ≠ size data then fail "trailing bytes after value" else return document

end OpalCpp.Cbor.Decoder

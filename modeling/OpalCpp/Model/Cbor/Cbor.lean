import OpalCpp.Model.Core.Document

/-! # CBOR

The encoder and the decoder of documents. The decoder's position is an index into its input, as in
the source. The element loops and the loop over the chunks of a string take fuel: an iteration that
does not fail reads a byte at least, so one unit more than there are bytes left is never used up.
-/

namespace OpalCpp.Cbor

inductive Major where
  | unsigned | negative | bytes | text | array | map | tag | simple
deriving DecidableEq, Repr

namespace Major

def code : Major → UInt8
  | .unsigned => 0
  | .negative => 1
  | .bytes => 2
  | .text => 3
  | .array => 4
  | .map => 5
  | .tag => 6
  | .simple => 7

/-- `static_cast<Major>` of three bits. -/
def ofCode (code : UInt8) : Major :=
  if code = 0 then .unsigned
  else if code = 1 then .negative
  else if code = 2 then .bytes
  else if code = 3 then .text
  else if code = 4 then .array
  else if code = 5 then .map
  else if code = 6 then .tag
  else .simple

end Major

def kBreak : UInt8 := 0xFF
def kSimpleFalse : UInt8 := 20
def kSimpleTrue : UInt8 := 21
def kSimpleNull : UInt8 := 22
def kSimpleUndefined : UInt8 := 23
def kTagEpochTimestamp : UInt64 := 1

/-! ## Encoding -/

def writeTypeAndValue (major : Major) (value : UInt64) : Bytes :=
  let initial := major.code <<< 5
  if value < 24 then [initial ||| value.toUInt8]
  else if value ≤ 0xFF then [initial ||| 24, value.toUInt8]
  else if value ≤ 0xFFFF then (initial ||| 25) :: writeBigEndian value 2
  else if value ≤ 0xFFFFFFFF then (initial ||| 26) :: writeBigEndian value 4
  else (initial ||| 27) :: writeBigEndian value 8

def writeInt (value : Int64) : Bytes :=
  if 0 ≤ value then writeTypeAndValue .unsigned value.toUInt64
  else writeTypeAndValue .negative (-(value + 1)).toUInt64

def writeDouble (value : Binary64) : Bytes :=
  ((Major.simple.code <<< 5) ||| 27) :: writeBigEndian value.bits 8

mutual

def encodeValue : Document → Bytes
  | .null => [(Major.simple.code <<< 5) ||| kSimpleNull]
  | .bool value => [(Major.simple.code <<< 5) ||| (if value then kSimpleTrue else kSimpleFalse)]
  | .int value => writeInt value
  | .double value => writeDouble value
  | .string text => writeTypeAndValue .text (UInt64.ofNat text.length) ++ text
  | .blob bytes => writeTypeAndValue .bytes (UInt64.ofNat bytes.length) ++ bytes
  | .timestamp ⟨ts, _⟩ =>
    writeTypeAndValue .tag kTagEpochTimestamp ++
      if ts.ms % 1000 = 0 then writeInt (ts.ms / 1000) else writeDouble ts.epochSeconds
  | .list items => writeTypeAndValue .array (UInt64.ofNat items.length) ++ encodeItems items
  | .map members => writeTypeAndValue .map (UInt64.ofNat members.length) ++ encodeMembers members

def encodeItems : List Document → Bytes
  | [] => []
  | item :: items => encodeValue item ++ encodeItems items

def encodeMembers : List (Bytes × Document) → Bytes
  | [] => []
  | (key, value) :: members =>
    writeTypeAndValue .text (UInt64.ofNat key.length) ++ key ++ encodeValue value ++ encodeMembers members

end

def encode (document : Document) : Bytes := encodeValue document

/-! ## Decoding -/

def kMaxDepth : ℕ := 64

def fail {α : Type} (what : String) : Outcome α := .error (.Serialization ("cbor: " ++ what))

/-- Not an outcome of the decoder; its fuel is never used up. -/
def outOfFuel {α : Type} : Outcome α := fail "out of fuel"

section Decoder

variable (data : Bytes)

def take (pos : ℕ) : Option (UInt8 × ℕ) := data[pos]?.map fun byte => (byte, pos + 1)

def takeBigEndian (bytes : ℕ) (pos : ℕ) : Option (UInt64 × ℕ) :=
  if data.length < pos + bytes then none else some (readBigEndian (data.substr pos bytes), pos + bytes)

/-- The argument for an initial byte, and whether it is an indefinite length. -/
def readArgument (info : UInt8) (pos : ℕ) : Outcome ((UInt64 × Bool) × ℕ) :=
  if info < 24 then .ok ((info.toUInt64, false), pos)
  else if info = 24 ∨ info = 25 ∨ info = 26 ∨ info = 27 then
    match takeBigEndian data (1 <<< (info.toNat - 24)) pos with
    | none => fail "truncated argument"
    | some (value, pos) => .ok ((value, false), pos)
  else if info = 31 then .ok ((0, true), pos)
  else fail "reserved additional-information value"

/-- The chunks of an indefinite string of a major type until a break. -/
def decodeChunks (major : Major) : ℕ → Bytes → ℕ → Outcome (Bytes × ℕ)
  | 0, _, _ => outOfFuel
  | fuel + 1, out, pos =>
    match take data pos with
    | none => fail "unterminated indefinite string"
    | some (initial, pos) =>
      if initial = kBreak then .ok (out, pos)
      else if initial >>> 5 ≠ major.code then fail "mixed types in indefinite string"
      else do
        let ((length, indefinite), pos) ← readArgument data (initial &&& 0x1F) pos
        if indefinite then fail "nested indefinite string chunk"
        else if data.length - pos < length.toNat then fail "truncated string chunk"
        else decodeChunks major fuel (out ++ data.substr pos length.toNat) (pos + length.toNat)

def decodeChunkedString (major : Major) (indefinite : Bool) (length : UInt64) (pos : ℕ) : Outcome (Bytes × ℕ) :=
  if indefinite then decodeChunks data major (data.length - pos + 1) [] pos
  else if data.length - pos < length.toNat then fail "truncated string"
  else .ok (data.substr pos length.toNat, pos + length.toNat)

/-- The loop over the elements of an array, with the decoder of an element. -/
def decodeItems (decode : ℕ → Outcome (Document × ℕ)) (indefinite : Bool) (length : UInt64) :
    ℕ → UInt64 → List Document → ℕ → Outcome (List Document × ℕ)
  | 0, _, _, _ => outOfFuel
  | fuel + 1, i, list, pos =>
    if indefinite || i < length then
      if indefinite && data[pos]? = some kBreak then .ok (list, pos + 1)
      else do
        let (item, pos) ← decode pos
        decodeItems decode indefinite length fuel (i + 1) (list ++ [item]) pos
    else .ok (list, pos)

/-- The loop over the members of a map. -/
def decodeMembers (decode : ℕ → Outcome (Document × ℕ)) (indefinite : Bool) (length : UInt64) :
    ℕ → UInt64 → DocumentMap → ℕ → Outcome (DocumentMap × ℕ)
  | 0, _, _, _ => outOfFuel
  | fuel + 1, i, map, pos =>
    if indefinite || i < length then
      if indefinite && data[pos]? = some kBreak then .ok (map, pos + 1)
      else do
        let (key, pos) ← decode pos
        match key with
        | .string key => do
          let (value, pos) ← decode pos
          decodeMembers decode indefinite length fuel (i + 1) (map.insertOrAssign key value) pos
        | _ => fail "map key is not a text string"
    else .ok (map, pos)

/-- A half by its bits; `std::ldexp` of these mantissas is exact. -/
def decodeHalf (bits : UInt64) : Binary64 :=
  let sign := (bits >>> 15) &&& 0x1
  let exponent := (bits >>> 10) &&& 0x1F
  let mantissa := bits &&& 0x3FF
  let value : Binary64 :=
    if exponent = 0 then .nearest (mantissa.toNat * 2 ^ (-24 : ℤ))
    else if exponent = 31 then if mantissa = 0 then .infinity else .quietNaN
    else .nearest ((mantissa.toNat + 1024) * 2 ^ ((exponent.toNat : ℤ) - 25))
  if sign ≠ 0 then value.neg else value

/-- The major type 7: the simple values and the floats. -/
def decodeSimple (info : UInt8) (pos : ℕ) : Outcome (Document × ℕ) :=
  if info = kSimpleFalse then .ok (.bool false, pos)
  else if info = kSimpleTrue then .ok (.bool true, pos)
  else if info = kSimpleNull ∨ info = kSimpleUndefined then .ok (.null, pos)
  else if info = 25 ∨ info = 26 ∨ info = 27 then
    match takeBigEndian data (1 <<< (info.toNat - 24)) pos with
    | none => fail "truncated float"
    | some (bits, pos) =>
      if info = 25 then .ok (.double (decodeHalf bits), pos)
      else if info = 26 then .ok (.double (.ofBinary32 bits.toUInt32), pos)
      else .ok (.double ⟨bits⟩, pos)
  else fail "unsupported simple value"

/-- What a tag makes of the value inside it. -/
def decodeTagged (tag : UInt64) (inner : Document) : Outcome Document :=
  if tag = kTagEpochTimestamp then
    match inner with
    | .int value => do
      let ts ← Timestamp.fromEpochSecondsChecked (Timestamp.toDouble value)
      return .timestamp ⟨ts, .epochSeconds⟩
    | .double value => do
      let ts ← Timestamp.fromEpochSecondsChecked value
      return .timestamp ⟨ts, .epochSeconds⟩
    | _ => fail "tag 1 content is not a number"
  else .ok inner

/-- An integer by its argument: the magnitude, or the magnitude less one of a negative number. -/
def decodeInteger (info : UInt8) (pos : ℕ) (make : Int64 → Int64) : Outcome (Document × ℕ) := do
  let ((value, indefinite), pos) ← readArgument data info pos
  if indefinite then fail "indefinite length on integer"
  else if Int64.maxValue.toUInt64 < value then fail "integer exceeds int64 range"
  else return (.int (make value.toInt64), pos)

def decodeValue : ℕ → ℕ → Outcome (Document × ℕ)
  | 0, _ => fail "nesting too deep"
  | depth + 1, pos =>
    match take data pos with
    | none => fail "truncated input"
    | some (initial, pos) =>
      let info := initial &&& 0x1F
      match Major.ofCode (initial >>> 5) with
      | .unsigned => decodeInteger data info pos fun value => value
      | .negative => decodeInteger data info pos fun value => -1 - value
      | .bytes => do
        let ((length, indefinite), pos) ← readArgument data info pos
        let (text, pos) ← decodeChunkedString data .bytes indefinite length pos
        return (.blob text, pos)
      | .text => do
        let ((length, indefinite), pos) ← readArgument data info pos
        let (text, pos) ← decodeChunkedString data .text indefinite length pos
        return (.string text, pos)
      | .array => do
        let ((length, indefinite), pos) ← readArgument data info pos
        let (list, pos) ←
          decodeItems data (decodeValue depth) indefinite length (data.length - pos + 1) 0 [] pos
        return (.list list, pos)
      | .map => do
        let ((length, indefinite), pos) ← readArgument data info pos
        let (map, pos) ←
          decodeMembers data (decodeValue depth) indefinite length (data.length - pos + 1) 0 [] pos
        return (.map map, pos)
      | .tag => do
        let ((tag, indefinite), pos) ← readArgument data info pos
        if indefinite then fail "indefinite length on tag"
        else
          let (inner, pos) ← decodeValue depth pos
          let value ← decodeTagged tag inner
          return (value, pos)
      | .simple => decodeSimple data info pos

/-- `Decode`: one value, and nothing after it. -/
def decode : Outcome Document := do
  let (document, pos) ← decodeValue data kMaxDepth 0
  if pos ≠ data.length then fail "trailing bytes after value" else return document

end Decoder

end OpalCpp.Cbor

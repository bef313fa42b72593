import OpalCpp.Model.Core.Bytes
import OpalCpp.Model.Core.Error

/-! # Event-stream frames

The encoder and the decoder of event-stream messages: a prelude with its checksum, a block of typed
headers, the payload, and the checksum of everything before it. The cursor into the header block is
the rest of the block, and the loop over the block takes fuel, of which a header uses one unit and a
byte at least.
-/

namespace OpalCpp.EventStream

structure Uuid where
  bytes : Bytes
  size : bytes.length = 16
deriving DecidableEq

/-- One alternative per wire type; the two boolean tags are one. -/
inductive HeaderValue where
  | bool (value : Bool)
  | byte (value : Int8)
  | short (value : Int16)
  | int (value : Int32)
  | long (value : Int64)
  | byteArray (value : Bytes)
  | string (value : Bytes)
  /-- The milliseconds since the epoch. -/
  | timestamp (value : Int64)
  | uuid (value : Uuid)
deriving DecidableEq

structure Header where
  name : Bytes
  value : HeaderValue
deriving DecidableEq

structure Message where
  headers : List Header := []
  payload : Bytes := []
deriving DecidableEq

structure DecodedFrame where
  message : Message
  bytesConsumed : ℕ := 0
deriving DecidableEq

def kMaxHeaderBlockBytes : ℕ := 128 * 1024

def kMaxMessageBytes : ℕ := 16 * 1024 * 1024

def kPreludeBytes : ℕ := 12

def kFrameOverheadBytes : ℕ := kPreludeBytes + 4

def kWireBoolTrue : UInt8 := 0
def kWireBoolFalse : UInt8 := 1
def kWireByte : UInt8 := 2
def kWireShort : UInt8 := 3
def kWireInt : UInt8 := 4
def kWireLong : UInt8 := 5
def kWireByteArray : UInt8 := 6
def kWireString : UInt8 := 7
def kWireTimestamp : UInt8 := 8
def kWireUuid : UInt8 := 9

/-- An entry of the table, from its index and the number of bits still to divide by. -/
def crcBits : ℕ → UInt32 → UInt32
  | 0, c => c
  | bits + 1, c => crcBits bits (if c &&& 1 ≠ 0 then (0xEDB88320 : UInt32) ^^^ (c >>> 1) else c >>> 1)

/-- `kTable[index]`. -/
def kTable (index : UInt32) : UInt32 := crcBits 8 index

def crc32 (bytes : Bytes) : UInt32 :=
  bytes.foldl (fun crc byte => kTable ((crc ^^^ byte.toUInt32) &&& 0xFF) ^^^ (crc >>> 8)) 0xFFFFFFFF ^^^
    0xFFFFFFFF

/-- What `EncodeValue` appends: the tag and the value, unless the value is too long for its length. -/
def encodeValue : HeaderValue → Option Bytes
  | .bool value => some [if value then kWireBoolTrue else kWireBoolFalse]
  | .byte value => some [kWireByte, value.toUInt8]
  | .short value => some (kWireShort :: writeBigEndian value.toUInt16.toUInt64 2)
  | .int value => some (kWireInt :: writeBigEndian value.toUInt32.toUInt64 4)
  | .long value => some (kWireLong :: writeBigEndian value.toUInt64 8)
  | .byteArray value =>
    if 0xFFFF < value.length then none
    else some (kWireByteArray :: writeBigEndian (UInt64.ofNat value.length) 2 ++ value)
  | .string value =>
    if 0xFFFF < value.length then none
    else some (kWireString :: writeBigEndian (UInt64.ofNat value.length) 2 ++ value)
  | .timestamp value => some (kWireTimestamp :: writeBigEndian value.toUInt64 8)
  | .uuid value => some (kWireUuid :: value.bytes)

/-- The next `n` bytes of the block and what is left of it. -/
def fixed (n : ℕ) (block : Bytes) : Option (Bytes × Bytes) :=
  if block.length < n then none else some (block.take n, block.drop n)

/-- The bytes after their length in two. -/
def lengthPrefixed (block : Bytes) : Option (Bytes × Bytes) := do
  let (lengthBytes, block) ← fixed 2 block
  fixed (readBigEndian lengthBytes).toNat block

theorem length_uuid {block : Bytes} (enough : ¬ block.length < 16) : (block.take 16).length = 16 := by
  rw [List.length_take]
  omega

/-- The value at the front of the block and what is left of it. -/
def decodeValue : Bytes → Option (HeaderValue × Bytes)
  | [] => none
  | type :: block =>
    if type = kWireBoolTrue then some (.bool true, block)
    else if type = kWireBoolFalse then some (.bool false, block)
    else if type = kWireByte then do
      let (bytes, block) ← fixed 1 block
      return (.byte (readBigEndian bytes).toUInt8.toInt8, block)
    else if type = kWireShort then do
      let (bytes, block) ← fixed 2 block
      return (.short (readBigEndian bytes).toUInt16.toInt16, block)
    else if type = kWireInt then do
      let (bytes, block) ← fixed 4 block
      return (.int (readBigEndian bytes).toUInt32.toInt32, block)
    else if type = kWireLong then do
      let (bytes, block) ← fixed 8 block
      return (.long (readBigEndian bytes).toInt64, block)
    else if type = kWireByteArray then do
      let (bytes, block) ← lengthPrefixed block
      return (.byteArray bytes, block)
    else if type = kWireString then do
      let (bytes, block) ← lengthPrefixed block
      return (.string bytes, block)
    else if type = kWireTimestamp then do
      let (bytes, block) ← fixed 8 block
      return (.timestamp (readBigEndian bytes).toInt64, block)
    else if type = kWireUuid then
      if enough : block.length < 16 then none
      else some (.uuid ⟨block.take 16, length_uuid enough⟩, block.drop 16)
    else none

def malformed {α : Type} (what : String) : Outcome α := .error (.Serialization ("eventstream: " ++ what))

/-- The header block, added to the headers encoded so far. -/
def encodeHeaders : List Header → Bytes → Outcome Bytes
  | [], headers => .ok headers
  | header :: rest, headers =>
    if header.name.isEmpty || 255 < header.name.length then
      .error (.Validation "eventstream: header name must be 1..255 bytes")
    else
      match encodeValue header.value with
      | none => .error (.Validation ("eventstream: header value over 64 KiB: " ++ header.name.text))
      | some value =>
        encodeHeaders rest (headers ++ UInt8.ofNat header.name.length :: header.name ++ value)

/-- The lengths of a frame and of its header block, with their checksum. -/
def framePrelude (total headersSize : ℕ) : Bytes :=
  let lengths := writeBigEndian (UInt64.ofNat total) 4 ++ writeBigEndian (UInt64.ofNat headersSize) 4
  lengths ++ writeBigEndian (crc32 lengths).toUInt64 4

def encodeMessage (message : Message) : Outcome Bytes := do
  let headers ← encodeHeaders message.headers []
  if kMaxHeaderBlockBytes < headers.length then
    .error (.Validation "eventstream: header block over the 128 KiB limit")
  else
    let total := kFrameOverheadBytes + headers.length + message.payload.length
    if kMaxMessageBytes < total then .error (.Validation "eventstream: message over the 16 MiB limit")
    else
      let frame := framePrelude total headers.length ++ headers ++ message.payload
      return frame ++ writeBigEndian (crc32 frame).toUInt64 4

/-- The loop over the header block. -/
def decodeHeaders : ℕ → Bytes → Outcome (List Header)
  | _, [] => .ok []
  | 0, _ :: _ => malformed "out of fuel"
  | fuel + 1, nameLength :: block =>
    if nameLength = 0 ∨ block.length < nameLength.toNat then malformed "malformed header name"
    else
      match decodeValue (block.drop nameLength.toNat) with
      | none => malformed "malformed header value"
      | some (value, left) => do
        let headers ← decodeHeaders fuel left
        return ⟨block.take nameLength.toNat, value⟩ :: headers

/-- The message of a complete frame, after its lengths have been checked. -/
def decodeFrame (buffer : Bytes) (total headersLength : ℕ) : Outcome (Option DecodedFrame) := do
  let messageCrc := (readBigEndian (buffer.substr (total - 4) 4)).toUInt32
  if crc32 (buffer.substr 0 (total - 4)) ≠ messageCrc then malformed "message CRC mismatch"
  else
    let block := buffer.substr kPreludeBytes headersLength
    let headers ← decodeHeaders block.length block
    let payload := buffer.substr (kPreludeBytes + headersLength) (total - kFrameOverheadBytes - headersLength)
    return some ⟨⟨headers, payload⟩, total⟩

/-- The frame at the front of the buffer, or nothing while it is not complete. -/
def decodeMessage (buffer : Bytes) : Outcome (Option DecodedFrame) :=
  if buffer.length < kPreludeBytes then .ok none
  else
    let preludeCrc := (readBigEndian (buffer.substr 8 4)).toUInt32
    if crc32 (buffer.substr 0 8) ≠ preludeCrc then malformed "prelude CRC mismatch"
    else
      let total := (readBigEndian (buffer.substr 0 4)).toNat
      let headersLength := (readBigEndian (buffer.substr 4 4)).toNat
      if kMaxMessageBytes < total ∨ total < kFrameOverheadBytes ∨ kMaxHeaderBlockBytes < headersLength ∨
          total - kFrameOverheadBytes < headersLength then
        malformed "declared lengths out of bounds"
      else if buffer.length < total then .ok none
      else decodeFrame buffer total headersLength

/-- The decoder as the transport loop uses it: a message and the bytes to drop for it. -/
def nextMessage (buffer : Bytes) : Outcome (Option (Message × ℕ)) :=
  (decodeMessage buffer).map (Option.map fun frame => (frame.message, frame.bytesConsumed))

end OpalCpp.EventStream

/-! ## Event envelopes

The headers that make a message an event or an exception.
-/

namespace OpalCpp.EventStream

open Bytes (ascii)

/-- The value of the first header with the name. -/
def Message.findHeader (message : Message) (name : Bytes) : Option HeaderValue :=
  (message.headers.find? fun header => header.name = name).map Header.value

inductive EventEnvelope.Kind where
  | event | exception
deriving DecidableEq

structure EventEnvelope where
  kind : EventEnvelope.Kind := .event
  type : Bytes := []
  contentType : Bytes := []
  payload : Bytes := []
deriving DecidableEq

def kMessageTypeHeader : Bytes := ascii ":message-type"
def kEventTypeHeader : Bytes := ascii ":event-type"
def kExceptionTypeHeader : Bytes := ascii ":exception-type"
def kContentTypeHeader : Bytes := ascii ":content-type"
def kEventMessageType : Bytes := ascii "event"
def kExceptionMessageType : Bytes := ascii "exception"

def makeMessage (messageType typeHeader type contentType payload : Bytes) : Message where
  headers := [⟨kMessageTypeHeader, .string messageType⟩, ⟨typeHeader, .string type⟩] ++
    if contentType.isEmpty then [] else [⟨kContentTypeHeader, .string contentType⟩]
  payload := payload

def makeEventMessage (eventType contentType payload : Bytes) : Message :=
  makeMessage kEventMessageType kEventTypeHeader eventType contentType payload

def makeExceptionMessage (exceptionType contentType payload : Bytes) : Message :=
  makeMessage kExceptionMessageType kExceptionTypeHeader exceptionType contentType payload

def malformedEnvelope {α : Type} (what : String) : Outcome α := .error (.Serialization ("eventstream envelope: " ++ what))

/-- The text of a header, as `std::get_if<std::string>`. -/
def HeaderValue.text? : HeaderValue → Option Bytes
  | .string value => some value
  | _ => none

/-- The value of the content type's header, which may be missing. -/
def parseContentType (message : Message) : Outcome Bytes :=
  match message.findHeader kContentTypeHeader with
  | none => .ok []
  | some contentType =>
    match contentType.text? with
    | none => malformedEnvelope ":content-type header is not a string"
    | some text => .ok text

/-- The rest of `ParseEnvelope`, with the kind and its header. -/
def parseTyped (message : Message) (kind : EventEnvelope.Kind) (typeHeader : Bytes) : Outcome EventEnvelope :=
  match message.findHeader typeHeader with
  | none => malformedEnvelope ("missing " ++ typeHeader.text ++ " header")
  | some type =>
    match type.text? with
    | none => malformedEnvelope (typeHeader.text ++ " header is not a string")
    | some text => do
      let contentType ← parseContentType message
      return ⟨kind, text, contentType, message.payload⟩

def parseEnvelope (message : Message) : Outcome EventEnvelope :=
  match message.findHeader kMessageTypeHeader with
  | none => malformedEnvelope "missing :message-type header"
  | some messageType =>
    match messageType.text? with
    | none => malformedEnvelope ":message-type header is not a string"
    | some text =>
      if text = kEventMessageType then parseTyped message .event kEventTypeHeader
      else if text = kExceptionMessageType then parseTyped message .exception kExceptionTypeHeader
      else malformedEnvelope ("unknown :message-type: " ++ text.text)

end OpalCpp.EventStream

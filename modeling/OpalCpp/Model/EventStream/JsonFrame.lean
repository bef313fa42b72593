import OpalCpp.Model.EventStream.Frame
import OpalCpp.Model.Http.Headers
import OpalCpp.Model.Json.Json

/-! # JSON frames

The text frames of the JSON wire: one envelope, with the type of the event or exception and the payload.
-/

namespace OpalCpp.EventStream

open Bytes (ascii)

def kEventMember : Bytes := ascii "event"
def kExceptionMember : Bytes := ascii "exception"
def kPayloadMember : Bytes := ascii "payload"
def kJsonContentType : Bytes := ascii "application/json"

def isBlank (c : UInt8) : Bool := c = ' '.toUInt8 || c = '\t'.toUInt8

/-- Without parameters, trimmed and in lower case; `std::tolower` is that of ASCII. -/
def mediaType (contentType : Bytes) : Bytes :=
  let type := contentType.takeWhile (· != ';'.toUInt8)
  ((type.dropWhile isBlank).rdropWhile isBlank).map Http.asciiLower

/-- What both encoders of text frames check before anything else, for the payload as a JSON object; the
headers may be those of the envelope and no others. -/
def encodablePayload (backend : Json.Backend) (cannotEncode : String → Error) (message : Message)
    (envelope : EventEnvelope) : Outcome DocumentMap :=
  if message.headers.length ≠ (if envelope.contentType.isEmpty then 2 else 3) then
    .error (cannotEncode "message carries headers beyond the envelope's own")
  else if !envelope.contentType.isEmpty && mediaType envelope.contentType != kJsonContentType then
    .error (cannotEncode ("content type is not application/json: " ++ envelope.contentType.text))
  else
    match Json.decode backend message.payload with
    | .ok (.map payload) => .ok payload
    | _ => .error (cannotEncode "payload is not a JSON object")

/-- The rendered frame, if it is not too long. -/
def checkedText (cannotEncode : String → Error) (text : Bytes) : Outcome Bytes :=
  if kMaxMessageBytes < text.length then .error (cannotEncode "message over the 16 MiB limit") else .ok text

namespace JsonFrame

def cannotEncode (what : String) : Error := .Validation ("eventstream json frame: " ++ what)

def malformed {α : Type} (what : String) : Outcome α := .error (.Serialization ("eventstream json frame: " ++ what))

/-- `EncodeJsonFrame`. -/
def encode (backend : Json.Backend) (message : Message) : Outcome Bytes :=
  match parseEnvelope message with
  | .error error => .error (cannotEncode error.message)
  | .ok envelope => do
    let payload ← encodablePayload backend cannotEncode message envelope
    let fields : DocumentMap :=
      [(if envelope.kind = .event then kEventMember else kExceptionMember, .string envelope.type),
        (kPayloadMember, .map payload)]
    checkedText cannotEncode (Json.encode backend (.map fields))

/-- The frame of an envelope that has a type, of an event or not. -/
def decodeTyped (backend : Json.Backend) (envelope type : Document) (isEvent : Bool) : Outcome Message :=
  match type with
  | .string text =>
    if text.isEmpty then
      malformed ((if isEvent then kEventMember else kExceptionMember).text ++ " is not a non-empty string")
    else
      match envelope.find kPayloadMember with
      | none => malformed "envelope is missing \"payload\""
      | some (.map payload) =>
        let payloadBytes := Json.encode backend (.map payload)
        .ok (if isEvent then makeEventMessage text kJsonContentType payloadBytes
          else makeExceptionMessage text kJsonContentType payloadBytes)
      | some _ => malformed "\"payload\" is not a JSON object"
  | _ => malformed ((if isEvent then kEventMember else kExceptionMember).text ++ " is not a non-empty string")

/-- `DecodeJsonFrame`. -/
def decode (backend : Json.Backend) (text : Bytes) : Outcome Message :=
  if kMaxMessageBytes < text.length then malformed "message over the 16 MiB limit"
  else
    match Json.decode backend text with
    | .error error => malformed ("text frame is not JSON: " ++ error.message)
    | .ok (.map members) =>
      match members.find? fun member => member.1 ∉ [kEventMember, kExceptionMember, kPayloadMember] with
      | some (name, _) => malformed ("unknown envelope member: " ++ name.text)
      | none =>
        let envelope := Document.map members
        match envelope.find kEventMember, envelope.find kExceptionMember with
        | some _, some _ => malformed "envelope carries both \"event\" and \"exception\""
        | none, none => malformed "envelope carries neither \"event\" nor \"exception\""
        | some type, none => decodeTyped backend envelope type true
        | none, some type => decodeTyped backend envelope type false
    | .ok _ => malformed "envelope is not a JSON object"

end JsonFrame

end OpalCpp.EventStream

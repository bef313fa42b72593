import OpalCpp.Machine.Decimal
import OpalCpp.Machine.Delimited
import OpalCpp.Machine.LineBlock
import OpalCpp.Model.Core.Error
import OpalCpp.Model.Http.Headers

/-! # Messages of HTTP/1.1

The reader of one message over the results of successive reads, and the parsers of its first line. A read
gives bytes or fails; no bytes are the end, and so is the end of the list.
-/

namespace OpalCpp.Http

open Bytes (ascii)
open Delimited (cut)
open LineBlock (cutAt)

def kMaxHeaderBytes : ℕ := 64 * 1024

def kDefaultMaxBodyBytes : ℕ := 64 * 1024 * 1024

structure Http1Message where
  startLine : Bytes
  headers : Headers := {}
  body : Bytes := []
deriving DecidableEq

/-- What `recv` returned: the bytes, or nothing for a failure. -/
abbrev Reads := List (Option Bytes)

def crlf : Bytes := ascii "\r\n"

def bodyTooLarge (maxBodyBytes : ℕ) : Error :=
  .Transport ("http: response body exceeds max_response_bytes (" ++ toString maxBodyBytes ++ " bytes)") false

/-- The loop up to the empty line: what is before it, what came after it, and the reads that are left. -/
def readHead (buffer : Bytes) (reads : Reads) : Outcome (Bytes × Bytes × Reads) :=
  match cutAt (crlf ++ crlf) buffer with
  | some (head, after) => .ok (head, after, reads)
  | none =>
    if kMaxHeaderBytes < buffer.length then .error (.Transport "http: headers too large")
    else
      match reads with
      | none :: _ => .error (.Transport "http: read failed")
      | [] => .error (.Transport "http: connection closed mid-headers")
      | some received :: reads =>
        if received = [] then .error (.Transport "http: connection closed mid-headers")
        else readHead (buffer ++ received) reads
termination_by structural reads

/-- The name up to the first colon, and the value without the blanks around it. -/
def parseHeaderLine (line : Bytes) : Outcome (Bytes × Bytes) :=
  match cut ':'.toUInt8 line with
  | (_, none) => .error (.Transport "http: malformed header line")
  | (name, some value) => .ok (name, trimSpaces value)

/-- The loop over the lines of the block. -/
def parseHeaderBlock (headers : Headers) (block : Bytes) : Outcome Headers :=
  if block = [] then .ok headers
  else
    match _cut : cutAt crlf block with
    | none => (parseHeaderLine block).map fun (name, value) => headers.add name value
    | some (line, rest) => do
      let (name, value) ← parseHeaderLine line
      parseHeaderBlock (headers.add name value) rest
termination_by block.length
decreasing_by exact LineBlock.length_of_cutAt (by decide) _cut

/-- The loop over the rest of a body whose length is known. -/
def readLength (length : ℕ) (body : Bytes) (reads : Reads) : Outcome Bytes :=
  if length ≤ body.length then
    if body.length ≠ length then .error (.Transport "http: excess body bytes") else .ok body
  else
    match reads with
    | some received :: reads =>
      if received = [] then .error (.Transport "http: connection closed mid-body")
      else readLength length (body ++ received) reads
    | _ => .error (.Transport "http: connection closed mid-body")
termination_by structural reads

/-- The loop over a body that the end of the connection ends; the cap is checked before each read. -/
def readToEnd (maxBodyBytes : ℕ) (body : Bytes) (reads : Reads) : Outcome Bytes :=
  if maxBodyBytes < body.length then .error (bodyTooLarge maxBodyBytes)
  else
    match reads with
    | none :: _ => .error (.Transport "http: read failed")
    | [] => .ok body
    | some received :: reads => if received = [] then .ok body else readToEnd maxBodyBytes (body ++ received) reads
termination_by structural reads

/-- `strtoull` of digits, which clamps. -/
def strtoull (digits : Bytes) : ℕ := min ((Decimal.read digits).getD 0) (2 ^ 64 - 1)

/-- The body by the framing that the headers declare. -/
def readBody (headers : Headers) (after : Bytes) (reads : Reads) (bodyUntilEof hasBody : Bool) (maxBodyBytes : ℕ) :
    Outcome Bytes :=
  if !hasBody then .ok []
  else
    match headers.get? (ascii "content-length") with
    | some lengthText =>
      if !allDigits lengthText then .error (.Transport "http: invalid content-length")
      else if maxBodyBytes < strtoull lengthText then .error (bodyTooLarge maxBodyBytes)
      else readLength (strtoull lengthText) after reads
    | none => if bodyUntilEof then readToEnd maxBodyBytes after reads else .ok after

/-- A request is read with `bodyUntilEof` false, a response with it true. -/
def readHttp1Message (reads : Reads) (bodyUntilEof : Bool) (hasBody : Bool := true)
    (maxBodyBytes : ℕ := kDefaultMaxBodyBytes) : Outcome Http1Message := do
  let (head, after, reads) ← readHead [] reads
  let (startLine, block) := (cutAt crlf head).getD (head, [])
  let headers ← parseHeaderBlock {} block
  -- Framing that is ambiguous is refused before a length is trusted.
  if 1 < (headers.getAll (ascii "content-length")).length then .error (.Transport "http: conflicting content-length")
  else if headers.has (ascii "transfer-encoding") then .error (.Transport "http: transfer-encoding is not supported")
  else
    let body ← readBody headers after reads bodyUntilEof hasBody maxBodyBytes
    return { startLine, headers, body }

/-- The method and the target. -/
def parseRequestLine (line : Bytes) : Option (Bytes × Bytes) :=
  match cut ' '.toUInt8 line with
  | (_, none) => none
  | (method, some rest) =>
    match cut ' '.toUInt8 rest with
    | (_, none) => none
    | (target, some _) => some (method, target)

/-- `isspace` in the C locale. -/
def isSpace (c : UInt8) : Bool := c = ' '.toUInt8 || (0x09 ≤ c && c ≤ 0x0D)

/-- `atoi`: blanks, a sign and digits. A number that does not fit is undefined there. -/
def atoi (text : Bytes) : ℤ :=
  let text := (text.dropWhile isSpace).takeWhile (· ≠ 0)
  let number (digits : Bytes) : ℕ := (Decimal.read (digits.takeWhile Decimal.isDigit)).getD 0
  match text with
  | [] => 0
  | sign :: rest =>
    if sign = '-'.toUInt8 then -(number rest : ℤ) else if sign = '+'.toUInt8 then number rest else number text

def parseStatusLine (line : Bytes) : Outcome ℤ :=
  match cut ' '.toUInt8 line with
  | (_, none) => .error (.Transport ("http: malformed status line: " ++ line.text))
  | (version, some rest) =>
    if rest.length < 3 ∨ ¬ ascii "HTTP/" <+: version then .error (.Transport ("http: malformed status line: " ++ line.text))
    else
      let status := atoi rest
      if status < 100 ∨ 599 < status then .error (.Transport ("http: implausible status in: " ++ line.text))
      else .ok status

end OpalCpp.Http

import Mathlib.Algebra.Group.Nat.Defs
import Mathlib.Data.List.Basic
import OpalCpp.Machine.Loop
import OpalCpp.Model.Core.Error

/-! # Gzip

`GzipCompress` and `GzipDecompress` over a zlib that is a parameter: what `gzip.cc` uses of it, what zlib documents of
it, and the loops around its calls.
-/

namespace OpalCpp.Compression

/-! ## zlib

A stream is set up, and a call gets the input at hand and the room for output, and says how far it came.
-/

/-- The return codes of `deflate` and `inflate`. -/
inductive ZResult where
  | Z_OK | Z_STREAM_END | Z_NEED_DICT | Z_STREAM_ERROR | Z_DATA_ERROR | Z_MEM_ERROR | Z_BUF_ERROR
deriving DecidableEq, Repr

inductive Flush where
  | Z_NO_FLUSH | Z_FINISH
deriving DecidableEq, Repr

/-- What a call leaves behind: its code, the stream, how much of the input it took and the output it wrote. -/
structure ZCall (State : Type*) where
  result : ZResult
  state : State
  taken : ℕ
  written : List UInt8

/-- `deflateInit2` with `deflate`, or `inflateInit2` with `inflate`. -/
structure Codec (State : Type*) where
  init2 : Option State
  call : State → Flush → List UInt8 → ℕ → ZCall State

/-- The call is not the last one. -/
def ZResult.Resumable (result : ZResult) : Prop := result = .Z_OK ∨ result = .Z_BUF_ERROR

variable {State : Type*}

/-- Where calls may have brought a stream: what it was given, what it wrote and, once it was told to finish, all it is
going to be given. From then on it is called with `Z_FINISH` and what is left of the input. -/
inductive Session (codec : Codec State) : List UInt8 → List UInt8 → Option (List UInt8) → State → Prop
  | start {state : State} (ready : codec.init2 = some state) : Session codec [] [] none state
  | more {given got : List UInt8} {state : State} {input : List UInt8} {room : ℕ} {call : ZCall State}
      (before : Session codec given got none state) (space : 0 < room)
      (called : codec.call state .Z_NO_FLUSH input room = call)
      (resumable : call.result.Resumable) :
      Session codec (given ++ input.take call.taken) (got ++ call.written) none call.state
  | finish {given got : List UInt8} {total : Option (List UInt8)} {state : State} {input : List UInt8} {room : ℕ}
      {call : ZCall State} (before : Session codec given got total state) (rest : ∀ all ∈ total, given ++ input = all)
      (space : 0 < room) (called : codec.call state .Z_FINISH input room = call) (resumable : call.result.Resumable) :
      Session codec (given ++ input.take call.taken) (got ++ call.written) (some (given ++ input)) call.state

/-- `deflate` as documented: what it writes depends on all it is given alone. With input at hand or told to finish, and
with room for output, it does not fail: it gets on, or ends the stream with everything taken and written. -/
structure Deflates (deflate : Codec State) (deflated : List UInt8 → List UInt8) : Prop where
  ready : ∃ state, deflate.init2 = some state
  fits : ∀ {given got total state flush input room call}, Session deflate given got total state → 0 < room →
    deflate.call state flush input room = call → call.taken ≤ input.length ∧ call.written.length ≤ room
  progress : ∀ {given got total state flush input room call}, Session deflate given got total state → 0 < room →
    deflate.call state flush input room = call → call.result = .Z_OK → 0 < call.taken ∨ call.written ≠ []
  streams : ∀ {given got state input room call}, Session deflate given got none state → 0 < room → input ≠ [] →
    deflate.call state .Z_NO_FLUSH input room = call →
      call.result = .Z_OK ∧ ∀ rest, got ++ call.written <+: deflated (given ++ input.take call.taken ++ rest)
  finishes : ∀ {given got total state input room call}, Session deflate given got total state →
    (∀ all ∈ total, given ++ input = all) → 0 < room → deflate.call state .Z_FINISH input room = call →
      got ++ call.written <+: deflated (given ++ input) ∧ (call.result = .Z_OK ∨
        call.result = .Z_STREAM_END ∧ call.taken = input.length ∧ got ++ call.written = deflated (given ++ input))

/-- `inflate` as documented, with the complete streams of the format and the texts they hold. It ends with a complete
stream and its text. While the input agrees with a stream it takes nothing behind it and writes nothing but its text, and
gets on, or ends where the stream does, or has no input at hand where the stream goes on. -/
structure Inflates (inflate : Codec State) (member : List UInt8 → List UInt8 → Prop) : Prop where
  ready : ∃ state, inflate.init2 = some state
  fits : ∀ {given got state input room call}, Session inflate given got none state → 0 < room →
    inflate.call state .Z_NO_FLUSH input room = call → call.taken ≤ input.length ∧ call.written.length ≤ room
  progress : ∀ {given got state input room call}, Session inflate given got none state → 0 < room →
    inflate.call state .Z_NO_FLUSH input room = call → call.result = .Z_OK → 0 < call.taken ∨ call.written ≠ []
  ended : ∀ {given got state input room call}, Session inflate given got none state → 0 < room →
    inflate.call state .Z_NO_FLUSH input room = call → call.result = .Z_STREAM_END →
      member (given ++ input.take call.taken) (got ++ call.written)
  follows : ∀ {given got state input room call stream text}, Session inflate given got none state → 0 < room →
    member stream text → given ++ input <+: stream → inflate.call state .Z_NO_FLUSH input room = call →
      got ++ call.written <+: text ∧ (call.result = .Z_OK ∨
        (call.result = .Z_STREAM_END ∧ given ++ input.take call.taken = stream ∧ got ++ call.written = text) ∨
          (call.result = .Z_BUF_ERROR ∧ input = [] ∧ given ≠ stream))

/-! ## The loops

They are run with fuel, and a feed bound out of range ends the process.
-/

def kChunk : ℕ := 16 * 1024

def kMaxFeed : ℕ := 2 ^ 30

/-- `std::numeric_limits<uInt>::max()`. -/
def uIntMax : ℕ := 2 ^ 32 - 1

/-- `static_cast<uInt>`. -/
def uInt (size : ℕ) : ℕ := size % 2 ^ 32

/-- `z_stream`, with the `avail_in` bytes at `next_in`; the output is set anew for every call. -/
structure ZStream (State : Type*) where
  state : State
  input : List UInt8 := []

def FeedInput (stream : ZStream State) (data : List UInt8) (fed maxFeed : ℕ) : ZStream State × ℕ :=
  if stream.input ≠ [] ∨ fed ≥ data.length then (stream, fed)
  else
    let feed := min (data.length - fed) maxFeed
    ({ stream with input := (data.drop fed).take (uInt feed) }, fed + feed)

def RequireFeedBound (maxFeed : ℕ) : Except String Unit :=
  if maxFeed = 0 ∨ maxFeed > uIntMax then .error "gzip: max_feed must be in (0, UINT_MAX]" else .ok ()

/-- The variables of the loops. -/
structure Feeding (State : Type*) where
  stream : ZStream State
  fed : ℕ := 0
  out : List UInt8 := []

/-- A round of the loop of `GzipCompressChunked`, and what follows the last one. -/
def deflateRound (deflate : Codec State) (data : List UInt8) (maxFeed : ℕ) (loop : Feeding State) :
    Feeding State ⊕ Outcome (List UInt8) :=
  let (stream, fed) := FeedInput loop.stream data loop.fed maxFeed
  let flush := if fed = data.length then Flush.Z_FINISH else Flush.Z_NO_FLUSH
  let call := deflate.call stream.state flush stream.input (uInt kChunk)
  let input := stream.input.drop call.taken
  let starved := call.result = .Z_BUF_ERROR ∧ input = [] ∧ fed < data.length
  if call.result ≠ .Z_OK ∧ call.result ≠ .Z_STREAM_END ∧ ¬starved then .inr (.error (.Serialization "gzip: deflate failed"))
  else
    let out := loop.out ++ call.written
    if call.result ≠ .Z_STREAM_END then .inl { stream := { state := call.state, input }, fed, out }
    else if fed ≠ data.length ∨ input ≠ [] then .inr (.error (.Serialization "gzip: input not fully consumed"))
    else .inr (.ok out)

def GzipCompressChunked (deflate : Codec State) (data : List UInt8) (maxFeed fuel : ℕ) :
    Except String (Option (Outcome (List UInt8))) := do
  RequireFeedBound maxFeed
  match deflate.init2 with
  | none => pure (some (.error (.Serialization "gzip: deflateInit2 failed")))
  | some state => pure (Loop.run (deflateRound deflate data maxFeed) fuel { stream := { state } })

/-- A round of the loop of `GzipDecompressChunked`, and what follows the last one. -/
def inflateRound (inflate : Codec State) (data : List UInt8) (maxOutput maxFeed : ℕ) (loop : Feeding State) :
    Feeding State ⊕ Outcome (List UInt8) :=
  let (stream, fed) := FeedInput loop.stream data loop.fed maxFeed
  let call := inflate.call stream.state .Z_NO_FLUSH stream.input (uInt kChunk)
  let input := stream.input.drop call.taken
  let starved := call.result = .Z_BUF_ERROR ∧ input = [] ∧ fed < data.length
  if call.result ≠ .Z_OK ∧ call.result ≠ .Z_STREAM_END ∧ ¬starved then
    .inr (.error (.Serialization "gzip: malformed stream"))
  else
    let out := loop.out ++ call.written
    if out.length > maxOutput then .inr (.error (.Serialization "gzip: output exceeds limit"))
    else if call.result ≠ .Z_STREAM_END then .inl { stream := { state := call.state, input }, fed, out }
    else if fed ≠ data.length ∨ input ≠ [] then .inr (.error (.Serialization "gzip: trailing garbage after stream"))
    else .inr (.ok out)

def GzipDecompressChunked (inflate : Codec State) (data : List UInt8) (maxOutput maxFeed fuel : ℕ) :
    Except String (Option (Outcome (List UInt8))) := do
  RequireFeedBound maxFeed
  match inflate.init2 with
  | none => pure (some (.error (.Serialization "gzip: inflateInit2 failed")))
  | some state => pure (Loop.run (inflateRound inflate data maxOutput maxFeed) fuel { stream := { state } })

def GzipCompress (deflate : Codec State) (data : List UInt8) (fuel : ℕ) : Except String (Option (Outcome (List UInt8))) :=
  GzipCompressChunked deflate data kMaxFeed fuel

def GzipDecompress (inflate : Codec State) (data : List UInt8) (maxOutput fuel : ℕ) :
    Except String (Option (Outcome (List UInt8))) :=
  GzipDecompressChunked inflate data maxOutput kMaxFeed fuel

/-- With fuel enough, the call returns the outcome. -/
def Returns {α : Type*} (call : ℕ → Except String (Option (Outcome α))) (outcome : Outcome α) : Prop :=
  ∃ enough, ∀ fuel, enough ≤ fuel → call fuel = .ok (some outcome)

end OpalCpp.Compression

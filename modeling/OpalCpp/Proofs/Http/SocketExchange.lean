import OpalCpp.Proofs.Http.SocketRequests
import OpalCpp.Proofs.Http.TraceIdentity

/-! # An exchange over sockets

A message is lines, an empty line and a body, and is read back from whatever pieces it arrives in. So the handler is
called with the request of the client, and the client gets the response of the handler, or what the server answers in
its place.
-/

namespace OpalCpp.Http

open Bytes (ascii)
open LineBlock (cutAt IsLine joined)

/-! ## Messages -/

/-- The lines of a head. -/
def headOf (startLine : Bytes) (fields : List (Bytes × Bytes)) : Bytes :=
  joined '\r'.toUInt8 '\n'.toUInt8 (startLine :: fields.map fieldLine)

/-- Lines that the reader takes apart. -/
structure Separable (startLine : Bytes) (fields : List (Bytes × Bytes)) : Prop where
  start : startLine ≠ [] ∧ ¬ crlf <:+: startLine
  field : ∀ field ∈ fields, ':'.toUInt8 ∉ field.1 ∧ ¬ crlf <:+: fieldLine field

/-- The end of the head is among the bytes before there are more of them than a head may have. -/
def HeadInTime (chunks : List Bytes) : Prop :=
  ∀ before, before <+: chunks → kMaxHeaderBytes < before.flatten.length → crlf ++ crlf <:+: before.flatten

section Messages

variable {startLine content : Bytes} {fields : List (Bytes × Bytes)} {chunks : List Bytes}

theorem Separable.cutAt (separable : Separable startLine fields) (content : Bytes) :
    cutAt (crlf ++ crlf) (headOf startLine fields ++ ((crlf ++ crlf) ++ content)) =
      some (headOf startLine fields, content) := by
  apply LineBlock.cutAt_block (by decide) (List.cons_ne_nil _ _)
  rw [List.forall_mem_cons, List.forall_mem_map]
  exact ⟨separable.start, fun field member => ⟨fieldLine_ne_nil field, (separable.field field member).2⟩⟩

/-- A reader that has more than a head may have has seen the end of it. -/
theorem HeadInTime.fits (inTime : HeadInTime chunks) {head : Bytes}
    (cut : LineBlock.cutAt (crlf ++ crlf) chunks.flatten = some (head, content)) :
    HeadFits (head.length + (crlf ++ crlf).length) chunks := by
  rintro before ⟨rest, rfl⟩ short
  by_contra large
  rw [not_le] at large
  have inside := LineBlock.cutAt_isSome (inTime before (List.prefix_append before rest) large)
  rw [List.flatten_append] at cut
  obtain ⟨missing, _⟩ | ⟨after, found, _⟩ := LineBlock.cutAt_of_append crlf_ne_nil cut
  · rw [missing] at inside
    cases inside
  · have same := congrArg List.length (LineBlock.of_cutAt found)
    rw [List.length_append, List.length_append] at same
    omega

/-- A message that is written with the length of its body is read back, and nothing of what comes later; a body that
is longer than the reader takes is refused, and none is there where none is sent. -/
theorem readHttp1Message_written (separable : Separable startLine fields) (some_ : fields ≠ []) {declared : ℕ}
    (length : Headers.getAll ⟨fields.map trimmed⟩ (ascii "content-length") = [Decimal.decimal declared])
    (noEncoding : Headers.has ⟨fields.map trimmed⟩ (ascii "transfer-encoding") = false) (size : declared < 2 ^ 64)
    (bytes : chunks.flatten = headOf startLine fields ++ ((crlf ++ crlf) ++ content))
    (whole : ∀ chunk ∈ chunks, chunk ≠ []) (inTime : HeadInTime chunks) (bodyUntilEof : Bool) {hasBody : Bool}
    (full : content.length = if hasBody then declared else 0) (maxBodyBytes : ℕ) (later : Reads) :
    readHttp1Message (chunks.map some ++ later) bodyUntilEof hasBody maxBodyBytes =
      if hasBody = true ∧ maxBodyBytes < declared then .error (bodyTooLarge maxBodyBytes)
      else .ok { startLine, headers := ⟨fields.map trimmed⟩, body := content } := by
  have cut := separable.cutAt content
  rw [← bytes] at cut
  have atStart : cutAt (crlf ++ crlf) ([] ++ chunks.flatten) = some (headOf startLine fields, content) := cut
  obtain ⟨first, rest, ran, remains, suffix⟩ := readHead_chunks later whole atStart fun before starts short =>
    inTime.fits cut before starts short
  obtain ⟨field, others, rfl⟩ := List.exists_cons_of_ne_nil some_
  have start := separable.start.2
  rw [crlf_eq] at start
  have line := LineBlock.cutAt_line (by decide) start (joined '\r'.toUInt8 '\n'.toUInt8 ((field :: others).map fieldLine))
  rw [← crlf_eq] at line
  have unfolded : headOf startLine (field :: others) =
      startLine ++ (crlf ++ joined '\r'.toUInt8 '\n'.toUInt8 ((field :: others).map fieldLine)) := rfl
  have block : parseHeaderBlock {} (joined '\r'.toUInt8 '\n'.toUInt8 ((field :: others).map fieldLine)) =
      .ok ⟨(field :: others).map trimmed⟩ :=
    parseHeaderBlock_fields {} (fun field member => (separable.field field member).1) fun field member =>
      (separable.field field member).2
  have body : readBody ⟨(field :: others).map trimmed⟩ first (rest.map some ++ later) bodyUntilEof hasBody maxBodyBytes =
      if hasBody = true ∧ maxBodyBytes < declared then .error (bodyTooLarge maxBodyBytes) else .ok content := by
    rw [readBody]
    cases hasBody with
    | false =>
      rw [if_neg Bool.false_ne_true, List.length_eq_zero_iff] at full
      rw [full]
      rfl
    | true =>
      rw [if_pos rfl] at full
      rw [Headers.get?_eq_head?, length]
      simp only [List.head?_cons, allDigits_decimal, strtoull_decimal size, true_and]
      rw [if_neg (by decide), if_neg (by decide)]
      split_ifs with large
      · rfl
      · rw [← full]
        exact readLength_chunks later (fun chunk member => whole chunk (suffix.subset member)) remains
  rw [readHttp1Message, ran]
  simp only [bind, Except.bind, unfolded, line, Option.getD_some, block]
  rw [length, if_neg (by simp), noEncoding, if_neg (by decide)]
  simp only [body]
  split_ifs <;> rfl

end Messages

/-! ## Fields -/

/-- The fields as they are read. -/
def trimmedFields (headers : Headers) : Headers := ⟨headers.entries.map trimmed⟩

theorem getAll_trimmed (fields : List (Bytes × Bytes)) (name : Bytes) :
    Headers.getAll ⟨fields.map trimmed⟩ name = (Headers.getAll ⟨fields⟩ name).map trimSpaces := by
  induction fields with
  | nil => rfl
  | cons field fields ih =>
    rw [List.map_cons, Headers.getAll_cons, Headers.getAll_cons, ih, trimmed]
    split_ifs <;> rfl

/-- Every field may be written. -/
def Safe (headers : Headers) : Prop :=
  ∀ field ∈ headers.entries, validHeaderName field.1 = true ∧ validHeaderValue field.2 = true

theorem findUnsafeHeader_eq_none {headers : Headers} : findUnsafeHeader headers = none ↔ Safe headers := by
  rw [findUnsafeHeader, Option.map_eq_none_iff, List.find?_eq_none, Safe]
  simp [not_or]

theorem Safe.remove {headers : Headers} (safe : Safe headers) (name : Bytes) : Safe (headers.remove name) :=
  fun field member => safe field (List.mem_of_mem_filter member)

theorem Safe.add {headers : Headers} (safe : Safe headers) {name value : Bytes} (validName : validHeaderName name = true)
    (validValue : validHeaderValue value = true) : Safe (headers.add name value) := by
  intro field member
  rcases List.mem_append.mp member with own | added
  · exact safe field own
  · rw [List.mem_singleton.mp added]
    exact ⟨validName, validValue⟩

/-- Digits stay as they are. -/
theorem trimSpaces_of_lowerHex {text : Bytes} (hex : isLowerHex text = true) : trimSpaces text = text := by
  apply trimSpaces_of_not_blank
  intro c inside
  rw [isBlank, Bool.or_eq_false_iff, decide_eq_false_iff_not, decide_eq_false_iff_not]
  constructor <;> rintro rfl <;> exact absurd (mem_lowerHex hex inside) (by decide)

theorem validHeaderValue_of_lowerHex {text : Bytes} (hex : isLowerHex text = true) : validHeaderValue text = true := by
  rw [validHeaderValue, List.all_eq_true]
  intro c inside
  have digit := mem_lowerHex hex inside
  simp only [Bool.or_eq_true, Bool.and_eq_true, decide_eq_true_eq]
  right
  rcases digit with ⟨low, high⟩ | ⟨low, high⟩
  · exact ⟨UInt8.le_trans (by decide) low, fun del => absurd (del ▸ high) (by decide)⟩
  · exact ⟨UInt8.le_trans (by decide) low, fun del => absurd (del ▸ high) (by decide)⟩

/-! ## Status lines -/

theorem takeWhile_digits {digits : Bytes} (all : ∀ c ∈ digits, Decimal.isDigit c = true) {c : UInt8}
    (other : Decimal.isDigit c = false) (rest : Bytes) : (digits ++ c :: rest).takeWhile Decimal.isDigit = digits := by
  rw [List.takeWhile_append_of_pos all, List.takeWhile_cons_of_neg (by rw [other]; decide), List.append_nil]

/-- `atoi` of a number and what is not a digit. -/
theorem atoi_decimal (number : ℕ) : atoi (Decimal.decimal number ++ ascii " ") = number := by
  have digits := @Decimal.isDigit_of_mem_decimal number
  have read := Decimal.read_decimal number
  have long := Decimal.decimal_ne_nil number
  generalize Decimal.decimal number = text at digits read long
  obtain ⟨first, rest, rfl⟩ := List.exists_cons_of_ne_nil long
  have digit := digits first List.mem_cons_self
  have apart {c : UInt8} (other : Decimal.isDigit c = false) : first ≠ c := by
    rintro rfl
    rw [digit] at other
    cases other
  have shown : ((first :: rest ++ ascii " ").dropWhile isSpace).takeWhile (· ≠ 0) = first :: rest ++ ascii " " := by
    have visible : isSpace first = false := by
      rw [Decimal.isDigit, Bool.and_eq_true, decide_eq_true_eq, decide_eq_true_eq] at digit
      rw [isSpace, Bool.or_eq_false_iff, Bool.and_eq_false_iff, decide_eq_false_iff_not, decide_eq_false_iff_not,
        decide_eq_false_iff_not]
      exact ⟨apart (by decide), .inr fun low => absurd (UInt8.le_trans digit.1 low) (by decide)⟩
    rw [List.cons_append, List.dropWhile_cons_of_neg (by rw [visible]; decide), List.takeWhile_eq_self_iff]
    intro c inside
    rw [← List.cons_append, List.mem_append] at inside
    rw [decide_eq_true_eq]
    rintro rfl
    rcases inside with inside | inside
    · exact absurd (digits 0 inside) (by decide)
    · exact absurd inside (by decide)
  have number : (first :: rest ++ ascii " ").takeWhile Decimal.isDigit = first :: rest :=
    takeWhile_digits digits (show Decimal.isDigit ' '.toUInt8 = false by decide) []
  rw [atoi]
  simp only [shown]
  rw [List.cons_append] at number ⊢
  simp only [number, read, Option.getD_some]
  rw [if_neg (apart (by decide)), if_neg (apart (by decide))]

/-- A status that is written is read. -/
theorem parseStatusLine_written {status : ℤ} (low : 100 ≤ status) (high : status ≤ 599) :
    parseStatusLine (ascii "HTTP/1.1 " ++ portText status ++ ascii " ") = .ok status := by
  have text : portText status = Decimal.decimal status.natAbs := by
    rw [portText, if_neg (by omega)]
  have split : ascii "HTTP/1.1 " ++ portText status ++ ascii " " =
      ascii "HTTP/1.1" ++ ' '.toUInt8 :: (Decimal.decimal status.natAbs ++ ascii " ") := by
    rw [text]
    simp [ascii]
  have number : atoi (Decimal.decimal status.natAbs ++ ascii " ") = status := by
    rw [atoi_decimal]
    omega
  have long : ¬ (Decimal.decimal status.natAbs ++ ascii " ").length < 3 := by
    have three := Decimal.length_decimal_mono (show 100 ≤ status.natAbs by omega)
    rw [show (Decimal.decimal 100).length = 3 by decide] at three
    rw [List.length_append]
    omega
  rw [parseStatusLine, split, Delimited.cut_append (by decide)]
  simp only [number]
  rw [if_neg (by rw [not_or]; exact ⟨long, by decide⟩), if_neg (by omega)]

/-! ## Responses -/

namespace SocketHttpServer

variable {response : HttpResponse}

/-- The headers without those that the transport writes itself. -/
def unframed (headers : Headers) : Headers :=
  ((headers.remove (ascii "content-length")).remove (ascii "transfer-encoding")).remove (ascii "connection")

def framingNames : List Bytes := [ascii "content-length", ascii "transfer-encoding", ascii "connection"]

def statusLine (response : HttpResponse) : Bytes := ascii "HTTP/1.1 " ++ portText response.status ++ ascii " "

def fields (response : HttpResponse) : List (Bytes × Bytes) :=
  (ascii "content-length", Decimal.decimal response.body.length) :: (ascii "connection", ascii "close") ::
    response.headers.entries

/-- What takes the place of a response that cannot be written. -/
def unwritable : HttpResponse where
  status := 500
  headers := Headers.set {} (ascii "content-type") (ascii "text/plain")
  body := ascii "internal error: response header contains forbidden bytes"

theorem framed_eq (response : HttpResponse) :
    framed response =
      if (findUnsafeHeader (unframed response.headers)).isSome then unwritable
      else { response with headers := unframed response.headers } := rfl

theorem getAll_unframed (headers : Headers) (name : Bytes) :
    (unframed headers).getAll name = if framingNames.any (headerNameEquals · name) then [] else headers.getAll name := by
  rw [unframed, Headers.getAll_remove, Headers.getAll_remove, Headers.getAll_remove, framingNames, List.any_cons,
    List.any_cons, List.any_cons, List.any_nil]
  cases headerNameEquals (ascii "content-length") name <;> cases headerNameEquals (ascii "transfer-encoding") name <;>
    cases headerNameEquals (ascii "connection") name <;> rfl

theorem safe_framed (response : HttpResponse) : Safe (framed response).headers := by
  rw [framed_eq]
  split_ifs with found
  · rw [← findUnsafeHeader_eq_none]
    decide
  · rw [← findUnsafeHeader_eq_none]
    simpa using found

theorem getAll_framed {name : Bytes} (framing : framingNames.any (headerNameEquals · name) = true)
    (other : headerNameEquals (ascii "content-type") name = false) (response : HttpResponse) :
    (framed response).headers.getAll name = [] := by
  rw [framed_eq]
  split_ifs
  · rw [unwritable]
    simp only []
    rw [Headers.getAll_set, if_neg (Bool.eq_false_iff.mp other)]
    rfl
  · exact (getAll_unframed response.headers name).trans (if_pos framing)

theorem wire_eq (response : HttpResponse) (head : Bool) :
    wire response head =
      headOf (statusLine response) (fields response) ++ ((crlf ++ crlf) ++ if head then [] else response.body) := by
  have lines (entries : List (Bytes × Bytes)) :
      (entries.flatMap fun entry => headerLine entry.1 entry.2) = (entries.map fieldLine).flatMap (· ++ crlf) := by
    rw [List.flatMap_map]
    rfl
  rw [wire, wireHead, lines, headOf, ← List.append_assoc, ← List.append_assoc, SocketHttpClient.joined_append]
  simp [fields, headerLine, fieldLine, statusLine, crlf, ascii]

/-- The head of a response that may be written. -/
theorem separable (safe : Safe response.headers) : Separable (statusLine response) (fields response) := by
  constructor
  · refine ⟨by simp [statusLine, ascii], not_crlf_of_no_cr ?_⟩
    simp only [statusLine, List.mem_append, not_or]
    exact ⟨⟨by decide, SocketHttpClient.notMem_portText (by decide) (by decide) _⟩, by decide⟩
  · intro field member
    simp only [fields, List.mem_cons] at member
    obtain rfl | rfl | own := member
    · refine ⟨show ':'.toUInt8 ∉ ascii "content-length" by decide,
        SocketHttpClient.not_crlf_fieldLine (by decide) (not_crlf_of_no_cr fun cr => ?_)⟩
      cases Decimal.isDigit_of_mem_decimal _ cr
    · exact ⟨by decide, SocketHttpClient.not_crlf_fieldLine (by decide) (by decide)⟩
    · obtain ⟨name, value⟩ := safe field own
      obtain ⟨cr, colon⟩ := no_cr_of_name name
      exact ⟨colon, SocketHttpClient.not_crlf_fieldLine cr (not_crlf_of_no_cr (no_cr_of_value value))⟩

/-- The fields that the client finds, by name. -/
theorem getAll_fields (response : HttpResponse) (name : Bytes) :
    Headers.getAll ⟨(fields response).map trimmed⟩ name =
      (if headerNameEquals (ascii "content-length") name then [Decimal.decimal response.body.length] else []) ++
        (if headerNameEquals (ascii "connection") name then [ascii "close"] else []) ++
          (response.headers.getAll name).map trimSpaces := by
  have close : trimSpaces (ascii "close") = ascii "close" := by decide
  rw [getAll_trimmed, fields, Headers.getAll_cons, Headers.getAll_cons]
  split_ifs <;> simp [trimSpaces_decimal, close]

/-- A response that is written is read back. -/
theorem framed_reads_back (response : HttpResponse) (head : Bool) (size : (framed response).body.length < 2 ^ 64)
    {chunks : List Bytes} (bytes : chunks.flatten = wire (framed response) head) (whole : ∀ chunk ∈ chunks, chunk ≠ [])
    (inTime : HeadInTime chunks) (maxBodyBytes : ℕ) (later : Reads) :
    readHttp1Message (chunks.map some ++ later) true (!head) maxBodyBytes =
      if (!head) = true ∧ maxBodyBytes < (framed response).body.length then .error (bodyTooLarge maxBodyBytes)
      else .ok { startLine := statusLine (framed response), headers := ⟨(fields (framed response)).map trimmed⟩
                 body := if head then [] else (framed response).body } := by
  rw [wire_eq] at bytes
  apply readHttp1Message_written (separable (safe_framed response)) (List.cons_ne_nil _ _) _ _ size bytes whole inTime
  · cases head <;> rfl
  · rw [getAll_fields, getAll_framed (by decide) (by decide), if_pos (by decide), if_neg (by decide)]
    rfl
  · rw [Headers.has_eq_isSome, getAll_fields, getAll_framed (by decide) (by decide), if_neg (by decide), if_neg (by decide)]
    rfl

end SocketHttpServer

/-! ## Exchanges -/

/-- The reads of a connection give the bytes first, in whatever pieces they arrive. -/
def Carries (reads : Reads) (bytes : Bytes) : Prop :=
  ∃ chunks later, reads = chunks.map some ++ later ∧ Chunking bytes chunks ∧ HeadInTime chunks

/-- The trace of a request as it is read, or else the one that is minted for it. -/
def traceOf (minted : TraceContext) (request : HttpRequest) : TraceContext :=
  (ownTrace (trimmedFields request.headers)).getD minted

/-- The request of a handler is the one that was sent, with the fields of the client and one trace. -/
structure Arrived (client : SocketHttpClient) (minted : TraceContext) (peerAddress : Bytes) (request arrived : HttpRequest) :
    Prop where
  rest : arrived = { request with headers := arrived.headers, peerAddress }
  identity : ownTrace arrived.headers = some (traceOf minted request)
  state : arrived.headers.getAll (ascii "tracestate") =
    if (ownTrace (trimmedFields request.headers)).isSome then (request.headers.getAll (ascii "tracestate")).map trimSpaces
    else []
  others : ∀ name, headerNameEquals (ascii "traceparent") name = false → headerNameEquals (ascii "tracestate") name = false →
    arrived.headers.getAll name = (Headers.getAll ⟨client.fields request⟩ name).map trimSpaces

/-- What is answered for what a handler did. -/
inductive Reply (traceId : Bytes) : Except Thrown HttpResponse → HttpResponse → Prop where
  /-- The response of the handler, of which a server error is correlated with the trace. -/
  | answered {response reply : HttpResponse} (safe : Safe (SocketHttpServer.unframed response.headers))
      (status : reply.status = response.status) (body : reply.body = response.body)
      (correlated : reply.headers.getAll (ascii "x-correlation-id") =
        if response.status < 500 ∨ response.headers.has (ascii "x-correlation-id")
        then (response.headers.getAll (ascii "x-correlation-id")).map trimSpaces else [traceId])
      (others : ∀ name, headerNameEquals (ascii "x-correlation-id") name = false →
        SocketHttpServer.framingNames.any (headerNameEquals · name) = false →
          reply.headers.getAll name = (response.headers.getAll name).map trimSpaces) :
      Reply traceId (.ok response) reply
  /-- A field of the handler's would split the head. -/
  | replaced {response reply : HttpResponse} (found : ¬ Safe (SocketHttpServer.unframed response.headers))
      (status : reply.status = 500) (body : reply.body = SocketHttpServer.unwritable.body) :
      Reply traceId (.ok response) reply
  /-- The handler threw. -/
  | failed {thrown : Thrown} {reply : HttpResponse} (status : reply.status = 500)
      (body : reply.body = ascii "\x7b\"message\":\"internal error\",\"correlationId\":\"" ++ traceId ++ ascii "\"\x7d")
      (correlated : reply.headers.getAll (ascii "x-correlation-id") = [traceId]) :
      Reply traceId (.error thrown) reply

variable (client : SocketHttpClient)

theorem traceId_of_ownTrace {headers : Headers} {context : TraceContext} (own : ownTrace headers = some context) :
    isLowerHex context.traceId = true ∧ context.traceId.length ≤ 32 := by
  obtain ⟨value, _, parsed⟩ := ownTrace_eq_some.mp own
  exact traceId_of_parseTraceparent parsed

/-- The request as the server reads it. -/
theorem serve_eq (passed : SocketHttpClient.refusal request = none)
    (noLength : request.headers.has (ascii "content-length") = false)
    (noEncoding : request.headers.has (ascii "transfer-encoding") = false) (host : ¬ crlf <:+: client.host)
    (small : request.body.length ≤ kDefaultMaxBodyBytes) {arrivals : Reads}
    (arrives : Carries arrivals (client.wire request))
    (handler : Option RequestHandler) (minted : TraceContext) (peerAddress : Bytes) :
    SocketHttpServer.serve handler minted peerAddress arrivals =
      SocketHttpServer.wire (SocketHttpServer.framed
        (invokeHandlerGuarded handler minted { request with headers := received client request, peerAddress }))
        (request.method = ascii "HEAD") := by
  obtain ⟨chunks, later, rfl, ⟨bytes, pieces⟩, inTime⟩ := arrives
  have fields := SocketHttpClient.isLine_fields client passed host
  have separable : Separable (SocketHttpClient.requestLine request) (client.fields request) :=
    ⟨⟨by simp [SocketHttpClient.requestLine, ascii], SocketHttpClient.isLine_requestLine passed⟩, fields⟩
  have written : chunks.flatten = headOf (SocketHttpClient.requestLine request) (client.fields request) ++
      ((crlf ++ crlf) ++ request.body) := by
    rw [bytes, SocketHttpClient.wire, SocketHttpClient.wireHead_eq client noLength, headOf, List.append_assoc]
  have full : request.body.length = if true then request.body.length else 0 := rfl
  have read := readHttp1Message_written separable (List.cons_ne_nil _ _) (getAll_received client noLength)
    (has_received client noEncoding) (small.trans_lt (by decide)) written (fun chunk member => (pieces chunk member).1)
    inTime false full kDefaultMaxBodyBytes later
  rw [if_neg fun large => absurd large.2 (not_lt.mpr small)] at read
  obtain ⟨_, method, target, _⟩ := of_refusal passed
  have line := parseRequestLine_written (no_cr_of_field method).2 (no_cr_of_field target).2 (ascii "HTTP/1.1")
  rw [List.append_assoc _ (ascii " ")] at line
  have parsed : parseRequestLine (SocketHttpClient.requestLine request) = some (request.method, request.target) := line
  rw [SocketHttpServer.serve, read, SocketHttpServer.respond]
  simp only [parsed]
  rfl

/-- A server error is correlated unless the handler did that. -/
theorem getAll_correlateServerError (arrived : HttpRequest) (response : HttpResponse) (name : Bytes) :
    (correlateServerError arrived response).headers.getAll name =
      if headerNameEquals (ascii "x-correlation-id") name = true ∧
        ¬ (response.status < 500 ∨ response.headers.has (ascii "x-correlation-id"))
      then [requestTraceId arrived] else response.headers.getAll name := by
  rw [correlateServerError]
  split_ifs with own named named
  · exact absurd own named.2
  · rfl
  · exact (Headers.getAll_set _ _ _ _).trans (if_pos named.1)
  · refine (Headers.getAll_set _ _ _ _).trans (if_neg fun same => named ⟨same, own⟩)

theorem safe_unframed_correlated {arrived : HttpRequest} {response : HttpResponse}
    (hex : isLowerHex (requestTraceId arrived) = true) :
    Safe (SocketHttpServer.unframed (correlateServerError arrived response).headers) ↔
      Safe (SocketHttpServer.unframed response.headers) := by
  rw [correlateServerError]
  split_ifs with own
  · rfl
  · rw [not_or, Bool.not_eq_true] at own
    have kept : response.headers.remove (ascii "x-correlation-id") = response.headers := by
      rw [Headers.remove]
      congr 1
      rw [List.filter_eq_self]
      intro field member
      rw [has_eq_false.mp own.2 field member]
      rfl
    have added : SocketHttpServer.unframed (response.headers.set (ascii "x-correlation-id") (requestTraceId arrived)) =
        (SocketHttpServer.unframed response.headers).add (ascii "x-correlation-id") (requestTraceId arrived) := by
      rw [Headers.set, kept]
      simp only [SocketHttpServer.unframed, Headers.remove, Headers.add, List.filter_append]
      rfl
    simp only [added]
    constructor
    · intro safe field member
      exact safe field (List.mem_append_left _ member)
    · intro safe
      exact safe.add (by decide) (validHeaderValue_of_lowerHex hex)

namespace SocketHttpServer

/-- What the client makes of a response, with its body. -/
def replyOf (response : HttpResponse) : HttpResponse where
  status := (framed response).status
  headers := ⟨(fields (framed response)).map trimmed⟩
  body := (framed response).body

theorem framed_of_safe {response : HttpResponse} (safe : Safe (unframed response.headers)) :
    framed response = { response with headers := unframed response.headers } := by
  rw [framed_eq, findUnsafeHeader_eq_none.mpr safe]
  rfl

/-- The fields of a response that is written as it is, but for those of the transport. -/
theorem getAll_replyOf {response : HttpResponse} (safe : Safe (unframed response.headers)) {name : Bytes}
    (other : framingNames.any (headerNameEquals · name) = false) :
    (replyOf response).headers.getAll name = (response.headers.getAll name).map trimSpaces := by
  have apart := other
  simp only [framingNames, List.any_cons, List.any_nil, Bool.or_false, Bool.or_eq_false_iff] at apart
  rw [replyOf, framed_of_safe safe]
  simp only []
  rw [getAll_fields, getAll_unframed, if_neg (Bool.eq_false_iff.mp apart.1), if_neg (Bool.eq_false_iff.mp apart.2.2),
    if_neg (Bool.eq_false_iff.mp other)]
  rfl

theorem length_replyOf (response : HttpResponse) :
    (replyOf response).headers.getAll (ascii "content-length") = [Decimal.decimal (replyOf response).body.length] := by
  rw [replyOf]
  simp only []
  rw [getAll_fields, getAll_framed (by decide) (by decide), if_pos (by decide), if_neg (by decide)]
  rfl

end SocketHttpServer

open SocketHttpServer (replyOf unframed framed_of_safe getAll_replyOf)

/-- The response to what the handler did with the request that it was called with. -/
theorem reply_of_invokeHandlerGuarded (handler : RequestHandler) {minted context : TraceContext} {request : HttpRequest}
    (own : ownTrace (ensureInboundTraceIdentity minted request).headers = some context) :
    Reply context.traceId (handler (ensureInboundTraceIdentity minted request))
      (replyOf (invokeHandlerGuarded (some handler) minted request)) := by
  have traced := requestTraceId_eq own
  have hex := (traceId_of_ownTrace own).1
  rw [invokeHandlerGuarded]
  generalize ensureInboundTraceIdentity minted request = arrived at own traced
  cases handler arrived with
  | error thrown =>
    have safe : Safe (unframed (internalError arrived).headers) := by
      rw [internalError, traced]
      refine (((Safe.add ?_ (by decide) (validHeaderValue_of_lowerHex hex)).remove _).remove _).remove _
      exact (findUnsafeHeader_eq_none.mp (by decide)).remove _
    refine .failed ?_ ?_ ?_
    · rw [replyOf, framed_of_safe safe]
      rfl
    · rw [replyOf, framed_of_safe safe, internalError, traced]
    · refine (getAll_replyOf safe (by decide)).trans ?_
      rw [internalError]
      simp only []
      rw [Headers.getAll_set, if_pos (by decide), traced, List.map_singleton, trimSpaces_of_lowerHex hex]
  | ok response =>
    simp only []
    by_cases safe : Safe (unframed response.headers)
    · have correlatedSafe := (safe_unframed_correlated (traced ▸ hex)).mpr safe
      refine .answered safe ?_ ?_ ?_ ?_
      · rw [replyOf, framed_of_safe correlatedSafe, correlateServerError]
        split_ifs <;> rfl
      · rw [replyOf, framed_of_safe correlatedSafe, correlateServerError]
        split_ifs <;> rfl
      · refine (getAll_replyOf correlatedSafe (by decide)).trans ?_
        rw [getAll_correlateServerError, traced]
        by_cases own : response.status < 500 ∨ response.headers.has (ascii "x-correlation-id")
        · rw [if_neg fun added => added.2 own, if_pos own]
        · rw [if_pos ⟨by decide, own⟩, if_neg own, List.map_singleton, trimSpaces_of_lowerHex hex]
      · intro name apart framing
        refine (getAll_replyOf correlatedSafe framing).trans ?_
        rw [getAll_correlateServerError, if_neg fun added => Bool.eq_false_iff.mp apart added.1]
    · have correlatedUnsafe := mt (safe_unframed_correlated (traced ▸ hex)).mp safe
      rw [← findUnsafeHeader_eq_none, ← ne_eq, ← Option.isSome_iff_ne_none] at correlatedUnsafe
      refine .replaced safe ?_ ?_
      · rw [replyOf, SocketHttpServer.framed_eq, if_pos correlatedUnsafe]
        rfl
      · rw [replyOf, SocketHttpServer.framed_eq, if_pos correlatedUnsafe]

/-- The request that the handler is called with. -/
theorem arrived_of_received {minted : TraceContext} (valid : minted.Valid) (request : HttpRequest) (peerAddress : Bytes) :
    Arrived client minted peerAddress request
      (ensureInboundTraceIdentity minted { request with headers := received client request, peerAddress }) := by
  have traced := ensureInboundTraceIdentity_traced valid { request with headers := received client request, peerAddress }
  -- The client's own fields are none of the trace.
  have own (name : Bytes) (trace : name = ascii "traceparent" ∨ name = ascii "tracestate") :
      (received client request).getAll name = (trimmedFields request.headers).getAll name := by
    rw [received, trimmedFields, getAll_trimmed, getAll_trimmed, SocketHttpClient.fields, Headers.getAll_cons,
      Headers.getAll_cons, Headers.getAll_cons]
    rcases trace with rfl | rfl <;> rfl
  have sameTrace : ownTrace (received client request) = ownTrace (trimmedFields request.headers) := by
    rw [ownTrace, ownTrace, own _ (.inl rfl)]
  refine ⟨traced.rest, ?_, ?_, ?_⟩
  · rw [traced.identity, traceOf, ← sameTrace]
  · rw [traced.state, ← sameTrace, own _ (.inr rfl), trimmedFields, getAll_trimmed]
  · intro name parent state
    rw [traced.others name parent state]
    exact getAll_trimmed _ name

/-- A response has a status of three digits and a body that a string can hold. -/
def Plausible (response : HttpResponse) : Prop :=
  100 ≤ response.status ∧ response.status ≤ 599 ∧ response.body.length < 2 ^ 64

theorem Reply.writable {traceId : Bytes} {outcome : Except Thrown HttpResponse} {reply : HttpResponse}
    (replied : Reply traceId outcome reply) (short : traceId.length ≤ 32)
    (answer : ∀ response, outcome = .ok response → Plausible response) : Plausible reply := by
  cases replied with
  | answered _ status body _ _ =>
    rw [Plausible, status, body]
    exact answer _ rfl
  | replaced _ status body =>
    rw [Plausible, status, body]
    decide
  | failed status body _ =>
    rw [Plausible, status, body]
    have front : (ascii "\x7b\"message\":\"internal error\",\"correlationId\":\"").length = 45 := by decide
    have back : (ascii "\"\x7d").length = 2 := by decide
    rw [List.length_append, List.length_append, front, back]
    omega

/-- A request that the client sends over sockets is the one that the handler is called with, and it has one trace;
what the client returns is the response of the handler, or what is answered where it throws or its headers cannot
be written, unless the body is larger than the client takes. -/
theorem socket_exchange {network : Network} (handler : RequestHandler) {words : List UInt64} {minted : TraceContext}
    (generated : generateTraceContext words = some minted) (peerAddress : Bytes) {request : HttpRequest}
    (passed : SocketHttpClient.refusal request = none)
    (noLength : request.headers.has (ascii "content-length") = false)
    (noEncoding : request.headers.has (ascii "transfer-encoding") = false) (host : ¬ crlf <:+: client.host)
    (small : request.body.length ≤ kDefaultMaxBodyBytes)
    (writable : ∀ arrived, Arrived client minted peerAddress request arrived →
      ∀ response, handler arrived = .ok response → Plausible response)
    (resolves : network.resolves (cString client.host) (portText client.port) = true)
    (connects : network.connects (cString client.host) (portText client.port) = true) {arrivals returns : Reads}
    (arrives : Carries arrivals (client.wire request)) (exchanged : network.exchange (client.wire request) = some returns)
    (answers : Carries returns (SocketHttpServer.serve (some handler) minted peerAddress arrivals)) :
    ∃ arrived reply,
      Arrived client minted peerAddress request arrived ∧
      Reply (traceOf minted request).traceId (handler arrived) reply ∧
      reply.headers.getAll (ascii "content-length") = [Decimal.decimal reply.body.length] ∧
      (client.send network request).2 =
        if request.method ≠ ascii "HEAD" ∧ client.maxResponseBytes < reply.body.length
        then .error (bodyTooLarge client.maxResponseBytes)
        else .ok { reply with body := if request.method = ascii "HEAD" then [] else reply.body } := by
  have arrived := arrived_of_received client (TraceContext.Valid.of_generate generated).1 request peerAddress
  have reply := reply_of_invokeHandlerGuarded handler arrived.identity
  refine ⟨_, _, arrived, reply, SocketHttpServer.length_replyOf _, ?_⟩
  rw [serve_eq client passed noLength noEncoding host small arrives] at answers
  obtain ⟨chunks, later, rfl, ⟨bytes, pieces⟩, inTime⟩ := answers
  generalize invokeHandlerGuarded (some handler) minted { request with headers := received client request, peerAddress } =
    response at reply bytes
  obtain ⟨low, high, size⟩ := reply.writable (traceId_of_ownTrace arrived.identity).2 (writable _ arrived)
  have read := SocketHttpServer.framed_reads_back response (request.method = ascii "HEAD") size bytes
    (fun chunk member => (pieces chunk member).1) inTime client.maxResponseBytes later
  have status : parseStatusLine (SocketHttpServer.statusLine (SocketHttpServer.framed response)) =
      .ok (replyOf response).status := parseStatusLine_written low high
  have sameBody : (SocketHttpServer.framed response).body = (replyOf response).body := rfl
  have withBody : decide (request.method ≠ ascii "HEAD") = !decide (request.method = ascii "HEAD") := decide_not
  rw [SocketHttpClient.send, passed]
  simp only []
  rw [resolves, connects, if_neg (by decide), if_neg (by decide), exchanged]
  simp only [withBody, read, Bool.not_eq_true', decide_eq_false_iff_not, decide_eq_true_eq, sameBody]
  by_cases large : ¬ request.method = ascii "HEAD" ∧ client.maxResponseBytes < (replyOf response).body.length
  · rw [if_pos large, if_pos large]
    rfl
  · rw [if_neg large, if_neg large]
    simp only [bind, Except.bind, SocketHttpClient.responseOf, status]
    rfl

/-- A handler that keeps a note. -/
def keepNote : RequestHandler := fun request =>
  .ok { status := 201, headers := ⟨[(ascii "location", ascii "/notes/1")]⟩, body := request.body }

def noteTrace : TraceContext where
  traceId := ascii "10000000000000002000000000000000"
  parentId := ascii "3000000000000000"

def noteAnswer : Bytes :=
  SocketHttpServer.serve (some keepNote) noteTrace (ascii "127.0.0.1") [some (notesClient.wire notes)]

def noteNetwork : Network := { loopback with exchange := fun _ => some [some noteAnswer] }

theorem carries_single {bytes : Bytes} (some_ : bytes ≠ []) (small : bytes.length ≤ 8192) : Carries [some bytes] bytes := by
  refine ⟨[bytes], [], rfl, ⟨by simp, ?_⟩, ?_⟩
  · rw [List.forall_mem_singleton]
    exact ⟨some_, small⟩
  · rintro before ⟨rest, same⟩ large
    have short := congrArg (fun chunks => (List.flatten chunks).length) same
    simp only [List.flatten_append, List.length_append, List.flatten_cons, List.flatten_nil, List.append_nil] at short
    rw [kMaxHeaderBytes] at large
    omega

/-- The note of which the body looks like a head. -/
theorem socket_exchange_notes : ∃ reply, (notesClient.send noteNetwork notes).2 = .ok reply ∧ reply.status = 201 ∧
    reply.headers.getAll (ascii "location") = [ascii "/notes/1"] ∧ reply.body = notes.body := by
  have generated : generateTraceContext [1, 2, 3] = some noteTrace := by decide
  have answer {arrived : HttpRequest} (came : Arrived notesClient noteTrace (ascii "127.0.0.1") notes arrived) :
      keepNote arrived = .ok { status := 201, headers := ⟨[(ascii "location", ascii "/notes/1")]⟩, body := notes.body } := by
    rw [came.rest]
    rfl
  have writable (arrived : HttpRequest) (came : Arrived notesClient noteTrace (ascii "127.0.0.1") notes arrived)
      (response : HttpResponse) (same : keepNote arrived = .ok response) : Plausible response := by
    rw [answer came] at same
    cases same
    rw [Plausible]
    decide
  have exchanged : noteNetwork.exchange (notesClient.wire notes) = some [some noteAnswer] := rfl
  obtain ⟨arrived, reply, came, replied, _, outcome⟩ := socket_exchange notesClient keepNote generated (ascii "127.0.0.1")
    (by decide) (by decide) (by decide) (by decide) (by decide) writable (by decide) (by decide)
    (carries_single (by decide) (by decide)) exchanged (carries_single (by decide +kernel) (by decide +kernel))
  rw [answer came] at replied
  cases replied with
  | answered safe status body correlated others =>
    have small : ¬ (notes.method ≠ ascii "HEAD" ∧ notesClient.maxResponseBytes < reply.body.length) := by
      rw [body]
      decide
    rw [if_neg small, if_neg (by decide)] at outcome
    exact ⟨reply, outcome, status, others (ascii "location") (by decide) (by decide), body⟩
  | replaced found _ _ => exact absurd (findUnsafeHeader_eq_none.mp (by decide)) found

end OpalCpp.Http

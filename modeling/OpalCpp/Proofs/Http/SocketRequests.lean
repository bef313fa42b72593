import OpalCpp.Model.Http.SocketTransport
import OpalCpp.Model.Http.Headers
import OpalCpp.Proofs.Http.Http1Chunks

/-! # Requests of the socket client

What the checks refuse is what would end a line. The head that is written is therefore a block of lines
that the reader takes apart again, and the body is what follows it, in whatever pieces it all arrives.
-/

namespace OpalCpp.Http

open Bytes (ascii)
open Delimited (cut)
open LineBlock (cutAt IsLine joined)

/-! ## Lines -/

/-- A field as it is written, without the end of the line. -/
def fieldLine (field : Bytes × Bytes) : Bytes := field.1 ++ ascii ": " ++ field.2

/-- A field as it is read. -/
def trimmed (field : Bytes × Bytes) : Bytes × Bytes := (field.1, trimSpaces field.2)

theorem parseHeaderLine_fieldLine {field : Bytes × Bytes} (name : ':'.toUInt8 ∉ field.1) :
    parseHeaderLine (fieldLine field) = .ok (trimmed field) := by
  have split : fieldLine field = field.1 ++ ':'.toUInt8 :: ' '.toUInt8 :: field.2 := by
    rw [fieldLine, List.append_assoc]
    rfl
  rw [parseHeaderLine, split, Delimited.cut_append name]
  exact congrArg (fun value => Except.ok (field.1, value)) (trimSpaces_blank field.2)

theorem fieldLine_ne_nil (field : Bytes × Bytes) : fieldLine field ≠ [] := by
  simp [fieldLine, ascii]

/-- The loop over the block gives back the fields in order. -/
theorem parseHeaderBlock_fields (headers : Headers) {fields : List (Bytes × Bytes)}
    (names : ∀ field ∈ fields, ':'.toUInt8 ∉ field.1) (lines : ∀ field ∈ fields, ¬ crlf <:+: fieldLine field) :
    parseHeaderBlock headers (joined '\r'.toUInt8 '\n'.toUInt8 (fields.map fieldLine)) =
      .ok ⟨headers.entries ++ fields.map trimmed⟩ := by
  induction fields generalizing headers with
  | nil =>
    rw [List.map_nil, joined, parseHeaderBlock, if_pos rfl, List.map_nil, List.append_nil]
  | cons field fields ih =>
    have parsed := parseHeaderLine_fieldLine (names field List.mem_cons_self)
    have line := lines field List.mem_cons_self
    cases fields with
    | nil =>
      have missing : cutAt crlf (fieldLine field) = none := by
        cases cut : cutAt crlf (fieldLine field) with
        | none => rfl
        | some parts => exact absurd ⟨_, _, (LineBlock.of_cutAt cut).symm⟩ line
      rw [List.map_cons, List.map_nil, joined, parseHeaderBlock_last headers (fieldLine_ne_nil field) missing, parsed]
      rfl
    | cons next fields =>
      rw [crlf_eq] at line
      have cut := LineBlock.cutAt_line (by decide) line (joined '\r'.toUInt8 '\n'.toUInt8 ((next :: fields).map fieldLine))
      rw [← crlf_eq] at cut
      have later := ih (headers.add field.1 (trimSpaces field.2))
        (fun other member => names other (List.mem_cons_of_mem _ member))
        (fun other member => lines other (List.mem_cons_of_mem _ member))
      rw [List.map_cons, List.map_cons, LineBlock.joined_cons_cons, ← List.map_cons, ← crlf_eq,
        parseHeaderBlock_line headers cut, parsed]
      refine later.trans ?_
      simp [Headers.add, trimmed]

/-! ## What the checks refuse -/

theorem notMem_of_all {text : Bytes} {c : UInt8} {check : UInt8 → Bool} (refused : check c = false)
    (checked : text.all check = true) : c ∉ text := by
  intro member
  have passes := List.all_eq_true.mp checked c member
  rw [refused] at passes
  cases passes

variable {request : HttpRequest}

theorem of_refusal (passed : SocketHttpClient.refusal request = none) :
    request.method ≠ [] ∧ validRequestLineField request.method = true ∧ validRequestLineField request.target = true ∧
      ∀ field ∈ request.headers.entries, validHeaderName field.1 = true ∧ validHeaderValue field.2 = true := by
  rw [SocketHttpClient.refusal] at passed
  split_ifs at passed with method target
  rw [not_or] at method
  refine ⟨method.1, by simpa using method.2, by simpa using target, ?_⟩
  intro field member
  rw [Option.map_eq_none_iff, findUnsafeHeader, Option.map_eq_none_iff, List.find?_eq_none] at passed
  simpa [not_or] using passed field member

theorem no_cr_of_name {name : Bytes} (valid : validHeaderName name = true) : '\r'.toUInt8 ∉ name ∧ ':'.toUInt8 ∉ name := by
  rw [validHeaderName, Bool.and_eq_true] at valid
  exact ⟨notMem_of_all (by decide) valid.2, notMem_of_all (by decide) valid.2⟩

theorem no_cr_of_value {value : Bytes} (valid : validHeaderValue value = true) : '\r'.toUInt8 ∉ value :=
  notMem_of_all (by decide) valid

theorem no_cr_of_field {field : Bytes} (valid : validRequestLineField field = true) :
    '\r'.toUInt8 ∉ field ∧ ' '.toUInt8 ∉ field :=
  ⟨notMem_of_all (by decide) valid, notMem_of_all (by decide) valid⟩

theorem not_crlf_of_no_cr {text : Bytes} (without : '\r'.toUInt8 ∉ text) : ¬ crlf <:+: text := fun inside =>
  without (inside.subset List.mem_cons_self)

theorem parseRequestLine_written {method target : Bytes} (first : ' '.toUInt8 ∉ method) (second : ' '.toUInt8 ∉ target)
    (version : Bytes) :
    parseRequestLine (method ++ ascii " " ++ target ++ ascii " " ++ version) = some (method, target) := by
  have split : method ++ ascii " " ++ target ++ ascii " " ++ version =
      method ++ ' '.toUInt8 :: (target ++ ' '.toUInt8 :: version) := by
    simp [ascii]
  rw [parseRequestLine, split, Delimited.cut_append first]
  simp only []
  rw [Delimited.cut_append second]

/-! ## What is written -/

namespace SocketHttpClient

variable (client : SocketHttpClient)

/-- The fields of a request that declares no length of its own. -/
def fields (client : SocketHttpClient) (request : HttpRequest) : List (Bytes × Bytes) :=
  (ascii "host", client.host ++ ascii ":" ++ portText client.port) ::
    (ascii "content-length", Decimal.decimal request.body.length) :: (ascii "connection", ascii "close") ::
    request.headers.entries

def requestLine (request : HttpRequest) : Bytes := request.method ++ ascii " " ++ request.target ++ ascii " HTTP/1.1"

theorem joined_append (line : Bytes) (lines : List Bytes) :
    joined '\r'.toUInt8 '\n'.toUInt8 (line :: lines) ++ crlf = line ++ crlf ++ lines.flatMap (· ++ crlf) := by
  induction lines generalizing line with
  | nil => simp [joined]
  | cons next lines ih =>
    rw [LineBlock.joined_cons_cons, ← crlf_eq, List.append_assoc, List.append_assoc, ih, List.flatMap_cons]
    simp

theorem wireHead_eq (noLength : request.headers.has (ascii "content-length") = false) :
    client.wireHead request =
      joined '\r'.toUInt8 '\n'.toUInt8 (requestLine request :: (client.fields request).map fieldLine) ++ (crlf ++ crlf) := by
  have lines (entries : List (Bytes × Bytes)) :
      (entries.flatMap fun entry => headerLine entry.1 entry.2) = (entries.map fieldLine).flatMap (· ++ crlf) := by
    rw [List.flatMap_map]
    rfl
  rw [← List.append_assoc, joined_append, wireHead, noLength, lines]
  simp [fields, headerLine, fieldLine, requestLine, crlf, ascii]

theorem notMem_portText {c : UInt8} (digit : Decimal.isDigit c = false) (sign : c ≠ '-'.toUInt8) (port : ℤ) :
    c ∉ portText port := by
  have digits : c ∉ Decimal.decimal port.natAbs := fun member => by
    simpa [digit] using Decimal.isDigit_of_mem_decimal c member
  rw [portText]
  split_ifs
  · exact List.not_mem_cons_of_ne_of_not_mem sign digits
  · exact digits

theorem not_crlf_fieldLine {name value : Bytes} (cr : '\r'.toUInt8 ∉ name) (without : ¬ crlf <:+: value) :
    ¬ crlf <:+: fieldLine (name, value) := by
  intro inside
  have before : '\r'.toUInt8 ∉ name ++ ascii ": " := by
    rw [List.mem_append, not_or]
    exact ⟨cr, by decide⟩
  exact without (LineBlock.pair_infix_of_append_left before inside)

theorem of_send {network : Network} {wire : Bytes} (written : (client.send network request).1 = some wire) :
    refusal request = none ∧ wire = client.wire request := by
  rw [send] at written
  cases refused : refusal request with
  | some error =>
    rw [refused] at written
    cases written
  | none =>
    rw [refused] at written
    simp only [] at written
    split_ifs at written
    exact ⟨rfl, (Option.some.inj written).symm⟩

/-- Only the host can hold the end of a line. -/
theorem isLine_fields (passed : refusal request = none) (host : ¬ crlf <:+: client.host) :
    ∀ field ∈ client.fields request, ':'.toUInt8 ∉ field.1 ∧ ¬ crlf <:+: fieldLine field := by
  intro field member
  simp only [fields, List.mem_cons] at member
  obtain rfl | rfl | rfl | own := member
  · refine ⟨show ':'.toUInt8 ∉ ascii "host" by decide, not_crlf_fieldLine (by decide) ?_⟩
    intro inside
    rw [List.append_assoc] at inside
    have port : '\n'.toUInt8 ∉ ascii ":" ++ portText client.port := by
      rw [List.mem_append, not_or]
      exact ⟨by decide, notMem_portText (by decide) (by decide) client.port⟩
    exact host (LineBlock.pair_infix_of_append_right port inside)
  · refine ⟨show ':'.toUInt8 ∉ ascii "content-length" by decide,
      not_crlf_fieldLine (by decide) (not_crlf_of_no_cr fun cr => ?_)⟩
    cases Decimal.isDigit_of_mem_decimal _ cr
  · exact ⟨by decide, not_crlf_fieldLine (by decide) (by decide)⟩
  · obtain ⟨name, value⟩ := (of_refusal passed).2.2.2 field own
    obtain ⟨cr, colon⟩ := no_cr_of_name name
    exact ⟨colon, not_crlf_fieldLine cr (not_crlf_of_no_cr (no_cr_of_value value))⟩

theorem isLine_requestLine (passed : refusal request = none) : ¬ crlf <:+: requestLine request := by
  obtain ⟨_, method, target, _⟩ := of_refusal passed
  apply not_crlf_of_no_cr
  simp only [requestLine, List.mem_append, not_or]
  exact ⟨⟨⟨(no_cr_of_field method).1, by decide⟩, (no_cr_of_field target).1⟩, by decide⟩

/-- The head is cut where it ends, whatever the body looks like. -/
theorem cutAt_wire (passed : refusal request = none) (host : ¬ crlf <:+: client.host)
    (noLength : request.headers.has (ascii "content-length") = false) :
    cutAt (crlf ++ crlf) (client.wire request) =
      some (joined '\r'.toUInt8 '\n'.toUInt8 (requestLine request :: (client.fields request).map fieldLine),
        request.body) := by
  have lines :
      ∀ line ∈ requestLine request :: (client.fields request).map fieldLine, IsLine '\r'.toUInt8 '\n'.toUInt8 line := by
    rw [List.forall_mem_cons, List.forall_mem_map]
    constructor
    · exact ⟨by simp [requestLine, ascii], isLine_requestLine passed⟩
    · exact fun field member => ⟨fieldLine_ne_nil field, (isLine_fields client passed host field member).2⟩
  rw [wire, wireHead_eq client noLength, List.append_assoc]
  exact LineBlock.cutAt_block (by decide) (List.cons_ne_nil _ _) lines request.body

end SocketHttpClient

/-! ## What is read -/

theorem has_trimmed (entries : List (Bytes × Bytes)) (name : Bytes) :
    Headers.has ⟨entries.map trimmed⟩ name = Headers.has ⟨entries⟩ name := by
  rw [Bool.eq_iff_iff, ← not_iff_not, Bool.not_eq_true, Bool.not_eq_true, has_eq_false, has_eq_false, List.forall_mem_map]
  rfl

theorem strtoull_decimal {number : ℕ} (fits : number < 2 ^ 64) : strtoull (Decimal.decimal number) = number := by
  rw [strtoull, Decimal.read_decimal, Option.getD_some]
  omega

theorem allDigits_decimal (number : ℕ) : allDigits (Decimal.decimal number) = true := by
  rw [allDigits, Bool.and_eq_true, List.all_eq_true]
  exact ⟨by simpa using Decimal.decimal_ne_nil number, Decimal.isDigit_of_mem_decimal⟩

theorem trimSpaces_decimal (number : ℕ) : trimSpaces (Decimal.decimal number) = Decimal.decimal number := by
  apply trimSpaces_of_not_blank
  intro c member
  have digit := Decimal.isDigit_of_mem_decimal c member
  rw [isBlank, Bool.or_eq_false_iff, decide_eq_false_iff_not, decide_eq_false_iff_not]
  constructor <;> rintro rfl <;> cases digit

/-- The fields as they are read. -/
def received (client : SocketHttpClient) (request : HttpRequest) : Headers := ⟨(client.fields request).map trimmed⟩

variable (client : SocketHttpClient)

theorem received_entries :
    (received client request).entries =
      (ascii "host", trimSpaces (client.host ++ ascii ":" ++ portText client.port)) ::
        (ascii "content-length", Decimal.decimal request.body.length) :: (ascii "connection", ascii "close") ::
        request.headers.entries.map trimmed := by
  have close : trimSpaces (ascii "close") = ascii "close" := by decide
  simp only [received, SocketHttpClient.fields, List.map_cons, trimmed, trimSpaces_decimal, close]

theorem getAll_received (noLength : request.headers.has (ascii "content-length") = false) :
    (received client request).getAll (ascii "content-length") = [Decimal.decimal request.body.length] := by
  have own :
      (request.headers.entries.map trimmed).filter (fun field => headerNameEquals field.1 (ascii "content-length")) =
        [] := by
    rw [List.filter_eq_nil_iff, List.forall_mem_map]
    intro field member
    exact Bool.eq_false_iff.mp (has_eq_false.mp noLength field member)
  have host : headerNameEquals (ascii "host") (ascii "content-length") = false := by decide
  have length : headerNameEquals (ascii "content-length") (ascii "content-length") = true := by decide
  have connection : headerNameEquals (ascii "connection") (ascii "content-length") = false := by decide
  simp [Headers.getAll, received_entries, host, length, connection, own]

theorem get?_received :
    (received client request).get? (ascii "content-length") = some (Decimal.decimal request.body.length) := by
  have host : headerNameEquals (ascii "host") (ascii "content-length") = false := by decide
  have length : headerNameEquals (ascii "content-length") (ascii "content-length") = true := by decide
  simp [Headers.get?, received_entries, host, length]

theorem has_received (noEncoding : request.headers.has (ascii "transfer-encoding") = false) :
    (received client request).has (ascii "transfer-encoding") = false := by
  have own := has_trimmed request.headers.entries (ascii "transfer-encoding")
  rw [has_eq_false, received_entries]
  simp only [List.forall_mem_cons]
  refine ⟨by decide, by decide, by decide, has_eq_false.mp (own.trans noEncoding)⟩

/-- Once the head is read, the body decides. -/
theorem readHttp1Message_of_head (noLength : request.headers.has (ascii "content-length") = false)
    (noEncoding : request.headers.has (ascii "transfer-encoding") = false) (host : ¬ crlf <:+: client.host)
    (passed : SocketHttpClient.refusal request = none) {maxBodyBytes : ℕ} (size : maxBodyBytes < 2 ^ 64)
    (body : request.body.length ≤ maxBodyBytes) {reads rest : Reads} {after : Bytes}
    (head : readHead [] reads = .ok (joined '\r'.toUInt8 '\n'.toUInt8
      (SocketHttpClient.requestLine request :: (client.fields request).map fieldLine), after, rest)) :
    readHttp1Message reads false true maxBodyBytes = (readLength request.body.length after rest).map fun body =>
      { startLine := SocketHttpClient.requestLine request, headers := received client request, body } := by
  have lines := SocketHttpClient.isLine_fields client passed host
  have first := SocketHttpClient.isLine_requestLine passed
  rw [crlf_eq] at first
  have cut := LineBlock.cutAt_line (by decide) first
    (joined '\r'.toUInt8 '\n'.toUInt8 ((client.fields request).map fieldLine))
  rw [← crlf_eq] at cut
  have block : parseHeaderBlock {} (joined '\r'.toUInt8 '\n'.toUInt8 ((client.fields request).map fieldLine)) =
      .ok (received client request) :=
    parseHeaderBlock_fields {} (fun field member => (lines field member).1) fun field member => (lines field member).2
  have length : strtoull (Decimal.decimal request.body.length) = request.body.length :=
    strtoull_decimal (body.trans_lt size)
  have unfolded : joined '\r'.toUInt8 '\n'.toUInt8
      (SocketHttpClient.requestLine request :: (client.fields request).map fieldLine) =
        SocketHttpClient.requestLine request ++
          (crlf ++ joined '\r'.toUInt8 '\n'.toUInt8 ((client.fields request).map fieldLine)) := rfl
  have framed : readBody (received client request) after rest false true maxBodyBytes =
      readLength request.body.length after rest := by
    rw [readBody, get?_received, if_neg (by decide)]
    simp only [allDigits_decimal, length]
    rw [if_neg (by decide), if_neg (not_lt.mpr body)]
  rw [readHttp1Message, head]
  simp only [bind, Except.bind, unfolded, cut, Option.getD_some, block]
  rw [getAll_received client noLength, if_neg (by simp), has_received client noEncoding, if_neg (by decide)]
  simp only [framed]
  cases readLength request.body.length after rest <;> rfl

/-- A request that is written reads back as itself, behind the fields that the client adds, from whatever
pieces the bytes arrive in: it takes all of them, and nothing that comes later. -/
theorem request_reads_back (network : Network) {request : HttpRequest} {wire : Bytes}
    (written : (client.send network request).1 = some wire)
    (noLength : request.headers.has (ascii "content-length") = false)
    (noEncoding : request.headers.has (ascii "transfer-encoding") = false) (host : ¬ crlf <:+: client.host)
    {maxBodyBytes : ℕ} (size : maxBodyBytes < 2 ^ 64) (body : request.body.length ≤ maxBodyBytes)
    {chunks : List Bytes} (chunking : Chunking wire chunks) (head : HeadFits (client.wireHead request).length chunks) :
    ∃ message,
      (∀ later, readHttp1Message (chunks.map some ++ later) false true maxBodyBytes = .ok message) ∧
      (∀ before, before <+: chunks → before ≠ chunks →
        ∃ error, readHttp1Message (before.map some) false true maxBodyBytes = .error error) ∧
      parseRequestLine message.startLine = some (request.method, request.target) ∧
      message.headers.entries =
        (ascii "host", trimSpaces (client.host ++ ascii ":" ++ portText client.port)) ::
          (ascii "content-length", Decimal.decimal request.body.length) :: (ascii "connection", ascii "close") ::
          request.headers.entries.map (fun (name, value) => (name, trimSpaces value)) ∧
      message.body = request.body := by
  obtain ⟨passed, rfl⟩ := SocketHttpClient.of_send client written
  obtain ⟨bytes, pieces⟩ := chunking
  have whole (chunk : Bytes) (member : chunk ∈ chunks) : chunk ≠ [] := (pieces chunk member).1
  have cut := SocketHttpClient.cutAt_wire client passed host noLength
  have long : (client.wireHead request).length = (joined '\r'.toUInt8 '\n'.toUInt8
      (SocketHttpClient.requestLine request :: (client.fields request).map fieldLine)).length + (crlf ++ crlf).length := by
    rw [SocketHttpClient.wireHead_eq client noLength, List.length_append]
  refine ⟨{ startLine := SocketHttpClient.requestLine request, headers := received client request, body := request.body },
    ?_, ?_, ?_, received_entries client, rfl⟩
  · intro later
    have atStart : cutAt (crlf ++ crlf) ([] ++ chunks.flatten) = _ := (congrArg _ bytes).trans cut
    obtain ⟨first, rest, ran, remains, suffix⟩ :=
      readHead_chunks later whole atStart fun before => by simpa only [List.nil_append, ← long] using head before
    rw [readHttp1Message_of_head client noLength noEncoding host passed size body ran,
      readLength_chunks later (fun chunk member => whole chunk (suffix.subset member)) remains]
    rfl
  · rintro before ⟨missing, rfl⟩ differ
    have lost : missing.flatten ≠ [] := by
      cases missing with
      | nil => exact absurd (List.append_nil before).symm differ
      | cons chunk others =>
        rw [List.flatten_cons]
        exact List.append_ne_nil_of_left_ne_nil (whole chunk (by simp)) _
    rw [← bytes, List.flatten_append] at cut
    cases found : cutAt (crlf ++ crlf) ([] ++ before.flatten) with
    | none =>
      have failed := readHead_of_no_cut (fun chunk member => whole chunk (List.mem_append_left _ member)) found
      refine ⟨headMissing ([] ++ before.flatten).length, ?_⟩
      rw [readHttp1Message, failed]
      rfl
    | some result =>
      obtain ⟨block, after⟩ := result
      have extended := LineBlock.cutAt_append_right found missing.flatten crlf_ne_nil
      rw [List.nil_append, cut, Option.some.injEq, Prod.mk.injEq] at extended
      obtain ⟨same, split⟩ := extended
      rw [← same] at found
      have fits (earlier : List Bytes) (starts : earlier <+: before) :=
        head earlier (starts.trans (List.prefix_append before missing))
      rw [long] at fits
      obtain ⟨first, rest, ran, remains, _⟩ :=
        readHead_chunks [] (fun chunk member => whole chunk (List.mem_append_left _ member)) found fits
      rw [List.append_nil, List.append_nil] at ran
      have short : (first ++ rest.flatten).length < request.body.length := by
        rw [remains, split, List.length_append]
        exact Nat.lt_add_of_pos_right (List.length_pos_iff.mpr lost)
      refine ⟨.Transport "http: connection closed mid-body", ?_⟩
      rw [readHttp1Message_of_head client noLength noEncoding host passed size body ran, readLength_short short]
      rfl
  · obtain ⟨_, method, target, _⟩ := of_refusal passed
    have parsed := parseRequestLine_written (no_cr_of_field method).2 (no_cr_of_field target).2 (ascii "HTTP/1.1")
    rw [List.append_assoc _ (ascii " ")] at parsed
    exact parsed

/-- A host that answers at one address. -/
def loopback : Network where
  resolves host _ := host = ascii "127.0.0.1"
  connects host _ := host = ascii "127.0.0.1"
  exchange _ := some [some (ascii "HTTP/1.1 204 No Content\r\n\r\n")]

def notes : HttpRequest where
  method := ascii "POST"
  target := ascii "/notes?draft"
  headers := ⟨[(ascii "x-note", ascii " padded\t")]⟩
  body := ascii "a: b\r\n\r\nGET /"

def notesClient : SocketHttpClient := { host := ascii "127.0.0.1", port := 80 }

/-- The bytes of a request one by one; its body looks like a head. -/
theorem request_reads_back_notes : ∃ message,
    readHttp1Message (((notesClient.wire notes).map fun byte => some [byte])) false = .ok message ∧
      parseRequestLine message.startLine = some (ascii "POST", ascii "/notes?draft") ∧
      message.headers.entries = [(ascii "host", ascii "127.0.0.1:80"), (ascii "content-length", ascii "13"),
        (ascii "connection", ascii "close"), (ascii "x-note", ascii "padded")] ∧
      message.body = notes.body := by
  have written : (notesClient.send loopback notes).1 = some (notesClient.wire notes) := by decide
  have chunking : Chunking (notesClient.wire notes) ((notesClient.wire notes).map ([·])) := by
    constructor
    · rw [← List.flatMap_def, List.flatMap_singleton']
    · simp
  obtain ⟨message, ran, _, line, fields, body⟩ := request_reads_back notesClient loopback written (by decide) (by decide)
    (by decide) (show kDefaultMaxBodyBytes < 2 ^ 64 by decide) (by decide) chunking
    (headFits_of_le (by decide) _)
  refine ⟨message, ?_, line, ?_, body⟩
  · have whole := ran []
    rw [List.append_nil, List.map_map] at whole
    exact whole
  · rw [fields]
    decide

/-- The resolver reads the host up to a zero, and the line is written from the whole of it. -/
theorem host_adds_a_field : ∃ (client : SocketHttpClient) (request : HttpRequest) (wire : Bytes),
    (client.send loopback request).1 = some wire ∧ request.headers.entries = [] ∧
      (client.wireHead request).length ≤ kMaxHeaderBytes ∧ Chunking wire [wire] ∧
      ∃ message, readHttp1Message [some wire] false = .ok message ∧
        message.headers.entries = [(ascii "host", ascii "127.0.0.1\x00"), (ascii "x-evil", ascii "1:80"),
          (ascii "content-length", ascii "0"), (ascii "connection", ascii "close")] := by
  let client : SocketHttpClient := { host := ascii "127.0.0.1\x00\r\nx-evil: 1", port := 80 }
  refine ⟨client, {}, client.wire {}, by decide, rfl, by decide, ⟨by simp, by decide⟩, ?_⟩
  exact ⟨{ startLine := ascii "GET / HTTP/1.1", headers := ⟨[(ascii "host", ascii "127.0.0.1\x00"),
    (ascii "x-evil", ascii "1:80"), (ascii "content-length", ascii "0"), (ascii "connection", ascii "close")]⟩ },
    by decide +kernel, rfl⟩

end OpalCpp.Http

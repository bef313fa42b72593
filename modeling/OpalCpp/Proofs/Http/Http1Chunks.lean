import OpalCpp.Model.Http.Http1

/-! # A message in pieces

The reader looks for the end of the head in what it has so far, and takes the body from what came with it
and from the reads that are left. What comes out depends on the bytes only, and not on the pieces they
arrive in, as long as none of them are past the end that the head declares.
-/

namespace OpalCpp.Http

open Bytes (ascii)
open LineBlock (cutAt)

/-- The pieces are those in which the bytes arrive: none is empty, and none is larger than the buffer. -/
def Chunking (bytes : Bytes) (chunks : List Bytes) : Prop :=
  chunks.flatten = bytes ∧ ∀ chunk ∈ chunks, chunk ≠ [] ∧ chunk.length ≤ 8192

/-! ## The head -/

/-- The reader looks at how much it has before each read, until the head is there. -/
def HeadFits (head : ℕ) (chunks : List Bytes) : Prop :=
  ∀ before, before <+: chunks → before.flatten.length < head → before.flatten.length ≤ kMaxHeaderBytes

theorem headFits_of_le {head : ℕ} (limit : head ≤ kMaxHeaderBytes) (chunks : List Bytes) : HeadFits head chunks :=
  fun _ _ short => (short.trans_le limit).le

theorem crlf_eq : crlf = ['\r'.toUInt8, '\n'.toUInt8] := rfl

theorem crlf_ne_nil : crlf ++ crlf ≠ [] := by decide

variable (later : Reads)

/-- The head is found in whatever pieces it arrives, and the rest of the bytes is what came with it and
what is left. -/
theorem readHead_chunks {buffer head after : Bytes} {chunks : List Bytes} (whole : ∀ chunk ∈ chunks, chunk ≠ [])
    (cut : cutAt (crlf ++ crlf) (buffer ++ chunks.flatten) = some (head, after))
    (fits : ∀ before, before <+: chunks → (buffer ++ before.flatten).length < head.length + (crlf ++ crlf).length →
      (buffer ++ before.flatten).length ≤ kMaxHeaderBytes) :
    ∃ first rest, readHead buffer (chunks.map some ++ later) = .ok (head, first, rest.map some ++ later) ∧
      first ++ rest.flatten = after ∧ rest <:+ chunks := by
  induction chunks generalizing buffer with
  | nil =>
    rw [List.flatten_nil, List.append_nil] at cut
    refine ⟨after, [], ?_, by simp, List.suffix_refl _⟩
    rw [readHead.eq_def, cut]
  | cons chunk chunks ih =>
    obtain ⟨missing, short⟩ | ⟨rest, found, same⟩ := LineBlock.cutAt_of_append crlf_ne_nil cut
    · have more := whole chunk List.mem_cons_self
      have small := fits [] List.nil_prefix
      rw [List.flatten_nil, List.append_nil] at small
      rw [List.flatten_cons, ← List.append_assoc] at cut
      have fitsLater (before : List Bytes) (starts : before <+: chunks) :=
        fits (chunk :: before) (List.cons_prefix_cons.mpr ⟨rfl, starts⟩)
      simp only [List.flatten_cons, ← List.append_assoc] at fitsLater
      obtain ⟨first, rest, ran, bytes, suffix⟩ :=
        ih (fun other member => whole other (List.mem_cons_of_mem _ member)) cut fitsLater
      refine ⟨first, rest, ?_, bytes, suffix.trans (List.suffix_cons _ _)⟩
      rw [readHead.eq_def, missing]
      simp only [List.map_cons, List.cons_append]
      rw [if_neg (not_lt.mpr (small short)), if_neg more]
      exact ran
    · refine ⟨rest, chunk :: chunks, ?_, same.symm, List.suffix_refl _⟩
      rw [readHead.eq_def, found]

/-- The error without the end of the head, by how many bytes there are. -/
def headMissing (size : ℕ) : Error :=
  if kMaxHeaderBytes < size then .Transport "http: headers too large" else .Transport "http: connection closed mid-headers"

/-- Without the end of the head the reader fails, early or late. -/
theorem readHead_of_no_cut {buffer : Bytes} {chunks : List Bytes} (whole : ∀ chunk ∈ chunks, chunk ≠ [])
    (missing : cutAt (crlf ++ crlf) (buffer ++ chunks.flatten) = none) :
    readHead buffer (chunks.map some) = .error (headMissing (buffer ++ chunks.flatten).length) := by
  induction chunks generalizing buffer with
  | nil =>
    rw [List.flatten_nil, List.append_nil] at missing ⊢
    rw [readHead.eq_def, missing, headMissing]
    simp only [List.map_nil]
    split_ifs <;> rfl
  | cons chunk chunks ih =>
    rw [readHead.eq_def]
    cases cut : cutAt (crlf ++ crlf) buffer with
    | some found =>
      rw [LineBlock.cutAt_append_right cut (chunk :: chunks).flatten crlf_ne_nil] at missing
      cases missing
    | none =>
      simp only [List.map_cons]
      rw [List.flatten_cons, ← List.append_assoc] at missing ⊢
      split_ifs with large empty
      · have most : kMaxHeaderBytes < (buffer ++ chunk ++ chunks.flatten).length := by
          rw [List.length_append, List.length_append]
          omega
        rw [headMissing, if_pos most]
      · exact absurd empty (whole chunk List.mem_cons_self)
      · exact ih (fun other member => whole other (List.mem_cons_of_mem _ member)) missing

/-! ## The lines -/

theorem parseHeaderBlock_line (headers : Headers) {block line rest : Bytes} (cut : cutAt crlf block = some (line, rest)) :
    parseHeaderBlock headers block =
      (parseHeaderLine line).bind fun field => parseHeaderBlock (headers.add field.1 field.2) rest := by
  have some_ : block ≠ [] := by
    rintro rfl
    cases cut
  rw [parseHeaderBlock, if_neg some_]
  split
  · next missing => rw [cut] at missing; cases missing
  · next other => rw [cut] at other; cases other; rfl

theorem parseHeaderBlock_last (headers : Headers) {line : Bytes} (some_ : line ≠ []) (missing : cutAt crlf line = none) :
    parseHeaderBlock headers line = (parseHeaderLine line).map fun field => headers.add field.1 field.2 := by
  rw [parseHeaderBlock, if_neg some_]
  split
  · rfl
  · next cut => rw [missing] at cut; cases cut

/-! ## The body -/

/-- A body of the length that is declared is read to its end, and nothing after it. -/
theorem readLength_chunks {body after : Bytes} {chunks : List Bytes} (whole : ∀ chunk ∈ chunks, chunk ≠ [])
    (bytes : body ++ chunks.flatten = after) : readLength after.length body (chunks.map some ++ later) = .ok after := by
  induction chunks generalizing body with
  | nil =>
    rw [List.flatten_nil, List.append_nil] at bytes
    subst bytes
    rw [readLength.eq_def, if_pos le_rfl, if_neg (not_not.mpr rfl)]
  | cons chunk chunks ih =>
    have more := whole chunk List.mem_cons_self
    have longer : body.length < after.length := by
      have some_ := List.length_pos_iff.mpr more
      rw [← bytes, List.flatten_cons, List.length_append, List.length_append]
      omega
    rw [readLength.eq_def, if_neg (not_le.mpr longer)]
    simp only [List.map_cons, List.cons_append]
    rw [if_neg more]
    exact ih (fun other member => whole other (List.mem_cons_of_mem _ member)) (by simpa using bytes)

/-- A body that ends before its length is refused. -/
theorem readLength_short {length : ℕ} {body : Bytes} {chunks : List Bytes}
    (short : (body ++ chunks.flatten).length < length) :
    readLength length body (chunks.map some) = .error (.Transport "http: connection closed mid-body") := by
  induction chunks generalizing body with
  | nil =>
    rw [List.flatten_nil, List.append_nil] at short
    rw [readLength.eq_def, if_neg (not_le.mpr short)]
    rfl
  | cons chunk chunks ih =>
    have here : body.length < length := by
      rw [List.length_append] at short
      omega
    rw [readLength.eq_def, if_neg (not_le.mpr here)]
    simp only [List.map_cons]
    split_ifs
    · rfl
    · exact ih (by simpa using short)

/-- Up to the end of the connection, the whole is compared with the limit. -/
theorem readToEnd_chunks (maxBodyBytes : ℕ) {body : Bytes} {chunks : List Bytes} (whole : ∀ chunk ∈ chunks, chunk ≠ []) :
    readToEnd maxBodyBytes body (chunks.map some) =
      if maxBodyBytes < (body ++ chunks.flatten).length then .error (bodyTooLarge maxBodyBytes)
      else .ok (body ++ chunks.flatten) := by
  induction chunks generalizing body with
  | nil =>
    rw [List.flatten_nil, List.append_nil, readToEnd.eq_def]
    rfl
  | cons chunk chunks ih =>
    rw [readToEnd.eq_def, List.flatten_cons, ← List.append_assoc]
    split_ifs with large limit
    · rfl
    · rw [List.length_append, List.length_append] at limit
      omega
    · simp only [List.map_cons]
      rw [if_neg (whole chunk List.mem_cons_self), ih (fun other member => whole other (List.mem_cons_of_mem _ member)),
        if_pos ‹_›]
    · simp only [List.map_cons]
      rw [if_neg (whole chunk List.mem_cons_self), ih (fun other member => whole other (List.mem_cons_of_mem _ member)),
        if_neg ‹_›]

/-! ## The message -/

/-- What follows the head. -/
def readAfterHead (head after : Bytes) (reads : Reads) (bodyUntilEof hasBody : Bool) (maxBodyBytes : ℕ) :
    Outcome Http1Message := do
  let (startLine, block) := (cutAt crlf head).getD (head, [])
  let headers ← parseHeaderBlock {} block
  if 1 < (headers.getAll (ascii "content-length")).length then .error (.Transport "http: conflicting content-length")
  else if headers.has (ascii "transfer-encoding") then .error (.Transport "http: transfer-encoding is not supported")
  else
    let body ← readBody headers after reads bodyUntilEof hasBody maxBodyBytes
    return { startLine, headers, body }

theorem readHttp1Message_eq (reads : Reads) (bodyUntilEof hasBody : Bool) (maxBodyBytes : ℕ) :
    readHttp1Message reads bodyUntilEof hasBody maxBodyBytes = (readHead [] reads).bind fun (head, after, reads) =>
      readAfterHead head after reads bodyUntilEof hasBody maxBodyBytes := rfl

/-- The bytes do not extend past the end that the headers frame, unless they are read to their own. -/
def EndsFramed (headers : Headers) (after : Bytes) (bodyUntilEof hasBody : Bool) : Prop :=
  hasBody = true →
    match headers.get? (ascii "content-length") with
    | some text => allDigits text = true → after.length ≤ strtoull text
    | none => bodyUntilEof = false → after = []

variable {bodyUntilEof hasBody : Bool} {maxBodyBytes : ℕ}

theorem readBody_chunks {headers : Headers} {first after : Bytes} {chunks : List Bytes}
    (whole : ∀ chunk ∈ chunks, chunk ≠ []) (bytes : first ++ chunks.flatten = after)
    (framed : EndsFramed headers after bodyUntilEof hasBody) :
    readBody headers first (chunks.map some) bodyUntilEof hasBody maxBodyBytes =
      readBody headers after [] bodyUntilEof hasBody maxBodyBytes := by
  rw [EndsFramed] at framed
  rw [readBody, readBody]
  cases hasBody with
  | false => rfl
  | true =>
    have framed := framed rfl
    cases found : headers.get? (ascii "content-length") with
    | none =>
      rw [found] at framed
      cases bodyUntilEof with
      | false =>
        rw [framed rfl, List.append_eq_nil_iff] at bytes
        rw [bytes.1, framed rfl]
        rfl
      | true =>
        simp only [Bool.not_true, Bool.false_eq_true, if_false, if_true]
        rw [readToEnd_chunks maxBodyBytes whole, bytes, readToEnd.eq_def]
    | some text =>
      rw [found] at framed
      simp only [Bool.not_true, Bool.false_eq_true, if_false]
      split_ifs with digits large
      · rfl
      · rfl
      · obtain short | exact_ := lt_or_eq_of_le (framed (by simpa using digits))
        · have here : (after ++ List.flatten []).length < strtoull text := by simpa using short
          have there : (first ++ chunks.flatten).length < strtoull text := by rwa [bytes]
          rw [readLength_short there]
          exact (readLength_short here).symm
        · have read := readLength_chunks [] whole bytes
          rw [List.append_nil] at read
          rw [← exact_, read, readLength.eq_def, if_pos le_rfl, if_neg (not_not.mpr rfl)]

theorem readAfterHead_chunks {head first after : Bytes} {chunks : List Bytes} (whole : ∀ chunk ∈ chunks, chunk ≠ [])
    (bytes : first ++ chunks.flatten = after)
    (framed : ∀ headers, parseHeaderBlock {} ((cutAt crlf head).getD (head, [])).2 = .ok headers →
      EndsFramed headers after bodyUntilEof hasBody) :
    readAfterHead head first (chunks.map some) bodyUntilEof hasBody maxBodyBytes =
      readAfterHead head after [] bodyUntilEof hasBody maxBodyBytes := by
  rw [readAfterHead, readAfterHead]
  simp only [bind, Except.bind]
  cases parsed : parseHeaderBlock {} ((cutAt crlf head).getD (head, [])).2 with
  | error error => rfl
  | ok headers =>
    have same : readBody headers first (chunks.map some) bodyUntilEof hasBody maxBodyBytes =
        readBody headers after [] bodyUntilEof hasBody maxBodyBytes :=
      readBody_chunks whole bytes (framed headers parsed)
    simp only [same]

/-- The message of bytes that are there as a whole. -/
def readWhole (bytes : Bytes) (bodyUntilEof hasBody : Bool) (maxBodyBytes : ℕ) : Outcome Http1Message :=
  match cutAt (crlf ++ crlf) bytes with
  | none => .error (headMissing bytes.length)
  | some (head, after) => readAfterHead head after [] bodyUntilEof hasBody maxBodyBytes

/-- The bytes are read as they would be as a whole. -/
theorem readHttp1Message_chunks {bytes : Bytes} {chunks : List Bytes} (chunking : Chunking bytes chunks)
    (small : ∀ head after, cutAt (crlf ++ crlf) bytes = some (head, after) →
      (head ++ crlf ++ crlf).length ≤ kMaxHeaderBytes)
    (framed : ∀ head after headers, cutAt (crlf ++ crlf) bytes = some (head, after) →
      parseHeaderBlock {} ((cutAt crlf head).getD (head, [])).2 = .ok headers →
      EndsFramed headers after bodyUntilEof hasBody) :
    readHttp1Message (chunks.map some) bodyUntilEof hasBody maxBodyBytes =
      readWhole bytes bodyUntilEof hasBody maxBodyBytes := by
  obtain ⟨rfl, pieces⟩ := chunking
  have whole (chunk : Bytes) (member : chunk ∈ chunks) : chunk ≠ [] := (pieces chunk member).1
  rw [readHttp1Message_eq, readWhole]
  cases cut : cutAt (crlf ++ crlf) chunks.flatten with
  | none =>
    have atStart : cutAt (crlf ++ crlf) ([] ++ chunks.flatten) = none := cut
    rw [readHead_of_no_cut whole atStart]
    rfl
  | some result =>
    obtain ⟨head, after⟩ := result
    have atStart : cutAt (crlf ++ crlf) ([] ++ chunks.flatten) = some (head, after) := cut
    have limit := small head after cut
    rw [List.append_assoc, List.length_append] at limit
    obtain ⟨first, rest, ran, bytes, suffix⟩ := readHead_chunks [] whole atStart fun before _ short =>
      (short.trans_le limit).le
    rw [List.append_nil, List.append_nil] at ran
    rw [ran]
    exact readAfterHead_chunks (fun chunk member => whole chunk (suffix.subset member)) bytes fun headers parsed =>
      framed head after headers cut parsed

/-- Two ways in which the same bytes arrive give the same message, or the same error. -/
theorem message_of_bytes {bytes : Bytes} (bodyUntilEof hasBody : Bool) (maxBodyBytes : ℕ)
    (small : ∀ head after, cutAt (crlf ++ crlf) bytes = some (head, after) →
      (head ++ crlf ++ crlf).length ≤ kMaxHeaderBytes)
    (framed : ∀ head after headers, cutAt (crlf ++ crlf) bytes = some (head, after) →
      parseHeaderBlock {} ((cutAt crlf head).getD (head, [])).2 = .ok headers →
      EndsFramed headers after bodyUntilEof hasBody)
    {first second : List Bytes} (one : Chunking bytes first) (other : Chunking bytes second) :
    readHttp1Message (first.map some) bodyUntilEof hasBody maxBodyBytes =
      readHttp1Message (second.map some) bodyUntilEof hasBody maxBodyBytes := by
  rw [readHttp1Message_chunks one small framed, readHttp1Message_chunks other small framed]

/-- A request byte by byte, and the same request in two pieces of which the first ends within the empty line. -/
theorem message_of_bytes_order :
    readHttp1Message ((ascii "POST /order HTTP/1.1\r\ncontent-length: 3\r\n\r\ntea").map fun byte => some [byte]) false =
      readHttp1Message ([ascii "POST /order HTTP/1.1\r\ncontent-length: 3\r\n\r", ascii "\ntea"].map some) false := by
  have single : Chunking (ascii "POST /order HTTP/1.1\r\ncontent-length: 3\r\n\r\ntea")
      ((ascii "POST /order HTTP/1.1\r\ncontent-length: 3\r\n\r\ntea").map ([·])) :=
    ⟨by decide, by simp⟩
  have pair : Chunking (ascii "POST /order HTTP/1.1\r\ncontent-length: 3\r\n\r\ntea")
      [ascii "POST /order HTTP/1.1\r\ncontent-length: 3\r\n\r", ascii "\ntea"] := ⟨by decide, by decide⟩
  have cut : cutAt (crlf ++ crlf) (ascii "POST /order HTTP/1.1\r\ncontent-length: 3\r\n\r\ntea") =
      some (ascii "POST /order HTTP/1.1\r\ncontent-length: 3", ascii "tea") := by decide
  have block : parseHeaderBlock {} ((cutAt crlf (ascii "POST /order HTTP/1.1\r\ncontent-length: 3")).getD
      (ascii "POST /order HTTP/1.1\r\ncontent-length: 3", [])).2 = .ok ⟨[(ascii "content-length", ascii "3")]⟩ := by
    decide +kernel
  have declared : Headers.get? ⟨[(ascii "content-length", ascii "3")]⟩ (ascii "content-length") = some (ascii "3") := by
    decide
  have same := message_of_bytes false true kDefaultMaxBodyBytes (fun head after found => by
    rw [cut] at found
    cases found
    decide) (fun head after headers found parsed => by
    rw [cut] at found
    cases found
    rw [block] at parsed
    cases parsed
    intro _
    rw [declared]
    decide) single pair
  rwa [List.map_map] at same

end OpalCpp.Http

import OpalCpp.Model.Http.Http1
import OpalCpp.Model.Http.Headers
import OpalCpp.Proofs.Http.Http1Chunks

/-! # The framing contract

What the reader promises of a message that it accepts, and when the promise is kept. The bytes that come
with the end of the head are the body where nothing frames one, and a framing field whose name has blanks
around it is not seen as one.
-/

namespace OpalCpp.Http

open Bytes (ascii)
open Delimited (cut)
open LineBlock (cutAt)

/-! ## The contract -/

def framesBody (name : Bytes) : Bool :=
  headerNameEquals name (ascii "content-length") || headerNameEquals name (ascii "transfer-encoding")

/-- What an accepted message is. -/
structure Contract (message : Http1Message) (bodyUntilEof hasBody : Bool) (maxBodyBytes : ℕ) : Prop where
  /-- Without a length, a request ends with its headers. -/
  ended : bodyUntilEof = false → message.headers.has (ascii "content-length") = false → message.body = []
  headless : hasBody = false → message.body = []
  capped : message.body.length ≤ maxBodyBytes
  measured : hasBody = true → ∀ text, message.headers.get? (ascii "content-length") = some text →
    Decimal.read text = some message.body.length
  single : (message.headers.getAll (ascii "content-length")).length ≤ 1
  /-- No other field frames a body, whatever blanks stand around its name. -/
  framed : ∀ field ∈ message.headers.entries, framesBody (trimSpaces field.1) = true →
    headerNameEquals field.1 (ascii "content-length") = true

/-! ## The condition -/

/-- What is before and after the end of the head when a read first completes it. -/
def arrival (buffer : Bytes) (reads : Reads) : Option (Bytes × Bytes) :=
  match cutAt (crlf ++ crlf) buffer with
  | some parts => some parts
  | none =>
    match reads with
    | some received :: reads => arrival (buffer ++ received) reads
    | _ => none
termination_by structural reads

/-- The names of the lines of a block. -/
def fieldNames (block : Bytes) : List Bytes :=
  if block = [] then []
  else
    match _cut : cutAt crlf block with
    | none => [(cut ':'.toUInt8 block).1]
    | some (line, rest) => (cut ':'.toUInt8 line).1 :: fieldNames rest
termination_by block.length
decreasing_by exact LineBlock.length_of_cutAt (by decide) _cut

/-- The name frames a body, but for the blanks around it. -/
def Disguised (name : Bytes) : Prop := framesBody name = false ∧ framesBody (trimSpaces name) = true

/-- The lines of the head below the first one. -/
def blockOf (head : Bytes) : Bytes := ((cutAt crlf head).getD (head, [])).2

/-- Nothing comes with the head of a message that nothing frames a body of, and no framing name has blanks
around it. -/
def Forthright (head after : Bytes) (bodyUntilEof hasBody : Bool) : Prop :=
  (bodyUntilEof = false → hasBody = true →
    (∀ name ∈ fieldNames (blockOf head), headerNameEquals name (ascii "content-length") = false) → after = []) ∧
  ∀ name ∈ fieldNames (blockOf head), ¬ Disguised name

/-! ## What is read -/

variable {reads rest : Reads} {head after body : Bytes}

theorem arrival_of_readHead {buffer : Bytes} (ran : readHead buffer reads = .ok (head, after, rest)) :
    arrival buffer reads = some (head, after) := by
  induction reads generalizing buffer with
  | nil =>
    rw [readHead.eq_def] at ran
    rw [arrival.eq_def]
    cases cut : cutAt (crlf ++ crlf) buffer with
    | some parts =>
      rw [cut] at ran
      cases ran
      rfl
    | none =>
      rw [cut] at ran
      simp only [] at ran
      split_ifs at ran
  | cons read reads ih =>
    rw [readHead.eq_def] at ran
    rw [arrival.eq_def]
    cases cut : cutAt (crlf ++ crlf) buffer with
    | some parts =>
      rw [cut] at ran
      cases ran
      rfl
    | none =>
      rw [cut] at ran
      cases read with
      | none =>
        simp only [] at ran
        split_ifs at ran
      | some received =>
        simp only [] at ran
        split_ifs at ran
        exact ih ran

theorem length_of_readLength {length : ℕ} {read : Bytes} (ran : readLength length body reads = .ok read) :
    read.length = length := by
  induction reads generalizing body with
  | nil =>
    rw [readLength.eq_def] at ran
    split_ifs at ran with enough differs
    cases ran
    exact not_not.mp differs
  | cons received reads ih =>
    rw [readLength.eq_def] at ran
    split_ifs at ran with enough differs
    · cases ran
      exact not_not.mp differs
    · cases received with
      | none => cases ran
      | some received =>
        simp only [] at ran
        split_ifs at ran
        exact ih ran

theorem length_of_readToEnd {maxBodyBytes : ℕ} {read : Bytes} (ran : readToEnd maxBodyBytes body reads = .ok read) :
    read.length ≤ maxBodyBytes := by
  induction reads generalizing body with
  | nil =>
    rw [readToEnd.eq_def] at ran
    split_ifs at ran with large
    cases ran
    exact not_lt.mp large
  | cons received reads ih =>
    rw [readToEnd.eq_def] at ran
    split_ifs at ran with large
    cases received with
    | none => cases ran
    | some received =>
      simp only [] at ran
      split_ifs at ran
      · cases ran
        exact not_lt.mp large
      · exact ih ran

theorem parseHeaderLine_name {line : Bytes} {field : Bytes × Bytes} (parsed : parseHeaderLine line = .ok field) :
    field.1 = (cut ':'.toUInt8 line).1 := by
  rw [parseHeaderLine] at parsed
  cases parts : cut ':'.toUInt8 line with
  | mk name value =>
    rw [parts] at parsed
    cases value with
    | none => cases parsed
    | some value =>
      cases parsed
      rfl

/-- The fields have the names of the lines. -/
theorem names_of_parseHeaderBlock {block : Bytes} {headers result : Headers}
    (parsed : parseHeaderBlock headers block = .ok result) :
    result.entries.map Prod.fst = headers.entries.map Prod.fst ++ fieldNames block := by
  induction block using fieldNames.induct generalizing headers with
  | case1 =>
    rw [parseHeaderBlock, if_pos rfl] at parsed
    cases parsed
    rw [fieldNames, if_pos rfl, List.append_nil]
  | case2 block some_ missing =>
    rw [parseHeaderBlock_last headers some_ missing] at parsed
    cases line : parseHeaderLine block with
    | error error =>
      rw [line] at parsed
      cases parsed
    | ok field =>
      rw [line] at parsed
      cases parsed
      rw [fieldNames, if_neg some_]
      split
      · simp [Headers.add, parseHeaderLine_name line]
      · next cut => rw [missing] at cut; cases cut
  | case3 block some_ first rest cut ih =>
    rw [parseHeaderBlock_line headers cut] at parsed
    cases line : parseHeaderLine first with
    | error error =>
      rw [line] at parsed
      cases parsed
    | ok field =>
      rw [line] at parsed
      have later := ih parsed
      rw [fieldNames, if_neg some_, later]
      split
      · next missing => rw [missing] at cut; cases cut
      · next other =>
        rw [cut] at other
        cases other
        simp [Headers.add, parseHeaderLine_name line]

/-- The parts of an accepted message. -/
theorem of_accepted {bodyUntilEof hasBody : Bool} {maxBodyBytes : ℕ} {message : Http1Message}
    (accepted : readHttp1Message reads bodyUntilEof hasBody maxBodyBytes = .ok message) :
    ∃ head after rest, arrival [] reads = some (head, after) ∧
      message.headers.entries.map Prod.fst = fieldNames (blockOf head) ∧
      (message.headers.getAll (ascii "content-length")).length ≤ 1 ∧
      message.headers.has (ascii "transfer-encoding") = false ∧
      readBody message.headers after rest bodyUntilEof hasBody maxBodyBytes = .ok message.body := by
  rw [readHttp1Message_eq] at accepted
  cases ran : readHead [] reads with
  | error error =>
    rw [ran] at accepted
    cases accepted
  | ok parts =>
    obtain ⟨head, after, rest⟩ := parts
    rw [ran] at accepted
    simp only [Except.bind, readAfterHead, bind] at accepted
    cases parsed : parseHeaderBlock {} (blockOf head) with
    | error error =>
      rw [blockOf] at parsed
      simp [parsed] at accepted
    | ok headers =>
      have names := names_of_parseHeaderBlock parsed
      rw [blockOf] at parsed
      simp only [parsed] at accepted
      split_ifs at accepted with conflicting encoded
      cases read : readBody headers after rest bodyUntilEof hasBody maxBodyBytes with
      | error error =>
        rw [read] at accepted
        cases accepted
      | ok body =>
        rw [read] at accepted
        cases accepted
        exact ⟨head, after, rest, arrival_of_readHead ran, names, not_lt.mp conflicting, by simpa using encoded, read⟩

section Accepted

variable {headers : Headers} {bodyUntilEof hasBody : Bool} {maxBodyBytes : ℕ}

/-- A body whose length is declared has it. -/
theorem readBody_length {text : Bytes} (declared : headers.get? (ascii "content-length") = some text)
    (read : readBody headers after rest bodyUntilEof true maxBodyBytes = .ok body) :
    body.length ≤ maxBodyBytes ∧ body.length = strtoull text ∧ allDigits text = true := by
  rw [readBody, declared] at read
  simp only [Bool.not_true, Bool.false_eq_true, if_false] at read
  split_ifs at read with digits large
  have length := length_of_readLength read
  refine ⟨?_, length, by simpa using digits⟩
  rw [length]
  exact not_lt.mp large

theorem readBody_free (undeclared : headers.get? (ascii "content-length") = none)
    (read : readBody headers after rest bodyUntilEof true maxBodyBytes = .ok body) :
    if bodyUntilEof then body.length ≤ maxBodyBytes else body = after := by
  rw [readBody, undeclared] at read
  simp only [Bool.not_true, Bool.false_eq_true, if_false] at read
  cases bodyUntilEof with
  | false =>
    cases read
    rfl
  | true => exact length_of_readToEnd read

theorem decimal_of_strtoull {text : Bytes} {length : ℕ} (digits : allDigits text = true) (same : length = strtoull text)
    (size : length < 2 ^ 64 - 1) : Decimal.read text = some length := by
  rw [allDigits, Bool.and_eq_true, List.all_eq_true] at digits
  obtain ⟨number, read⟩ := Decimal.exists_read digits.2
  rw [strtoull, read, Option.getD_some] at same
  rw [read, same, min_eq_left (by omega)]

end Accepted

/-- An accepted message is what the contract says exactly when nothing comes unframed with its head and no
framing field is disguised by blanks; a string is shorter than the largest number of its size. -/
theorem framing_contract_iff {reads : Reads} {bodyUntilEof hasBody : Bool} {maxBodyBytes : ℕ} {message : Http1Message}
    (accepted : readHttp1Message reads bodyUntilEof hasBody maxBodyBytes = .ok message)
    (size : message.body.length < 2 ^ 64 - 1) :
    Contract message bodyUntilEof hasBody maxBodyBytes ↔
      ∀ head after, arrival [] reads = some (head, after) → Forthright head after bodyUntilEof hasBody := by
  obtain ⟨head, after, rest, arrived, names, single, plain, read⟩ := of_accepted accepted
  have undeclared : message.headers.has (ascii "content-length") = false ↔
      ∀ name ∈ fieldNames (blockOf head), headerNameEquals name (ascii "content-length") = false := by
    rw [has_eq_false, ← names, List.forall_mem_map]
  constructor
  · intro contract _ _ same
    rw [arrived] at same
    cases same
    constructor
    · rintro rfl rfl none_
      have ended := contract.ended rfl (undeclared.mpr none_)
      have missing : message.headers.get? (ascii "content-length") = none := by
        simpa [Headers.has] using undeclared.mpr none_
      have free := readBody_free missing read
      rw [if_neg (by decide)] at free
      rw [← free, ended]
    · rintro name member ⟨seen, frames⟩
      rw [← names, List.mem_map] at member
      obtain ⟨field, inside, rfl⟩ := member
      have exact_ := contract.framed field inside frames
      rw [framesBody, exact_] at seen
      cases seen
  · intro forthright
    obtain ⟨unframed, undisguised⟩ := forthright head after arrived
    have framed : ∀ field ∈ message.headers.entries, framesBody (trimSpaces field.1) = true →
        headerNameEquals field.1 (ascii "content-length") = true := by
      intro field inside frames
      have seen : framesBody field.1 = true := by
        by_contra hidden
        rw [Bool.not_eq_true] at hidden
        exact undisguised field.1 (names ▸ List.mem_map_of_mem inside) ⟨hidden, frames⟩
      rw [framesBody, has_eq_false.mp plain field inside, Bool.or_false] at seen
      exact seen
    cases hasBody with
    | false =>
      rw [readBody] at read
      have empty : message.body = [] := (Except.ok.inj read).symm
      have small : message.body.length ≤ maxBodyBytes := by
        rw [empty]
        exact Nat.zero_le _
      exact ⟨fun _ _ => empty, fun _ => empty, small, fun open_ => absurd open_ Bool.false_ne_true, single, framed⟩
    | true =>
      have unbodied : true = false → message.body = [] := fun closed => absurd closed.symm Bool.false_ne_true
      cases declared : message.headers.get? (ascii "content-length") with
      | some text =>
        obtain ⟨small, length, digits⟩ := readBody_length declared read
        refine ⟨?_, unbodied, small, ?_, single, framed⟩
        · intro _ none_
          rw [Headers.has, declared] at none_
          cases none_
        · intro _ other same
          rw [declared] at same
          cases same
          exact decimal_of_strtoull digits length size
      | none =>
        have none_ : message.headers.has (ascii "content-length") = false := by
          rw [Headers.has, declared, Option.isSome_none]
        have free := readBody_free declared read
        have unread : true = true → ∀ text, message.headers.get? (ascii "content-length") = some text →
            Decimal.read text = some message.body.length := by
          intro _ text same
          rw [declared] at same
          cases same
        cases bodyUntilEof with
        | true => exact ⟨fun open_ _ => absurd open_.symm Bool.false_ne_true, unbodied, free, unread, single, framed⟩
        | false =>
          have empty : message.body = [] := Eq.trans free (unframed rfl rfl (undeclared.mp none_))
          have small : message.body.length ≤ maxBodyBytes := by
            rw [empty]
            exact Nat.zero_le _
          exact ⟨fun _ _ => empty, unbodied, small, unread, single, framed⟩

/-- A request with a length, of which the body comes with the head. -/
theorem framing_contract_iff_order :
    Contract
        { startLine := ascii "POST / HTTP/1.1", headers := ⟨[(ascii "content-length", ascii "3")]⟩, body := ascii "tea" }
        false true kDefaultMaxBodyBytes ↔
      ∀ head after, arrival [] [some (ascii "POST / HTTP/1.1\r\ncontent-length: 3\r\n\r\ntea")] = some (head, after) →
        Forthright head after false true :=
  framing_contract_iff (by decide +kernel) (by decide)

/-- Bytes after the head of a request without a length are its body, and a transfer coding with a blank
after its name is not refused. -/
theorem framing_contract_broken :
    readHttp1Message [some (ascii "POST / HTTP/1.1\r\nhost: a\r\n\r\nGET /")] false =
        .ok { startLine := ascii "POST / HTTP/1.1", headers := ⟨[(ascii "host", ascii "a")]⟩, body := ascii "GET /" } ∧
      readHttp1Message [some (ascii "POST / HTTP/1.1\r\nTransfer-Encoding : chunked\r\n\r\n")] false =
        .ok { startLine := ascii "POST / HTTP/1.1", headers := ⟨[(ascii "Transfer-Encoding ", ascii "chunked")]⟩ } ∧
      ¬ Contract { startLine := ascii "POST / HTTP/1.1", headers := ⟨[(ascii "host", ascii "a")]⟩, body := ascii "GET /" }
        false true kDefaultMaxBodyBytes ∧
      ¬ Contract { startLine := ascii "POST / HTTP/1.1", headers := ⟨[(ascii "Transfer-Encoding ", ascii "chunked")]⟩ }
        false true kDefaultMaxBodyBytes := by
  refine ⟨by decide +kernel, by decide +kernel, ?_, ?_⟩
  · intro contract
    have ended := contract.ended rfl (by decide)
    revert ended
    decide
  · intro contract
    have seen := contract.framed _ List.mem_cons_self (by decide)
    revert seen
    decide

end OpalCpp.Http

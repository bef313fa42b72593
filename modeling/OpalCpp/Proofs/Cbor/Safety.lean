import OpalCpp.Model.Cbor.Decoder
import OpalCpp.Proofs.Cbor.Canonical

/-! # What the CBOR decoder does to its input

On machine words the decoder does what it does on numbers: no sum wraps and no difference underflows.
Every access stays inside the input, and every iteration of a loop takes some of it, so that no loop
runs out of fuel.
-/

namespace OpalCpp.Cbor.Decoder

/-- The access is one that the input allows. -/
def Access.Safe (size : ℕ) : Access → Prop
  | .byte index => index.toNat < size
  | .block first count => first.toNat + count.toNat ≤ size
  | .position pos => pos.toNat ≤ size
  | .remaining pos => pos.toNat ≤ size
  | .iteration first last => first < last
  | .value levels => levels ≤ kMaxDepth
  | .exhausted => False

/-- `pos_` is this position of the input. -/
structure Standing (data : Bytes) (pos : UInt64) (position : ℕ) : Prop where
  here : pos.toNat = position
  inside : position ≤ data.length

/-- With safe accesses only, the run does what the decoder on numbers does. -/
def Steps {α : Type} (data : Bytes) (run : Run α) (pos : UInt64) (outcome : Outcome (α × ℕ)) : Prop :=
  Audited.Realizes (Access.Safe data.length) (Standing data) run pos outcome

variable {data : Bytes} (small : data.length < 2 ^ 63) {pos : UInt64} {position : ℕ}

include small

theorem toNat_size : (size data).toNat = data.length := by
  rw [size, UInt64.toNat_ofNat']
  omega

section Standing

variable (standing : Standing data pos position)

include standing

/-- A step forward inside the input does not wrap. -/
theorem Standing.add {count : UInt64} (inside : position + count.toNat ≤ data.length) :
    Standing data (pos + count) (position + count.toNat) := by
  refine ⟨?_, inside⟩
  rw [UInt64.toNat_add, standing.here]
  omega

/-- What remains does not underflow. -/
theorem Standing.remaining : (size data - pos).toNat = data.length - position := by
  have inside := standing.inside
  have le : pos ≤ size data := by
    rw [UInt64.le_iff_toNat_le, toNat_size small, standing.here]
    exact inside
  rw [UInt64.toNat_sub_of_le _ _ le, toNat_size small, standing.here]

theorem Standing.size_le : size data ≤ pos ↔ data.length ≤ position := by
  rw [UInt64.le_iff_toNat_le, toNat_size small, standing.here]

end Standing

/-! ## Bytes -/

variable {world : UInt64} {α : Type} {outcome : Outcome (α × ℕ)}

theorem steps_setPos (standing : Standing data pos position) {count : UInt64}
    (inside : position + count.toNat ≤ data.length) :
    Steps data (setPos (pos + count)) world (.ok (⟨⟩, position + count.toNat)) := by
  have after := standing.add small inside
  apply Audited.Realizes.note_bind
  · rw [Access.Safe, after.here]
    exact inside
  · exact ⟨_, _, _, rfl, List.forall_mem_nil _, .reached after⟩

/-- A new position, and what follows it. -/
theorem Standing.setPos_bind (standing : Standing data pos position) {count : UInt64}
    (inside : position + count.toNat ≤ data.length) {next : PUnit → Run α}
    (steps : ∀ there, Standing data there (position + count.toNat) → Steps data (next ⟨⟩) there outcome) :
    Steps data (setPos (pos + count) >>= next) world outcome := by
  apply Audited.Realizes.then_ (steps_setPos small standing inside)
  · rintro failure ⟨⟩
  · rintro _ _ there ⟨⟩ after
    exact steps there after

theorem Standing.step_bind (standing : Standing data pos position) (inside : position < data.length)
    {next : PUnit → Run α} (steps : ∀ there, Standing data there (position + 1) → Steps data (next ⟨⟩) there outcome) :
    Steps data (setPos (pos + 1) >>= next) world outcome := by
  have one : UInt64.toNat 1 = 1 := rfl
  apply standing.setPos_bind small
  · rwa [one]
  · rwa [one]

omit small in
/-- The byte at the position, when there is one. -/
theorem Standing.byteAt_bind (standing : Standing data pos position) {byte : UInt8}
    (present : data[position]? = some byte) {next : UInt8 → Run α}
    (steps : ∀ there, Standing data there position → Steps data (next byte) there outcome) :
    Steps data (byteAt data pos >>= next) pos outcome := by
  obtain ⟨bound, _⟩ := List.getElem?_eq_some_iff.mp present
  have read : data.getD pos.toNat 0 = byte := by
    rw [standing.here, List.getD_eq_getElem?_getD, present]
    rfl
  have noted : Steps data (byteAt data pos) pos (.ok (byte, position)) := by
    apply Audited.Realizes.note_bind
    · rw [Access.Safe, standing.here]
      exact bound
    · rw [read]
      exact Audited.realizes_pure standing
  apply Audited.Realizes.then_ noted
  · rintro failure ⟨⟩
  · rintro _ _ there ⟨⟩ after
    exact steps there after

theorem Standing.take_bind (standing : Standing data pos position) {next : Option UInt8 → Run α}
    (ended : Cbor.take data position = none → ∀ there, Standing data there position → Steps data (next none) there outcome)
    (taken : ∀ byte, Cbor.take data position = some (byte, position + 1) → ∀ there, Standing data there (position + 1) →
      Steps data (next (some byte)) there outcome) :
    Steps data (take data >>= next) pos outcome := by
  cases present : data[position]? with
  | none =>
    have past : size data ≤ pos := (standing.size_le small).mpr (List.getElem?_eq_none_iff.mp present)
    have steps : Steps data (take data) pos (.ok (none, position)) := by
      apply Audited.Realizes.look_bind
      rw [if_pos past]
      exact Audited.realizes_pure standing
    apply Audited.Realizes.then_ steps
    · rintro failure ⟨⟩
    · rintro _ _ there ⟨⟩ after
      apply ended _ there after
      rw [Cbor.take, present]
      rfl
  | some byte =>
    obtain ⟨inside, _⟩ := List.getElem?_eq_some_iff.mp present
    have going : ¬ size data ≤ pos := by
      rw [standing.size_le small]
      exact Nat.not_le.mpr inside
    have steps : Steps data (take data) pos (.ok (some byte, position + 1)) := by
      apply Audited.Realizes.look_bind
      rw [if_neg going]
      apply standing.byteAt_bind present
      intro _ _
      apply standing.step_bind small inside
      intro there after
      exact Audited.realizes_pure after
    apply Audited.Realizes.then_ steps
    · rintro failure ⟨⟩
    · rintro _ _ there ⟨⟩ after
      apply taken byte _ there after
      rw [Cbor.take, present]
      rfl

/-- The loop over the bytes of a number, as many as there are. -/
theorem steps_takeBytes (standing : Standing data pos position) (bytes : ℕ) (inside : position + bytes ≤ data.length)
    (value : UInt64) : Steps data (takeBytes data bytes value) pos
      (.ok ((data.substr position bytes).foldl (fun value byte => (value <<< 8) ||| byte.toUInt64) value,
        position + bytes)) := by
  induction bytes generalizing pos position value with
  | zero => exact Audited.realizes_pure standing
  | succ bytes ih =>
    have bound : position < data.length := by omega
    have first : data.substr position (bytes + 1) = data[position] :: data.substr (position + 1) bytes := by
      rw [Bytes.substr, List.drop_eq_getElem_cons bound, List.take_succ_cons, Bytes.substr]
    apply Audited.Realizes.look_bind
    apply standing.byteAt_bind (List.getElem?_eq_getElem bound)
    intro _ _
    apply standing.step_bind small bound
    intro there after
    rw [first, List.foldl_cons, ← Nat.add_assoc, Nat.add_right_comm]
    exact ih after (by omega) _

theorem Standing.takeBigEndian_bind (standing : Standing data pos position) {width : ℕ} (narrow : width ≤ 8)
    {next : Option UInt64 → Run α}
    (short : Cbor.takeBigEndian data width position = none → ∀ there, Standing data there position →
      Steps data (next none) there outcome)
    (taken : ∀ value, Cbor.takeBigEndian data width position = some (value, position + width) →
      ∀ there, Standing data there (position + width) → Steps data (next (some value)) there outcome) :
    Steps data (takeBigEndian data width >>= next) pos outcome := by
  have width_ : (UInt64.ofNat width).toNat = width := by
    rw [UInt64.toNat_ofNat']
    omega
  -- The sum does not wrap.
  have sum : size data < pos + UInt64.ofNat width ↔ data.length < position + width := by
    have inside := standing.inside
    rw [UInt64.lt_iff_toNat_lt, toNat_size small, UInt64.toNat_add, standing.here, width_]
    omega
  rcases Nat.lt_or_ge data.length (position + width) with missing | inside
  · have steps : Steps data (takeBigEndian data width) pos (.ok (none, position)) := by
      apply Audited.Realizes.look_bind
      rw [if_pos (sum.mpr missing)]
      exact Audited.realizes_pure standing
    apply Audited.Realizes.then_ steps
    · rintro failure ⟨⟩
    · rintro _ _ there ⟨⟩ after
      apply short _ there after
      rw [Cbor.takeBigEndian, if_pos missing]
  · have steps : Steps data (takeBigEndian data width) pos
        (.ok (some (readBigEndian (data.substr position width)), position + width)) := by
      apply Audited.Realizes.look_bind
      rw [if_neg (by rw [sum]; exact Nat.not_lt.mpr inside)]
      apply Audited.Realizes.then_ (steps_takeBytes small standing width inside 0)
      · rintro failure ⟨⟩
      · rintro _ _ there ⟨⟩ after
        exact Audited.realizes_pure after
    apply Audited.Realizes.then_ steps
    · rintro failure ⟨⟩
    · rintro _ _ there ⟨⟩ after
      apply taken _ _ there after
      rw [Cbor.takeBigEndian, if_neg (Nat.not_lt.mpr inside)]

theorem steps_readArgument (standing : Standing data pos position) (info : UInt8) :
    Steps data (readArgument data info) pos (Cbor.readArgument data info position) := by
  rw [readArgument, Cbor.readArgument]
  split_ifs with tiny wide
  · exact Audited.realizes_pure standing
  · have width : 1 <<< (info.toNat - 24) ≤ 8 := by
      obtain rfl | rfl | rfl | rfl := wide <;> decide
    apply standing.takeBigEndian_bind small width
    · intro short there after
      rw [short]
      exact Audited.realizes_throw
    · intro value taken there after
      rw [taken]
      exact Audited.realizes_pure after
  · exact Audited.realizes_pure standing
  · exact Audited.realizes_throw

/-! ## Strings -/

theorem steps_takeText (standing : Standing data pos position) (truncated : String) (length : UInt64) :
    Steps data (takeText data truncated length) pos
      (if data.length - position < length.toNat then Cbor.fail truncated
        else .ok (data.substr position length.toNat, position + length.toNat)) := by
  have left : size data - pos < length ↔ data.length - position < length.toNat := by
    rw [UInt64.lt_iff_toNat_lt, standing.remaining small]
  have inside := standing.inside
  apply Audited.Realizes.look_bind
  apply Audited.Realizes.note_bind
  · rw [Access.Safe, standing.here]
    exact inside
  · split_ifs with long short short
    · exact Audited.realizes_throw
    · exact (short (left.mp long)).elim
    · exact (long (left.mpr short)).elim
    · apply Audited.Realizes.note_bind
      · rw [Access.Safe, standing.here]
        omega
      · apply standing.setPos_bind small (by omega)
        intro there after
        rw [standing.here]
        exact Audited.realizes_pure after

omit small in
/-- An iteration that came to a later position. -/
theorem Standing.later (standing : Standing data pos position) {there : UInt64} {next : ℕ}
    (after : Standing data there next) (forward : position < next) :
    Access.Safe data.length (.iteration pos there) := by
  rw [Access.Safe, UInt64.lt_iff_toNat_lt, standing.here, after.here]
  exact forward

/-- With more fuel than there are bytes, the chunks are read as far as they go. -/
theorem steps_decodeChunks (standing : Standing data pos position) {major : Major} {fuel : ℕ} {out : Bytes}
    (enough : data.length - position < fuel) :
    Steps data (decodeChunks data major fuel out) pos (Cbor.decodeChunks data major fuel out position) := by
  induction fuel generalizing pos position out with
  | zero => exact (Nat.not_lt_zero _ enough).elim
  | succ fuel ih =>
    rw [decodeChunks, Cbor.decodeChunks]
    apply Audited.Realizes.look_bind
    apply standing.take_bind small
    · intro ended there after
      rw [ended]
      exact Audited.realizes_throw
    · intro initial taken there after
      rw [taken]
      dsimp only
      split_ifs with last mixed
      · apply Audited.Realizes.look_bind
        apply Audited.Realizes.note_bind (standing.later after (Nat.lt_succ_self position))
        exact Audited.realizes_pure after
      · exact Audited.realizes_throw
      · apply Audited.Realizes.bind (steps_readArgument small after (initial &&& 0x1F))
        rintro ⟨length, indefinite⟩ second there argument after
        obtain ⟨later, within⟩ := readArgument_eq_ok (take_eq_some taken).2 argument
        dsimp only
        have chunk := steps_takeText small after "truncated string chunk" length
        split_ifs with nested long
        · exact Audited.realizes_throw
        · rw [if_pos long] at chunk
          apply Audited.Realizes.then_ chunk
          · rintro failure ⟨⟩
            rfl
          · rintro _ _ _ ⟨⟩ _
        · rw [if_neg long] at chunk
          apply Audited.Realizes.then_ chunk
          · rintro failure ⟨⟩
          · rintro _ _ there ⟨⟩ after
            apply Audited.Realizes.look_bind
            apply Audited.Realizes.note_bind (standing.later after (by omega))
            exact ih after (by omega)

theorem steps_decodeChunkedString (standing : Standing data pos position) (major : Major) (indefinite : Bool)
    (length : UInt64) : Steps data (decodeChunkedString data major indefinite length) pos
      (Cbor.decodeChunkedString data major indefinite length position) := by
  rw [decodeChunkedString, Cbor.decodeChunkedString]
  apply Audited.Realizes.look_bind
  split_ifs with chunked long
  · rw [standing.here]
    exact steps_decodeChunks small standing (Nat.lt_succ_self _)
  · have text := steps_takeText small standing "truncated string" length
    rwa [if_pos long] at text
  · have text := steps_takeText small standing "truncated string" length
    rwa [if_neg long] at text

/-! ## Elements -/

/-- The break byte is looked for where there is a byte. -/
theorem Standing.atBreak_bind (standing : Standing data pos position) {indefinite : Bool} {next : Bool → Run α}
    (steps : ∀ there, Standing data there position →
      Steps data (next (indefinite && data[position]? = some kBreak)) there outcome) :
    Steps data (atBreak data indefinite >>= next) pos outcome := by
  have looked : Steps data (atBreak data indefinite) pos
      (.ok (indefinite && data[position]? = some kBreak, position)) := by
    apply Audited.Realizes.look_bind
    have inside : pos < size data ↔ position < data.length := by
      rw [UInt64.lt_iff_toNat_lt, toNat_size small, standing.here]
    split_ifs with open_
    · rw [Bool.and_eq_true, decide_eq_true_iff] at open_
      obtain ⟨indefinite, bound⟩ := open_
      have present := List.getElem?_eq_getElem (inside.mp bound)
      apply standing.byteAt_bind present
      intro there after
      rw [present, indefinite]
      simp only [Bool.true_and, Option.some.injEq]
      exact Audited.realizes_pure after
    · have absent : (indefinite && decide (data[position]? = some kBreak)) = false := by
        rw [Bool.and_eq_false_iff, decide_eq_false_iff_not]
        rw [Bool.and_eq_true, decide_eq_true_iff, inside, not_and] at open_
        rcases Bool.eq_false_or_eq_true indefinite with unbounded | bounded
        · right
          rw [List.getElem?_eq_none (Nat.not_lt.mp (open_ unbounded))]
          exact Option.some_ne_none _ ∘ Eq.symm
        · exact .inl bounded
      rw [absent]
      exact Audited.realizes_pure standing
  apply Audited.Realizes.then_ looked
  · rintro failure ⟨⟩
  · rintro _ _ there ⟨⟩ after
    exact steps there after

/-- A decoder of values on words against one on numbers, which comes to a later position. -/
structure Decodes (data : Bytes) (run : Run Document) (decode : ℕ → Outcome (Document × ℕ)) : Prop where
  steps : ∀ pos position, Standing data pos position → Steps data run pos (decode position)
  forward : ∀ position document next, position ≤ data.length → decode position = .ok (document, next) →
    position < next ∧ next ≤ data.length

variable {run : Run Document} {decode : ℕ → Outcome (Document × ℕ)} {indefinite : Bool} {length i : UInt64} {fuel : ℕ}

omit small in
/-- Where an array or a map breaks off, there is a byte. -/
theorem bound_of_break (broken : (indefinite && decide (data[position]? = some kBreak)) = true) :
    position < data.length := by
  rw [Bool.and_eq_true, decide_eq_true_iff] at broken
  exact (List.getElem?_eq_some_iff.mp broken.2).1

/-- The break byte ends the loop one position on. -/
theorem Standing.break_bind (standing : Standing data pos position) (bound : position < data.length)
    {value : α} : Steps data (do
      setPos (pos + 1)
      Audited.note (.iteration pos (pos + 1))
      return value) world (.ok (value, position + 1)) := by
  have one : UInt64.toNat 1 = 1 := rfl
  have after := standing.add small (by rwa [one])
  apply standing.step_bind small bound
  intro there ended
  apply Audited.Realizes.note_bind (standing.later after (by omega))
  exact Audited.realizes_pure ended

theorem Decodes.items (decodes : Decodes data run decode) {list : List Document} (standing : Standing data pos position)
    (enough : data.length - position < fuel) :
    Steps data (decodeItems data run indefinite length fuel i list) pos
      (Cbor.decodeItems data decode indefinite length fuel i list position) := by
  induction fuel generalizing pos position i list with
  | zero => exact (Nat.not_lt_zero _ enough).elim
  | succ fuel ih =>
    rw [decodeItems, Cbor.decodeItems]
    split_ifs with going broken
    · apply Audited.Realizes.look_bind
      apply standing.atBreak_bind small
      intro there _
      rw [if_pos broken]
      exact standing.break_bind small (bound_of_break broken)
    · apply Audited.Realizes.look_bind
      apply standing.atBreak_bind small
      intro there here
      rw [if_neg broken]
      apply Audited.Realizes.bind (decodes.steps there position here)
      intro item next there found after
      obtain ⟨forward, within⟩ := decodes.forward _ _ _ standing.inside found
      apply Audited.Realizes.look_bind
      apply Audited.Realizes.note_bind (standing.later after forward)
      exact ih after (by omega)
    · exact Audited.realizes_pure standing

theorem Decodes.members (decodes : Decodes data run decode) {map : DocumentMap} (standing : Standing data pos position)
    (enough : data.length - position < fuel) :
    Steps data (decodeMembers data run indefinite length fuel i map) pos
      (Cbor.decodeMembers data decode indefinite length fuel i map position) := by
  induction fuel generalizing pos position i map with
  | zero => exact (Nat.not_lt_zero _ enough).elim
  | succ fuel ih =>
    rw [decodeMembers, Cbor.decodeMembers]
    split_ifs with going broken
    · apply Audited.Realizes.look_bind
      apply standing.atBreak_bind small
      intro there _
      rw [if_pos broken]
      exact standing.break_bind small (bound_of_break broken)
    · apply Audited.Realizes.look_bind
      apply standing.atBreak_bind small
      intro there here
      rw [if_neg broken]
      apply Audited.Realizes.bind (decodes.steps there position here)
      intro key middle there named after
      obtain ⟨forward, within⟩ := decodes.forward _ _ _ standing.inside named
      cases key with
      | string key =>
        apply Audited.Realizes.bind (decodes.steps there middle after)
        intro value next there found after
        obtain ⟨onward, beyond⟩ := decodes.forward _ _ _ within found
        apply Audited.Realizes.look_bind
        apply Audited.Realizes.note_bind (standing.later after (by omega))
        exact ih after (by omega)
      | _ => exact Audited.realizes_throw
    · exact Audited.realizes_pure standing

/-! ## Values -/

theorem steps_decodeSimple (standing : Standing data pos position) (info : UInt8) :
    Steps data (decodeSimple data info) pos (Cbor.decodeSimple data info position) := by
  rw [decodeSimple, Cbor.decodeSimple]
  split_ifs with no yes nothing wide half single
  · exact Audited.realizes_pure standing
  · exact Audited.realizes_pure standing
  · exact Audited.realizes_pure standing
  · rw [half]
    apply standing.takeBigEndian_bind small (by decide)
    · intro short there after
      rw [short]
      exact Audited.realizes_throw
    · intro value taken there after
      rw [taken]
      exact Audited.realizes_pure after
  · rw [single]
    apply standing.takeBigEndian_bind small (by decide)
    · intro short there after
      rw [short]
      exact Audited.realizes_throw
    · intro value taken there after
      rw [taken]
      exact Audited.realizes_pure after
  · obtain rfl : info = 27 := (wide.resolve_left half).resolve_left single
    apply standing.takeBigEndian_bind small (by decide)
    · intro short there after
      rw [short]
      exact Audited.realizes_throw
    · intro value taken there after
      rw [taken]
      exact Audited.realizes_pure after
  · exact Audited.realizes_throw

theorem steps_decodeInteger (standing : Standing data pos position) (info : UInt8) (make : Int64 → Int64) :
    Steps data (decodeInteger data info make) pos (Cbor.decodeInteger data info position make) := by
  apply Audited.Realizes.bind (steps_readArgument small standing info)
  rintro ⟨value, indefinite⟩ next there _ after
  dsimp only
  split_ifs
  · exact Audited.realizes_throw
  · exact Audited.realizes_throw
  · exact Audited.realizes_pure after

/-- A value, inside as many others as leave it this depth. -/
theorem decodes_decodeValue (depth levels : ℕ) (limit : levels + depth ≤ kMaxDepth) :
    Decodes data (decodeValue data depth levels) (Cbor.decodeValue data depth) := by
  induction depth generalizing levels with
  | zero =>
    refine ⟨?_, ?_⟩
    · intro pos position standing
      exact Audited.realizes_throw
    · rintro position document next inside ⟨⟩
  | succ depth ih =>
    have inner := ih (levels + 1) (by omega)
    refine ⟨?_, ?_⟩
    · intro pos position standing
      rw [decodeValue, Cbor.decodeValue]
      have open_ : Access.Safe data.length (.value (levels + 1)) := by
        rw [Access.Safe]
        omega
      apply Audited.Realizes.note_bind open_
      apply standing.take_bind small
      · intro ended there after
        rw [ended]
        exact Audited.realizes_throw
      · intro initial taken there after
        rw [taken]
        dsimp only
        cases Major.ofCode (initial >>> 5) with
        | unsigned | negative => exact steps_decodeInteger small after _ _
        | bytes | text =>
          apply Audited.Realizes.bind (steps_readArgument small after _)
          rintro ⟨length, indefinite⟩ next there _ after
          apply Audited.Realizes.bind (steps_decodeChunkedString small after _ indefinite length)
          intro text last there _ after
          exact Audited.realizes_pure after
        | array =>
          apply Audited.Realizes.bind (steps_readArgument small after _)
          rintro ⟨length, indefinite⟩ next there _ after
          apply Audited.Realizes.look_bind
          rw [after.here]
          apply Audited.Realizes.bind (inner.items small after (Nat.lt_succ_self _))
          intro list last there _ after
          exact Audited.realizes_pure after
        | map =>
          apply Audited.Realizes.bind (steps_readArgument small after _)
          rintro ⟨length, indefinite⟩ next there _ after
          apply Audited.Realizes.look_bind
          rw [after.here]
          apply Audited.Realizes.bind (inner.members small after (Nat.lt_succ_self _))
          intro map last there _ after
          exact Audited.realizes_pure after
        | tag =>
          apply Audited.Realizes.bind (steps_readArgument small after _)
          rintro ⟨tag, indefinite⟩ next there _ after
          dsimp only
          split_ifs
          · exact Audited.realizes_throw
          · apply Audited.Realizes.bind (inner.steps there next after)
            intro content last there _ after
            exact Audited.realizes_lift after
        | simple => exact steps_decodeSimple small after _
    · intro position document next inside found
      obtain ⟨forward, within, _⟩ := reads_decodeValue small (depth + 1) position document next inside found
      exact ⟨forward, within⟩

omit small in
/-- On every input that fits in memory, the decoder on words makes safe accesses only, none of its loops
runs out of fuel, its result is that of the decoder on numbers, and after a success it stands at the end. -/
theorem decodeDocument_safe (small : data.length < 2 ^ 63) :
    ∃ result last accesses, Traced.Runs (decodeDocument data).run 0 result last accesses ∧
      (∀ access ∈ accesses, Access.Safe data.length access) ∧ result = Cbor.decode data ∧
      ∀ document, result = .ok document → last.toNat = data.length := by
  have start : Standing data 0 0 := ⟨rfl, Nat.zero_le _⟩
  have decodes := decodes_decodeValue small kMaxDepth 0 (Nat.zero_add _).le
  have steps : Steps data (decodeDocument data) 0 ((Cbor.decodeValue data kMaxDepth 0).bind fun found =>
      if found.2 ≠ data.length then Cbor.fail "trailing bytes after value" else .ok found) := by
    apply Audited.Realizes.bind (decodes.steps 0 0 start)
    intro document next last _ after
    apply Audited.Realizes.look_bind
    have ended : last ≠ size data ↔ next ≠ data.length := by
      rw [ne_eq, ne_eq, ← UInt64.toNat_inj, toNat_size small, after.here]
    dsimp only
    split_ifs with short rest rest
    · exact Audited.realizes_throw
    · exact (rest (ended.mp short)).elim
    · exact (short (ended.mpr rest)).elim
    · exact Audited.realizes_pure after
  obtain ⟨result, last, accesses, ran, safe, agrees⟩ := steps
  refine ⟨result, last, accesses, ran, safe, ?_⟩
  rw [Cbor.decode]
  cases found : Cbor.decodeValue data kMaxDepth 0 with
  | error error =>
    rw [found] at agrees
    cases agrees
    refine ⟨rfl, ?_⟩
    rintro document ⟨⟩
  | ok value =>
    obtain ⟨document, next⟩ := value
    rw [found] at agrees
    change Audited.Agrees (Standing data) result last (if next ≠ data.length then Cbor.fail _ else .ok (document, next))
      at agrees
    change result = (if next ≠ data.length then Cbor.fail _ else .ok document) ∧ _
    split_ifs at agrees ⊢ with short
    · cases agrees
      refine ⟨rfl, ?_⟩
      rintro document ⟨⟩
    · cases agrees with
      | reached standing =>
        refine ⟨rfl, ?_⟩
        rintro document ⟨⟩
        rw [standing.here, of_not_not short]

omit small in
/-- A string of the greatest length there is, in an array without a length that never ends. -/
theorem decodeDocument_safe_hostile :
    ∃ result last accesses,
      Traced.Runs (decodeDocument [0x9F, 0x7B, 0xFF, 0xFF, 0xFF, 0xFF, 0xFF, 0xFF, 0xFF, 0xFF, 0x61]).run 0
        result last accesses ∧
      (∀ access ∈ accesses, Access.Safe 11 access) ∧
      result = Cbor.decode [0x9F, 0x7B, 0xFF, 0xFF, 0xFF, 0xFF, 0xFF, 0xFF, 0xFF, 0xFF, 0x61] ∧
      ∀ document, result = .ok document → last.toNat = 11 :=
  decodeDocument_safe (by decide)

end OpalCpp.Cbor.Decoder

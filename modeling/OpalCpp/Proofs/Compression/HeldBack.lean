import OpalCpp.Machine.Incremental
import OpalCpp.Model.Compression.Gzip

/-! # Codecs that hold their output back

The documented behaviour can be had of any format whose streams are recognised as they come in: a codec keeps what it
is given, and writes when the end is there.
-/

namespace OpalCpp.Compression

variable {given got input : List UInt8} {room : ℕ} {state : List UInt8 × List UInt8} {total : Option (List UInt8)}

/-! ## Compression -/

/-- All output is written once the stream is to be finished. The state is what was given and what was written. -/
def holdingDeflate (deflated : List UInt8 → List UInt8) : Codec (List UInt8 × List UInt8) where
  init2 := some ([], [])
  call state flush input room :=
    let given := state.1 ++ input
    match flush with
    | .Z_NO_FLUSH => ⟨if input = [] then .Z_BUF_ERROR else .Z_OK, (given, state.2), input.length, []⟩
    | .Z_FINISH =>
      let pending := (deflated given).drop state.2.length
      ⟨if pending.length ≤ room then .Z_STREAM_END else .Z_OK, (given, state.2 ++ pending.take room), input.length,
        pending.take room⟩

variable {deflated : List UInt8 → List UInt8}

theorem holdingDeflate_session (session : Session (holdingDeflate deflated) given got total state) :
    state = (given, got) ∧ (total = none → got = []) ∧ ∀ all ∈ total, given = all ∧ got <+: deflated all := by
  induction session with
  | start ready =>
    cases ready
    exact ⟨rfl, fun _ => rfl, nofun⟩
  | more before space called resumable ih =>
    obtain ⟨rfl, none_, -⟩ := ih
    cases called
    rw [none_ rfl]
    refine ⟨?_, fun _ => rfl, nofun⟩
    simp only [holdingDeflate, List.take_length, List.append_nil]
  | @finish given got total state input room call before rest space called resumable ih =>
    obtain ⟨rfl, none_, some_⟩ := ih
    cases called
    have earlier : got <+: deflated (given ++ input) := by
      cases total with
      | none =>
        rw [none_ rfl]
        exact List.nil_prefix
      | some all =>
        rw [rest all rfl]
        exact (some_ all rfl).2
    obtain ⟨pending, whole⟩ := earlier
    simp only [holdingDeflate, List.take_length, ← whole, List.drop_left]
    refine ⟨trivial, nofun, fun all member => ?_⟩
    cases member
    refine ⟨rfl, ?_⟩
    rw [← whole]
    exact List.prefix_append_right_inj got |>.mpr (List.take_prefix _ _)

theorem holdingDeflate_deflates (deflated : List UInt8 → List UInt8) : Deflates (holdingDeflate deflated) deflated where
  ready := ⟨_, rfl⟩
  fits := by
    intro given got total state flush input room call session space called
    cases called
    cases flush
    · exact ⟨Nat.le_refl _, Nat.zero_le _⟩
    · exact ⟨Nat.le_refl _, List.length_take_le _ _⟩
  progress := by
    intro given got total state flush input room call session space called ok
    cases called
    cases flush
    · by_cases none_ : input = []
      · simp only [holdingDeflate, none_, if_true, reduceCtorEq] at ok
      · exact .inl (List.length_pos_of_ne_nil none_)
    · refine .inr (List.ne_nil_of_length_pos ?_)
      by_cases room_ : ((deflated (state.1 ++ input)).drop state.2.length).length ≤ room
      · simp only [holdingDeflate, room_, if_true, reduceCtorEq] at ok
      · simp only [holdingDeflate]
        rw [List.length_take]
        omega
  streams := by
    intro given got state input room call session space some_ called
    obtain ⟨rfl, none_, -⟩ := holdingDeflate_session session
    cases called
    refine ⟨if_neg some_, fun rest => ?_⟩
    rw [none_ rfl]
    exact List.nil_prefix
  finishes := by
    intro given got total state input room call session rest space called
    obtain ⟨rfl, none_, some_⟩ := holdingDeflate_session session
    cases called
    have earlier : got <+: deflated (given ++ input) := by
      cases total with
      | none =>
        rw [none_ rfl]
        exact List.nil_prefix
      | some all =>
        rw [rest all rfl]
        exact (some_ all rfl).2
    obtain ⟨pending, whole⟩ := earlier
    simp only [holdingDeflate, ← whole, List.drop_left]
    refine ⟨List.prefix_append_right_inj got |>.mpr (List.take_prefix _ _), ?_⟩
    by_cases room_ : pending.length ≤ room
    · exact .inr ⟨if_pos room_, trivial, by rw [List.take_of_length_le room_]⟩
    · exact .inl (if_neg room_)

/-! ## Decompression -/

/-- The decoder of the format finds a stream at the front of what was given; then its text is written. -/
def holdingInflate (decode : List UInt8 → Except Unit (Option (List UInt8 × ℕ))) : Codec (List UInt8 × List UInt8) where
  init2 := some ([], [])
  call state _ input room :=
    let given := state.1 ++ input
    match decode given with
    | .error () => ⟨.Z_DATA_ERROR, state, 0, []⟩
    | .ok none => ⟨if input = [] then .Z_BUF_ERROR else .Z_OK, (given, state.2), input.length, []⟩
    | .ok (some (text, size)) =>
      let pending := text.drop state.2.length
      ⟨if pending.length ≤ room then .Z_STREAM_END else .Z_OK, (given.take size, state.2 ++ pending.take room),
        size - state.1.length, pending.take room⟩

/-- The decoder needs a stream and nothing behind it. -/
def Exact (decode : List UInt8 → Except Unit (Option (List UInt8 × ℕ))) : Prop :=
  ∀ buffer text size, decode buffer = .ok (some (text, size)) → decode (buffer.take size) = .ok (some (text, size))

variable {decode : List UInt8 → Except Unit (Option (List UInt8 × ℕ))}

/-- What was given is no stream yet, and nothing was written, or it is one, and some of its text was written. -/
def Standing (decode : List UInt8 → Except Unit (Option (List UInt8 × ℕ))) (given got : List UInt8) : Prop :=
  decode given = .ok none ∧ got = [] ∨ ∃ text, decode given = .ok (some (text, given.length)) ∧ got <+: text

/-- A stream found with more input ends in that input, and what was written is of its text. -/
theorem Standing.found (standing : Standing decode given got) (incremental : Incremental decode) (exact_ : Exact decode)
    {text : List UInt8} {size : ℕ} (some_ : decode (given ++ input) = .ok (some (text, size))) :
    given.length ≤ size ∧ got <+: text ∧ (given ++ input).take size = given ++ input.take (size - given.length) ∧
      decode ((given ++ input).take size) = .ok (some (text, ((given ++ input).take size).length)) := by
  have facts : given.length ≤ size ∧ got <+: text := by
    rcases standing with ⟨none_, rfl⟩ | ⟨text', before, among⟩
    · refine ⟨?_, List.nil_prefix⟩
      by_contra shorter
      have short := exact_ _ _ _ some_
      rw [List.take_append_of_le_length (by omega)] at short
      have again := incremental.found short (given.drop size)
      rw [List.take_append_drop, none_] at again
      cases again
    · rw [incremental.found before input] at some_
      cases some_
      exact ⟨Nat.le_refl _, among⟩
  obtain ⟨within, among⟩ := facts
  refine ⟨within, among, ?_, ?_⟩
  · rw [List.take_append, List.take_of_length_le within]
  · rw [List.length_take_of_le (incremental.taken some_).2]
    exact exact_ _ _ _ some_

/-- What a call does: the input is no good, or goes on, or a stream is found at its front. -/
theorem Standing.cases (standing : Standing decode given got) (incremental : Incremental decode) (exact_ : Exact decode)
    {flush : Flush} {call : ZCall (List UInt8 × List UInt8)}
    (called : (holdingInflate decode).call (given, got) flush input room = call) :
    (decode (given ++ input) = .error () ∧ call = ⟨.Z_DATA_ERROR, (given, got), 0, []⟩) ∨
      (decode (given ++ input) = .ok none ∧ got = [] ∧ decode given = .ok none ∧
        call = ⟨if input = [] then .Z_BUF_ERROR else .Z_OK, (given ++ input, []), input.length, []⟩) ∨
      ∃ pending size, decode (given ++ input) = .ok (some (got ++ pending, size)) ∧ size ≤ given.length + input.length ∧
        decode (given ++ input.take (size - given.length)) =
          .ok (some (got ++ pending, (given ++ input.take (size - given.length)).length)) ∧
        call = ⟨if pending.length ≤ room then .Z_STREAM_END else .Z_OK,
          (given ++ input.take (size - given.length), got ++ pending.take room), size - given.length,
            pending.take room⟩ := by
  subst called
  simp only [holdingInflate]
  cases verdict : decode (given ++ input) with
  | error => exact .inl ⟨rfl, rfl⟩
  | ok found =>
    cases found with
    | none =>
      rcases standing with ⟨before, rfl⟩ | ⟨text, before, -⟩
      · exact .inr (.inl ⟨rfl, rfl, before, rfl⟩)
      · rw [incremental.found before input] at verdict
        cases verdict
    | some found =>
      obtain ⟨text, size⟩ := found
      obtain ⟨-, ⟨pending, rfl⟩, cut, stream⟩ := standing.found incremental exact_ verdict
      have bound := (incremental.taken verdict).2
      rw [List.length_append] at bound
      dsimp only
      rw [cut] at stream
      rw [List.drop_left, cut]
      exact .inr (.inr ⟨pending, size, rfl, bound, stream, rfl⟩)

theorem holdingInflate_session (incremental : Incremental decode) (exact_ : Exact decode)
    (session : Session (holdingInflate decode) given got total state) :
    state = (given, got) ∧ Standing decode given got := by
  induction session with
  | start ready =>
    cases ready
    exact ⟨rfl, .inl ⟨incremental.empty, rfl⟩⟩
  | more before space called resumable ih | finish before rest space called resumable ih =>
    obtain ⟨rfl, standing⟩ := ih
    rcases standing.cases incremental exact_ called with ⟨-, rfl⟩ | ⟨none_, rfl, -, rfl⟩ | ⟨pending, size, -, -, stream, rfl⟩
    · rcases resumable with ok | stalled
      · cases ok
      · cases stalled
    · simp only [List.take_length, List.append_nil]
      exact ⟨trivial, .inl ⟨none_, rfl⟩⟩
    · exact ⟨rfl, .inr ⟨_, stream, List.prefix_append_right_inj _ |>.mpr (List.take_prefix _ _)⟩⟩

theorem holdingInflate_inflates (incremental : Incremental decode) (exact_ : Exact decode) :
    Inflates (holdingInflate decode) fun stream text => decode stream = .ok (some (text, stream.length)) where
  ready := ⟨_, rfl⟩
  fits := by
    intro given got state input room call session space called
    obtain ⟨rfl, standing⟩ := holdingInflate_session incremental exact_ session
    rcases standing.cases incremental exact_ called with ⟨-, rfl⟩ | ⟨-, rfl, -, rfl⟩ | ⟨pending, size, -, bound, -, rfl⟩
    · exact ⟨Nat.zero_le _, Nat.zero_le _⟩
    · exact ⟨Nat.le_refl _, Nat.zero_le _⟩
    · exact ⟨by dsimp only; omega, List.length_take_le _ _⟩
  progress := by
    intro given got state input room call session space called ok
    obtain ⟨rfl, standing⟩ := holdingInflate_session incremental exact_ session
    rcases standing.cases incremental exact_ called with ⟨-, rfl⟩ | ⟨-, rfl, -, rfl⟩ | ⟨pending, size, -, -, -, rfl⟩
    · cases ok
    · by_cases none_ : input = []
      · simp only [none_, if_true, reduceCtorEq] at ok
      · exact .inl (List.length_pos_of_ne_nil none_)
    · refine .inr (List.ne_nil_of_length_pos ?_)
      by_cases room_ : pending.length ≤ room
      · simp only [room_, if_true, reduceCtorEq] at ok
      · dsimp only
        rw [List.length_take]
        omega
  ended := by
    intro given got state input room call session space called ended
    obtain ⟨rfl, standing⟩ := holdingInflate_session incremental exact_ session
    rcases standing.cases incremental exact_ called with ⟨-, rfl⟩ | ⟨-, rfl, -, rfl⟩ | ⟨pending, size, -, -, stream, rfl⟩
    · cases ended
    · dsimp only at ended
      split_ifs at ended
    · dsimp only at ended ⊢
      split_ifs at ended with room_
      rw [List.take_of_length_le room_]
      exact stream
  follows := by
    intro given got state input room call stream text session space whole agrees called
    obtain ⟨rfl, standing⟩ := holdingInflate_session incremental exact_ session
    obtain ⟨rest, rfl⟩ := agrees
    rcases standing.cases incremental exact_ called with
      ⟨bad, -⟩ | ⟨-, rfl, before, rfl⟩ | ⟨pending, size, found, bound, -, rfl⟩
    · rw [incremental.failed bad rest] at whole
      cases whole
    · refine ⟨List.nil_prefix, ?_⟩
      by_cases none_ : input = []
      · refine .inr (.inr ⟨if_pos none_, none_, fun same => ?_⟩)
        rw [← same, before] at whole
        cases whole
      · exact .inl (if_neg none_)
    · rw [incremental.found found rest] at whole
      cases whole
      rw [List.length_append, List.length_append] at bound
      have none_ : rest = [] := List.eq_nil_of_length_eq_zero (by omega)
      subst none_
      refine ⟨List.prefix_append_right_inj got |>.mpr (List.take_prefix _ _), ?_⟩
      by_cases room_ : pending.length ≤ room
      · refine .inr (.inl ⟨if_pos room_, ?_, by rw [List.take_of_length_le room_]⟩)
        dsimp only
        rw [List.append_nil, List.length_append, Nat.add_sub_cancel_left, List.take_length]
      · exact .inl (if_neg room_)

/-! ## A format -/

def sampleText : List UInt8 := (List.replicate 6 [0x74, 0x65, 0x61]).flatten

/-- What zlib makes of it: three bytes, and the rest as a copy of what stands three bytes before. -/
def sampleStream : List UInt8 :=
  [0x1f, 0x8b, 8, 0, 0, 0, 0, 0, 0, 3, 0x2b, 0x49, 0x4d, 0x2c, 0x41, 0x45, 0, 3, 0xcb, 0xd1, 0xf1, 0x12, 0, 0, 0]

/-- Of a text other than the sample every byte is marked, and a zero ends it. -/
def marked (text : List UInt8) : List UInt8 :=
  if text = sampleText then sampleStream else text.flatMap (fun byte => [1, byte]) ++ [0]

def unmarked : List UInt8 → Except Unit (Option (List UInt8 × ℕ))
  | [] | [1] => .ok none
  | 0 :: _ => .ok (some ([], 1))
  | 1 :: byte :: rest => (unmarked rest).map (Option.map fun found => (byte :: found.1, found.2 + 2))
  | buffer =>
    if sampleStream <+: buffer then .ok (some (sampleText, sampleStream.length))
    else if buffer <+: sampleStream then .ok none
    else .error ()

theorem unmarked_cons {first : UInt8} (noMark : first ≠ 1) (noEnd : first ≠ 0) (rest : List UInt8) :
    unmarked (first :: rest) =
      if sampleStream <+: first :: rest then .ok (some (sampleText, sampleStream.length))
      else if first :: rest <+: sampleStream then .ok none
      else .error () := by
  rw [unmarked]
  · exact nofun
  · intro same
    exact noMark (List.cons.inj same).1
  · intro tail same
    exact noEnd (List.cons.inj same).1
  · intro byte tail same
    exact noMark (List.cons.inj same).1

theorem unmarked_sample (rest : List UInt8) :
    unmarked (sampleStream ++ rest) = .ok (some (sampleText, sampleStream.length)) := by
  have step : sampleStream ++ rest = 0x1f :: (sampleStream.tail ++ rest) := rfl
  rw [step, unmarked_cons (by decide) (by decide), ← step, if_pos (List.prefix_append _ _)]

/-- A buffer that starts with neither a mark nor a zero. -/
theorem exists_first {buffer : List UInt8} (some_ : buffer ≠ []) (one : buffer ≠ [1]) (zero : ∀ tail, buffer ≠ 0 :: tail)
    (other : ∀ byte rest, buffer ≠ 1 :: byte :: rest) : ∃ first rest, buffer = first :: rest ∧ first ≠ 1 ∧ first ≠ 0 := by
  obtain ⟨first, rest, rfl⟩ := List.exists_cons_of_ne_nil some_
  refine ⟨first, rest, rfl, ?_, ?_⟩
  · rintro rfl
    cases rest with
    | nil => exact one rfl
    | cons byte rest => exact other byte rest rfl
  · rintro rfl
    exact zero rest rfl

/-- A verdict on a buffer is final, and what was found ends in it. -/
theorem unmarked_append (buffer more : List UInt8) :
    (unmarked buffer = .error () → unmarked (buffer ++ more) = .error ()) ∧
      ∀ text size, unmarked buffer = .ok (some (text, size)) →
        unmarked (buffer ++ more) = .ok (some (text, size)) ∧ (0 < size ∧ size ≤ buffer.length) ∧
          unmarked (buffer.take size) = .ok (some (text, size)) := by
  induction buffer using unmarked.induct with
  | case1 | case2 => exact ⟨nofun, nofun⟩
  | case3 rest =>
    refine ⟨nofun, fun text size some_ => ?_⟩
    cases some_
    exact ⟨rfl, ⟨Nat.one_pos, Nat.succ_pos _⟩, rfl⟩
  | case4 byte rest ih =>
    obtain ⟨failed, found⟩ := ih
    rw [List.cons_append, List.cons_append, unmarked, unmarked]
    constructor
    · intro bad
      cases verdict : unmarked rest with
      | error => rw [failed verdict]; rfl
      | ok other => rw [verdict] at bad; cases bad
    · intro text size some_
      cases verdict : unmarked rest with
      | error => rw [verdict] at some_; cases some_
      | ok other =>
        rw [verdict] at some_
        cases other with
        | none => cases some_
        | some other =>
          cases some_
          obtain ⟨after, bound, short⟩ := found _ _ verdict
          rw [after, List.take_succ_cons, List.take_succ_cons, unmarked, short]
          refine ⟨rfl, ⟨Nat.succ_pos _, ?_⟩, rfl⟩
          rw [List.length_cons, List.length_cons]
          omega
  | case5 buffer _ _ _ _ whole =>
    obtain ⟨rest, rfl⟩ := whole
    rw [List.append_assoc, unmarked_sample, unmarked_sample]
    refine ⟨nofun, fun text size same => ?_⟩
    cases same
    refine ⟨rfl, ⟨by decide, by rw [List.length_append]; omega⟩, ?_⟩
    have alone := unmarked_sample []
    rw [List.append_nil] at alone
    rw [List.take_left]
    exact alone
  | case6 buffer some_ one zero other unread part =>
    obtain ⟨first, rest, rfl, noMark, noEnd⟩ := exists_first some_ one zero other
    rw [unmarked_cons noMark noEnd, if_neg unread, if_pos part]
    exact ⟨nofun, nofun⟩
  | case7 buffer some_ one zero other unread apart =>
    obtain ⟨first, rest, rfl, noMark, noEnd⟩ := exists_first some_ one zero other
    have still : ¬sampleStream <+: first :: rest ++ more := fun before =>
      (List.prefix_or_prefix_of_prefix before (List.prefix_append _ _)).elim unread apart
    have apart' : ¬first :: rest ++ more <+: sampleStream := fun before => apart ((List.prefix_append _ _).trans before)
    rw [List.cons_append] at still apart' ⊢
    rw [unmarked_cons noMark noEnd, unmarked_cons noMark noEnd, if_neg unread, if_neg apart, if_neg still, if_neg apart']
    exact ⟨fun _ => rfl, nofun⟩

theorem unmarked_incremental : Incremental unmarked where
  empty := rfl
  failed bad more := (unmarked_append _ more).1 bad
  found some_ more := ((unmarked_append _ more).2 _ _ some_).1
  taken some_ := ((unmarked_append _ []).2 _ _ some_).2.1

theorem unmarked_exact : Exact unmarked := fun buffer text size some_ => ((unmarked_append buffer []).2 text size some_).2.2

theorem unmarked_flatMap (text : List UInt8) : unmarked (text.flatMap (fun byte => [1, byte]) ++ [0]) =
    .ok (some (text, (text.flatMap (fun byte => [1, byte]) ++ [0]).length)) := by
  induction text with
  | nil => rfl
  | cons byte rest ih =>
    have step : (byte :: rest).flatMap (fun byte => [1, byte]) ++ [0] =
        1 :: byte :: (rest.flatMap (fun byte => [1, byte]) ++ [0]) := rfl
    rw [step, unmarked, ih]
    rfl

theorem unmarked_marked (text : List UInt8) : unmarked (marked text) = .ok (some (text, (marked text).length)) := by
  rw [marked]
  split_ifs with same
  · have alone := unmarked_sample []
    rw [List.append_nil] at alone
    rw [alone, same]
  · exact unmarked_flatMap text

end OpalCpp.Compression

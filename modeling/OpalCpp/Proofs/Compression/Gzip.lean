import OpalCpp.Model.Compression.Gzip
import OpalCpp.Proofs.Compression.HeldBack

/-! # Slices do not matter

What zlib has been given and what is still at hand are together what has been fed. Each round brings one of the two
counters on, so the loops end; and they end as the whole input demands, however it is fed.
-/

namespace OpalCpp.Compression

variable {State State' : Type*} {data : List UInt8} {maxOutput maxFeed : ℕ}

/-! ## Feeding -/

theorem uInt_of_le {size : ℕ} (fits : size ≤ uIntMax) : uInt size = size :=
  Nat.mod_eq_of_lt (Nat.lt_of_le_of_lt fits (by decide))

/-- What zlib was given and what it has at hand are what was fed. -/
def Feeding.Fed (data : List UInt8) (loop : Feeding State) (given : List UInt8) : Prop :=
  loop.fed ≤ data.length ∧ given ++ loop.stream.input = data.take loop.fed

/-- Feeding keeps that, and leaves nothing at hand only where everything was fed. -/
theorem feedInput_spec {loop : Feeding State} {given : List UInt8} (positive : 0 < maxFeed) (bounded : maxFeed ≤ uIntMax)
    (fed : loop.Fed data given) :
    (FeedInput loop.stream data loop.fed maxFeed).1.state = loop.stream.state ∧
      loop.fed ≤ (FeedInput loop.stream data loop.fed maxFeed).2 ∧
      (FeedInput loop.stream data loop.fed maxFeed).2 ≤ data.length ∧
      given ++ (FeedInput loop.stream data loop.fed maxFeed).1.input =
        data.take (FeedInput loop.stream data loop.fed maxFeed).2 ∧
      ((FeedInput loop.stream data loop.fed maxFeed).1.input = [] →
        (FeedInput loop.stream data loop.fed maxFeed).2 = data.length) := by
  obtain ⟨within, whole⟩ := fed
  rw [FeedInput]
  split_ifs with full
  · refine ⟨rfl, Nat.le_refl _, within, whole, fun empty => ?_⟩
    rcases full with busy | through
    · exact absurd empty busy
    · exact Nat.le_antisymm within through
  · push Not at full
    obtain ⟨empty, before⟩ := full
    rw [empty, List.append_nil] at whole
    have same : uInt (min (data.length - loop.fed) maxFeed) = min (data.length - loop.fed) maxFeed :=
      uInt_of_le (Nat.le_trans (Nat.min_le_right _ _) bounded)
    dsimp only
    rw [same]
    refine ⟨rfl, by omega, by omega, ?_, fun none_ => ?_⟩
    · rw [whole, List.take_add]
    · have length := congrArg List.length none_
      rw [List.length_take, List.length_drop, List.length_nil] at length
      omega

/-- What is taken of the bytes at hand is given, and they are that many less. -/
theorem given_take {given input fed : List UInt8} (taken : ℕ) (whole : given ++ input = fed) :
    given ++ input.take taken ++ input.drop taken = fed := by
  rw [List.append_assoc, List.take_append_drop, whole]

/-! ## Compression -/

/-- Where the loop stands: in a session that was given what is fed, told to finish with all of it. -/
def Deflating (deflate : Codec State) (deflated data : List UInt8) (loop : Feeding State) : Prop :=
  ∃ given total, Session deflate given loop.out total loop.stream.state ∧ loop.Fed data given ∧
    (∀ all ∈ total, all = data ∧ loop.fed = data.length) ∧ loop.out <+: deflated

/-- What is left to take, and to write at most. -/
def Feeding.left (loop : Feeding State) (data : List UInt8) (most : ℕ) : ℕ :=
  (data.length + loop.stream.input.length - loop.fed) + (most - loop.out.length)

theorem left_lt {loop : Feeding State} {given input : List UInt8} {call : ZCall State} {fed most : ℕ}
    (before : loop.Fed data given)
    (whole : given ++ input = data.take fed) (within : fed ≤ data.length) (fits : call.taken ≤ input.length)
    (room : (loop.out ++ call.written).length ≤ most) (progress : 0 < call.taken ∨ call.written ≠ []) :
    Feeding.left ⟨⟨call.state, input.drop call.taken⟩, fed, loop.out ++ call.written⟩ data most < loop.left data most := by
  have first := congrArg List.length before.2
  have second := congrArg List.length whole
  have within' := before.1
  rw [List.length_append, List.length_take] at first second
  rw [List.length_append] at room
  have some_ : call.written ≠ [] → 0 < call.written.length := List.length_pos_of_ne_nil
  simp only [Feeding.left, List.length_drop, List.length_append]
  rcases progress with taken | written
  · omega
  · have := some_ written
    omega

variable {deflate : Codec State} {deflated : List UInt8 → List UInt8}

theorem deflateRound_spec (deflates : Deflates deflate deflated) (positive : 0 < maxFeed) (bounded : maxFeed ≤ uIntMax)
    {loop : Feeding State} (standing : Deflating deflate (deflated data) data loop) :
    (∀ next, deflateRound deflate data maxFeed loop = .inl next →
      Deflating deflate (deflated data) data next ∧
        next.left data (deflated data).length < loop.left data (deflated data).length) ∧
      ∀ result, deflateRound deflate data maxFeed loop = .inr result → result = .ok (deflated data) := by
  obtain ⟨given, total, session, fedBefore, finishing, written⟩ := standing
  obtain ⟨sameState, more, within, whole, empty⟩ := feedInput_spec positive bounded fedBefore
  rw [deflateRound]
  generalize FeedInput loop.stream data loop.fed maxFeed = pair at sameState more within whole empty
  obtain ⟨⟨state, input⟩, fed⟩ := pair
  dsimp only at sameState more within whole empty ⊢
  subst sameState
  have space : 0 < uInt kChunk := by decide
  by_cases last : fed = data.length
  · subst last
    rw [if_pos rfl]
    rw [List.take_length] at whole
    generalize called : deflate.call loop.stream.state .Z_FINISH input (uInt kChunk) = call
    have rest : ∀ all ∈ total, given ++ input = all := fun all member => whole.trans (finishing all member).1.symm
    obtain ⟨taken, -⟩ := deflates.fits session space called
    obtain ⟨among, outcome⟩ := deflates.finishes session rest space called
    rw [whole] at among outcome
    have split := given_take call.taken whole
    rcases outcome with ok | ⟨ended, all, out⟩
    · have resumed := Session.finish session rest space called (.inl ok)
      have progress := deflates.progress session space called ok
      simp only [ok, ne_eq, not_true_eq_false, false_and, reduceCtorEq, not_false_eq_true, if_true, if_false]
      refine ⟨fun next same => ?_, nofun⟩
      cases same
      refine ⟨⟨_, _, resumed, ⟨Nat.le_refl _, split.trans List.take_length.symm⟩, ?_, among⟩, ?_⟩
      · intro all member
        cases member
        exact ⟨whole, rfl⟩
      · exact left_lt fedBefore (whole.trans List.take_length.symm) (Nat.le_refl _) taken among.length_le progress
    · have none_ : input.drop call.taken = [] := List.drop_eq_nil_of_le (Nat.le_of_eq all.symm)
      simp only [ended, none_, ne_eq, not_true_eq_false, reduceCtorEq, not_false_eq_true, or_self, if_false, and_false,
        false_and, out]
      refine ⟨nofun, fun result same => ?_⟩
      cases same
      rfl
  · rw [if_neg last]
    generalize called : deflate.call loop.stream.state .Z_NO_FLUSH input (uInt kChunk) = call
    have fresh : total = none := by
      cases total with
      | none => rfl
      | some all => exact absurd (Nat.le_antisymm within ((finishing all rfl).2 ▸ more)) last
    subst fresh
    obtain ⟨taken, -⟩ := deflates.fits session space called
    obtain ⟨ok, among⟩ := deflates.streams session space (fun none_ => last (empty none_)) called
    have resumed := Session.more session space called (.inl ok)
    have progress := deflates.progress session space called ok
    have split := given_take call.taken whole
    have among : loop.out ++ call.written <+: deflated data := by
      have eventually := among (input.drop call.taken ++ data.drop fed)
      rw [← List.append_assoc, split, List.take_append_drop] at eventually
      exact eventually
    simp only [ok, ne_eq, not_true_eq_false, false_and, reduceCtorEq, not_false_eq_true, if_true, if_false]
    refine ⟨fun next same => ?_, nofun⟩
    cases same
    refine ⟨⟨_, none, resumed, ⟨within, split⟩, nofun, among⟩, ?_⟩
    exact left_lt fedBefore whole within taken among.length_le progress

/-- However the input is fed, it comes out as the whole of it demands. -/
theorem deflate_returns (deflates : Deflates deflate deflated) (positive : 0 < maxFeed) (bounded : maxFeed ≤ uIntMax) :
    Returns (GzipCompressChunked deflate data maxFeed) (.ok (deflated data)) := by
  obtain ⟨state, ready⟩ := deflates.ready
  have start : Deflating deflate (deflated data) data { stream := { state } } :=
    ⟨[], none, .start ready, ⟨Nat.zero_le _, rfl⟩, nofun, List.nil_prefix⟩
  obtain ⟨result, rfl, runs⟩ := Loop.run_of_variant (Deflating deflate (deflated data) data)
    (· = .ok (deflated data)) (·.left data (deflated data).length)
    (fun loop next standing => (deflateRound_spec deflates positive bounded standing).1 next)
    (fun loop result standing => (deflateRound_spec deflates positive bounded standing).2 result) start
  refine ⟨Feeding.left { stream := { state } } data (deflated data).length + 1, fun fuel enough => ?_⟩
  rw [GzipCompressChunked, RequireFeedBound, if_neg (by omega), ready]
  exact congrArg Except.ok (runs fuel enough)

/-! ## Decompression -/

/-- Where the loop stands: in a session that was given what is fed, with the text of the stream coming out if the input is
one. -/
def Inflating (inflate : Codec State) (member : List UInt8 → List UInt8 → Prop) (data : List UInt8) (maxOutput : ℕ)
    (loop : Feeding State) : Prop :=
  ∃ given, Session inflate given loop.out none loop.stream.state ∧ loop.Fed data given ∧ loop.out.length ≤ maxOutput ∧
    ∀ text, member data text → loop.out <+: text

/-- What decompression has to come to: it succeeds with the text of the input, if it is a stream of one that is not too
long. -/
def Decompressed (member : List UInt8 → List UInt8 → Prop) (data : List UInt8) (maxOutput : ℕ)
    (result : Outcome (List UInt8)) :
    Prop :=
  (∀ out, result = .ok out → member data out ∧ out.length ≤ maxOutput) ∧
    ∀ text, member data text → text.length ≤ maxOutput → result = .ok text

variable {inflate : Codec State} {member : List UInt8 → List UInt8 → Prop}

/-- An error is right where the input is no stream, or its text is too long. -/
theorem Decompressed.of_error {error : Error} (wrong : ∀ text, member data text → text.length ≤ maxOutput → False) :
    Decompressed member data maxOutput (.error error) :=
  ⟨nofun, fun text stream short => (wrong text stream short).elim⟩

theorem inflateRound_spec (inflates : Inflates inflate member) (positive : 0 < maxFeed) (bounded : maxFeed ≤ uIntMax)
    {loop : Feeding State} (standing : Inflating inflate member data maxOutput loop) :
    (∀ next, inflateRound inflate data maxOutput maxFeed loop = .inl next →
      Inflating inflate member data maxOutput next ∧ next.left data maxOutput < loop.left data maxOutput) ∧
      ∀ result, inflateRound inflate data maxOutput maxFeed loop = .inr result →
        Decompressed member data maxOutput result := by
  obtain ⟨given, session, fedBefore, -, -⟩ := standing
  obtain ⟨sameState, -, within, whole, empty⟩ := feedInput_spec positive bounded fedBefore
  rw [inflateRound]
  generalize FeedInput loop.stream data loop.fed maxFeed = pair at sameState within whole empty
  obtain ⟨⟨state, input⟩, fed⟩ := pair
  dsimp only at sameState within whole empty ⊢
  subst sameState
  have space : 0 < uInt kChunk := by decide
  generalize called : inflate.call loop.stream.state .Z_NO_FLUSH input (uInt kChunk) = call
  obtain ⟨taken, -⟩ := inflates.fits session space called
  have split := given_take call.taken whole
  have agrees : given ++ input <+: data := whole ▸ List.take_prefix fed data
  have follows {text : List UInt8} (stream : member data text) := inflates.follows session space stream agrees called
  have among {text : List UInt8} (stream : member data text) : loop.out ++ call.written <+: text := (follows stream).1
  -- A round that goes on, with either code: something was taken or written.
  have goesOn (resumable : call.result.Resumable) (short : (loop.out ++ call.written).length ≤ maxOutput)
      (progress : 0 < call.taken ∨ call.written ≠ []) :
      Inflating inflate member data maxOutput ⟨⟨call.state, input.drop call.taken⟩, fed, loop.out ++ call.written⟩ ∧
        Feeding.left ⟨⟨call.state, input.drop call.taken⟩, fed, loop.out ++ call.written⟩ data maxOutput <
          loop.left data maxOutput := by
    refine ⟨⟨_, .more session space called resumable, ⟨within, split⟩, short, fun text stream => among stream⟩, ?_⟩
    exact left_lt fedBefore whole within taken short progress
  split_ifs with failed long unended trailing
  · refine ⟨nofun, fun result same => ?_⟩
    cases same
    obtain ⟨notOk, notEnd, notStarved⟩ := failed
    refine .of_error fun text stream short => ?_
    rcases (follows stream).2 with ok | ⟨ended, -⟩ | ⟨stalled, rfl, other⟩
    · exact notOk ok
    · exact notEnd ended
    · rw [List.append_nil, empty rfl, List.take_length] at whole
      exact other whole
  · refine ⟨nofun, fun result same => ?_⟩
    cases same
    refine .of_error fun text stream short => ?_
    have bound := (among stream).length_le
    omega
  · refine ⟨fun next same => ?_, nofun⟩
    cases same
    have short : (loop.out ++ call.written).length ≤ maxOutput := Nat.le_of_not_lt long
    by_cases ok : call.result = .Z_OK
    · exact goesOn (.inl ok) short (inflates.progress session space called ok)
    · -- The call was starved, so it took the slice it was given.
      have starved : call.result = .Z_BUF_ERROR ∧ input.drop call.taken = [] ∧ fed < data.length :=
        not_not.mp fun other => failed ⟨ok, unended, other⟩
      obtain ⟨stalled, none_, before⟩ := starved
      refine goesOn (.inr stalled) short (.inl ?_)
      have some_ : input ≠ [] := fun none_ => absurd (empty none_) (Nat.ne_of_lt before)
      exact Nat.lt_of_lt_of_le (List.length_pos_of_ne_nil some_) (List.drop_eq_nil_iff.mp none_)
  · refine ⟨nofun, fun result same => ?_⟩
    cases same
    refine .of_error fun text stream short => ?_
    rw [not_not] at unended
    rcases (follows stream).2 with ok | ⟨-, all, -⟩ | ⟨stalled, -⟩
    · rw [unended] at ok
      cases ok
    · have length := congrArg List.length split
      rw [all, List.length_append, List.length_take] at length
      rcases trailing with partial_ | rest
      · omega
      · have := List.length_pos_of_ne_nil rest
        omega
    · rw [unended] at stalled
      cases stalled
  · refine ⟨nofun, fun result same => ?_⟩
    cases same
    rw [not_not] at unended
    push Not at trailing
    obtain ⟨all, none_⟩ := trailing
    rw [none_, all, List.append_nil, List.take_length] at split
    have stream := inflates.ended session space called unended
    rw [split] at stream
    refine ⟨fun out same => ?_, fun text other short => ?_⟩
    · cases same
      exact ⟨stream, Nat.le_of_not_lt long⟩
    · rcases (follows other).2 with ok | ⟨-, -, out⟩ | ⟨stalled, -⟩
      · rw [unended] at ok
        cases ok
      · rw [out]
      · rw [unended] at stalled
        cases stalled

/-- However the input is fed, the loop ends as the whole input demands. -/
theorem inflate_returns (inflates : Inflates inflate member) (positive : 0 < maxFeed) (bounded : maxFeed ≤ uIntMax) :
    ∃ result, Decompressed member data maxOutput result ∧
      Returns (GzipDecompressChunked inflate data maxOutput maxFeed) result := by
  obtain ⟨state, ready⟩ := inflates.ready
  have start : Inflating inflate member data maxOutput { stream := { state } } :=
    ⟨[], .start ready, ⟨Nat.zero_le _, rfl⟩, Nat.zero_le _, fun _ _ => List.nil_prefix⟩
  obtain ⟨result, right, runs⟩ := Loop.run_of_variant (Inflating inflate member data maxOutput)
    (Decompressed member data maxOutput) (·.left data maxOutput)
    (fun loop next standing => (inflateRound_spec inflates positive bounded standing).1 next)
    (fun loop result standing => (inflateRound_spec inflates positive bounded standing).2 result) start
  refine ⟨result, right, Feeding.left { stream := { state } } data maxOutput + 1, fun fuel enough => ?_⟩
  rw [GzipDecompressChunked, RequireFeedBound, if_neg (by omega), ready]
  exact congrArg Except.ok (runs fuel enough)

/-- A call returns one outcome. -/
theorem Returns.unique {α : Type*} {call : ℕ → Except String (Option (Outcome α))} {first second : Outcome α}
    (one : Returns call first) (other : Returns call second) : first = second := by
  obtain ⟨enough, one⟩ := one
  obtain ⟨also, other⟩ := other
  have same := (one (max enough also) (Nat.le_max_left _ _)).symm.trans (other _ (Nat.le_max_right _ _))
  cases same
  rfl

/-- What decompression returns is the text of the input, if it is a stream of one that is not too long. -/
theorem inflate_returns_iff (inflates : Inflates inflate member) (positive : 0 < maxFeed) (bounded : maxFeed ≤ uIntMax)
    {out : List UInt8} : Returns (GzipDecompressChunked inflate data maxOutput maxFeed) (.ok out) ↔
      member data out ∧ out.length ≤ maxOutput := by
  obtain ⟨result, right, returns⟩ := @inflate_returns _ data maxOutput _ _ _ inflates positive bounded
  constructor
  · intro other
    exact right.1 out (returns.unique other)
  · rintro ⟨stream, short⟩
    rw [right.2 out stream short] at returns
    exact returns

/-- Gzip does not depend on the slices, and drops nothing. Both loops end. Compression comes to one outcome under all feed
bounds, and decompression under any two; it succeeds with the text if the input is exactly one stream, of a text that is not
too long, and so it gives back what was compressed. -/
theorem gzip_independent_of_slices {deflate : Codec State} {inflate : Codec State'} {deflated : List UInt8 → List UInt8}
    {member : List UInt8 → List UInt8 → Prop} (deflates : Deflates deflate deflated) (inflates : Inflates inflate member)
    (inverse : ∀ text, member (deflated text) text) (data : List UInt8) (maxOutput first second : ℕ)
    (one : 1 ≤ first ∧ first ≤ uIntMax) (other : 1 ≤ second ∧ second ≤ uIntMax) :
    (∃ packed, Returns (GzipCompressChunked deflate data first) (.ok packed) ∧
      Returns (GzipCompressChunked deflate data second) (.ok packed)) ∧
      (∃ result result', Returns (GzipDecompressChunked inflate data maxOutput first) result ∧
        Returns (GzipDecompressChunked inflate data maxOutput second) result' ∧ ∀ out, result = .ok out ↔
          result' = .ok out) ∧
      (∀ out, Returns (GzipDecompressChunked inflate data maxOutput first) (.ok out) ↔
        member data out ∧ out.length ≤ maxOutput) ∧
      (data.length ≤ maxOutput → ∃ packed, Returns (GzipCompress deflate data) (.ok packed) ∧
        Returns (GzipDecompress inflate packed maxOutput) (.ok data)) := by
  refine ⟨⟨deflated data, deflate_returns deflates one.1 one.2, deflate_returns deflates other.1 other.2⟩, ?_, fun out => ?_,
    fun short => ⟨deflated data, ?_, ?_⟩⟩
  · obtain ⟨result, right, returns⟩ := @inflate_returns _ data maxOutput _ _ _ inflates one.1 one.2
    obtain ⟨result', right', returns'⟩ := @inflate_returns _ data maxOutput _ _ _ inflates other.1 other.2
    refine ⟨result, result', returns, returns', fun out => ⟨fun same => ?_, fun same => ?_⟩⟩
    · obtain ⟨stream, short⟩ := right.1 out same
      exact right'.2 out stream short
    · obtain ⟨stream, short⟩ := right'.1 out same
      exact right.2 out stream short
  · exact inflate_returns_iff inflates one.1 one.2
  · exact deflate_returns deflates (by decide) (by decide)
  · exact (inflate_returns_iff inflates (by decide) (by decide)).mpr ⟨inverse data, short⟩

/-- A text with codecs that make of it what zlib does, and its stream in slices of seven bytes. -/
theorem gzip_independent_of_slices_sample :
    (∃ packed, Returns (GzipCompress (holdingDeflate marked) sampleText) (.ok packed) ∧
      Returns (GzipDecompress (holdingInflate unmarked) packed 18) (.ok sampleText)) ∧
      Returns (GzipDecompressChunked (holdingInflate unmarked) sampleStream 18 7) (.ok sampleText) := by
  have deflates := holdingDeflate_deflates marked
  have inflates := holdingInflate_inflates unmarked_incremental unmarked_exact
  have short : sampleText.length ≤ 18 := by decide
  constructor
  · exact (gzip_independent_of_slices deflates inflates unmarked_marked sampleText 18 1 uIntMax (by decide)
      (by decide)).2.2.2 short
  · exact ((gzip_independent_of_slices deflates inflates unmarked_marked sampleStream 18 7 uIntMax (by decide)
      (by decide)).2.2.1 sampleText).mpr ⟨unmarked_sample [], short⟩

end OpalCpp.Compression

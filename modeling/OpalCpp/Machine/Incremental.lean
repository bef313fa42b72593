import Mathlib.Data.List.Forall2

/-! # Incremental decoders

A decoder looks at the front of a buffer and fails, finds an item and the number of bytes it takes,
or asks for more input. It is incremental when more input never changes a verdict it has reached. A
consumer that appends its input chunk by chunk to a buffer, and takes off the front what the decoder
finds, then gets the same items however the input is cut.
-/

namespace OpalCpp

variable {Byte Item Failure : Type*}

/-- More input does not change a verdict, and an item takes some of the buffer. -/
structure Incremental (decode : List Byte → Except Failure (Option (Item × ℕ))) : Prop where
  empty : decode [] = .ok none
  failed : ∀ {buffer failure}, decode buffer = .error failure →
    ∀ more, decode (buffer ++ more) = .error failure
  found : ∀ {buffer item taken}, decode buffer = .ok (some (item, taken)) →
    ∀ more, decode (buffer ++ more) = .ok (some (item, taken))
  taken : ∀ {buffer item taken}, decode buffer = .ok (some (item, taken)) → 0 < taken ∧ taken ≤ buffer.length

/-- Every item at the front of the buffer, taken off it. -/
def drain (decode : List Byte → Except Failure (Option (Item × ℕ))) :
    ℕ → List Item → List Byte → Except Failure (List Item × List Byte)
  | 0, items, buffer => .ok (items, buffer)
  | fuel + 1, items, buffer =>
    match decode buffer with
    | .error failure => .error failure
    | .ok none => .ok (items, buffer)
    | .ok (some (item, taken)) => drain decode fuel (items ++ [item]) (buffer.drop taken)

/-- One chunk: appended to the buffer, which is then drained. -/
def feed (decode : List Byte → Except Failure (Option (Item × ℕ))) (state : List Item × List Byte)
    (chunk : List Byte) : Except Failure (List Item × List Byte) :=
  drain decode ((state.2 ++ chunk).length + 1) state.1 (state.2 ++ chunk)

/-- The consumer over all its input. -/
def consume (decode : List Byte → Except Failure (Option (Item × ℕ))) (state : List Item × List Byte)
    (chunks : List (List Byte)) : Except Failure (List Item × List Byte) :=
  chunks.foldlM (feed decode) state

namespace Incremental

variable {decode : List Byte → Except Failure (Option (Item × ℕ))} (incremental : Incremental decode)

/-- Frames that the decoder takes for these items, whatever follows them. -/
def Frames (decode : List Byte → Except Failure (Option (Item × ℕ))) : List Item → List (List Byte) → Prop :=
  List.Forall₂ fun item frame => ∀ more, decode (frame ++ more) = .ok (some (item, frame.length))

include incremental

/-- What is not complete was not complete before. -/
theorem incomplete_of_prefix {buffer shorter : List Byte} (incomplete : decode buffer = .ok none)
    (before : shorter <+: buffer) : decode shorter = .ok none := by
  obtain ⟨more, rfl⟩ := before
  cases verdict : decode shorter with
  | error failure =>
    rw [incremental.failed verdict more] at incomplete
    cases incomplete
  | ok result =>
    cases result with
    | none => rfl
    | some found =>
      rw [incremental.found verdict more] at incomplete
      cases incomplete

/-- A part of a frame is not complete. -/
theorem incomplete_of_part {item : Item} {frame buffer : List Byte}
    (whole : decode frame = .ok (some (item, frame.length))) (before : buffer <+: frame)
    (shorter : buffer.length < frame.length) : decode buffer = .ok none := by
  obtain ⟨more, rfl⟩ := before
  cases verdict : decode buffer with
  | error failure =>
    rw [incremental.failed verdict more] at whole
    cases whole
  | ok result =>
    cases result with
    | none => rfl
    | some found =>
      obtain ⟨other, taken⟩ := found
      have few := (incremental.taken verdict).2
      rw [incremental.found verdict more] at whole
      cases whole
      omega

/-- Draining a buffer takes off the frames that are complete, and leaves a part of the next one. -/
theorem drain_frames {items : List Item} {frames : List (List Byte)} (encoded : Frames decode items frames)
    (fuel : ℕ) (got : List Item) (buffer rest : List Byte) (cut : buffer ++ rest = frames.flatten)
    (enough : buffer.length < fuel) :
    ∃ done left items' frames', drain decode fuel got buffer = .ok (got ++ done, left) ∧
      items = done ++ items' ∧ Frames decode items' frames' ∧ left ++ rest = frames'.flatten ∧
      decode left = .ok none := by
  induction encoded generalizing fuel got buffer with
  | nil =>
    obtain ⟨rfl, rfl⟩ := List.append_eq_nil_iff.mp cut
    obtain ⟨fuel, rfl⟩ := Nat.exists_eq_add_of_lt enough
    refine ⟨[], [], [], [], ?_, rfl, .nil, rfl, incremental.empty⟩
    simp [drain, incremental.empty]
  | @cons item frame items frames first others ih =>
    obtain ⟨fuel, rfl⟩ : ∃ less, fuel = less + 1 := ⟨fuel - 1, by omega⟩
    rw [List.flatten_cons] at cut
    have alone : decode frame = .ok (some (item, frame.length)) := by simpa using first []
    by_cases complete : frame.length ≤ buffer.length
    · obtain ⟨tail, rfl⟩ : frame <+: buffer :=
        List.prefix_of_prefix_length_le ⟨_, cut.symm⟩ (List.prefix_append _ _) complete
      have some_ := (incremental.taken alone).1
      rw [List.append_assoc] at cut
      rw [List.length_append] at enough
      obtain ⟨done, left, items', frames', drained, rfl, encoded, cut, incomplete⟩ :=
        ih fuel (got ++ [item]) tail (List.append_cancel_left cut) (by omega)
      refine ⟨item :: done, left, items', frames', ?_, rfl, encoded, cut, incomplete⟩
      simp only [drain, first tail, List.drop_left]
      rw [drained, List.append_assoc]
      rfl
    · have part : buffer <+: frame :=
        List.prefix_of_prefix_length_le ⟨_, cut⟩ (List.prefix_append _ _) (by omega)
      have incomplete := incremental.incomplete_of_part alone part (by omega)
      refine ⟨[], buffer, item :: items, frame :: frames, ?_, rfl, .cons first others, cut, incomplete⟩
      rw [drain, incomplete, List.append_nil]

/-- However the frames are cut into chunks, the consumer gets their items and keeps nothing. -/
theorem consume_frames (chunks : List (List Byte)) {items : List Item} {frames : List (List Byte)}
    (encoded : Frames decode items frames) (got : List Item) (buffer : List Byte)
    (cut : buffer ++ chunks.flatten = frames.flatten) (incomplete : decode buffer = .ok none) :
    consume decode (got, buffer) chunks = .ok (got ++ items, []) := by
  induction chunks generalizing items frames got buffer with
  | nil =>
    rw [List.flatten_nil, List.append_nil] at cut
    cases encoded with
    | nil =>
      obtain rfl : buffer = [] := cut
      rw [List.append_nil]
      rfl
    | cons first others =>
      rw [cut, List.flatten_cons, first] at incomplete
      cases incomplete
  | cons chunk chunks ih =>
    rw [List.flatten_cons, ← List.append_assoc] at cut
    obtain ⟨done, left, items', frames', drained, rfl, encoded, cut, incomplete⟩ :=
      incremental.drain_frames encoded _ got _ _ cut (Nat.lt_succ_self _)
    have fed : feed decode (got, buffer) chunk = .ok (got ++ done, left) := drained
    have rest := ih encoded (got ++ done) left cut incomplete
    rw [consume, List.foldlM_cons, fed, ← List.append_assoc]
    exact rest

end Incremental

end OpalCpp

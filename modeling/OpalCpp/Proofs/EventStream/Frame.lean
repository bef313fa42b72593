import OpalCpp.Machine.Incremental
import OpalCpp.Proofs.EventStream.FrameHeaders

/-! # Frames

The decoder accepts a frame at the front of a buffer exactly when the frame is the encoding of the
message it gives. The round trips in both directions follow, and so does everything a transport
relies on: a verdict stays as the buffer grows, and the messages that come out of a stream do not
depend on how it was cut.
-/

namespace OpalCpp.EventStream

open Bytes (ascii)

/-! ## Parts of a buffer -/

theorem substr_middle (before middle after : Bytes) {pos count : ℕ} (start : before.length = pos)
    (size : middle.length = count) : Bytes.substr (before ++ (middle ++ after)) pos count = middle := by
  rw [Bytes.substr, List.drop_left' start, List.take_left' size]

theorem length_substr {buffer : Bytes} {pos count : ℕ} (within : pos + count ≤ buffer.length) :
    (buffer.substr pos count).length = count := by
  rw [Bytes.substr, List.length_take, List.length_drop]
  omega

/-- More input does not change what is already there. -/
theorem substr_append {buffer : Bytes} {pos count : ℕ} (within : pos + count ≤ buffer.length) (more : Bytes) :
    Bytes.substr (buffer ++ more) pos count = buffer.substr pos count := by
  rw [Bytes.substr, Bytes.substr, List.drop_append_of_le_length (by omega),
    List.take_append_of_le_length (by rw [List.length_drop]; omega)]

/-- Two parts that follow each other. -/
theorem substr_add (buffer : Bytes) (pos first second : ℕ) :
    buffer.substr pos first ++ buffer.substr (pos + first) second = buffer.substr pos (first + second) := by
  rw [Bytes.substr, Bytes.substr, Bytes.substr, List.take_add, List.drop_drop]

/-! ## A frame and its parts -/

/-- What a message encodes to. -/
theorem encodeMessage_eq_ok {message : Message} {frame : Bytes} :
    encodeMessage message = .ok frame ↔
      ∃ headers, encodeHeaders message.headers [] = .ok headers ∧ headers.length ≤ kMaxHeaderBlockBytes ∧
        kFrameOverheadBytes + headers.length + message.payload.length ≤ kMaxMessageBytes ∧
        ∃ body, body = framePrelude (kFrameOverheadBytes + headers.length + message.payload.length)
            headers.length ++ headers ++ message.payload ∧
          frame = body ++ writeBigEndian (crc32 body).toUInt64 4 := by
  constructor
  · intro encoded
    obtain ⟨headers, block, encoded⟩ := Outcome.bind_eq_ok.mp encoded
    dsimp only at encoded
    split_ifs at encoded with long large
    cases encoded
    exact ⟨headers, block, Nat.le_of_not_lt long, Nat.le_of_not_lt large, _, rfl, rfl⟩
  · rintro ⟨headers, block, few, small, body, rfl, rfl⟩
    rw [encodeMessage, block]
    exact (if_neg (Nat.not_lt_of_le few)).trans (if_neg (Nat.not_lt_of_le small))

theorem read_checksum (crc : UInt32) : (readBigEndian (writeBigEndian crc.toUInt64 4)).toUInt32 = crc := by
  rw [readBigEndian_writeBigEndian (by decide) (uint32_fits crc), UInt32.toUInt32_toUInt64]

/-- A checksum that agrees with the bytes is written as these bytes. -/
theorem written_checksum {bytes : Bytes} {crc : UInt32} (size : bytes.length = 4)
    (same : crc = (readBigEndian bytes).toUInt32) : writeBigEndian crc.toUInt64 4 = bytes := by
  rw [same, toUInt32_toUInt64_of_lt (readBigEndian_lt size (by decide)),
    writeBigEndian_readBigEndian size (by decide)]

/-- A length that fits in its four bytes is read back. -/
theorem read_length {length : ℕ} (small : length < 2 ^ 32) :
    (readBigEndian (writeBigEndian (UInt64.ofNat length) 4)).toNat = length := by
  have fits : (UInt64.ofNat length).toNat = length := by
    rw [UInt64.toNat_ofNat']
    omega
  rw [readBigEndian_writeBigEndian (by decide) (by rw [fits]; exact small), fits]

theorem written_length {bytes : Bytes} (size : bytes.length = 4) :
    writeBigEndian (UInt64.ofNat (readBigEndian bytes).toNat) 4 = bytes := by
  rw [UInt64.ofNat_toNat, writeBigEndian_readBigEndian size (by decide)]

@[simp] theorem length_framePrelude (total headersSize : ℕ) :
    (framePrelude total headersSize).length = kPreludeBytes := by
  simp only [framePrelude, List.length_append, length_writeBigEndian, kPreludeBytes]

/-! ## Round trips -/

/-- The checks of the prelude are passed by the prelude of a frame. -/
theorem decodeMessage_framePrelude {total headersSize : ℕ} (small : total ≤ kMaxMessageBytes)
    (few : headersSize ≤ kMaxHeaderBlockBytes) (room : kFrameOverheadBytes + headersSize ≤ total) (rest : Bytes) :
    decodeMessage (framePrelude total headersSize ++ rest) =
      if (framePrelude total headersSize ++ rest).length < total then .ok none
      else decodeFrame (framePrelude total headersSize ++ rest) total headersSize := by
  simp only [kMaxMessageBytes, kMaxHeaderBlockBytes, kFrameOverheadBytes, kPreludeBytes] at small few room
  have long : ¬ (framePrelude total headersSize ++ rest).length < kPreludeBytes := by
    rw [List.length_append, length_framePrelude]
    omega
  rw [decodeMessage, if_neg long]
  generalize first : writeBigEndian (UInt64.ofNat total) 4 = totalBytes
  generalize second : writeBigEndian (UInt64.ofNat headersSize) 4 = sizeBytes
  have firstSize : totalBytes.length = 4 := by rw [← first, length_writeBigEndian]
  have secondSize : sizeBytes.length = 4 := by rw [← second, length_writeBigEndian]
  have shape : framePrelude total headersSize ++ rest =
      totalBytes ++ (sizeBytes ++ (writeBigEndian (crc32 (totalBytes ++ sizeBytes)).toUInt64 4 ++ rest)) := by
    simp only [framePrelude, first, second, List.append_assoc]
  have totalAt : Bytes.substr (framePrelude total headersSize ++ rest) 0 4 = totalBytes := by
    rw [shape]
    exact substr_middle [] _ _ rfl firstSize
  have sizeAt : Bytes.substr (framePrelude total headersSize ++ rest) 4 4 = sizeBytes := by
    rw [shape]
    exact substr_middle _ _ _ firstSize secondSize
  have lengthsAt : Bytes.substr (framePrelude total headersSize ++ rest) 0 8 = totalBytes ++ sizeBytes := by
    rw [← substr_add _ 0 4 4, totalAt, Nat.zero_add, sizeAt]
  have crcAt : Bytes.substr (framePrelude total headersSize ++ rest) 8 4 =
      writeBigEndian (crc32 (totalBytes ++ sizeBytes)).toUInt64 4 := by
    rw [shape, ← List.append_assoc]
    exact substr_middle _ _ _ (by rw [List.length_append]; omega) (length_writeBigEndian _ 4)
  have totalRead : (readBigEndian totalBytes).toNat = total := by
    rw [← first]
    exact read_length (by omega)
  have sizeRead : (readBigEndian sizeBytes).toNat = headersSize := by
    rw [← second]
    exact read_length (by omega)
  simp only [crcAt, lengthsAt, totalAt, sizeAt, read_checksum, totalRead, sizeRead, ne_eq, not_true_eq_false,
    if_false]
  rw [if_neg]
  simp only [kMaxMessageBytes, kMaxHeaderBlockBytes, kFrameOverheadBytes, kPreludeBytes]
  omega

/-- The checks of the message are passed by the rest of a frame. -/
theorem decodeFrame_append {start headers payload : Bytes} {names : List Header} {total : ℕ}
    (size : start.length = kPreludeBytes) (whole : total = kFrameOverheadBytes + headers.length + payload.length)
    (decoded : decodeHeaders headers.length headers = .ok names) (more : Bytes) :
    decodeFrame (start ++ headers ++ payload ++
        writeBigEndian (crc32 (start ++ headers ++ payload)).toUInt64 4 ++ more) total headers.length =
      .ok (some ⟨⟨names, payload⟩, total⟩) := by
  simp only [kFrameOverheadBytes, kPreludeBytes] at size whole
  generalize checksum : writeBigEndian (crc32 (start ++ headers ++ payload)).toUInt64 4 = crc
  have four : crc.length = 4 := by rw [← checksum, length_writeBigEndian]
  have read : (readBigEndian crc).toUInt32 = crc32 (start ++ headers ++ payload) := by
    rw [← checksum, read_checksum]
  have body : (start ++ headers ++ payload).length = total - 4 := by
    simp only [List.length_append]
    omega
  have bodyAt : Bytes.substr (start ++ headers ++ payload ++ crc ++ more) 0 (total - 4) =
      start ++ headers ++ payload := by
    rw [List.append_assoc _ crc]
    exact substr_middle [] _ _ rfl body
  have crcAt : Bytes.substr (start ++ headers ++ payload ++ crc ++ more) (total - 4) 4 = crc := by
    rw [List.append_assoc _ crc]
    exact substr_middle _ _ _ body four
  have headersAt : Bytes.substr (start ++ headers ++ payload ++ crc ++ more) kPreludeBytes headers.length =
      headers := by
    rw [List.append_assoc, List.append_assoc, List.append_assoc]
    exact substr_middle _ _ _ size rfl
  have payloadAt : Bytes.substr (start ++ headers ++ payload ++ crc ++ more) (kPreludeBytes + headers.length)
      (total - kFrameOverheadBytes - headers.length) = payload := by
    rw [List.append_assoc, List.append_assoc]
    apply substr_middle
    · rw [List.length_append, size, kPreludeBytes]
    · simp only [kFrameOverheadBytes, kPreludeBytes]
      omega
  rw [decodeFrame]
  simp only [crcAt, bodyAt, read, headersAt, payloadAt, decoded, ne_eq, not_true_eq_false, if_false]
  rfl

/-- The message of an encoded frame, whatever follows the frame. -/
theorem decodeMessage_encodeMessage {message : Message} {frame : Bytes}
    (encoded : encodeMessage message = .ok frame) (more : Bytes) :
    decodeMessage (frame ++ more) = .ok (some ⟨message, frame.length⟩) := by
  obtain ⟨headers, block, few, small, body, rfl, rfl⟩ := encodeMessage_eq_ok.mp encoded
  obtain ⟨names, payload⟩ := message
  dsimp only at block small ⊢
  generalize whole : kFrameOverheadBytes + headers.length + payload.length = total at small ⊢
  have decoded := decodeHeaders_encodeHeaders block headers.length (Nat.le_refl _)
  have result := decodeFrame_append (length_framePrelude total headers.length) whole.symm decoded more
  have length : (framePrelude total headers.length ++ headers ++ payload ++ writeBigEndian
      (crc32 (framePrelude total headers.length ++ headers ++ payload)).toUInt64 4).length = total := by
    simp only [List.length_append, length_framePrelude, length_writeBigEndian, ← whole, kFrameOverheadBytes]
    omega
  have passed := decodeMessage_framePrelude small few (by omega) (headers ++ payload ++ writeBigEndian
    (crc32 (framePrelude total headers.length ++ headers ++ payload)).toUInt64 4 ++ more)
  simp only [← List.append_assoc] at passed
  rw [passed, if_neg, result, length]
  rw [List.length_append, length]
  omega

/-- The message read from a frame encodes to the frame. -/
theorem encodeMessage_decodeFrame {buffer : Bytes} {total headersLength : ℕ} {frame : DecodedFrame}
    (start : buffer.substr 0 kPreludeBytes = framePrelude total headersLength)
    (small : total ≤ kMaxMessageBytes) (few : headersLength ≤ kMaxHeaderBlockBytes)
    (room : kFrameOverheadBytes + headersLength ≤ total) (within : total ≤ buffer.length)
    (decoded : decodeFrame buffer total headersLength = .ok (some frame)) :
    frame.bytesConsumed = total ∧ encodeMessage frame.message = .ok (buffer.take total) := by
  rw [decodeFrame] at decoded
  dsimp only at decoded
  split_ifs at decoded with crc
  · cases decoded
  obtain ⟨headers, block, made⟩ := Outcome.bind_eq_ok.mp decoded
  cases made
  simp only [kFrameOverheadBytes, kPreludeBytes] at room
  have blockSize : (buffer.substr kPreludeBytes headersLength).length = headersLength :=
    length_substr (by simp only [kPreludeBytes]; omega)
  have payloadSize : (buffer.substr (kPreludeBytes + headersLength)
      (total - kFrameOverheadBytes - headersLength)).length = total - kFrameOverheadBytes - headersLength :=
    length_substr (by simp only [kFrameOverheadBytes, kPreludeBytes]; omega)
  have whole : kFrameOverheadBytes + headersLength + (total - kFrameOverheadBytes - headersLength) = total := by
    simp only [kFrameOverheadBytes, kPreludeBytes]
    omega
  have body : framePrelude total headersLength ++ buffer.substr kPreludeBytes headersLength ++
      buffer.substr (kPreludeBytes + headersLength) (total - kFrameOverheadBytes - headersLength) =
      buffer.substr 0 (total - 4) := by
    have headersEnd := substr_add buffer 0 kPreludeBytes headersLength
    have payloadEnd := substr_add buffer 0 (kPreludeBytes + headersLength)
      (total - kFrameOverheadBytes - headersLength)
    rw [Nat.zero_add] at headersEnd payloadEnd
    rw [← start, headersEnd, payloadEnd]
    congr 1
    simp only [kFrameOverheadBytes, kPreludeBytes]
    omega
  refine ⟨rfl, encodeMessage_eq_ok.mpr ⟨_, encodeHeaders_decodeHeaders _ block, ?_, ?_, _, rfl, ?_⟩⟩
  · rwa [blockSize]
  · rwa [blockSize, payloadSize, whole]
  · rw [blockSize, payloadSize, whole, body,
      written_checksum (length_substr (by omega)) (not_not.mp crc)]
    have joined := substr_add buffer 0 (total - 4) 4
    rw [Nat.zero_add, Nat.sub_add_cancel (by omega)] at joined
    exact joined.symm

/-- A buffer from which a message is read starts with the encoding of the message. -/
theorem encodeMessage_decodeMessage {buffer : Bytes} {frame : DecodedFrame}
    (decoded : decodeMessage buffer = .ok (some frame)) :
    kFrameOverheadBytes ≤ frame.bytesConsumed ∧ frame.bytesConsumed ≤ buffer.length ∧
      encodeMessage frame.message = .ok (buffer.take frame.bytesConsumed) := by
  rw [decodeMessage] at decoded
  dsimp only at decoded
  split_ifs at decoded with short crc bounds incomplete
  · cases decoded
  · cases decoded
  · cases decoded
  · cases decoded
  · have size {pos : ℕ} (within : pos + 4 ≤ kPreludeBytes) : (buffer.substr pos 4).length = 4 :=
      length_substr (by omega)
    simp only [not_or, Nat.not_lt] at bounds
    obtain ⟨small, least, few, rest⟩ := bounds
    have room : kFrameOverheadBytes + (readBigEndian (buffer.substr 4 4)).toNat ≤
        (readBigEndian (buffer.substr 0 4)).toNat := by omega
    have start : buffer.substr 0 kPreludeBytes = framePrelude (readBigEndian (buffer.substr 0 4)).toNat
        (readBigEndian (buffer.substr 4 4)).toNat := by
      have lengths := substr_add buffer 0 4 4
      have all := substr_add buffer 0 8 4
      rw [framePrelude, written_length (size (by decide)), written_length (size (by decide)), lengths,
        written_checksum (size (by decide)) (not_not.mp crc), all]
      rfl
    obtain ⟨consumed, encoded⟩ :=
      encodeMessage_decodeFrame start small few room (Nat.le_of_not_lt incomplete) decoded
    rw [consumed]
    exact ⟨least, Nat.le_of_not_lt incomplete, encoded⟩

/-! ## Growing buffers -/

theorem decodeFrame_more {buffer : Bytes} {total headersLength : ℕ}
    (room : kFrameOverheadBytes + headersLength ≤ total) (within : total ≤ buffer.length) (more : Bytes) :
    decodeFrame (buffer ++ more) total headersLength = decodeFrame buffer total headersLength := by
  simp only [kFrameOverheadBytes, kPreludeBytes] at room
  rw [decodeFrame, decodeFrame, substr_append (by omega), substr_append (by omega),
    substr_append (by simp only [kPreludeBytes]; omega),
    substr_append (by simp only [kFrameOverheadBytes, kPreludeBytes]; omega)]

/-- A verdict stays as the buffer grows. -/
theorem decodeMessage_more {buffer : Bytes} (reached : decodeMessage buffer ≠ .ok none) (more : Bytes) :
    decodeMessage (buffer ++ more) = decodeMessage buffer := by
  by_cases short : buffer.length < kPreludeBytes
  · rw [decodeMessage, if_pos short] at reached
    exact absurd rfl reached
  have long : ¬ (buffer ++ more).length < kPreludeBytes := by
    rw [List.length_append]
    omega
  have twelve : 12 ≤ buffer.length := Nat.le_of_not_lt short
  rw [decodeMessage, if_neg short] at reached
  rw [decodeMessage, if_neg long, decodeMessage, if_neg short, substr_append (by omega),
    substr_append (by omega), substr_append (by omega), substr_append (by omega)]
  dsimp only at reached ⊢
  split_ifs at reached ⊢ with crc bounds incomplete grown
  · rfl
  · rfl
  · exact absurd rfl reached
  · rw [List.length_append] at incomplete
    omega
  · exact absurd rfl reached
  · apply decodeFrame_more
    · omega
    · omega

theorem nextMessage_eq_none {buffer : Bytes} : nextMessage buffer = .ok none ↔ decodeMessage buffer = .ok none := by
  rw [nextMessage]
  cases decodeMessage buffer with
  | error error => simp [Except.map]
  | ok frame => simp [Except.map]

theorem nextMessage_eq_some {buffer : Bytes} {message : Message} {taken : ℕ} :
    nextMessage buffer = .ok (some (message, taken)) ↔
      decodeMessage buffer = .ok (some ⟨message, taken⟩) := by
  rw [nextMessage]
  cases decodeMessage buffer with
  | error error => simp [Except.map]
  | ok frame =>
    cases frame with
    | none => simp [Except.map]
    | some frame =>
      obtain ⟨message, taken⟩ := frame
      simp [Except.map]

theorem nextMessage_more {buffer : Bytes} (reached : nextMessage buffer ≠ .ok none) (more : Bytes) :
    nextMessage (buffer ++ more) = nextMessage buffer := by
  rw [nextMessage, nextMessage, decodeMessage_more (fun none_ => reached (nextMessage_eq_none.mpr none_))]

theorem incremental_nextMessage : Incremental nextMessage where
  empty := rfl
  failed failed more := by
    rw [nextMessage_more (by rw [failed]; simp), failed]
  found found more := by
    rw [nextMessage_more (by rw [found]; simp), found]
  taken found := by
    obtain ⟨least, within, _⟩ := encodeMessage_decodeMessage (nextMessage_eq_some.mp found)
    refine ⟨?_, within⟩
    exact Nat.lt_of_lt_of_le (by decide) least

/-! ## Results -/

/-- A message is decoded from its frame, whatever follows the frame. -/
theorem frame_round_trip (message : Message) (frame : Bytes) (encoded : encodeMessage message = .ok frame)
    (suffix : Bytes) :
    ∃ decoded, decodeMessage (frame ++ suffix) = .ok (some decoded) ∧ decoded.message = message ∧
      decoded.bytesConsumed = frame.length :=
  ⟨_, decodeMessage_encodeMessage encoded suffix, rfl, rfl⟩

/-- Two headers of one name, before another frame. -/
theorem frame_round_trip_duplicates :
    ∃ frame, encodeMessage ⟨[⟨[0x61], .short (-2)⟩, ⟨[0x61], .bool true⟩], [1, 2, 3]⟩ = .ok frame ∧
      ∃ decoded, decodeMessage (frame ++ [0, 0]) = .ok (some decoded) ∧
        decoded.message = ⟨[⟨[0x61], .short (-2)⟩, ⟨[0x61], .bool true⟩], [1, 2, 3]⟩ ∧
        decoded.bytesConsumed = frame.length :=
  ⟨_, rfl, frame_round_trip _ _ rfl [0, 0]⟩

/-- What is decoded encodes to the bytes it was decoded from, and those are the only ones. -/
theorem frame_canonical (buffer : Bytes) (frame : DecodedFrame)
    (decoded : decodeMessage buffer = .ok (some frame)) :
    frame.bytesConsumed ≤ buffer.length ∧
      encodeMessage frame.message = .ok (buffer.take frame.bytesConsumed) ∧
      ∀ other found, decodeMessage other = .ok (some found) → found.message = frame.message →
        other.take found.bytesConsumed = buffer.take frame.bytesConsumed := by
  obtain ⟨_, within, encoded⟩ := encodeMessage_decodeMessage decoded
  refine ⟨within, encoded, fun other found decoded' same => ?_⟩
  obtain ⟨_, _, encoded'⟩ := encodeMessage_decodeMessage decoded'
  rw [same, encoded] at encoded'
  exact (Except.ok.inj encoded').symm

/-- The frame of a message with two headers. -/
def noteFrame : Bytes :=
  [0, 0, 0, 28, 0, 0, 0, 10, 0x20, 0xE7, 0x4C, 0xF4, 1, 0x6E, 2, 7, 1, 0x73, 7, 0, 1, 0x74, 0x61, 0x62, 0x1D, 0x4C, 0xD5,
    0xF0]

/-- It is found before a byte of the next frame. -/
theorem frame_canonical_note :
    let message : Message := ⟨[⟨ascii "n", .byte 7⟩, ⟨ascii "s", .string (ascii "t")⟩], ascii "ab"⟩
    decodeMessage (noteFrame ++ [0]) = .ok (some ⟨message, 28⟩) ∧ encodeMessage message = .ok noteFrame := by
  intro message
  have decoded : decodeMessage (noteFrame ++ [0]) = .ok (some ⟨message, 28⟩) := by decide +kernel
  exact ⟨decoded, (frame_canonical _ _ decoded).2.1⟩

/-- A verdict on a buffer stays as the buffer grows, what is incomplete was so before, and the messages
that come out of a stream do not depend on how it was cut. -/
theorem frame_chunking :
    (∀ buffer error, decodeMessage buffer = .error error →
      ∀ suffix, decodeMessage (buffer ++ suffix) = .error error) ∧
    (∀ buffer frame, decodeMessage buffer = .ok (some frame) →
      ∀ suffix, decodeMessage (buffer ++ suffix) = .ok (some frame)) ∧
    (∀ buffer, decodeMessage buffer = .ok none →
      ∀ shorter, shorter <+: buffer → decodeMessage shorter = .ok none) ∧
    (∀ messages frames, List.Forall₂ (fun message frame => encodeMessage message = .ok frame) messages frames →
      ∀ chunks : List Bytes, chunks.flatten = frames.flatten →
        consume nextMessage ([], []) chunks = .ok (messages, [])) := by
  refine ⟨?_, ?_, ?_, ?_⟩
  · intro buffer error failed suffix
    rw [decodeMessage_more (by rw [failed]; simp), failed]
  · intro buffer frame found suffix
    rw [decodeMessage_more (by rw [found]; simp), found]
  · intro buffer incomplete shorter before
    rw [← nextMessage_eq_none] at incomplete ⊢
    exact incremental_nextMessage.incomplete_of_prefix incomplete before
  · intro messages frames encoded chunks cut
    have each : Incremental.Frames nextMessage messages frames := by
      apply encoded.imp
      intro message frame encoded more
      exact nextMessage_eq_some.mpr (decodeMessage_encodeMessage encoded more)
    exact incremental_nextMessage.consume_frames chunks each [] [] cut incremental_nextMessage.empty

end OpalCpp.EventStream

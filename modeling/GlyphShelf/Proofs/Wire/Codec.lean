import GlyphShelf.Wire.Frame

/-!
# The codec is exact

A frame has one encoding, and no other bytes are read as that frame. Bodies are treated one
kind at a time: each reader accepts exactly the bytes that the body of some frame consists
of. `Frame.take_eq_some_iff` then says what a stream looks like from which something can be
cut off, whether it is a frame or not.
-/

namespace GlyphShelf

namespace Text

/-- Text is read from its own bytes and from no others. -/
theorem decode_eq_ok_iff {bytes : Bytes} {text : String} :
    decode bytes = .ok text ↔ encode text = bytes := by
  have bytes_of_text : encode text = bytes ↔ text.toByteArray = ⟨bytes.toArray⟩ := by
    rw [ByteArray.ext_iff, ← Array.toList_inj]
    rfl
  rw [bytes_of_text]
  unfold decode String.fromUTF8?
  by_cases valid : ByteArray.IsValidUTF8 ⟨bytes.toArray⟩
  · simp only [dif_pos valid, Except.ok.injEq]
    exact String.toByteArray_inj.symm.trans eq_comm
  · simp only [dif_neg valid, reduceCtorEq, false_iff]
    rintro same
    exact valid (same ▸ text.isValidUTF8)

end Text

namespace Frame

theorem exists_of_map_eq_ok {α β ε : Type} {f : α → β} {result : Except ε α} {b : β}
    (h : result.map f = .ok b) : ∃ a, result = .ok a ∧ f a = b := by
  cases result with
  | error e => cases h
  | ok a => exact ⟨a, rfl, Except.ok.inj h⟩

/-! ## Bodies -/

@[simp] theorem length_wordBytes (word : UInt16) : (wordBytes word).length = 2 := rfl

theorem wordBytes_eq_iff {word : UInt16} {high low : UInt8} :
    wordBytes word = [high, low] ↔ word = Bytes.word high low := by
  constructor
  · intro same
    obtain ⟨rfl, rfl⟩ : Bytes.highByte word = high ∧ Bytes.lowByte word = low := by
      simpa [wordBytes] using same
    exact (Bytes.word_highByte_lowByte word).symm
  · rintro rfl
    simp [wordBytes]

theorem readWord_eq_ok_iff {body : Bytes} {word : UInt16} :
    readWord body = .ok word ↔ wordBytes word = body := by
  match body with
  | [high, low] => rw [wordBytes_eq_iff, readWord, Except.ok.injEq, eq_comm]
  | [] | [_] | _ :: _ :: _ :: _ => simp [readWord, wordBytes]

theorem readKey_eq_ok_iff {body : Bytes} {key : Key} :
    readKey body = .ok key ↔ wordBytes key.code = body := by
  rw [← readWord_eq_ok_iff, readKey]
  cases readWord body with
  | error problem => simp [Except.map]
  | ok word =>
    obtain ⟨code⟩ := key
    simp [Except.map]

theorem readPayload_eq_ok_iff {body payload : Bytes} {key : Key} :
    readPayload body = .ok (key, payload) ↔ wordBytes key.code ++ payload = body := by
  match body with
  | [] | [_] => simp [readPayload, wordBytes]
  | high :: low :: rest =>
    have split : wordBytes key.code ++ payload = high :: low :: rest ↔
        wordBytes key.code = [high, low] ∧ payload = rest := by
      simp [wordBytes, and_assoc]
    obtain ⟨code⟩ := key
    rw [split, wordBytes_eq_iff]
    simp [readPayload, eq_comm]

theorem readEmpty_eq_ok_iff {body : Bytes} {frame result : Frame} :
    readEmpty frame body = .ok result ↔ frame = result ∧ body = [] := by
  cases body <;> simp [readEmpty]

theorem readText_eq_ok_iff {body : Bytes} {text : String} :
    readText body = .ok text ↔ Text.encode text = body := by
  rw [← Text.decode_eq_ok_iff, readText]
  cases Text.decode body with
  | error problem => exact ⟨(nomatch ·), (nomatch ·)⟩
  | ok decoded => exact ⟨fun h => congrArg _ (Except.ok.inj h), fun h => congrArg _ (Except.ok.inj h)⟩

/-- The body of a frame is read as that frame. -/
theorem ofBody_kind_body (frame : Frame) : ofBody frame.kind frame.body = .ok frame := by
  cases frame with
  | request key | lookup key | missing key =>
    have read : readKey (wordBytes key.code) = .ok key := readKey_eq_ok_iff.mpr rfl
    simp [ofBody, kind, body, read, Except.map]
  | download key payload | glyph key payload =>
    have read : readPayload (wordBytes key.code ++ payload) = .ok (key, payload) :=
      readPayload_eq_ok_iff.mpr rfl
    simp [ofBody, kind, body, read, Except.map]
  | stored count =>
    have read : readWord (wordBytes count) = .ok count := readWord_eq_ok_iff.mpr rfl
    simp [ofBody, kind, body, read, Except.map]
  | report text | refused text =>
    have read : readText (Text.encode text) = .ok text := readText_eq_ok_iff.mpr rfl
    simp [ofBody, kind, body, read, Except.map]
  | stats | reset | done => rfl

/-- A body is read as a frame only if it is the body of that frame, and the frame is of the kind
that was asked for. -/
theorem kind_body_of_ofBody {expected : Kind} {bytes : Bytes} {frame : Frame}
    (h : ofBody expected bytes = .ok frame) : frame.kind = expected ∧ frame.body = bytes := by
  cases expected with
  | request | lookup | missing =>
    obtain ⟨key, read, rfl⟩ := exists_of_map_eq_ok h
    exact ⟨rfl, readKey_eq_ok_iff.mp read⟩
  | download | glyph =>
    obtain ⟨⟨key, payload⟩, read, rfl⟩ := exists_of_map_eq_ok h
    exact ⟨rfl, readPayload_eq_ok_iff.mp read⟩
  | stored =>
    obtain ⟨count, read, rfl⟩ := exists_of_map_eq_ok h
    exact ⟨rfl, readWord_eq_ok_iff.mp read⟩
  | report | refused =>
    obtain ⟨text, read, rfl⟩ := exists_of_map_eq_ok h
    exact ⟨rfl, readText_eq_ok_iff.mp read⟩
  | stats | reset | done =>
    obtain ⟨rfl, rfl⟩ := readEmpty_eq_ok_iff.mp h
    exact ⟨rfl, rfl⟩

/-- What the readers of bodies have in common: bytes are accepted as a frame of their kind
exactly if they are its body. -/
theorem ofOpcode_eq_ok_iff {opcode : UInt8} {body : Bytes} {frame : Frame} :
    ofOpcode opcode body = .ok frame ↔ frame.kind.opcode = opcode ∧ frame.body = body := by
  constructor
  · intro read
    unfold ofOpcode at read
    split at read
    · rename_i kind known
      obtain ⟨rfl, rfl⟩ := kind_body_of_ofBody read
      exact ⟨Kind.opcode_of_ofOpcode? known, rfl⟩
    · cases read
  · rintro ⟨rfl, rfl⟩
    simp [ofOpcode, ofBody_kind_body]

/-! ## Streams -/

/-- The length that the header of a stream gives for the body that follows it. -/
def declared (stream : Bytes) : Nat := (Bytes.word (stream.getD 1 0) (stream.getD 2 0)).toNat

theorem wanted_eq_declared {stream : Bytes} (header : 3 ≤ stream.length) :
    wanted stream = 3 + declared stream := by
  match stream, header with
  | _ :: _ :: _ :: _, _ => rfl

/-- A stream from which something can be cut off consists of a header, a body as long as the
header says, and what is left. -/
theorem take_eq_some_iff {stream rest : Bytes} {result : Except Problem Frame} :
    take stream = some (result, rest) ↔ ∃ opcode high low body,
      body.length = (Bytes.word high low).toNat ∧ stream = opcode :: high :: low :: body ++ rest ∧
        result = ofOpcode opcode body := by
  constructor
  · intro cut
    match stream with
    | [] | [_] | [_, _] => simp [take] at cut
    | opcode :: high :: low :: more =>
      obtain ⟨whole, rfl, rfl⟩ :
          (Bytes.word high low).toNat ≤ more.length ∧
            ofOpcode opcode (more.take (Bytes.word high low).toNat) = result ∧
              more.drop (Bytes.word high low).toNat = rest := by
        simpa only [take, List.length_take, Nat.lt_min, Nat.not_lt, Option.ite_none_left_eq_some,
          Option.some.injEq, Prod.mk.injEq, Nat.le_min, Nat.le_refl, true_and] using cut
      refine ⟨opcode, high, low, more.take (Bytes.word high low).toNat, ?_, ?_, rfl⟩
      · exact (List.length_take ..).trans (Nat.min_eq_left whole)
      · simp
  · rintro ⟨opcode, high, low, body, size, rfl, rfl⟩
    simp [take, ← size]

/-- The length of a body that is not too large fits the length field. -/
theorem word_of_length {size : Nat} (small : size ≤ 65535) :
    (UInt16.ofNat size).toNat = size :=
  UInt16.toNat_ofNat_of_lt (Nat.lt_succ_of_le small)

theorem encode_eq_ok_iff {frame : Frame} {bytes : Bytes} :
    frame.encode = .ok bytes ↔ frame.body.length ≤ 65535 ∧
      bytes = frame.kind.opcode :: wordBytes (.ofNat frame.body.length) ++ frame.body := by
  by_cases large : 65535 < frame.body.length
  · simp [encode, maxBody, large, Nat.not_le_of_lt large]
  · simp [encode, maxBody, large, Nat.le_of_not_lt large, eq_comm]

theorem encode_eq_error_iff {frame : Frame} :
    (∃ problem, frame.encode = .error problem) ↔ 65535 < frame.body.length := by
  by_cases large : 65535 < frame.body.length <;> simp [encode, maxBody, large]

/-- A frame is cut off exactly if the stream starts with its encoding. -/
theorem take_eq_ok_iff {stream rest : Bytes} {frame : Frame} :
    take stream = some (.ok frame, rest) ↔
      ∃ bytes, frame.encode = .ok bytes ∧ stream = bytes ++ rest := by
  rw [take_eq_some_iff]
  constructor
  · rintro ⟨opcode, high, low, body, size, rfl, read⟩
    obtain ⟨rfl, rfl⟩ := ofOpcode_eq_ok_iff.mp read.symm
    have small := (Bytes.word high low).toNat_lt
    refine ⟨_, encode_eq_ok_iff.mpr ⟨by omega, rfl⟩, ?_⟩
    rw [size, UInt16.ofNat_toNat, wordBytes_eq_iff.mpr rfl]
    rfl
  · rintro ⟨_, written, rfl⟩
    obtain ⟨small, rfl⟩ := encode_eq_ok_iff.mp written
    refine ⟨frame.kind.opcode, _, _, frame.body, ?_, rfl, (ofOpcode_eq_ok_iff.mpr ⟨rfl, rfl⟩).symm⟩
    rw [Bytes.word_highByte_lowByte, word_of_length small]

/-- What is cut off is as long as the header says, also when it is no frame. -/
theorem length_of_take {stream rest : Bytes} {result : Except Problem Frame}
    (cut : take stream = some (result, rest)) :
    stream.length = 3 + declared stream + rest.length ∧ rest = stream.drop (3 + declared stream) := by
  obtain ⟨opcode, high, low, body, size, rfl, -⟩ := take_eq_some_iff.mp cut
  have whole : declared (opcode :: high :: low :: body ++ rest) = body.length := size.symm
  rw [whole]
  constructor
  · simp
    omega
  · simp [Nat.add_comm 3]

/-- Nothing can be cut off as long as the header or the body is incomplete. -/
theorem take_eq_none_iff_short {stream : Bytes} :
    take stream = none ↔ stream.length < 3 ∨ stream.length < 3 + declared stream := by
  rw [take_eq_none_iff]
  by_cases header : 3 ≤ stream.length
  · rw [wanted_eq_declared header]
    omega
  · rw [wanted_of_short (Nat.lt_of_not_le header)]
    omega

/-- The codec is exact. What is cut off as a frame is the encoding of that frame and nothing
else is; only frames with bodies over 65535 bytes have no encoding; a stream is left as it is
exactly as long as the first three bytes or the body they announce are incomplete; and what is
no frame is removed with the length that its header gives. -/
theorem codec_exact (stream : Bytes) :
    (∀ frame rest, take stream = some (.ok frame, rest) ↔
      ∃ bytes, frame.encode = .ok bytes ∧ stream = bytes ++ rest) ∧
    (∀ frame : Frame, (∃ problem, frame.encode = .error problem) ↔ 65535 < frame.body.length) ∧
    (take stream = none ↔ stream.length < 3 ∨ stream.length < 3 + declared stream) ∧
    (take stream = none → takeAll stream = ([], stream)) ∧
    (∀ problem rest, take stream = some (.error problem, rest) →
      3 + declared stream ≤ stream.length ∧ rest = stream.drop (3 + declared stream)) := by
  refine ⟨fun frame rest => take_eq_ok_iff, fun frame => encode_eq_error_iff,
    take_eq_none_iff_short, ?_, ?_⟩
  · intro incomplete
    rw [takeAll_eq, incomplete]
  · intro problem rest cut
    obtain ⟨size, dropped⟩ := length_of_take cut
    exact ⟨by omega, dropped⟩

/-- A look-up with one byte too many is removed as a whole, and the frame after it is left. -/
theorem malformed_lookup_removed :
    take [0x03, 0, 3, 1, 2, 3, 0x04, 0, 0] = some (.error (.notAWord 3), [0x04, 0, 0]) ∧
      ([0x04, 0, 0] : Bytes) = [0x03, 0, 3, 1, 2, 3, 0x04, 0, 0].drop 6 ∧
      take [0x04, 0] = none ∧ takeAll [0x04, 0] = ([], [0x04, 0]) := by
  have cut : take [0x03, 0, 3, 1, 2, 3, 0x04, 0, 0] = some (.error (.notAWord 3), [0x04, 0, 0]) :=
    rfl
  have incomplete : take [0x04, 0] = none := rfl
  exact ⟨cut, ((codec_exact _).2.2.2.2 _ _ cut).2, incomplete,
    (codec_exact _).2.2.2.1 incomplete⟩

end Frame

end GlyphShelf

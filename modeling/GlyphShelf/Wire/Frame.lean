import GlyphShelf.Key
import GlyphShelf.Numeral
import GlyphShelf.Wire.Text

/-!
# Frames

What travels between the shelf and its peer: one byte that tells the kind, the length of the
body in two bytes, high byte first, and the body. Keys and counts in a body are two bytes,
high byte first.

`Frame.encode` writes a frame and `Frame.take` cuts one off the front of a stream. A body
that does not fit its kind is refused, but its bytes are cut off all the same, so that the
next frame is found.
-/

namespace GlyphShelf

inductive Frame
  /-- The shelf asks the peer for a glyph. -/
  | request (key : Key)
  /-- The peer delivers a glyph. -/
  | download (key : Key) (payload : Bytes)
  /-- The peer asks for a glyph. -/
  | lookup (key : Key)
  /-- The peer asks for the tally. -/
  | stats
  /-- The peer asks for an empty shelf. -/
  | reset
  /-- A delivery was stored; so many glyphs are on the shelf now. -/
  | stored (count : UInt16)
  /-- The glyph that was looked up. -/
  | glyph (key : Key) (payload : Bytes)
  /-- The glyph that was looked up is not there. -/
  | missing (key : Key)
  /-- The tally. -/
  | report (json : String)
  /-- The command was carried out. -/
  | done
  /-- The command was not carried out. -/
  | refused (reason : String)
deriving DecidableEq

namespace Frame

inductive Kind
  | request
  | download
  | lookup
  | stats
  | reset
  | stored
  | glyph
  | missing
  | report
  | done
  | refused
deriving DecidableEq

namespace Kind

/-- The first byte of a frame. Commands of the peer and requests to it are small numbers, and
answers have the highest bit set. -/
def opcode : Kind → UInt8
  | request => 0x01
  | download => 0x02
  | lookup => 0x03
  | stats => 0x04
  | reset => 0x05
  | stored => 0x80
  | glyph => 0x83
  | missing => 0x84
  | report => 0x85
  | done => 0x86
  | refused => 0xFF

def all : List Kind :=
  [request, download, lookup, stats, reset, stored, glyph, missing, report, done, refused]

def ofOpcode? (byte : UInt8) : Option Kind := all.find? fun kind => kind.opcode = byte

def name : Kind → String
  | request => "REQUEST"
  | download => "DOWNLOAD"
  | lookup => "LOOKUP"
  | stats => "STATS"
  | reset => "RESET"
  | stored => "STORED"
  | glyph => "GLYPH"
  | missing => "MISSING"
  | report => "STATS_REPORT"
  | done => "OK"
  | refused => "ERROR"

@[simp] theorem ofOpcode?_opcode (kind : Kind) : ofOpcode? kind.opcode = some kind := by
  cases kind <;> decide

theorem opcode_of_ofOpcode? {byte : UInt8} {kind : Kind} (h : ofOpcode? byte = some kind) :
    kind.opcode = byte := by
  simpa using List.find?_some h

end Kind

def kind : Frame → Kind
  | request _ => .request
  | download _ _ => .download
  | lookup _ => .lookup
  | stats => .stats
  | reset => .reset
  | stored _ => .stored
  | glyph _ _ => .glyph
  | missing _ => .missing
  | report _ => .report
  | done => .done
  | refused _ => .refused

inductive Problem
  /-- The body is longer than its length field can say. -/
  | bodyTooLarge (size : Nat)
  /-- No kind has this first byte. -/
  | unknownKind (opcode : UInt8)
  /-- The body should be a word. -/
  | notAWord (size : Nat)
  /-- The body should start with a key. -/
  | noKey
  /-- The body should be empty. -/
  | notEmpty (size : Nat)
  /-- The body should be text. -/
  | notText (problem : Text.Problem)
deriving DecidableEq

def maxBody : Nat := 65535

def Problem.text : Problem → String
  | bodyTooLarge size =>
    "frame body too large: " ++ toString size ++ " bytes (max: " ++ toString maxBody ++ " bytes)"
  | unknownKind opcode => "Unknown frame op: 0x" ++ Numeral.hex 2 opcode.toNat
  | notAWord size => "Expected 2-byte body, got " ++ toString size ++ " bytes"
  | noKey => "Body too short for a key"
  | notEmpty size => "Expected empty body, got " ++ toString size ++ " bytes"
  | notText problem => problem.text

/-! ## Bodies -/

/-- A word, high byte first. -/
def wordBytes (word : UInt16) : Bytes := [Bytes.highByte word, Bytes.lowByte word]

def body : Frame → Bytes
  | request key => wordBytes key.code
  | download key payload => wordBytes key.code ++ payload
  | lookup key => wordBytes key.code
  | stats => []
  | reset => []
  | stored count => wordBytes count
  | glyph key payload => wordBytes key.code ++ payload
  | missing key => wordBytes key.code
  | report json => Text.encode json
  | done => []
  | refused reason => Text.encode reason

def readWord : Bytes → Except Problem UInt16
  | [high, low] => .ok (Bytes.word high low)
  | body => .error (.notAWord body.length)

def readKey (body : Bytes) : Except Problem Key := (readWord body).map Key.mk

def readPayload : Bytes → Except Problem (Key × Bytes)
  | high :: low :: payload => .ok (⟨Bytes.word high low⟩, payload)
  | _ => .error .noKey

/-- A body that says nothing. -/
def readEmpty (frame : Frame) : Bytes → Except Problem Frame
  | [] => .ok frame
  | body => .error (.notEmpty body.length)

def readText (body : Bytes) : Except Problem String := (Text.decode body).mapError .notText

def ofBody (kind : Kind) (body : Bytes) : Except Problem Frame :=
  match kind with
  | .request => (readKey body).map request
  | .download => (readPayload body).map fun (key, payload) => download key payload
  | .lookup => (readKey body).map lookup
  | .stats => readEmpty stats body
  | .reset => readEmpty reset body
  | .stored => (readWord body).map stored
  | .glyph => (readPayload body).map fun (key, payload) => glyph key payload
  | .missing => (readKey body).map missing
  | .report => (readText body).map report
  | .done => readEmpty done body
  | .refused => (readText body).map refused

def ofOpcode (opcode : UInt8) (body : Bytes) : Except Problem Frame :=
  match Kind.ofOpcode? opcode with
  | some kind => ofBody kind body
  | none => .error (.unknownKind opcode)

/-! ## Streams -/

def encode (frame : Frame) : Except Problem Bytes :=
  let body := frame.body
  if maxBody < body.length then .error (.bodyTooLarge body.length)
  else .ok (frame.kind.opcode :: wordBytes (UInt16.ofNat body.length) ++ body)

/-- Cuts a frame off the front of a stream: the frame, or why there is none, and what follows.
None if the stream has not brought the whole frame yet. -/
def take : Bytes → Option (Except Problem Frame × Bytes)
  | opcode :: high :: low :: rest =>
    let length := (Bytes.word high low).toNat
    let body := rest.take length
    if body.length < length then none
    else some (ofOpcode opcode body, rest.drop length)
  | _ => none

theorem length_lt_of_take {stream rest : Bytes} {result : Except Problem Frame}
    (h : take stream = some (result, rest)) : rest.length < stream.length := by
  unfold take at h
  split at h
  · dsimp only at h
    split at h
    · simp at h
    · obtain ⟨_, rfl⟩ := Prod.mk.inj (Option.some.inj h)
      simp only [List.length_drop, List.length_cons]
      omega
  · simp at h

/-- Cuts off frames as long as there are whole ones; `taken` are those before, the last one
first. What follows is the start of one more. -/
def takeAllAfter (taken : List (Except Problem Frame)) (stream : Bytes) :
    List (Except Problem Frame) × Bytes :=
  match _h : take stream with
  | none => (taken.reverse, stream)
  | some (result, rest) => takeAllAfter (result :: taken) rest
termination_by stream.length
decreasing_by exact length_lt_of_take ‹_›

/-- Cuts off frames as long as there are whole ones; what follows is the start of one more. -/
def takeAll (stream : Bytes) : List (Except Problem Frame) × Bytes := takeAllAfter [] stream

/-- How long a stream has to be before a frame can be cut off. -/
def wanted : Bytes → Nat
  | _ :: high :: low :: _ => 3 + (Bytes.word high low).toNat
  | _ => 3

theorem takeAllAfter_eq (taken : List (Except Problem Frame)) (stream : Bytes) :
    takeAllAfter taken stream = (taken.reverse ++ (takeAll stream).1, (takeAll stream).2) := by
  unfold takeAll
  induction h : stream.length using Nat.strongRecOn generalizing stream taken with
  | ind length ih =>
    subst h
    rw [takeAllAfter, takeAllAfter]
    split
    · simp
    · rename_i result rest cut
      have shorter := length_lt_of_take cut
      rw [ih _ shorter (result :: taken) rest rfl, ih _ shorter [result] rest rfl]
      simp

/-- The frames of a stream are the first one and those of what follows it. -/
theorem takeAll_eq (stream : Bytes) :
    takeAll stream =
      match take stream with
      | none => ([], stream)
      | some (result, rest) => (result :: (takeAll rest).1, (takeAll rest).2) := by
  rw [takeAll, takeAllAfter]
  split
  · simp [*]
  · rename_i result rest cut
    simp [cut, takeAllAfter_eq]

theorem take_eq_none_iff (stream : Bytes) : take stream = none ↔ stream.length < wanted stream := by
  match stream with
  | [] | [_] | [_, _] => simp [take, wanted]
  | opcode :: high :: low :: rest =>
    simp only [take, wanted, ite_eq_left_iff, reduceCtorEq, imp_false, Decidable.not_not,
      List.length_take, List.length_cons]
    omega

/-- Once its first three bytes are there, what comes later changes nothing in how long a stream
has to be. -/
theorem wanted_append {stream : Bytes} (h : 3 ≤ stream.length) (more : Bytes) :
    wanted (stream ++ more) = wanted stream := by
  match stream, h with
  | _ :: _ :: _ :: _, _ => rfl

theorem wanted_of_short {stream : Bytes} (h : stream.length < 3) : wanted stream = 3 := by
  match stream, h with
  | [], _ | [_], _ | [_, _], _ => rfl

/-- Nothing is left that could still be cut off. -/
theorem take_takeAll (stream : Bytes) : take (takeAll stream).2 = none := by
  induction h : stream.length using Nat.strongRecOn generalizing stream with
  | ind length ih =>
    subst h
    rw [takeAll_eq]
    split
    · assumption
    · rename_i result rest cut
      exact ih _ (length_lt_of_take cut) rest rfl

end Frame

end GlyphShelf

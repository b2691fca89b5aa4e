import GlyphShelf.Bytes
import GlyphShelf.Failure

/-!
# Links

The neighbours of a key in the recency ring, stored in four bytes: first the more recent
neighbour, then the less recent one, each as a little-endian word. Either field can be
overwritten alone at its offset.
-/

namespace GlyphShelf

/-- The neighbours of a key. -/
structure Link where
  /-- The next more recent key, or the head anchor. -/
  prev : Key
  /-- The next less recent key, or the tail anchor. -/
  next : Key
deriving DecidableEq

/-- A key as two bytes, the low one first. -/
def Key.encode (key : Key) : Bytes := [Bytes.lowByte key.code, Bytes.highByte key.code]

@[simp] theorem Key.length_encode (key : Key) : key.encode.length = 2 := rfl

namespace Link

def size : Nat := 4

inductive Field
  | prev
  | next
deriving DecidableEq

def Field.offset : Field → Nat
  | prev => 0
  | next => 2

def get (link : Link) : Field → Key
  | .prev => link.prev
  | .next => link.next

def set (link : Link) (field : Field) (key : Key) : Link :=
  match field with
  | .prev => { link with prev := key }
  | .next => { link with next := key }

def encode (link : Link) : Bytes := link.prev.encode ++ link.next.encode

/-- Reads a stored link; bytes after the fourth are ignored. -/
def decode : Bytes → Except Failure Link
  | prevLow :: prevHigh :: nextLow :: nextHigh :: _ =>
    .ok ⟨⟨Bytes.word prevHigh prevLow⟩, ⟨Bytes.word nextHigh nextLow⟩⟩
  | short => .error (.corrupt (.shortLink short.length))

/-- Both fields lie within a stored link. -/
theorem Field.offset_add_two_le (field : Field) : field.offset + 2 ≤ size := by
  cases field <;> decide

@[simp] theorem length_encode (link : Link) : link.encode.length = size := rfl

@[simp] theorem decode_encode_append (link : Link) (rest : Bytes) :
    decode (link.encode ++ rest) = .ok link := by
  simp [encode, Key.encode, decode]

@[simp] theorem decode_encode (link : Link) : decode link.encode = .ok link := by
  simpa using decode_encode_append link []

end Link

end GlyphShelf

import GlyphShelf.Bytes

/-!
# Text on the wire

Text travels as UTF-8. Bytes that are no UTF-8 are refused with the place of the first
problem: the index of the character that cannot be read, and how many of its bytes are
known to be wrong, unless the bytes end before that is known.
-/

namespace GlyphShelf.Text

inductive Problem
  /-- So many bytes from the index on cannot be part of any character. -/
  | invalid (length index : Nat)
  /-- The bytes end within the character at the index. -/
  | incomplete (index : Nat)
deriving DecidableEq

def Problem.text : Problem → String
  | invalid length index =>
    "invalid utf-8 sequence of " ++ toString length ++ " bytes from index " ++ toString index
  | incomplete index => "incomplete utf-8 byte sequence from index " ++ toString index

def encode (text : String) : Bytes := text.toUTF8.data.toList

/-- What is found where a character should start. -/
inductive Start
  /-- A character of so many bytes. -/
  | whole (length : Nat)
  /-- So many bytes that start no character. -/
  | broken (length : Nat)
  /-- The beginning of a character, and the end of the bytes. -/
  | cut
deriving DecidableEq

/-- Reads continuation bytes after `passed` bytes of a character. The first of them may be
limited further by the lead byte, every other one lies between `0x80` and `0xBF`. -/
def continuations : (count : Nat) → (low high : UInt8) → (passed : Nat) → Bytes → Start
  | 0, _, _, passed, _ => .whole passed
  | _ + 1, _, _, _, [] => .cut
  | count + 1, low, high, passed, byte :: rest =>
    if low ≤ byte && byte ≤ high then continuations count 0x80 0xBF (passed + 1) rest
    else .broken passed

/-- Reads one character. Lead bytes of overlong forms, of surrogates and of numbers above
`0x10FFFF` limit the byte after them, or start no character at all. -/
def start : Bytes → Start
  | [] => .cut
  | lead :: rest =>
    if lead < 0x80 then .whole 1
    else if lead < 0xC2 then .broken 1
    else if lead < 0xE0 then continuations 1 0x80 0xBF 1 rest
    else if lead = 0xE0 then continuations 2 0xA0 0xBF 1 rest
    else if lead = 0xED then continuations 2 0x80 0x9F 1 rest
    else if lead < 0xF0 then continuations 2 0x80 0xBF 1 rest
    else if lead = 0xF0 then continuations 3 0x90 0xBF 1 rest
    else if lead < 0xF4 then continuations 3 0x80 0xBF 1 rest
    else if lead = 0xF4 then continuations 3 0x80 0x8F 1 rest
    else .broken 1

/-- The first problem of bytes that are no UTF-8, looked for in at most so many characters. -/
def firstProblem : (characters : Nat) → (index : Nat) → Bytes → Problem
  | 0, index, _ => .incomplete index
  | characters + 1, index, bytes =>
    match start bytes with
    | .whole length => firstProblem characters (index + length) (bytes.drop length)
    | .broken length => .invalid length index
    | .cut => .incomplete index

def decode (bytes : Bytes) : Except Problem String :=
  match String.fromUTF8? ⟨bytes.toArray⟩ with
  | some text => .ok text
  | none => .error (firstProblem bytes.length 0 bytes)

end GlyphShelf.Text

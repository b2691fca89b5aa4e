import GlyphShelf.Action

/-!
# Devices

What the ring and the payloads ask of the device that holds the records: opening,
deleting and listing them by name, and a cursor that reads and writes an open one.
Whatever needs several of these steps is defined here once for every device: reading a
given number of bytes, reading to the end, asking for existence, and closing a record
after use.
-/

namespace GlyphShelf

inductive Access
  /-- Reading only; the record has to exist. -/
  | readOnly
  /-- Reading and writing; the record has to exist. -/
  | readWrite
  /-- Reading and writing; a missing record is created empty. -/
  | create
  /-- Reading and writing an empty record: contents are discarded, a missing record is created. -/
  | truncate
deriving DecidableEq

namespace Access

def writes : Access → Bool
  | readOnly => false
  | _ => true

def creates : Access → Bool
  | create | truncate => true
  | _ => false

end Access

/-- A device with states `σ` whose open records are described by `η`: which contents they read
and write, and where their cursor stands. Actions on `σ × η` work on one open record. -/
class Device (σ : Type) (η : outParam Type) where
  /-- Opens a record with the cursor at its start. -/
  openRecord : String → Access → Action σ η
  /-- At most so many bytes from the cursor on; none at the end. -/
  read : Nat → Action (σ × η) Bytes
  /-- Moves the cursor to a position counted from the start. -/
  seek : Nat → Action (σ × η) Unit
  /-- Writes all of the bytes at the cursor. -/
  write : Bytes → Action (σ × η) Unit
  /-- The present size of an open record. -/
  size : σ → η → Nat
  /-- Gives up an open record. -/
  close : η → Action σ Unit
  /-- Removes a record. -/
  delete : String → Action σ Unit
  /-- The names of all records. -/
  list : Action σ (List String)

namespace Device

variable {σ η α : Type} [Device σ η]

/-- Whether a record exists, found out by opening it. -/
@[specialize] def hasRecord (name : String) : Action σ Bool := fun s =>
  match openRecord name .readOnly s with
  | .ok record s =>
    match close record s with
    | .ok () s => .ok true s
    | .error e s => .error e s
  | .error .notFound s => .ok false s
  | .error e s => .error e s

/-- Reads on until `wanted` bytes are there, with at most so many further reads. Every read
but one at the end of the record brings a byte, so `wanted` reads are always enough. -/
@[specialize] def readUpTo (wanted : Nat) :
    (reads : Nat) → (filled : Bytes) → Action (σ × η) Bytes
  | 0, filled => pure filled
  | reads + 1, filled =>
    if wanted ≤ filled.length then pure filled
    else do
      let more ← read (wanted - filled.length)
      if more.isEmpty then throw (.corrupt (.endOfRecord filled.length wanted))
      else readUpTo wanted reads (filled ++ more)

/-- Reads exactly `count` bytes; a record that ends before is damaged. -/
@[specialize] def readExact (count : Nat) : Action (σ × η) Bytes := readUpTo count count []

/-- How many bytes are asked for at a time on the way to the end of a record. -/
def chunkSize : Nat := 256

/-- Collects chunks until one is empty, with at most so many reads. -/
@[specialize] def readChunks : (reads : Nat) → (chunks : List Bytes) → Action (σ × η) Bytes
  | 0, chunks => pure chunks.reverse.flatten
  | reads + 1, chunks => do
    let chunk ← read chunkSize
    if chunk.isEmpty then pure chunks.reverse.flatten
    else readChunks reads (chunk :: chunks)

/-- Reads from the cursor to the end of the record. Every read but the last brings a byte, so
one read more than there are bytes is always enough. -/
@[specialize] def readToEnd : Action (σ × η) Bytes := fun (s, record) =>
  readChunks (size s record + 1) [] (s, record)

/-- Opens a record, works on it and closes it. It is closed also when `work` fails, and then
the failure of `work` is the one reported. -/
@[specialize] def withRecord (name : String) (access : Access) (work : Action (σ × η) α) :
    Action σ α := fun s =>
  match openRecord name access s with
  | .error e s => .error e s
  | .ok record s =>
    match work (s, record) with
    | .ok a (s, record) =>
      match close record s with
      | .ok () s => .ok a s
      | .error e s => .error e s
    | .error e (s, record) =>
      match close record s with
      | .ok () s => .error e s
      | .error _ s => .error e s

/-- Reads an open record to its end and closes it; a record that cannot be read is dropped
without being closed. -/
@[specialize] def takeAll (record : η) : Action σ Bytes := fun s =>
  match readToEnd (s, record) with
  | .error e (s, _) => .error e s
  | .ok bytes (s, record) =>
    match close record s with
    | .ok () s => .ok bytes s
    | .error e s => .error e s

end Device

end GlyphShelf

import GlyphShelf.Device
import GlyphShelf.Device.Cabinet
import GlyphShelf.Device.Listing

/-!
# A device in memory

Records in memory, with the means to study what happens when a device fails: it counts
its operations, can refuse to hold more than a quota of bytes, and can be told to fail
the operation after the next few.

Positions, sizes and the count of bytes are words, and nothing catches a sum that no word holds.
The bytes that records were ever given are taken to be fewer than that, so counting them is exact.
But a cursor may be anywhere, and a write far behind the end of a record is charged before it turns
out that no record is that large; then the program stops.

Opening, deleting, listing, reading, seeking, writing and closing are operations: each
counts, and each can be made to fail. Asking for a size, dropping an open record, and
looking at or replacing contents from outside are not.
-/

namespace GlyphShelf

structure Memory where
  cabinet : Cabinet String := {}
  /-- The number of bytes that records may hold together, if limited. -/
  quota : Option Nat := none
  /-- The number of bytes charged that a record got. -/
  used : Nat := 0
  /-- The number of bytes charged that no record could get. -/
  overcharge : Nat := 0
  /-- Operations so far. -/
  ops : Nat := 0
  /-- Operations to succeed before one fails, if a failure is armed. -/
  fault : Option Nat := none
  listing : Listing := .asStored

namespace Memory

/-- An open record: what it refers to, its cursor, and whether it accepts writes. -/
structure Handle where
  ref : Cabinet.Ref String
  pos : Nat
  writable : Bool

/-- Counts an operation, and fails it if it is the one that was armed to fail. -/
def tick : Action Memory Unit := fun m =>
  match m.fault with
  | none => .ok () { m with ops := m.ops + 1 }
  | some 0 => .error (.device .injected) { m with ops := m.ops + 1, fault := none }
  | some (left + 1) => .ok () { m with ops := m.ops + 1, fault := some left }

/-- The most bytes that a record can hold. -/
def maxExtent : Nat := UInt64.size / 2 - 1

/-- The count of bytes charged. Only an overcharge gets it around all words. -/
def count (m : Memory) : Nat :=
  if m.overcharge = 0 then m.used else (m.used + m.overcharge) % UInt64.size

def keepsQuota (m : Memory) : Bool :=
  match m.quota with
  | none => true
  | some quota => decide (m.count ≤ quota)

def hasRoom (m : Memory) (grow : Nat) : Bool := { m with used := m.used + grow }.keepsQuota

def get? (m : Memory) (name : String) : Option Bytes := m.cabinet.get? name

/-- Opens a record. Emptying one gives its bytes back to the quota. -/
def openRecord (name : String) (access : Access) : Action Memory Handle := do
  tick
  fun m =>
    match m.cabinet.ref? name with
    | some ref =>
      let handle : Handle := ⟨ref, 0, access.writes⟩
      if access = .truncate then
        .ok handle { m with
          cabinet := m.cabinet.write ref .empty
          used := m.used - (m.cabinet.read ref).size }
      else .ok handle m
    | none =>
      if access.creates then
        .ok ⟨⟨name, m.cabinet.nextSerial⟩, 0, access.writes⟩
          { m with cabinet := m.cabinet.create name .empty }
      else .error .notFound m

def read (count : Nat) : Action (Memory × Handle) Bytes := do
  Action.onFirst tick
  fun (m, handle) =>
    let bytes := (m.cabinet.read handle.ref).slice handle.pos count
    .ok bytes (m, { handle with pos := handle.pos + bytes.length })

def seek (pos : Nat) : Action (Memory × Handle) Unit := do
  Action.onFirst tick
  fun (m, handle) => .ok () (m, { handle with pos })

/-- Whether a write leaves a gap behind the end that no record can have. -/
def overruns (m : Memory) (handle : Handle) (bytes : Bytes) : Bool :=
  (m.cabinet.read handle.ref).size < handle.pos && maxExtent < handle.pos + bytes.length

/-- Where a write ends, as a word. -/
def Handle.stop (handle : Handle) (bytes : Bytes) : Nat :=
  (handle.pos + bytes.length) % UInt64.size

/-- What a write that overruns has done when the program stops. If its end got around all words, the
record was made as long as that; otherwise the bytes were only charged. -/
def afterOverrun (m : Memory) (handle : Handle) (bytes : Bytes) : Memory :=
  let old := m.cabinet.read handle.ref
  let stop := handle.stop bytes
  if maxExtent < stop then { m with overcharge := m.overcharge + (stop - old.size) }
  else
    { m with
      cabinet := m.cabinet.write handle.ref (old.overlay stop [])
      used := m.used + (stop - old.size) }

/-- A write charges the bytes by which the record grows, also through a record whose name is
gone. A write of no bytes behind the end grows the record up to the cursor. -/
def write (bytes : Bytes) : Action (Memory × Handle) Unit := do
  Action.onFirst tick
  fun (m, handle) =>
    if handle.writable then
      let old := m.cabinet.read handle.ref
      if m.overruns handle bytes then
        let after := m.afterOverrun handle bytes
        if handle.stop bytes ≤ old.size || after.keepsQuota then
          .error .halted (after, handle)
        else .error .outOfSpace (m, handle)
      else
        let stop := handle.pos + bytes.length
        let grow := stop - old.size
        if grow = 0 || m.hasRoom grow then
          .ok ()
            ({ m with
                cabinet := m.cabinet.write handle.ref (old.overlay handle.pos bytes)
                used := m.used + grow },
              { handle with pos := stop })
        else .error .outOfSpace (m, handle)
    else .error (.device .readOnly) (m, handle)

def size (m : Memory) (handle : Handle) : Nat := (m.cabinet.read handle.ref).size

/-- Deletes a record and gives its bytes back to the quota. Who has it open keeps it. -/
def delete (name : String) : Action Memory Unit := do
  tick
  fun m =>
    match m.cabinet.contents? name with
    | some contents => .ok ()
        { m with cabinet := m.cabinet.remove name, used := m.used - contents.size }
    | none => .error .notFound m

def list : Action Memory (List String) := do
  tick
  fun m => .ok (m.listing.arrange m.cabinet.names) m

instance : Device Memory Memory.Handle where
  openRecord := openRecord
  read := read
  seek := seek
  write := write
  size := size
  close _ := tick
  delete := delete
  list := list

/-! ## From outside -/

/-- Lets the operation after the next `left` fail. -/
def failAfter (m : Memory) (left : Nat) : Memory := { m with fault := some left }

def clearFault (m : Memory) : Memory := { m with fault := none }

/-- Puts contents under a name without counting or checking the quota. -/
def poke (m : Memory) (name : String) (bytes : Bytes) : Memory :=
  { m with
    cabinet := m.cabinet.put name (.ofBytes bytes)
    used := m.used - ((m.cabinet.contents? name).getD .empty).size + bytes.length }

/-- A number that may be absent, as it is shown. -/
private def optionText : Option Nat → String
  | none => "None"
  | some n => "Some(" ++ toString n ++ ")"

def summary (m : Memory) : String :=
  "MemStorage \x7b records: " ++ toString m.cabinet.names.length ++ ", used: " ++ toString m.count ++
    ", quota: " ++ optionText m.quota ++ " \x7d"

def Handle.summary (handle : Handle) (m : Memory) : String :=
  "MemRecord \x7b len: " ++ toString (m.size handle) ++ ", pos: " ++ toString handle.pos ++
    ", writable: " ++ (if handle.writable then "true" else "false") ++ " \x7d"

end Memory

end GlyphShelf

import GlyphShelf.Payloads
import GlyphShelf.Ring
import GlyphShelf.Tally

/-!
# Shelves

A shelf holds a bounded number of glyphs on a device and drops the least recently used
ones. Payloads and order are both on the device; in memory a shelf has only its capacity,
the number of keys in its ring, and a tally.

A glyph is on the shelf when its key is in the ring. Storing first writes the payload and
then changes the ring, dropping first changes the ring and then deletes the payload, so
what a failure can leave behind is at worst a payload too many.
-/

namespace GlyphShelf

structure Settings where
  /-- The greatest number of glyphs. -/
  capacity : Nat := 250
  /-- Whether whatever the device holds is wiped, instead of being taken over. -/
  cold : Bool := true
deriving DecidableEq

/-- Capacities from one to the number of glyphs that keys can name are admitted. -/
def Settings.validate (settings : Settings) : Except Failure Unit :=
  if settings.capacity = 0 then .error (.invalidSettings .noRoom)
  else if maxCapacity < settings.capacity then
    .error (.invalidSettings (.beyondKeys settings.capacity))
  else .ok ()

/-- What a shelf keeps in memory. -/
structure Shelf where
  capacity : Nat
  /-- The number of keys in the ring. -/
  size : Nat := 0
  tally : Tally := {}
deriving DecidableEq

namespace Shelf

def record (shelf : Shelf) (event : Tally.Event) : Shelf :=
  { shelf with tally := shelf.tally.record event }

variable {σ η : Type} [Device σ η]

@[inline] def tell (event : Tally.Event) : Action (σ × Shelf) Unit := fun (s, shelf) =>
  .ok () (s, shelf.record event)

/-! ## Keeping within the capacity -/

/-- Drops the least recently used key from the ring, counts it, and deletes its payload. -/
@[specialize] def dropOldest : Action (σ × Shelf) Unit := do
  let victim ← Action.onFirst Ring.evict
  fun (s, shelf) => .ok () (s, { shelf with size := shelf.size - 1 }.record .eviction)
  Action.onFirst (Action.allowAbsence (Payloads.delete victim))

/-- Drops keys until the size is within the capacity, at most so many. -/
@[specialize] def dropExcess : (drops : Nat) → Action (σ × Shelf) Unit
  | 0 => pure ()
  | drops + 1 => fun (s, shelf) =>
    if shelf.size ≤ shelf.capacity then .ok () (s, shelf)
    else (do dropOldest; dropExcess drops : Action (σ × Shelf) Unit) (s, shelf)

theorem dropExcess_of_within {s : σ × Shelf} (drops : Nat) (fits : s.2.size ≤ s.2.capacity) :
    dropExcess drops s = .ok () s := by
  cases drops with
  | zero => rfl
  | succ drops => exact if_pos fits

theorem dropExcess_of_beyond {s : σ × Shelf} (drops : Nat) (excess : ¬ s.2.size ≤ s.2.capacity) :
    dropExcess (drops + 1) s = (do dropOldest; dropExcess drops : Action (σ × Shelf) Unit) s :=
  if_neg excess

@[specialize] def keepWithin : Action (σ × Shelf) Unit := fun (s, shelf) =>
  dropExcess shelf.size (s, shelf)

@[inline] def getSize : Action (σ × Shelf) Nat := fun (s, shelf) => .ok shelf.size (s, shelf)

/-- Drops what an earlier failure left in excess, and tells the size. -/
@[specialize] def reconcile : Action (σ × Shelf) Nat := do
  keepWithin
  getSize

/-! ## Opening and wiping -/

/-- Deletes the payloads of the given keys; some may be gone already. -/
@[specialize] def deletePayloads : List Key → Action σ Unit
  | [] => pure ()
  | key :: keys => do
    Action.allowAbsence (Payloads.delete key)
    deletePayloads keys

/-- Deletes all payloads and links, and sets up an empty ring. -/
@[specialize] def wipe : Action σ Unit := do
  let keys ← Payloads.enumerate
  deletePayloads keys
  Ring.clear

/-- The number of keys to start with: none after wiping, or those in the ring. -/
@[specialize] def recover (settings : Settings) : Action σ Nat := do
  Action.ofExcept settings.validate
  Ring.setUp
  if settings.cold then
    wipe
    pure 0
  else
    let keys ← Ring.walk
    pure keys.length

/-- Opens a shelf on a device. A ring taken over may hold more keys than the capacity allows;
then the oldest are dropped. A shelf that cannot be opened is no shelf at all. -/
@[specialize] def openOn (settings : Settings) : Action σ Shelf := do
  let size ← recover settings
  fun s =>
    match reconcile (s, ({ capacity := settings.capacity, size } : Shelf)) with
    | .ok _ (s, shelf) => .ok shelf s
    | .error e (s, _) => .error e s

/-- Wipes the device and starts counting anew. -/
@[specialize] def reset : Action (σ × Shelf) Unit := do
  Action.onFirst wipe
  fun (s, shelf) => .ok () (s, { capacity := shelf.capacity })

/-! ## Storing -/

/-- Stores the payload and finds out whether the key is in the ring. If either fails the
payload is deleted: an absent payload is a miss, a wrong one would be believed. -/
@[specialize] def storePayload (key : Key) (bytes : Bytes) : Action σ Bool :=
  Action.orCleanUp (do Payloads.write key bytes; Ring.contains key) (Payloads.delete key)

/-- Puts a glyph on the shelf as the most recently used, in place of an earlier one with the
same key, and tells the size afterwards. -/
@[specialize] def put (key : Key) (bytes : Bytes) : Action (σ × Shelf) Nat := do
  Action.ofExcept key.requireGlyph
  let linked ← Action.onFirst (storePayload key bytes)
  if linked then
    let _ ← Action.onFirst (Ring.promote key)
    tell .update
  else
    Action.onFirst (Action.orCleanUp (Ring.insert key) (Payloads.delete key))
    fun (s, shelf) => .ok () (s, { shelf with size := shelf.size + 1 }.record .insert)
  reconcile

/-! ## Reading -/

/-- A read of a payload that is not there counts as a miss. -/
@[inline] def orMiss {α : Type} (act : Action σ α) : Action (σ × Shelf) α := fun (s, shelf) =>
  match act s with
  | .ok a s => .ok a (s, shelf)
  | .error .notFound s => .error .notFound (s, shelf.record .miss)
  | .error e s => .error e (s, shelf)

/-- Reads with `act`, then makes the key the most recent and counts a hit. -/
@[specialize] def use {α : Type} (key : Key) (act : Action σ α) : Action (σ × Shelf) α := do
  let result ← orMiss act
  let _ ← Action.onFirst (Ring.promote key)
  tell .hit
  pure result

@[specialize] def get (key : Key) : Action (σ × Shelf) Bytes := use key (Payloads.read key)

/-- The payload of a key as an open record, to be read later. -/
@[specialize] def openEntry (key : Key) : Action (σ × Shelf) η :=
  use key (Payloads.openPayload key)

/-! ## Looking -/

/-- Whether a key is on the shelf; anchors are not. Looking is no use and changes no order. -/
@[specialize] def contains (key : Key) : Action (σ × Shelf) Bool :=
  if key.IsAnchor then pure false else Action.onFirst (Ring.contains key)

/-- The keys on the shelf, from the most recently used on. -/
@[specialize] def keys : Action (σ × Shelf) (List Key) := Action.onFirst Ring.walk

/-- Examines the ring, and whether the size is the number of its keys. -/
@[specialize] def check : Examination (σ × Shelf) Unit := fun (s, shelf) =>
  let examine : Examination σ Unit := do
    Ring.check
    let linked ← Examination.ofAction Ring.walk
    if linked.length = shelf.size then pure ()
    else throw (.count shelf.size linked.length)
  match examine s with
  | .ok () s => .ok () (s, shelf)
  | .error e s => .error e (s, shelf)

end Shelf

end GlyphShelf

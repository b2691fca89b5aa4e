import GlyphShelf.Breach
import GlyphShelf.Device
import GlyphShelf.Link
import GlyphShelf.RecordName

/-!
# The recency ring

The keys in order of use, as a ring of stored links:

    HEAD → most recent → … → least recent → TAIL → HEAD

Nothing of the order is held in memory. A change reads the links around it and overwrites
single fields in place, so its cost does not depend on the number of keys. Changes are not
atomic: a failure half-way leaves a ring whose links disagree, which `check` finds and
`clear` mends.
-/

namespace GlyphShelf.Ring

variable {σ η : Type} [Device σ η]

def linkName (key : Key) : String := (RecordName.link key).text

/-! ## Single links -/

@[specialize] def readLink (key : Key) : Action σ Link := do
  let bytes ← Device.withRecord (linkName key) .readOnly (Device.readExact Link.size)
  Action.ofExcept (Link.decode bytes)

@[specialize] def writeLink (key : Key) (link : Link) : Action σ Unit :=
  Device.withRecord (linkName key) .truncate (Device.write link.encode)

/-- The absence of a link that another link refers to is damage. -/
@[inline] def orDangling {α : Type} (key : Key) (act : Action σ α) : Action σ α := fun s =>
  match act s with
  | .ok a s => .ok a s
  | .error .notFound s => .error (.corrupt (.missingLink key)) s
  | .error e s => .error e s

/-- The link of a key that the ring says must be there. -/
@[specialize] def neighbours (key : Key) : Action σ Link := orDangling key (readLink key)

/-- Overwrites one field of a stored link. -/
@[specialize] def patch (key : Key) (field : Link.Field) (value : Key) : Action σ Unit :=
  orDangling key <| Device.withRecord (linkName key) .readWrite do
    Device.seek field.offset
    Device.write value.encode

/-- Joins the two neighbours of a link; the link itself stays as it is. -/
@[specialize] def detach (link : Link) : Action σ Unit := do
  patch link.prev .next link.next
  patch link.next .prev link.prev

/-! ## Setting up -/

/-- Stores the two anchors of a ring without keys. -/
@[specialize] def writeAnchors : Action σ Unit := do
  writeLink .head ⟨.tail, .tail⟩
  writeLink .tail ⟨.head, .head⟩

/-- Makes sure that both anchors are there; unless they are, the ring starts empty. -/
@[specialize] def setUp : Action σ Unit := do
  let head ← Device.hasRecord (linkName .head)
  let tail ← Device.hasRecord (linkName .tail)
  if head && tail then pure () else writeAnchors

/-- Deletes the named records one after the other; some may be gone already. -/
@[specialize] def deleteAll : List String → Action σ Unit
  | [] => pure ()
  | name :: names => do
    Action.allowAbsence (Device.delete name)
    deleteAll names

/-- Deletes every link, whatever its state, and starts with an empty ring. -/
@[specialize] def clear : Action σ Unit := do
  let names ← Device.list
  deleteAll (names.filter RecordName.isLink)
  writeAnchors

/-! ## Changing the order -/

@[specialize] def contains (key : Key) : Action σ Bool := Device.hasRecord (linkName key)

/-- Stores the link of a key that goes in front, and lets the head anchor point at it. -/
@[specialize] def linkInFront (key oldFirst : Key) : Action σ Unit := do
  writeLink key ⟨.head, oldFirst⟩
  patch .head .next key

/-- Links a new key in as the most recent. Until the head anchor points at the new link
nothing else refers to it, so a failure up to then takes the link away again. -/
@[specialize] def insert (key : Key) : Action σ Unit := do
  Action.ofExcept key.requireGlyph
  if ← contains key then throw (.alreadyLinked key)
  let head ← neighbours .head
  Action.orCleanUp (linkInFront key head.next) (Device.delete (linkName key))
  patch head.next .prev key

@[specialize] def remove (key : Key) : Action σ Unit := do
  Action.ofExcept key.requireGlyph
  let link ← readLink key
  detach link
  Device.delete (linkName key)

/-- Makes a key the most recent; `false` if it was so already. -/
@[specialize] def promote (key : Key) : Action σ Bool := do
  Action.ofExcept key.requireGlyph
  let link ← readLink key
  if link.prev = .head then pure false
  else do
    detach link
    let head ← neighbours .head
    linkInFront key head.next
    patch head.next .prev key
    pure true

/-- Unlinks the least recent key and returns it. -/
@[specialize] def evict : Action σ Key := do
  let tail ← neighbours .tail
  let victim := tail.prev
  if victim = .head then throw .nothingToEvict
  if victim.IsAnchor then throw (.corrupt (.lastIsAnchor victim))
  let link ← neighbours victim
  detach link
  Device.delete (linkName victim)
  pure victim

/-! ## Looking at the order -/

@[specialize] def mostRecent : Action σ (Option Key) := do
  let head ← neighbours .head
  pure (if head.next = .tail then none else some head.next)

@[specialize] def leastRecent : Action σ (Option Key) := do
  let tail ← neighbours .tail
  pure (if tail.prev = .head then none else some tail.prev)

/-- Follows one field of the links from `key` until `goal`, with at most so many steps. The
keys passed are in `passed`, the last one first. -/
@[specialize] def follow (start goal : Key) (field : Link.Field) :
    (steps : Nat) → (passed : List Key) → (key : Key) → Action σ (List Key)
  | 0, passed, key =>
    if key = goal then pure passed.reverse else throw (.corrupt (.unclosedRing start goal))
  | steps + 1, passed, key =>
    if key = goal then pure passed.reverse
    else if key = start then throw (.corrupt (.unclosedRing start goal))
    else do
      let link ← neighbours key
      follow start goal field steps (key :: passed) (link.get field)

/-- Every glyph and one anchor: a longer way passes a key twice. -/
def maxSteps : Nat := 65535

/-- The keys from the most recent to the least recent. -/
@[specialize] def walk : Action σ (List Key) := do
  let head ← neighbours .head
  follow .head .tail .next maxSteps [] head.next

/-- The keys from the least recent to the most recent. -/
@[specialize] def walkBack : Action σ (List Key) := do
  let tail ← neighbours .tail
  follow .tail .head .prev maxSteps [] tail.prev

/-- Compares the more recent neighbour of each key with the key before it. -/
@[specialize] def checkBackLinks : (before : Key) → List Key → Examination σ Unit
  | _, [] => pure ()
  | before, key :: keys => do
    let link ← Examination.ofAction (neighbours key)
    if link.prev = before then checkBackLinks key keys
    else throw (.backLink key link.prev before)

/-- Examines whether the links form one closed ring whose two directions agree. -/
@[specialize] def check : Examination σ Unit := do
  let forward ← Examination.ofAction walk
  checkBackLinks .head (forward ++ [.tail])
  let backward ← Examination.ofAction walkBack
  if backward.reverse = forward then pure ()
  else throw (.directions forward backward.reverse)

end GlyphShelf.Ring

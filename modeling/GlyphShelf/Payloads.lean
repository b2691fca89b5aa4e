import GlyphShelf.Device
import GlyphShelf.RecordName

/-!
# Payloads

One record per glyph, named by the number of its key. Links lie beside the payloads under
other names and are never touched from here. Anchors have no payload: asking for one is
refused before the device is asked for anything.
-/

namespace GlyphShelf.Payloads

variable {σ η : Type} [Device σ η]

@[specialize] def openPayload (key : Key) : Action σ η := do
  Action.ofExcept key.requireGlyph
  Device.openRecord (RecordName.payload key).text .readOnly

/-- Writes the payload of a key, in place of any earlier one. -/
@[specialize] def write (key : Key) (bytes : Bytes) : Action σ Unit := do
  Action.ofExcept key.requireGlyph
  Device.withRecord (RecordName.payload key).text .truncate (Device.write bytes)

@[specialize] def read (key : Key) : Action σ Bytes := do
  let record ← openPayload key
  Device.takeAll record

@[specialize] def delete (key : Key) : Action σ Unit := do
  Action.ofExcept key.requireGlyph
  Device.delete (RecordName.payload key).text

@[specialize] def contains (key : Key) : Action σ Bool := do
  Action.ofExcept key.requireGlyph
  Device.hasRecord (RecordName.payload key).text

/-- The keys that payload names stand for, in the order of the listing. A key occurs once for
each name that is read as its payload, `7` and `007` alike. -/
@[specialize] def enumerate : Action σ (List Key) := do
  let names ← Device.list
  pure (names.filterMap RecordName.glyph?)

end GlyphShelf.Payloads

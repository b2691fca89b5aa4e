import GlyphShelf.Service.RequestQueue
import GlyphShelf.Shelf

/-!
# Answers

What the shelf answers to a frame of a peer. Deliveries are stored, look-ups are served
from the shelf or turned into a request to the peer that asked, and every frame gets
exactly one answer.
-/

namespace GlyphShelf

inductive Refusal
  /-- The shelf or its device failed. -/
  | failed (failure : Failure)
  /-- The payload does not fit a frame. -/
  | tooLarge (key : Key) (size : Nat)
  /-- Frames of this kind go the other way. -/
  | unexpected (kind : Frame.Kind)
deriving DecidableEq

namespace Refusal

def text : Refusal → String
  | failed failure => failure.text
  | tooLarge key size =>
    "glyph " ++ key.text ++ " too large to send: " ++ toString size ++ " bytes"
  | unexpected kind => "unexpected frame from peer: " ++ kind.name

def frame (refusal : Refusal) : Frame := .refused refusal.text

end Refusal

namespace Answer

variable {σ η : Type} [Device σ η]

/-- A count as a word; what does not fit is shown as the greatest word. -/
def countWord (count : Nat) : UInt16 := if count < 65536 then .ofNat count else 0xFFFF

/-- Stores a delivery. What was asked for has arrived only when it was stored. -/
@[specialize] def toDownload (key : Key) (payload : Bytes) (site : σ × Shelf)
    (queue : RequestQueue) : Frame × (σ × Shelf) × RequestQueue :=
  if key.IsAnchor then (Refusal.frame (.failed (.reservedKey key)), site, queue)
  else
    match Shelf.put key payload site with
    | .ok size site => (.stored (countWord size), site, queue.arrived key)
    | .error e site => (Refusal.frame (.failed e), site, queue)

def glyphFrame (key : Key) (payload : Bytes) : Frame :=
  if Frame.maxBody < payload.length + 2 then Refusal.frame (.tooLarge key payload.length)
  else .glyph key payload

/-- Serves a glyph, or asks the peer for it. -/
@[specialize] def toLookup (key : Key) (site : σ × Shelf) (queue : RequestQueue) :
    Frame × (σ × Shelf) × RequestQueue :=
  if key.IsAnchor then (Refusal.frame (.failed (.reservedKey key)), site, queue)
  else
    match Shelf.openEntry key site with
    | .error .notFound site => (.missing key, site, (queue.ask key).2)
    | .error e site => (Refusal.frame (.failed e), site, queue)
    | .ok record (s, shelf) =>
      match Device.takeAll record s with
      | .ok payload s => (glyphFrame key payload, (s, shelf), queue)
      | .error e s => (Refusal.frame (.failed e), (s, shelf), queue)

def toStats (shelf : Shelf) : Frame := .report (shelf.tally.shelfJson shelf.size shelf.capacity)

@[specialize] def toReset (site : σ × Shelf) : Frame × (σ × Shelf) :=
  match Shelf.reset site with
  | .ok () site => (.done, site)
  | .error e site => (Refusal.frame (.failed e), site)

/-- The answer to a frame, with the shelf and the requests to the peer afterwards. -/
@[specialize] def toFrame (frame : Frame) (site : σ × Shelf) (queue : RequestQueue) :
    Frame × (σ × Shelf) × RequestQueue :=
  match frame with
  | .download key payload => toDownload key payload site queue
  | .lookup key => toLookup key site queue
  | .stats => (toStats site.2, site, queue)
  | .reset =>
    let (answer, site) := toReset site
    (answer, site, queue)
  | other => (Refusal.frame (.unexpected other.kind), site, queue)

end Answer

end GlyphShelf

import GlyphShelf.Service.Connection

/-!
# Hosts

Any number of peers share the glyphs of one site. Every peer has requests of its own, and what
its frames give rise to is sent to nobody else. The frames of all peers are handled one after the
other, each to its end, in whatever order they arrive.
-/

namespace GlyphShelf

/-- What is sent to a peer for one of its frames: what has to go ahead, and the reply. -/
structure Turn where
  ahead : List Frame
  reply : Frame
deriving DecidableEq

def Turn.frames (turn : Turn) : List Frame := turn.ahead ++ [turn.reply]

variable {σ η π : Type} [Device σ η] [DecidableEq π]

/-- Takes one turn, for a frame that is whole or malformed. -/
@[specialize] def Connection.takeTurn (result : Except Frame.Problem Frame)
    (place : (σ × Shelf) × RequestQueue) : Turn × (σ × Shelf) × RequestQueue :=
  match result with
  | .error problem => (⟨[], .refused problem.text⟩, place)
  | .ok frame =>
    let (reply, site, queue) := Answer.toFrame frame place.1 place.2
    let (requests, queue) := queue.flush
    (⟨requests, reply⟩, site, queue)

/-- A site, and the requests to each of its peers. -/
structure Host (σ π : Type) where
  site : σ × Shelf
  queues : π → RequestQueue := fun _ => {}

namespace Host

inductive Event (π : Type)
  /-- A peer connects, for the first time or again. -/
  | joined (peer : π)
  /-- A frame of a peer is complete, whole or malformed. -/
  | received (peer : π) (result : Except Frame.Problem Frame)

def setQueue (host : Host σ π) (peer : π) (queue : RequestQueue) : Host σ π :=
  { host with queues := fun other => if other = peer then queue else host.queues other }

/-- Handles an event; the frames that are sent are told together with the peers they go to. -/
@[specialize] def handle (event : Event π) (host : Host σ π) :
    List (π × Frame) × Host σ π :=
  match event with
  | .joined peer => ([], host.setQueue peer {})
  | .received peer result =>
    let (turn, site, queue) := Connection.takeTurn result (host.site, host.queues peer)
    (turn.frames.map (peer, ·), { host with site }.setQueue peer queue)

end Host

end GlyphShelf

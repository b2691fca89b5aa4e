import GlyphShelf.Service.Answer
import GlyphShelf.Wire.Intake

/-!
# Connections

One connection to a peer: bytes come in, bytes go out. Frames are answered in the order in
which they are completed, requests raised by a frame going out before its answer. A
malformed frame is answered like any other, and the frames after it are read as if it had
not been there.
-/

namespace GlyphShelf

/-- One connection: bytes that do not make a whole frame yet, and the requests to the peer. -/
structure Connection where
  intake : Intake := {}
  queue : RequestQueue := {}

namespace Connection

def fresh : Connection := {}

/-- The bytes that are sent for a frame. A frame that cannot be written is replaced by a
refusal that says why. -/
def send (frame : Frame) : Bytes :=
  match frame.encode with
  | .ok bytes => bytes
  | .error problem => ((Frame.refused problem.text).encode.toOption).getD []

variable {σ η : Type} [Device σ η]

@[specialize] def serveOne (result : Except Frame.Problem Frame) (site : σ × Shelf)
    (queue : RequestQueue) : Bytes × (σ × Shelf) × RequestQueue :=
  match result with
  | .error problem => (send (.refused problem.text), site, queue)
  | .ok frame =>
    let (answer, site, queue) := Answer.toFrame frame site queue
    let (requests, queue) := queue.flush
    (requests.flatMap send ++ send answer, site, queue)

/-- Answers frames one after the other. The parts of the output are in `sent`, last first. -/
@[specialize] def serveAll : List (Except Frame.Problem Frame) → (σ × Shelf) → RequestQueue →
    (sent : List Bytes) → Bytes × (σ × Shelf) × RequestQueue
  | [], site, queue, sent => (sent.reverse.flatten, site, queue)
  | result :: results, site, queue, sent =>
    let (bytes, site, queue) := serveOne result site queue
    serveAll results site queue (bytes :: sent)

/-- Takes in bytes and answers all frames that they complete. -/
@[specialize] def receive (connection : Connection) (bytes : Bytes) (site : σ × Shelf) :
    Bytes × (σ × Shelf) × Connection :=
  let (results, intake) := connection.intake.add bytes
  let (sent, site, queue) := serveAll results site connection.queue []
  (sent, site, { intake, queue })

/-- Serves a connection from its opening to its end, given the bytes in the portions in which
they arrive. -/
@[specialize] def serve (portions : List Bytes) (site : σ × Shelf) : Bytes × (σ × Shelf) :=
  let step := fun (state : List Bytes × (σ × Shelf) × Connection) (bytes : Bytes) =>
    let (sent, site, connection) := state
    let (more, site, connection) := connection.receive bytes site
    (more :: sent, site, connection)
  let (sent, site, _) := portions.foldl step ([], site, fresh)
  (sent.reverse.flatten, site)

end Connection

end GlyphShelf

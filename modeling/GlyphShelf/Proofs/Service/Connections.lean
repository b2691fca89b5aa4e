import GlyphShelf.Proofs.Wire.Segments
import GlyphShelf.Service.Connection
import GlyphShelf.Service.Site

/-!
# Connections do not depend on the portions

What a peer gets to see is determined by the bytes it sends, not by the portions in which
they arrive. The reference is `Connection.answerAll` on the readings of the segments; a
connection that has taken in some portions has answered the segments of all bytes so far.
-/

namespace GlyphShelf

namespace Connection

open GlyphShelf.Frame (segments reading IsSegment)

variable {σ η : Type} [Device σ η]

def answerAll : List (Except Frame.Problem Frame) → (σ × Shelf) → RequestQueue →
    Bytes × (σ × Shelf) × RequestQueue
  | [], site, queue => ([], site, queue)
  | result :: results, site, queue =>
    let (sent, site, queue) := serveOne result site queue
    let (more, site, queue) := answerAll results site queue
    (sent ++ more, site, queue)

def deliver : List Bytes → (σ × Shelf) → Connection → Bytes × (σ × Shelf) × Connection
  | [], site, connection => ([], site, connection)
  | portion :: portions, site, connection =>
    let (sent, site, connection) := connection.receive portion site
    let (more, site, connection) := deliver portions site connection
    (sent ++ more, site, connection)

/-- Where an answer to earlier frames has left things, later frames go on. -/
theorem answerAll_append (first second : List (Except Frame.Problem Frame)) (site : σ × Shelf)
    (queue : RequestQueue) :
    answerAll (first ++ second) site queue =
      let (sent, site, queue) := answerAll first site queue
      let (more, site, queue) := answerAll second site queue
      (sent ++ more, site, queue) := by
  induction first generalizing site queue with
  | nil => rfl
  | cons result first ih => simp [answerAll, ih]

theorem serveAll_eq (results : List (Except Frame.Problem Frame)) (site : σ × Shelf)
    (queue : RequestQueue) (sent : List Bytes) :
    serveAll results site queue sent =
      let (more, site, queue) := answerAll results site queue
      (sent.reverse.flatten ++ more, site, queue) := by
  induction results generalizing site queue sent with
  | nil => simp [serveAll, answerAll]
  | cons result results ih => simp [serveAll, answerAll, ih]

/-- Answers what is complete in a stream, and keeps what is left of it. -/
def answerStream (stream : Bytes) (site : σ × Shelf) (queue : RequestQueue) :
    Bytes × (σ × Shelf) × RequestQueue × Bytes :=
  let (results, left) := Frame.takeAll stream
  let (sent, site, queue) := answerAll results site queue
  (sent, site, queue, left)

/-- What of a connection can play a part in what it answers later. -/
def view (outcome : Bytes × (σ × Shelf) × Connection) :
    Bytes × (σ × Shelf) × RequestQueue × Bytes :=
  (outcome.1, outcome.2.1, outcome.2.2.queue, outcome.2.2.intake.bytes)

theorem answerStream_append (first second : Bytes) (site : σ × Shelf) (queue : RequestQueue) :
    answerStream (first ++ second) site queue =
      let (sent, site, queue, left) := answerStream first site queue
      let (more, site, queue, left) := answerStream (left ++ second) site queue
      (sent ++ more, site, queue, left) := by
  simp only [answerStream, Frame.takeAll_append first second, answerAll_append]

/-- A portion makes a connection answer what it completes, and keep what is left. -/
theorem view_receive (connection : Connection) (portion : Bytes) (site : σ × Shelf) :
    view (connection.receive portion site) =
      answerStream (connection.intake.bytes ++ portion) site connection.queue := by
  simp only [view, receive, serveAll_eq, answerStream, ← connection.intake.add_eq]
  rfl

/-- Portions make a connection answer what they complete together. The connection has to be
done with what arrived before. -/
theorem view_deliver (portions : List Bytes) (site : σ × Shelf) (connection : Connection)
    (done : Frame.take connection.intake.bytes = none) :
    view (deliver portions site connection) =
      answerStream (connection.intake.bytes ++ portions.flatten) site connection.queue := by
  induction portions generalizing site connection with
  | nil =>
    simp [deliver, view, answerStream, answerAll, Frame.takeAll_eq connection.intake.bytes, done]
  | cons portion portions ih =>
    have received := view_receive connection portion site
    -- nothing that could still be cut off is kept, so the next portion meets the same condition
    have doneAgain : Frame.take (connection.receive portion site).2.2.intake.bytes = none := by
      have left : (connection.receive portion site).2.2.intake.bytes =
          (Frame.takeAll (connection.intake.bytes ++ portion)).2 :=
        congrArg (fun outcome => outcome.2.2.2) received
      rw [left]
      exact Frame.take_takeAll _
    rw [List.flatten_cons, ← List.append_assoc, answerStream_append, ← received]
    simp only [view, ← ih _ _ doneAgain, deliver]

/-- A connection is served by delivering the portions to a fresh one. -/
theorem serve_eq_deliver (portions : List Bytes) (site : σ × Shelf) :
    serve portions site =
      ((deliver portions site fresh).1, (deliver portions site fresh).2.1) := by
  suffices folded : ∀ (sent : List Bytes) (site : σ × Shelf) (connection : Connection),
      let last := portions.foldl (fun state bytes =>
        let (more, site, connection) := state.2.2.receive bytes state.2.1
        (more :: state.1, site, connection)) (sent, site, connection)
      last.1.reverse.flatten = sent.reverse.flatten ++ (deliver portions site connection).1 ∧
        last.2 = (deliver portions site connection).2 by
    obtain ⟨sent, after⟩ := folded [] site fresh
    exact Prod.ext sent (congrArg Prod.fst after)
  induction portions with
  | nil => simp [deliver]
  | cons portion portions ih =>
    intro sent site connection
    obtain ⟨more, after⟩ := ih ((connection.receive portion site).1 :: sent)
      (connection.receive portion site).2.1 (connection.receive portion site).2.2
    constructor
    · simpa [deliver] using more
    · exact after

/-- A stream is answered segment by segment. -/
theorem answerStream_eq (stream : Bytes) (site : σ × Shelf) (queue : RequestQueue) :
    answerStream stream site queue =
      let (sent, site, queue) := answerAll ((segments stream).map reading) site queue
      (sent, site, queue, (Frame.takeAll stream).2) := by
  simp only [answerStream, (Frame.takeAll_eq_segments stream).1]

end Connection

end GlyphShelf

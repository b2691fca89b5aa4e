import GlyphShelf.Proofs.Service.Connections
import GlyphShelf.Proofs.Service.Terse
import GlyphShelf.Service.Host

/-!
# One reply to each frame

A connection takes one turn for each segment of its stream. In a turn it sends one reply, and
ahead of it at most a request for the glyph that the reply says is missing. Between turns no
request waits to be sent.

All frames that are sent can be written as bytes: bodies that carry a key or a count are two
bytes, a glyph is sent only if it fits, and all texts fit if the texts of the device do.
-/

namespace GlyphShelf

variable {σ η : Type} [Device σ η]

/-! ## What an answer does to the requests -/

/-- How the reply to a frame and the requests to its peer go together: a delivery that was stored
has arrived, a glyph that is missing is asked for, and nothing else touches the requests. -/
inductive Answered (frame : Frame) (queue : RequestQueue) : Frame → RequestQueue → Prop
  | arrived {key : Key} {payload : Bytes} (delivery : frame = .download key payload)
    (glyph : ¬ key.IsAnchor) (count : UInt16) :
    Answered frame queue (.stored count) (queue.arrived key)
  | missing {key : Key} (lookup : frame = .lookup key) (glyph : ¬ key.IsAnchor) :
    Answered frame queue (.missing key) (queue.ask key).2
  | other {reply : Frame} (present : ∀ key, reply ≠ .missing key)
    (unstored : ∀ count, reply ≠ .stored count) (answer : reply.kind ≠ .request) :
    Answered frame queue reply queue

theorem Answered.of_refused {frame : Frame} {queue : RequestQueue} (refusal : Refusal) :
    Answered frame queue refusal.frame queue :=
  .other nofun nofun nofun

theorem answered (frame : Frame) (site : σ × Shelf) (queue : RequestQueue) :
    Answered frame queue (Answer.toFrame frame site queue).1
      (Answer.toFrame frame site queue).2.2 := by
  unfold Answer.toFrame
  split
  · rename_i key payload
    unfold Answer.toDownload
    split
    · exact .of_refused _
    · rename_i glyph
      split
      · exact .arrived rfl glyph _
      · exact .of_refused _
  · rename_i key
    unfold Answer.toLookup
    split
    · exact .of_refused _
    · rename_i glyph
      split
      · exact .missing rfl glyph
      · exact .of_refused _
      · split
        · unfold Answer.glyphFrame
          split
          · exact .of_refused _
          · exact .other nofun nofun nofun
        · exact .of_refused _
  · exact .other nofun nofun nofun
  · have reply : (Answer.toReset site).1 = .done ∨
        ∃ e, (Answer.toReset site).1 = Refusal.frame (.failed e) := by
      unfold Answer.toReset
      split
      · exact .inl rfl
      · exact .inr ⟨_, rfl⟩
    rcases reply with done | ⟨e, refused⟩
    · show Answered .reset queue (Answer.toReset site).1 queue
      rw [done]
      exact .other nofun nofun nofun
    · show Answered .reset queue (Answer.toReset site).1 queue
      rw [refused]
      exact .of_refused _
  · exact .of_refused _

/-- What a turn sends, and the requests afterwards, if no request waited before. A glyph that is
missing is asked for unless it is awaited; after a stored delivery it is not awaited any more. -/
inductive Turned (result : Except Frame.Problem Frame) (queue : RequestQueue) :
    Turn → RequestQueue → Prop
  | asked {key : Key} (lookup : result = .ok (.lookup key)) (glyph : ¬ key.IsAnchor)
    (unasked : key ∉ queue.awaited) :
    Turned result queue ⟨[.request key], .missing key⟩
      { queue with awaited := queue.awaited.insert key }
  | awaited {key : Key} (lookup : result = .ok (.lookup key)) (glyph : ¬ key.IsAnchor)
    (asked : key ∈ queue.awaited) : Turned result queue ⟨[], .missing key⟩ queue
  | arrived {key : Key} {payload : Bytes} (delivery : result = .ok (.download key payload))
    (glyph : ¬ key.IsAnchor) (count : UInt16) :
    Turned result queue ⟨[], .stored count⟩ (queue.arrived key)
  | other {reply : Frame} (present : ∀ key, reply ≠ .missing key)
    (unstored : ∀ count, reply ≠ .stored count) (answer : reply.kind ≠ .request) :
    Turned result queue ⟨[], reply⟩ queue

theorem turned (result : Except Frame.Problem Frame) (site : σ × Shelf) {queue : RequestQueue}
    (idle : queue.pending = []) :
    Turned result queue (Connection.takeTurn result (site, queue)).1
      (Connection.takeTurn result (site, queue)).2.2 := by
  obtain ⟨pending, awaited⟩ := queue
  obtain rfl : pending = [] := idle
  cases result with
  | error problem => exact .other nofun nofun nofun
  | ok frame =>
    have answered := answered frame site { awaited }
    rcases answering : Answer.toFrame frame site { awaited } with ⟨reply, site', after⟩
    rw [answering] at answered
    have turn : Connection.takeTurn (.ok frame) (site, { awaited }) =
        (⟨after.pending.reverse.map .request, reply⟩, site', { after with pending := [] }) := by
      rw [Connection.takeTurn, answering]
      rfl
    rw [turn]
    cases answered with
    | arrived delivery glyph count => exact .arrived (congrArg _ delivery) glyph count
    | missing lookup glyph =>
      unfold RequestQueue.ask
      split
      · exact .awaited (congrArg _ lookup) glyph ‹_›
      · exact .asked (congrArg _ lookup) glyph ‹_›
    | other present unstored answer => exact .other present unstored answer

/-- A turn leaves no request to be sent later. -/
theorem Turned.idle {result : Except Frame.Problem Frame} {queue after : RequestQueue}
    {turn : Turn} (turned : Turned result queue turn after) (idle : queue.pending = []) :
    after.pending = [] := by
  cases turned <;> exact idle

/-! ## Whatever is sent can be written -/

/-- The frame can be written, so that it is sent as it is. -/
def Frame.Writable (frame : Frame) : Prop := frame.encode = .ok (Connection.send frame)

theorem Frame.writable_of_small {frame : Frame} (small : frame.body.length ≤ Frame.maxBody) :
    frame.Writable := by
  have written : frame.encode =
      .ok (frame.kind.opcode :: Frame.wordBytes (UInt16.ofNat frame.body.length) ++ frame.body) :=
    if_neg (Nat.not_lt_of_le small)
  rw [Writable, Connection.send, written]

theorem Failure.Fits.writable {e : Failure} (fits : e.Fits) :
    (Refusal.frame (.failed e)).Writable :=
  Frame.writable_of_small fits

theorem writable_glyphFrame (key : Key) {payload : Bytes} (addressed : payload.length < 2 ^ 64) :
    (Answer.glyphFrame key payload).Writable := by
  unfold Answer.glyphFrame
  split
  · have pieces := ((((Pieces.one (show "glyph ".utf8ByteSize ≤ 80 by decide)).append
      (pieces_keyText key)).append (.one (show " too large to send: ".utf8ByteSize ≤ 80 by
        decide))).append (pieces_word addressed)).append
      (.one (show " bytes".utf8ByteSize ≤ 80 by decide))
    exact Frame.writable_of_small (pieces.fits (by decide))
  · rename_i fits
    apply Frame.writable_of_small
    rw [Frame.body, List.length_append, Frame.length_wordBytes]
    omega

theorem writable_unexpected (kind : Frame.Kind) : (Refusal.frame (.unexpected kind)).Writable := by
  have name : Pieces 1 kind.name := by cases kind <;> exact .one (by decide)
  exact Frame.writable_of_small (((Pieces.one (by decide)).append name).fits (by decide))

section

variable (terse : Device.Terse σ)

include terse

theorem writable_toDownload (key : Key) (payload : Bytes) (site : σ × Shelf)
    (queue : RequestQueue) : (Answer.toDownload key payload site queue).1.Writable := by
  unfold Answer.toDownload
  split
  · exact (Failure.Raised.reservedKey key).fits.writable
  · split
    · exact Frame.writable_of_small (by decide : 2 ≤ Frame.maxBody)
    · rename_i e site' failed
      have alike := terse.alike (Nat.le_max_left Link.size payload.length)
      exact (failsShort_of_agrees (alike.agrees_put key (Nat.le_max_right _ _)) site e site'
        failed).writable

theorem writable_toLookup (key : Key) (site : σ × Shelf) (queue : RequestQueue) :
    (Answer.toLookup key site queue).1.Writable := by
  have alike := terse.alike (Nat.le_refl Link.size)
  unfold Answer.toLookup
  split
  · exact (Failure.Raised.reservedKey key).fits.writable
  · split
    · exact Frame.writable_of_small (by decide : 2 ≤ Frame.maxBody)
    · rename_i e site' _ failed
      exact (failsShort_of_agrees (alike.agrees_openEntry key) site e site' failed).writable
    · rename_i record s shelf opened
      split
      · rename_i payload s' taken
        exact writable_glyphFrame key (terse.addressed record s payload s' taken)
      · rename_i e s' failed
        obtain ⟨_, _, _, _, run, -, -, -, matched⟩ :=
          alike.agreesFrom_takeAll (show (alone σ η).agree s s from rfl)
            (show (alone σ η).records record record s s from rfl)
        obtain ⟨rfl, -⟩ := run.deterministic (show Runs (Device.takeAll record) s (.error e) s' from
          failed)
        cases matched with
        | error told => exact told.2.writable

theorem writable_toReset (site : σ × Shelf) : (Answer.toReset site).1.Writable := by
  unfold Answer.toReset
  split
  · exact Frame.writable_of_small (by decide : 0 ≤ Frame.maxBody)
  · rename_i e site' failed
    have alike := terse.alike (Nat.le_refl Link.size)
    exact (failsShort_of_agrees alike.agrees_reset site e site' failed).writable

/-- Every reply can be written, whatever the peer sent and whatever the device holds. -/
theorem writable_toFrame (frame : Frame) (site : σ × Shelf) (queue : RequestQueue) :
    (Answer.toFrame frame site queue).1.Writable := by
  unfold Answer.toFrame
  split
  · exact writable_toDownload terse _ _ _ _
  · exact writable_toLookup terse _ _ _
  · exact Frame.writable_of_small (Tally.fits_shelfJson _ _ _)
  · exact writable_toReset terse _
  · exact writable_unexpected _

end

/-! ## Segments -/

namespace Frame

variable {stream segment : Bytes}

theorem declared_le (bytes : Bytes) : declared bytes ≤ maxBody :=
  Nat.le_of_lt_succ (Bytes.word _ _).toNat_lt

theorem isSegment_of_mem (member : segment ∈ segments stream) : IsSegment segment := by
  induction stream using segments.induct with
  | case1 stream whole ih =>
    rw [segments, dif_pos whole] at member
    rcases List.mem_cons.1 member with rfl | later
    · have size : (stream.take (3 + declared stream)).length = 3 + declared stream := by
        rw [List.length_take]
        exact Nat.min_eq_left whole.2
      have present : 3 ≤ (stream.take (3 + declared stream)).length := by omega
      have header := declared_append present (stream.drop (3 + declared stream))
      rw [List.take_append_drop] at header
      exact ⟨by omega, size.trans (congrArg (3 + ·) header)⟩
    · exact ih later
  | case2 stream incomplete =>
    rw [segments, dif_neg incomplete] at member
    cases member

/-- What is wrong with a segment can be said in a frame. -/
theorem writable_of_reading {problem : Problem} (whole : IsSegment segment)
    (malformed : reading segment = .error problem) : (Frame.refused problem.text).Writable := by
  refine writable_of_small (fits_of_ofOpcode malformed ?_)
  have size := whole.2
  have := declared_le segment
  rw [List.length_drop]
  omega

end Frame

/-! ## Turns -/

namespace Connection

open GlyphShelf.Frame (segments reading IsSegment)

variable {queue : RequestQueue}

def bytesOf (turn : Turn) : Bytes := turn.frames.flatMap send

theorem serveOne_eq_takeTurn (result : Except Frame.Problem Frame) (site : σ × Shelf)
    (queue : RequestQueue) :
    serveOne result site queue =
      (bytesOf (takeTurn result (site, queue)).1, (takeTurn result (site, queue)).2) := by
  cases result with
  | error problem => simp [serveOne, takeTurn, bytesOf, Turn.frames]
  | ok frame => simp [serveOne, takeTurn, bytesOf, Turn.frames, List.flatMap_append]

/-- Segments are answered by taking one turn for each. -/
theorem answerAll_eq_outcomes (results : List (Except Frame.Problem Frame)) (site : σ × Shelf)
    (queue : RequestQueue) :
    answerAll results site queue =
      ((outcomes takeTurn results (site, queue)).1.flatMap bytesOf,
        (outcomes takeTurn results (site, queue)).2) := by
  induction results generalizing site queue with
  | nil => rfl
  | cons result results ih =>
    simp only [answerAll, serveOne_eq_takeTurn, ih, outcomes, List.flatMap_cons]

/-- What a turn sends can be written, is one reply, and ahead of it at most a request for the
glyph that the reply says is missing. -/
structure Proper (turn : Turn) : Prop where
  written : ∀ frame ∈ turn.frames, frame.Writable
  replied : turn.reply.kind ≠ .request
  ahead : turn.ahead = [] ∨
    ∃ key, ¬ key.IsAnchor ∧ turn.ahead = [.request key] ∧ turn.reply = .missing key

theorem proper_takeTurn (terse : Device.Terse σ) {result : Except Frame.Problem Frame}
    (sayable : ∀ problem, result = .error problem → (Frame.refused problem.text).Writable)
    (site : σ × Shelf) (idle : queue.pending = []) :
    Proper (takeTurn result (site, queue)).1 := by
  have reply : (takeTurn result (site, queue)).1.reply.Writable := by
    cases result with
    | error problem => exact sayable problem rfl
    | ok frame => exact writable_toFrame terse frame site queue
  have turned := turned result site idle
  generalize takeTurn result (site, queue) = outcome at reply turned
  obtain ⟨turn, site', after⟩ := outcome
  dsimp only at reply turned ⊢
  cases turned with
  | @asked key lookup glyph unasked =>
    have request : (Frame.request key).Writable :=
      Frame.writable_of_small (by decide : 2 ≤ Frame.maxBody)
    exact ⟨List.forall_mem_cons.2 ⟨request, List.forall_mem_singleton.2 reply⟩, nofun,
      .inr ⟨key, glyph, rfl, rfl⟩⟩
  | awaited => exact ⟨List.forall_mem_singleton.2 reply, nofun, .inl rfl⟩
  | arrived => exact ⟨List.forall_mem_singleton.2 reply, nofun, .inl rfl⟩
  | other present unstored answer => exact ⟨List.forall_mem_singleton.2 reply, answer, .inl rfl⟩

/-- All turns of a connection are proper. -/
theorem proper_outcomes (terse : Device.Terse σ) {results : List (Except Frame.Problem Frame)}
    (sayable : ∀ result ∈ results, ∀ problem, result = .error problem →
      (Frame.refused problem.text).Writable)
    (site : σ × Shelf) (idle : queue.pending = []) :
    ∀ turn ∈ (outcomes takeTurn results (site, queue)).1, Proper turn := by
  induction results generalizing site queue with
  | nil => exact nofun
  | cons result results ih =>
    obtain ⟨here, later⟩ := List.forall_mem_cons.1 sayable
    have still := (turned result site idle).idle idle
    exact List.forall_mem_cons.2 ⟨proper_takeTurn terse here site idle, ih later _ still⟩

/-- What is served is what the segments are answered with. -/
theorem serve_eq_answerAll (portions : List Bytes) (site : σ × Shelf) :
    serve portions site =
      ((answerAll ((segments portions.flatten).map reading) site {}).1,
        (answerAll ((segments portions.flatten).map reading) site {}).2.1) := by
  have viewed := (view_deliver portions site fresh rfl).trans
    (answerStream_eq portions.flatten site {})
  simp only [view, Prod.mk.injEq] at viewed
  rw [serve_eq_deliver, viewed.1, viewed.2.1]

/-- The bytes that a connection sends are those of turns, one for each segment of what the peer
sent and in their order, valid or malformed. Each turn is one reply, preceded by nothing or by
the request for the glyph that the reply says is missing, and every frame of it can be written. It
does not matter what the shelf and its device hold, nor whether and when the device fails, as long
as the words of its failures fit a frame. -/
theorem one_reply_for_each_segment (terse : Device.Terse σ) (portions : List Bytes)
    (site : σ × Shelf) :
    let turns := (outcomes takeTurn ((segments portions.flatten).map reading) (site, {})).1
    (serve portions site).1 = turns.flatMap bytesOf ∧
      turns.length = (segments portions.flatten).length ∧
      ∀ turn ∈ turns, Proper turn := by
  refine ⟨?_, ?_, ?_⟩
  · rw [serve_eq_answerAll, answerAll_eq_outcomes]
  · rw [length_outcomes, List.length_map]
  · refine proper_outcomes terse ?_ site rfl
    intro result member problem malformed
    obtain ⟨segment, found, rfl⟩ := List.mem_map.1 member
    exact Frame.writable_of_reading (Frame.isSegment_of_mem found) malformed

/-- A glyph is looked up twice in vain and asked for once; then a malformed frame is answered. -/
theorem missing_twice_then_malformed :
    let site : Directory × Shelf := ({}, { capacity := 3 })
    let portions : List Bytes := [[0x03, 0, 2, 0], [7, 0x03, 0, 2, 0, 7], [0x04, 0, 1, 9]]
    let turns : List Turn := [⟨[.request ⟨7⟩], .missing ⟨7⟩⟩, ⟨[], .missing ⟨7⟩⟩,
      ⟨[], .refused (Frame.Problem.notEmpty 1).text⟩]
    Device.Terse Directory ∧ (serve portions site).1 = turns.flatMap bytesOf ∧
      ∀ turn ∈ turns, Proper turn := by
  intro site portions turns
  have cut : segments portions.flatten =
      [[0x03, 0, 2, 0, 7], [0x03, 0, 2, 0, 7], [0x04, 0, 1, 9]] := by
    have pieces : ∀ segment ∈
        ([[0x03, 0, 2, 0, 7], [0x03, 0, 2, 0, 7], [0x04, 0, 1, 9]] : List Bytes),
      IsSegment segment := by decide
    have none : segments [] = [] := Frame.segments_of_short (by decide)
    have found := Frame.segments_append pieces []
    rw [none, List.append_nil] at found
    exact found
  have taken :
      (outcomes takeTurn ((segments portions.flatten).map reading) (site, {})).1 = turns := by
    rw [cut]
    decide +kernel
  obtain ⟨sent, -, proper⟩ := one_reply_for_each_segment Directory.terse portions site
  rw [taken] at sent proper
  exact ⟨Directory.terse, sent, proper⟩

end Connection

end GlyphShelf

import GlyphShelf.Proofs.Service.Turns

/-!
# What is asked of each peer

A host keeps for each peer the keys that were asked for and have not arrived. What is kept is
determined by the history of the peer alone: a key is awaited as long as it was asked for and the
peer has neither delivered it, so that it was stored, nor connected again. Other peers share the
glyphs but not the requests, so their frames change nothing in what is awaited, whatever they do
to the shelf and however the shelf answers them.
-/

namespace GlyphShelf

variable {σ η π : Type}

/-! ## One turn -/

namespace Turned

variable {result : Except Frame.Problem Frame} {queue after : RequestQueue} {turn : Turn}
variable {key : Key}

/-- A key is asked for exactly when it was looked up in vain and is not awaited. -/
theorem request_mem_iff (turned : Turned result queue turn after) :
    .request key ∈ turn.frames ↔
      result = .ok (.lookup key) ∧ .missing key ∈ turn.frames ∧ key ∉ queue.awaited := by
  cases turned with
  | @asked asked lookup glyph unasked =>
    subst lookup
    constructor
    · intro member
      obtain rfl : key = asked := by simpa [Turn.frames] using member
      exact ⟨rfl, by simp [Turn.frames], unasked⟩
    · rintro ⟨same, -, -⟩
      cases same
      simp [Turn.frames]
  | @awaited asked lookup glyph here =>
    subst lookup
    constructor
    · intro member
      simp [Turn.frames] at member
    · rintro ⟨same, -, unasked⟩
      cases same
      exact absurd here unasked
  | arrived delivery glyph count => simp [Turn.frames]
  | other present unstored answer =>
    constructor
    · intro member
      obtain rfl := List.mem_singleton.1 member
      exact absurd rfl answer
    · rintro ⟨-, member, -⟩
      exact absurd (List.mem_singleton.1 member).symm (present key)

/-- The delivery of the key was stored. -/
def Delivers (result : Except Frame.Problem Frame) (turn : Turn) (key : Key) : Prop :=
  ∃ payload count, result = .ok (.download key payload) ∧ .stored count ∈ turn.frames

/-- What is awaited after a turn: what was asked for in it, and what was awaited before unless
it was delivered. -/
theorem mem_awaited_iff (turned : Turned result queue turn after) :
    key ∈ after.awaited ↔
      .request key ∈ turn.frames ∨ key ∈ queue.awaited ∧ ¬ Delivers result turn key := by
  have undelivered (unstored : ∀ count, .stored count ∉ turn.frames) :
      ¬ Delivers result turn key := fun ⟨_, count, _, stored⟩ => unstored count stored
  cases turned with
  | @asked asked lookup glyph unasked =>
    have undelivered : ¬ Delivers result ⟨[.request asked], .missing asked⟩ key :=
      undelivered (by simp [Turn.frames])
    rw [Std.TreeSet.mem_insert, Std.LawfulEqCmp.compare_eq_iff_eq]
    simp [Turn.frames, undelivered, eq_comm]
  | @awaited asked lookup glyph here =>
    have undelivered : ¬ Delivers result ⟨[], .missing asked⟩ key :=
      undelivered (by simp [Turn.frames])
    simp [Turn.frames, undelivered]
  | @arrived delivered payload delivery glyph count =>
    have delivers : Delivers result ⟨[], .stored count⟩ key ↔ key = delivered := by
      subst delivery
      constructor
      · rintro ⟨_, _, same, -⟩
        cases same
        rfl
      · rintro rfl
        exact ⟨payload, count, rfl, by simp [Turn.frames]⟩
    rw [RequestQueue.mem_awaited_arrived, delivers, and_comm]
    simp [Turn.frames]
  | @other reply present unstored answer =>
    have undelivered : ¬ Delivers result ⟨[], reply⟩ key :=
      undelivered fun count member => unstored count (List.mem_singleton.1 member).symm
    have unasked : .request key ∉ Turn.frames ⟨[], reply⟩ := by
      intro member
      obtain rfl := List.mem_singleton.1 member
      exact answer rfl
    simp [undelivered, unasked]

end Turned

namespace Host

/-! ## Histories -/

/-- An event, and the frames that were sent for it with the peers they went to. -/
structure Entry (π : Type) where
  event : Event π
  sent : List (π × Frame)

def log [Device σ η] [DecidableEq π] (event : Event π) (host : Host σ π) : Entry π × Host σ π :=
  (⟨event, (handle event host).1⟩, (handle event host).2)

def Entry.Asks (entry : Entry π) (peer : π) (key : Key) : Prop :=
  (peer, .request key) ∈ entry.sent

/-- After this the peer owes the key no more: it connects anew, or its delivery was stored. -/
inductive Entry.Settles (entry : Entry π) (peer : π) (key : Key) : Prop
  | joined (connects : entry.event = .joined peer)
  | stored {payload : Bytes} {count : UInt16}
    (delivery : entry.event = .received peer (.ok (.download key payload)))
    (reply : (peer, .stored count) ∈ entry.sent)

/-- The peer was asked for the key, and nothing has settled that since. -/
def Outstanding (history : List (Entry π)) (peer : π) (key : Key) : Prop :=
  ∃ earlier entry later, history = earlier ++ entry :: later ∧ entry.Asks peer key ∧
    ∀ other ∈ later, ¬ other.Settles peer key

variable {history : List (Entry π)} {entry : Entry π} {host : Host σ π} {peer other : π}
variable {key : Key} {result : Except Frame.Problem Frame}

theorem not_outstanding_nil : ¬ Outstanding ([] : List (Entry π)) peer key := not_stands_nil

/-- The last entry asks for the key, or leaves it outstanding. -/
theorem outstanding_concat : Outstanding (history ++ [entry]) peer key ↔
    entry.Asks peer key ∨ Outstanding history peer key ∧ ¬ entry.Settles peer key :=
  stands_concat (Entry.Asks · peer key) (Entry.Settles · peer key) history entry

/-! ## One event -/

variable [Device σ η] [DecidableEq π]

theorem queues_setQueue (host : Host σ π) (queue : RequestQueue) :
    (host.setQueue peer queue).queues other = if other = peer then queue else host.queues other :=
  rfl

/-- For a frame of a peer the turn of its connection is taken, and what it sends goes to it. -/
theorem log_received (host : Host σ π) : log (.received peer result) host =
    (⟨.received peer result,
        (Connection.takeTurn result (host.site, host.queues peer)).1.frames.map (peer, ·)⟩,
      { host with site := (Connection.takeTurn result (host.site, host.queues peer)).2.1 }.setQueue
        peer (Connection.takeTurn result (host.site, host.queues peer)).2.2) := rfl

/-- Nobody but the peer whose frame is handled is sent anything. -/
theorem eq_of_sent {frame : Frame}
    (sent : (other, frame) ∈ (log (.received peer result) host).1.sent) : other = peer := by
  rw [log_received] at sent
  obtain ⟨_, -, same⟩ := List.mem_map.1 sent
  exact (Prod.mk.inj same).1.symm

theorem mem_sent_iff {frame : Frame} : (peer, frame) ∈ (log (.received peer result) host).1.sent ↔
    frame ∈ (Connection.takeTurn result (host.site, host.queues peer)).1.frames := by
  rw [log_received, List.mem_map]
  constructor
  · rintro ⟨_, member, same⟩
    rwa [← (Prod.mk.inj same).2]
  · exact fun member => ⟨frame, member, rfl⟩

/-- The frames of a peer change nothing in what is awaited from others. -/
theorem queues_of_ne (others : other ≠ peer) :
    (log (.received peer result) host).2.queues other = host.queues other := by
  rw [log_received, queues_setQueue, if_neg others]

theorem settles_received_iff : (log (.received peer result) host).1.Settles other key ↔
    other = peer ∧ Turned.Delivers result
      (Connection.takeTurn result (host.site, host.queues peer)).1 key := by
  constructor
  · rintro (connects | ⟨delivery, reply⟩)
    · cases connects
    · obtain rfl := eq_of_sent reply
      exact ⟨rfl, _, _, (Event.received.inj delivery).2, mem_sent_iff.1 reply⟩
  · rintro ⟨rfl, payload, count, rfl, stored⟩
    exact .stored rfl (mem_sent_iff.2 stored)

/-- Between frames no request waits to be sent. -/
def Idle (host : Host σ π) : Prop := ∀ peer, (host.queues peer).pending = []

theorem Idle.log (idle : Idle host) (event : Event π) : Idle (log event host).2 := by
  intro other
  cases event with
  | joined peer =>
    show ((host.setQueue peer {}).queues other).pending = []
    rw [queues_setQueue]
    split
    · rfl
    · exact idle other
  | received peer result =>
    by_cases same : other = peer
    · subst same
      rw [log_received, queues_setQueue, if_pos rfl]
      exact (turned result host.site (idle other)).idle (idle other)
    · rw [queues_of_ne same]
      exact idle other

/-- What is awaited changes only by what is asked for and by what settles it. -/
theorem mem_awaited_log (idle : Idle host) (event : Event π) :
    key ∈ ((log event host).2.queues other).awaited ↔ (log event host).1.Asks other key ∨
      key ∈ (host.queues other).awaited ∧ ¬ (log event host).1.Settles other key := by
  cases event with
  | joined peer =>
    have silent : ¬ (log (.joined peer) host).1.Asks other key := nofun
    have settles : (log (.joined peer) host).1.Settles other key ↔ other = peer := by
      constructor
      · rintro (connects | ⟨delivery, -⟩)
        · exact (Event.joined.inj connects).symm
        · cases delivery
      · rintro rfl
        exact .joined rfl
    show key ∈ ((host.setQueue peer {}).queues other).awaited ↔ _
    rw [queues_setQueue, settles]
    by_cases same : other = peer
    · have none : key ∉ ({} : RequestQueue).awaited := Std.TreeSet.not_mem_emptyc
      rw [if_pos same]
      simp [same ▸ silent, same, none]
    · simp [same, silent]
  | received peer result =>
    rw [settles_received_iff]
    by_cases same : other = peer
    · subst same
      rw [log_received, queues_setQueue, if_pos rfl,
        (turned result host.site (idle other)).mem_awaited_iff, ← mem_sent_iff]
      simp only [true_and]
      rfl
    · rw [queues_of_ne same]
      have unasked : ¬ (log (.received peer result) host).1.Asks other key :=
        fun asks => same (eq_of_sent asks)
      simp [same, unasked]

/-! ## Any number of events -/

/-- A key is awaited from a peer exactly if the history says that it is outstanding. -/
structure Tracks (host : Host σ π) (history : List (Entry π)) : Prop where
  idle : host.Idle
  awaited : ∀ peer key, key ∈ (host.queues peer).awaited ↔ Outstanding history peer key

omit [DecidableEq π] in
theorem tracks_nil (site : σ × Shelf) : Tracks (π := π) { site } [] where
  idle _ := rfl
  awaited peer key := by
    have none : key ∉ ({} : RequestQueue).awaited := Std.TreeSet.not_mem_emptyc
    exact iff_of_false none not_outstanding_nil

theorem Tracks.log (tracks : Tracks host history) (event : Event π) :
    Tracks (log event host).2 (history ++ [(log event host).1]) where
  idle := tracks.idle.log event
  awaited peer key := by
    rw [mem_awaited_log tracks.idle event, outstanding_concat, tracks.awaited peer key]

theorem tracks_outcomes (tracks : Tracks host history) (events : List (Event π)) :
    Tracks (outcomes Host.log events host).2 (history ++ (outcomes Host.log events host).1) :=
  outcomes_log Tracks (fun event _ _ tracks => tracks.log event) events tracks

theorem Tracks.asks_iff (tracks : Tracks host history) :
    (Host.log (.received peer result) host).1.Asks other key ↔
      other = peer ∧ result = .ok (.lookup key) ∧
        (peer, .missing key) ∈ (Host.log (.received peer result) host).1.sent ∧
        ¬ Outstanding history peer key := by
  have turned := turned result host.site (tracks.idle peer)
  have asked : (Host.log (.received peer result) host).1.Asks peer key ↔ _ :=
    mem_sent_iff.trans turned.request_mem_iff
  rw [← tracks.awaited peer key]
  constructor
  · intro asks
    obtain rfl := eq_of_sent asks
    obtain ⟨lookup, missing, unasked⟩ := asked.1 asks
    exact ⟨rfl, lookup, mem_sent_iff.2 missing, unasked⟩
  · rintro ⟨rfl, lookup, missing, unasked⟩
    exact asked.2 ⟨lookup, mem_sent_iff.1 missing, unasked⟩

/-- Whatever happened before on a host, with whatever peers, shelf and device, failing or not: when
the frame of a peer is handled, a request for a key is sent exactly if the frame looks the key up,
the reply is that the key is missing, and no earlier request for it is outstanding, that is, none
was sent to this peer since the peer last delivered the key with success or connected. All that is
sent goes to this peer. What is awaited from any peer is what is outstanding; any event changes it
only by sending that peer a request or by settling one, and the frames of a peer change nothing for
the others. -/
theorem request_only_what_is_not_outstanding (site : σ × Shelf) (events : List (Event π)) :
    let history := (outcomes log events ({ site } : Host σ π)).1
    let host := (outcomes log events ({ site } : Host σ π)).2
    (∀ peer result other key, (log (.received peer result) host).1.Asks other key ↔
      other = peer ∧ result = .ok (.lookup key) ∧
        (peer, .missing key) ∈ (log (.received peer result) host).1.sent ∧
        ¬ Outstanding history peer key) ∧
    (∀ peer result other frame, (other, frame) ∈ (log (.received peer result) host).1.sent →
      other = peer) ∧
    (∀ peer key, key ∈ (host.queues peer).awaited ↔ Outstanding history peer key) ∧
    (∀ event peer key, key ∈ ((log event host).2.queues peer).awaited ↔
      (log event host).1.Asks peer key ∨
        key ∈ (host.queues peer).awaited ∧ ¬ (log event host).1.Settles peer key) ∧
    (∀ peer result other, other ≠ peer →
      (log (.received peer result) host).2.queues other = host.queues other) := by
  intro history host
  have tracks : Tracks host history := tracks_outcomes (tracks_nil site) events
  refine ⟨?_, ?_, tracks.awaited, ?_, ?_⟩
  · intro peer result other key
    exact tracks.asks_iff
  · intro peer result other frame
    exact eq_of_sent
  · intro event peer key
    exact mem_awaited_log tracks.idle event
  · intro peer result other others
    exact queues_of_ne others

end Host

end GlyphShelf

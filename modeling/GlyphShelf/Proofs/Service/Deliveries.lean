import GlyphShelf.Proofs.Service.Answers
import GlyphShelf.Proofs.Service.Peers
import GlyphShelf.Proofs.Shelf.Folders
import GlyphShelf.Proofs.Shelf.Retention

/-!
# What is delivered is served

A host with a shelf in a folder serves what its peers delivered. Which glyphs it still has and with
which payloads is said here by the events alone: `retained` follows the order in which keys were
used, and `latest` looks for the last delivery of a key, whoever sent it. The shelf in the folder
has entries with just these keys and payloads, and each event keeps it so. The payloads came in
frames, so they fit into frames when they are served.
-/

namespace GlyphShelf.Host

open Answer (Unserved)
open GlyphShelf.Shelf (Entries keysOf payloadOf toFront Shelved)

variable {π : Type}

/-! ## What the events say -/

/-- A frame, or what was wrong with it, was cut off a stream. -/
def Event.Parsed : Event π → Prop
  | .joined _ => True
  | .received _ result => ∃ stream rest, Frame.take stream = some (result, rest)

/-- The keys that are kept after an event, the most recently used first. A delivery is a use and
may push out the key that was used least recently; a look-up is a use if the key is there. -/
def retain (capacity : Nat) (keys : List Key) : Event π → List Key
  | .received _ (.ok (.download key _)) =>
    if key.IsAnchor then keys else (key :: keys.erase key).take capacity
  | .received _ (.ok (.lookup key)) => if key ∈ keys then key :: keys.erase key else keys
  | .received _ (.ok .reset) => []
  | _ => keys

def retained (capacity : Nat) (events : List (Event π)) : List Key :=
  events.foldl (retain capacity) []

def Event.delivery? (key : Key) : Event π → Option Bytes
  | .received _ (.ok (.download other payload)) => if other = key then some payload else none
  | _ => none

/-- What was delivered last for a key. -/
def latest (events : List (Event π)) (key : Key) : Option Bytes :=
  events.reverse.findSome? fun event => event.delivery? key

variable {events : List (Event π)} {event : Event π} {capacity folder : Nat} {peer : π}
variable {entries entries' : Entries} {key : Key} {payload bytes : Bytes} {frame reply : Frame}

theorem retained_concat : retained capacity (events ++ [event]) =
    retain capacity (retained capacity events) event := by
  rw [retained, List.foldl_append]
  rfl

theorem latest_concat : latest (events ++ [event]) key =
    (event.delivery? key).or (latest events key) := by
  rw [latest, List.reverse_append, List.reverse_singleton, List.singleton_append,
    List.findSome?_cons]
  cases event.delivery? key <;> rfl

/-- What is delivered fits into a frame when it is sent back. -/
theorem Event.Parsed.fits
    (parsed : (Event.received peer (.ok (.download key payload))).Parsed) :
    payload.length + 2 ≤ Frame.maxBody := by
  obtain ⟨stream, rest, cut⟩ := parsed
  obtain ⟨bytes, encoded, -⟩ := Frame.take_eq_ok_iff.1 cut
  have small := (Frame.encode_eq_ok_iff.1 encoded).1
  rwa [Frame.body, List.length_append, Frame.length_wordBytes, Nat.add_comm] at small

/-! ## Entries that accord with the events -/

/-- The entries have the keys that are kept, each with what was delivered last for it. -/
structure Delivered (capacity : Nat) (events : List (Event π)) (entries : Entries) : Prop where
  keys : keysOf entries = retained capacity events
  payloads : ∀ key payload, payloadOf entries key = some payload →
    latest events key = some payload
  fitting : ∀ key payload, payloadOf entries key = some payload →
    payload.length + 2 ≤ Frame.maxBody

namespace Delivered

theorem nil (capacity : Nat) : Delivered (π := π) capacity [] [] :=
  ⟨rfl, nofun, nofun⟩

variable (delivered : Delivered capacity events entries)
include delivered

/-- An event that delivers nothing for the entries may bring them into another order. -/
theorem reordered (keys : keysOf entries' = retain capacity (keysOf entries) event)
    (payloads : payloadOf entries' = payloadOf entries)
    (undelivered : ∀ key ∈ keysOf entries, event.delivery? key = none) :
    Delivered capacity (events ++ [event]) entries' where
  keys := by rw [keys, retained_concat, delivered.keys]
  payloads key payload found := by
    rw [payloads] at found
    rw [latest_concat, undelivered key (Shelf.mem_keysOf_of_payload found)]
    exact delivered.payloads key payload found
  fitting key payload found := by
    rw [payloads] at found
    exact delivered.fitting key payload found

/-- A delivery comes to the front, and as many of the others stay as there is room for. -/
theorem download (nodup : (keysOf entries).Nodup) (glyph : ¬ key.IsAnchor)
    (fits : payload.length + 2 ≤ Frame.maxBody) (peer : π) :
    Delivered capacity (events ++ [.received peer (.ok (.download key payload))])
      ((toFront key payload entries).take capacity) := by
  have cases {other : Key} {found : Bytes}
      (present : payloadOf ((toFront key payload entries).take capacity) other = some found) :
      other = key ∧ found = payload ∨ other ≠ key ∧ payloadOf entries other = some found := by
    rw [Shelf.payloadOf_take (Shelf.mem_keysOf_of_payload present),
      Shelf.payloadOf_toFront] at present
    by_cases same : other = key
    · subst same
      rw [Function.update_self] at present
      exact .inl ⟨rfl, (Option.some.inj present).symm⟩
    · rw [Function.update_of_ne same] at present
      exact .inr ⟨same, present⟩
  constructor
  case keys =>
    rw [Shelf.keysOf_take, Shelf.keysOf_toFront nodup, retained_concat, retain, if_neg glyph,
      delivered.keys]
  case payloads =>
    intro other found present
    rw [latest_concat, Event.delivery?]
    rcases cases present with ⟨rfl, rfl⟩ | ⟨differs, still⟩
    · rw [if_pos rfl]
      rfl
    · rw [if_neg (Ne.symm differs)]
      exact delivered.payloads other found still
  case fitting =>
    intro other found present
    rcases cases present with ⟨-, rfl⟩ | ⟨-, still⟩
    · exact fits
    · exact delivered.fitting other found still

/-- A look-up that finds its key brings it to the front. -/
theorem lookup_of_present (nodup : (keysOf entries).Nodup)
    (found : payloadOf entries key = some payload) (peer : π) :
    Delivered capacity (events ++ [.received peer (.ok (.lookup key))])
      (toFront key payload entries) := by
  apply delivered.reordered
  case keys =>
    rw [Shelf.keysOf_toFront nodup, retain, if_pos (Shelf.mem_keysOf_of_payload found)]
  case payloads =>
    rw [Shelf.payloadOf_toFront, ← found, Function.update_eq_self]
  case undelivered =>
    exact fun _ _ => rfl

omit delivered in
theorem reset (peer : π) : Delivered capacity (events ++ [.received peer (.ok .reset)]) [] where
  keys := by
    rw [retained_concat]
    rfl
  payloads := nofun
  fitting := nofun

end Delivered

/-! ## One event -/

section

variable {σ η : Type} [Device σ η] [DecidableEq π] {host : Host σ π} {site' : σ × Shelf}
variable {queue : RequestQueue}

theorem flush_of_idle (idle : queue.pending = []) : queue.flush = ([], queue) := by
  obtain ⟨pending, awaited⟩ := queue
  obtain rfl : pending = [] := idle
  rfl

theorem site_log (answer : Answer.toFrame frame host.site (host.queues peer) =
    (reply, site', queue)) : (log (.received peer (.ok frame)) host).2.site = site' := by
  rw [log_received, Connection.takeTurn, answer]
  rfl

theorem sent_log (answer : Answer.toFrame frame host.site (host.queues peer) =
    (reply, site', queue)) : (log (.received peer (.ok frame)) host).1.sent =
      (queue.flush.1 ++ [reply]).map (peer, ·) := by
  rw [log_received, Connection.takeTurn, answer]
  rfl

/-- What waits in a queue goes ahead of the reply. -/
theorem getLast?_sent_log (answer : Answer.toFrame frame host.site (host.queues peer) =
    (reply, site', queue)) :
    (log (.received peer (.ok frame)) host).1.sent.getLast? = some (peer, reply) := by
  rw [sent_log answer, List.map_append, List.map_singleton, List.getLast?_concat]

/-- Where no request waits, the reply is all that is sent. -/
theorem sent_log_of_idle (answer : Answer.toFrame frame host.site (host.queues peer) =
    (reply, site', queue)) (idle : queue.pending = []) :
    (log (.received peer (.ok frame)) host).1.sent = [(peer, reply)] := by
  rw [sent_log answer, flush_of_idle idle]
  rfl

theorem setQueue_self (host : Host σ π) (peer : π) :
    host.setQueue peer (host.queues peer) = host := by
  have same : (fun other => if other = peer then host.queues peer else host.queues other) =
      host.queues := by
    funext other
    split
    · rename_i equal
      rw [equal]
    · rfl
  rw [setQueue, same]

/-- A frame that is turned away is refused, and changes nothing. -/
theorem log_of_unserved (idle : host.Idle) (unserved : Unserved frame) (peer : π) :
    log (.received peer (.ok frame)) host =
      (⟨.received peer (.ok frame), [(peer, (Answer.refusalOf frame).frame)]⟩, host) := by
  rw [log_received, Connection.takeTurn, Answer.toFrame_of_unserved unserved]
  dsimp only
  rw [flush_of_idle (idle peer), setQueue_self]
  rfl

end

/-! ## Answers in a folder -/

/-- The shelf in the folder has what the events say. -/
def Accords (folder capacity : Nat) (events : List (Event π)) (site : Directory × Shelf) : Prop :=
  ∃ entries, Shelved folder capacity site entries ∧ Delivered capacity events entries

section

variable {site : Directory × Shelf} (accords : Accords folder capacity events site)
include accords

theorem Accords.runs_keys :
    ∃ site', Runs Shelf.keys site (.ok (retained capacity events)) site' := by
  obtain ⟨entries, shelved, delivered⟩ := accords
  rw [← delivered.keys]
  exact shelved.runs_keys

theorem Accords.size_eq : site.2.size = (retained capacity events).length := by
  obtain ⟨entries, shelved, delivered⟩ := accords
  rw [← delivered.keys, Shelf.length_keysOf, shelved.size_eq]

theorem Accords.size_le : site.2.size ≤ capacity := by
  obtain ⟨entries, shelved, -⟩ := accords
  rw [shelved.size_eq]
  exact shelved.length_le

theorem Accords.answer_download (glyph : ¬ key.IsAnchor)
    (fits : payload.length + 2 ≤ Frame.maxBody) (peer : π) (queue : RequestQueue) :
    ∃ site', Answer.toFrame (.download key payload) site queue =
        (.stored (Answer.countWord site'.2.size), site', queue.arrived key) ∧
      Accords folder capacity (events ++ [.received peer (.ok (.download key payload))]) site' := by
  obtain ⟨entries, shelved, delivered⟩ := accords
  have small : payload.length ≤ Directory.safeSize :=
    Nat.le_trans (Nat.le_of_add_right_le fits) (by decide)
  obtain ⟨site', run, shelved'⟩ := shelved.runs_put glyph small
  rw [← shelved'.size_eq] at run
  exact ⟨site', Answer.toDownload_of_stored glyph run queue, _, shelved',
    delivered.download shelved.nodup glyph fits peer⟩

theorem Accords.answer_lookup_of_present (member : key ∈ retained capacity events) (peer : π)
    (queue : RequestQueue) :
    ∃ payload site', latest events key = some payload ∧
      Answer.toFrame (.lookup key) site queue = (.glyph key payload, site', queue) ∧
      Accords folder capacity (events ++ [.received peer (.ok (.lookup key))]) site' := by
  obtain ⟨entries, shelved, delivered⟩ := accords
  rw [← delivered.keys] at member
  obtain ⟨payload, found⟩ := Shelf.exists_payload member
  obtain ⟨record, d', shelf', d'', opening, reading, shelved'⟩ := shelved.runs_openEntry found
  exact ⟨payload, (d'', shelf'), delivered.payloads key payload found,
    Answer.toLookup_of_present (shelved.glyph member) opening reading
      (delivered.fitting key payload found) queue,
    _, shelved', delivered.lookup_of_present shelved.nodup found peer⟩

theorem Accords.answer_lookup_of_missing (glyph : ¬ key.IsAnchor)
    (missing : key ∉ retained capacity events) (peer : π) (queue : RequestQueue) :
    ∃ site', Answer.toFrame (.lookup key) site queue =
        (.missing key, site', (queue.ask key).2) ∧
      Accords folder capacity (events ++ [.received peer (.ok (.lookup key))]) site' := by
  obtain ⟨entries, shelved, delivered⟩ := accords
  rw [← delivered.keys] at missing
  obtain ⟨site', run, shelved'⟩ :=
    shelved.runs_openEntry_of_absent glyph (Shelf.payloadOf_eq_none_iff.2 missing)
  refine ⟨site', Answer.toLookup_of_missing glyph run queue, entries, shelved', ?_⟩
  exact delivered.reordered (if_neg missing).symm rfl fun _ _ => rfl

theorem Accords.answer_reset (peer : π) (queue : RequestQueue) :
    ∃ site', Answer.toFrame .reset site queue = (.done, site', queue) ∧
      Accords folder capacity (events ++ [.received peer (.ok .reset)]) site' := by
  obtain ⟨entries, shelved, -⟩ := accords
  obtain ⟨site', run, shelved'⟩ := shelved.runs_reset
  refine ⟨site', ?_, [], shelved', .reset peer⟩
  rw [Answer.toFrame, Answer.toReset_of_done run]

/-- An event that is neither a use nor a delivery changes nothing in what the events say. -/
theorem Accords.unaffected (unused : ∀ keys, retain capacity keys event = keys)
    (undelivered : ∀ key, event.delivery? key = none) :
    Accords folder capacity (events ++ [event]) site := by
  obtain ⟨entries, shelved, delivered⟩ := accords
  exact ⟨entries, shelved, delivered.reordered (unused _).symm rfl fun key _ => undelivered key⟩

/-- Nor does what is turned away, since no anchor is among the keys. -/
theorem Accords.unserved (unserved : Unserved frame) (peer : π) :
    Accords folder capacity (events ++ [.received peer (.ok frame)]) site := by
  cases frame with
  | download other payload =>
    obtain ⟨entries, shelved, delivered⟩ := accords
    refine ⟨entries, shelved, delivered.reordered (if_pos unserved).symm rfl fun key member => ?_⟩
    have differs : other ≠ key := by
      rintro rfl
      exact shelved.glyph member unserved
    exact if_neg differs
  | lookup key =>
    obtain ⟨entries, shelved, delivered⟩ := accords
    have absent : key ∉ keysOf entries := fun member => shelved.glyph member unserved
    exact ⟨entries, shelved, delivered.reordered (if_neg absent).symm rfl fun _ _ => rfl⟩
  | stats => exact unserved.elim
  | reset => exact unserved.elim
  | _ => exact accords.unaffected (fun _ => rfl) fun _ => rfl

/-- Any frame is answered so that the shelf has what the events say, the frame included, and never
with the reason that a glyph is too large. -/
theorem Accords.answers (parsed : (Event.received peer (.ok frame)).Parsed)
    (queue : RequestQueue) :
    ∃ reply site' queue', Answer.toFrame frame site queue = (reply, site', queue') ∧
      Accords folder capacity (events ++ [.received peer (.ok frame)]) site' ∧
      ∀ key size, reply ≠ Refusal.frame (.tooLarge key size) := by
  by_cases unserved : Unserved frame
  · exact ⟨_, site, queue, Answer.toFrame_of_unserved unserved site queue,
      accords.unserved unserved peer, Answer.refusalOf_ne_tooLarge frame⟩
  cases frame with
  | download key payload =>
    obtain ⟨site', answer, accords'⟩ := accords.answer_download unserved parsed.fits peer queue
    exact ⟨_, site', _, answer, accords', nofun⟩
  | lookup key =>
    by_cases member : key ∈ retained capacity events
    · obtain ⟨payload, site', -, answer, accords'⟩ :=
        accords.answer_lookup_of_present member peer queue
      exact ⟨_, site', _, answer, accords', nofun⟩
    · obtain ⟨site', answer, accords'⟩ :=
        accords.answer_lookup_of_missing unserved member peer queue
      exact ⟨_, site', _, answer, accords', nofun⟩
  | stats => exact ⟨_, site, queue, rfl, accords.unaffected (fun _ => rfl) fun _ => rfl, nofun⟩
  | reset =>
    obtain ⟨site', answer, accords'⟩ := accords.answer_reset peer queue
    exact ⟨_, site', _, answer, accords', nofun⟩
  | _ => exact absurd trivial unserved

end

/-! ## Any number of events -/

variable [DecidableEq π] {host : Host Directory π}

/-- The shelf of the host has what the events say, and no request waits to be sent. -/
structure Follows (folder capacity : Nat) (host : Host Directory π) (events : List (Event π)) :
    Prop where
  idle : host.Idle
  accords : Accords folder capacity events host.site

theorem Follows.log (follows : Follows folder capacity host events) (parsed : event.Parsed) :
    Follows folder capacity (Host.log event host).2 (events ++ [event]) where
  idle := follows.idle.log event
  accords := by
    cases event with
    | joined peer => exact follows.accords.unaffected (fun _ => rfl) fun _ => rfl
    | received peer result =>
      cases result with
      | error problem => exact follows.accords.unaffected (fun _ => rfl) fun _ => rfl
      | ok frame =>
        obtain ⟨reply, site', queue', answer, accords, -⟩ :=
          follows.accords.answers parsed (host.queues peer)
        rwa [site_log answer]

theorem follows_outcomes (follows : Follows folder capacity host events)
    {later : List (Event π)} (parsed : ∀ event ∈ later, event.Parsed) :
    Follows folder capacity (outcomes Host.log later host).2 (events ++ later) := by
  induction later generalizing host events with
  | nil => simpa [outcomes] using follows
  | cons event later ih =>
    obtain ⟨first, rest⟩ := List.forall_mem_cons.1 parsed
    have ended := ih (follows.log first) rest
    rwa [List.append_assoc] at ended

/-! ## The main statement -/

/-- What a host does with the next event, told by the events before. -/
structure Serves (capacity : Nat) (host : Host Directory π) (events : List (Event π)) : Prop where
  /-- The keys on the shelf are the ones that are kept, in the order of their last uses. -/
  keys : ∃ site', Runs Shelf.keys host.site (.ok (retained capacity events)) site'
  size : host.site.2.size = (retained capacity events).length
  /-- A delivery is stored, and answered with the number of glyphs that are kept then. -/
  stored : ∀ peer key payload, ¬ key.IsAnchor →
    let event : Event π := .received peer (.ok (.download key payload))
    event.Parsed → ∃ count, (log event host).1.sent = [(peer, .stored count)] ∧
      count.toNat = (log event host).2.site.2.size ∧
      count.toNat = (retained capacity (events ++ [event])).length ∧ count.toNat ≤ capacity
  /-- A key that is kept is looked up with success. -/
  found : ∀ peer, ∀ key ∈ retained capacity events, ∃ payload,
    latest events key = some payload ∧
      (log (.received peer (.ok (.lookup key))) host).1.sent = [(peer, .glyph key payload)]
  /-- Any other key is missing; a request may go ahead of this reply. -/
  missing : ∀ peer key, ¬ key.IsAnchor → key ∉ retained capacity events →
    (log (.received peer (.ok (.lookup key))) host).1.sent.getLast? = some (peer, .missing key)
  /-- After a reset all keys are missing to all peers. -/
  emptied : ∀ peer,
    let reset : Event π := .received peer (.ok .reset)
    (log reset host).1.sent = [(peer, .done)] ∧ ∀ other key, ¬ key.IsAnchor →
      (log (.received other (.ok (.lookup key))) (log reset host).2).1.sent.getLast? =
        some (other, .missing key)
  /-- What is turned away changes nothing at all. -/
  refused : ∀ peer frame, Unserved frame → log (.received peer (.ok frame)) host =
    (⟨.received peer (.ok frame), [(peer, (Answer.refusalOf frame).frame)]⟩, host)
  /-- No glyph is too large to be sent. -/
  fitting : ∀ event : Event π, event.Parsed → ∀ peer key size,
    (peer, Refusal.frame (.tooLarge key size)) ∉ (log event host).1.sent

section

variable (follows : Follows folder capacity host events)
include follows

theorem Follows.stored (most : capacity ≤ maxCapacity) (glyph : ¬ key.IsAnchor)
    (fits : payload.length + 2 ≤ Frame.maxBody) (peer : π) :
    ∃ count, (Host.log (.received peer (.ok (.download key payload))) host).1.sent =
        [(peer, .stored count)] ∧
      count.toNat = (Host.log (.received peer (.ok (.download key payload))) host).2.site.2.size ∧
      count.toNat =
        (retained capacity (events ++ [.received peer (.ok (.download key payload))])).length ∧
      count.toNat ≤ capacity := by
  obtain ⟨site', answer, accords⟩ :=
    follows.accords.answer_download glyph fits peer (host.queues peer)
  have few : site'.2.size < 65536 :=
    Nat.lt_of_le_of_lt (Nat.le_trans accords.size_le most) (by decide)
  refine ⟨_, sent_log_of_idle answer (follows.idle peer), ?_⟩
  rw [site_log answer, Answer.toNat_countWord few]
  exact ⟨rfl, accords.size_eq, accords.size_le⟩

theorem Follows.found (member : key ∈ retained capacity events) (peer : π) :
    ∃ payload, latest events key = some payload ∧
      (Host.log (.received peer (.ok (.lookup key))) host).1.sent =
        [(peer, .glyph key payload)] := by
  obtain ⟨payload, site', last, answer, -⟩ :=
    follows.accords.answer_lookup_of_present member peer (host.queues peer)
  exact ⟨payload, last, sent_log_of_idle answer (follows.idle peer)⟩

theorem Follows.missing (glyph : ¬ key.IsAnchor) (absent : key ∉ retained capacity events)
    (peer : π) : (Host.log (.received peer (.ok (.lookup key))) host).1.sent.getLast? =
      some (peer, .missing key) := by
  obtain ⟨site', answer, -⟩ :=
    follows.accords.answer_lookup_of_missing glyph absent peer (host.queues peer)
  exact getLast?_sent_log answer

theorem Follows.fitting (parsed : event.Parsed) (peer : π) (key : Key) (size : Nat) :
    (peer, Refusal.frame (.tooLarge key size)) ∉ (Host.log event host).1.sent := by
  intro sent
  cases event with
  | joined other => cases sent
  | received other result =>
    cases result with
    | error problem =>
      have only := List.mem_singleton.1 sent
      exact Answer.problem_ne_tooLarge problem key size (Prod.mk.inj only).2.symm
    | ok frame =>
      obtain ⟨reply, site', queue', answer, -, differs⟩ :=
        follows.accords.answers parsed (host.queues other)
      rw [sent_log answer] at sent
      obtain ⟨_, member, same⟩ := List.mem_map.1 sent
      rw [(Prod.mk.inj same).2] at member
      rcases List.mem_append.1 member with request | last
      · obtain ⟨_, -, asks⟩ := List.mem_map.1 request
        cases asks
      · exact differs key size (List.mem_singleton.1 last).symm

/-- After the events a host serves as they say. -/
theorem Follows.serves (most : capacity ≤ maxCapacity) : Serves capacity host events where
  keys := follows.accords.runs_keys
  size := follows.accords.size_eq
  stored peer key payload glyph := fun parsed => follows.stored most glyph parsed.fits peer
  found peer key member := follows.found member peer
  missing peer key glyph absent := follows.missing glyph absent peer
  emptied peer := by
    intro reset
    obtain ⟨site', answer, -⟩ := follows.accords.answer_reset peer (host.queues peer)
    refine ⟨sent_log_of_idle answer (follows.idle peer), fun other key glyph => ?_⟩
    have parsed : reset.Parsed := ⟨[0x05, 0, 0], [], rfl⟩
    have after := follows.log parsed
    have empty : key ∉ retained capacity (events ++ [reset]) := by
      rw [retained_concat]
      exact List.not_mem_nil
    exact after.missing glyph empty other
  refused peer frame unserved := log_of_unserved follows.idle unserved peer
  fitting event parsed := follows.fitting parsed

end

/-- A host whose shelf was opened cold in a folder without files serves exactly what was delivered,
whatever frames of whatever peers it handled before, one after the other. Deliveries are stored and
answered with the number of glyphs, look-ups are answered with the payload that was delivered last
as long as the key is one of those used most recently, and with nothing but a miss otherwise. -/
theorem serves_what_was_delivered {d : Directory} {settings : Settings} (plain : d.Plain folder)
    (sound : d.files.Sound) (vacant : ∀ name, d.files.get? ⟨folder, name⟩ = none)
    (cold : settings.cold = true) (positive : 1 ≤ settings.capacity)
    (most : settings.capacity ≤ 65534) :
    ∃ d₀, Runs (Shelf.openOn settings) d (.ok { capacity := settings.capacity }) d₀ ∧
      ∀ events : List (Event π), (∀ event ∈ events, event.Parsed) →
        Serves settings.capacity
          (outcomes Host.log events { site := (d₀, { capacity := settings.capacity }) }).2
          events := by
  obtain ⟨d₀, opening, shelved⟩ :=
    Shelf.opened_in_folder plain sound vacant cold positive most
  refine ⟨d₀, opening, fun events parsed => ?_⟩
  have start : Follows (π := π) folder settings.capacity
      { site := (d₀, { capacity := settings.capacity }) } [] :=
    ⟨fun _ => rfl, [], shelved, .nil settings.capacity⟩
  exact (follows_outcomes start parsed).serves most

/-- Two peers deliver one glyph after the other, and one of them what the other looked up. -/
theorem second_delivery_served :
    let events : List (Event Bool) :=
      [.received false (.ok (.download ⟨1⟩ [7])), .received true (.ok (.download ⟨2⟩ [])),
        .received true (.ok (.lookup ⟨1⟩)), .received false (.ok (.download ⟨3⟩ [9, 9])),
        .received true (.ok (.download ⟨1⟩ [8]))]
    ∃ d₀, Runs (Shelf.openOn { capacity := 2 }) ({} : Directory) (.ok { capacity := 2 }) d₀ ∧
      let host := (outcomes Host.log events { site := (d₀, { capacity := 2 }) }).2
      (Host.log (.received false (.ok (.lookup ⟨1⟩))) host).1.sent = [(false, .glyph ⟨1⟩ [8])] ∧
      (Host.log (.received true (.ok (.lookup ⟨2⟩))) host).1.sent.getLast? =
        some (true, .missing ⟨2⟩) := by
  intro events
  have plain : Directory.Plain {} 0 := ⟨rfl, by decide, fun _ => by simp⟩
  have parsed : ∀ event ∈ events, event.Parsed := by
    simp only [events, List.forall_mem_cons]
    exact ⟨⟨[0x02, 0, 3, 0, 1, 7], [], rfl⟩, ⟨[0x02, 0, 2, 0, 2], [], rfl⟩,
      ⟨[0x03, 0, 2, 0, 1], [], rfl⟩, ⟨[0x02, 0, 4, 0, 3, 9, 9], [], rfl⟩,
      ⟨[0x02, 0, 3, 0, 1, 8], [], rfl⟩, nofun⟩
  obtain ⟨d₀, opening, serves⟩ := serves_what_was_delivered (π := Bool) plain
    Cabinet.sound_empty (fun _ => rfl) (rfl : ({ capacity := 2 } : Settings).cold = true)
    (by decide) (by decide)
  have serves := serves events parsed
  refine ⟨d₀, opening, ?_, serves.missing true ⟨2⟩ (by decide) (by decide)⟩
  obtain ⟨payload, last, sent⟩ := serves.found false ⟨1⟩ (by decide)
  obtain rfl : [8] = payload := Option.some.inj last
  exact sent

end GlyphShelf.Host

import GlyphShelf.Proofs.Payloads
import GlyphShelf.Proofs.Ring.Frames
import GlyphShelf.Shelf

/-!
# Wiping a device

Wiping deletes what is listed as a link and the payloads of glyphs, and writes two anchors. It
does so whatever the device holds and in whatever order the device lists it: `wiped records`
are the records it leaves behind, and they mention neither. A shelf that is opened cold starts
from these, because all that is written before the wipe are links.
-/

namespace GlyphShelf

variable {m : Memory} {name : String} {names : List String} {keys : List Key}
variable {records records' : String → Option Bytes}

def erased (records : String → Option Bytes) (names : List String) : String → Option Bytes :=
  fun name => if name ∈ names then none else records name

theorem erased_cons (records : String → Option Bytes) (name : String) (names : List String) :
    erased (Function.update records name none) names = erased records (name :: names) := by
  funext other
  by_cases same : other = name
  · subst same
    simp [erased]
  · simp [erased, same]

/-- Only the names of present records matter. -/
theorem erased_eq {gone : String → Bool}
    (listed : ∀ name, records name ≠ none → (name ∈ names ↔ gone name = true)) :
    erased records names = fun name => if gone name then none else records name := by
  funext name
  by_cases absent : records name = none
  · simp [erased, absent]
  · simp only [erased, listed name absent]

theorem Memory.mem_list (m : Memory) (name : String) :
    name ∈ m.listing.arrange m.cabinet.names ↔ m.get? name ≠ none := by
  rw [Listing.mem_arrange, Cabinet.mem_names, ← Memory.get?, Option.isSome_iff_ne_none]

namespace Ring

theorem runs_deleteAll (quiet : m.fault = none) (names : List String) :
    ∃ m', Runs (deleteAll names) m (.ok ()) m' ∧ m.Spends names.length m' ∧
      m'.get? = erased m.get? names := by
  induction names generalizing m with
  | nil => exact ⟨m, .pure () m, Memory.spends_refl m, rfl⟩
  | cons name names ih =>
    obtain ⟨m₁, deleting, sets⟩ := Memory.runs_discard (Memory.allows_of_none quiet 1) name
    obtain ⟨m', going, spends, get⟩ := ih (sets.fault_eq_none quiet)
    refine ⟨m', deleting.bind going, ?_, ?_⟩
    · rw [List.length_cons, Nat.add_comm]
      exact sets.toSpends.trans spends
    · rw [get, sets.get?, erased_cons]

/-- The records when both anchors are made sure of: unless both are there, they are stored anew. -/
def prepared (records : String → Option Bytes) : String → Option Bytes :=
  if hasLink records .head && hasLink records .tail then records
  else Function.update
    (Function.update records (linkName .head) (some (Link.encode ⟨.tail, .tail⟩)))
    (linkName .tail) (some (Link.encode ⟨.head, .head⟩))

theorem runs_writeAnchors (unlimited : m.quota = none) (quiet : m.fault = none) :
    ∃ m', Runs writeAnchors m (.ok ()) m' ∧ m.Spends 6 m' ∧
      m'.get? = Function.update
        (Function.update m.get? (linkName .head) (some (Link.encode ⟨.tail, .tail⟩)))
        (linkName .tail) (some (Link.encode ⟨.head, .head⟩)) := by
  obtain ⟨m₁, heading, sets₁⟩ := Memory.runs_replace unlimited (Memory.allows_of_none quiet 3)
    (linkName .head) (Link.encode ⟨.tail, .tail⟩)
  obtain ⟨m₂, tailing, sets₂⟩ := Memory.runs_replace (sets₁.quota.trans unlimited)
    (Memory.allows_of_none (sets₁.fault_eq_none quiet) 3) (linkName .tail)
    (Link.encode ⟨.head, .head⟩)
  refine ⟨m₂, heading.bind tailing, sets₁.toSpends.trans sets₂.toSpends, ?_⟩
  rw [sets₂.get?, sets₁.get?]

/-- On a device without links the anchors make an empty ring. -/
theorem runs_writeAnchors_of_unlinked (shows : Shows m.get? fun _ => none)
    (unlimited : m.quota = none) (quiet : m.fault = none) :
    ∃ m', Runs writeAnchors m (.ok ()) m' ∧ Relinks m 6 (anchored fun _ => none) m' := by
  obtain ⟨m₁, heading, relinks₁⟩ :=
    runs_writeLink shows unlimited (Memory.allows_of_none quiet 3) .head ⟨.tail, .tail⟩
  obtain ⟨m₂, tailing, relinks₂⟩ := runs_writeLink relinks₁.shows (relinks₁.quota.trans unlimited)
    (Memory.allows_of_none (relinks₁.fault_eq_none quiet) 3) .tail ⟨.head, .head⟩
  exact ⟨m₂, heading.bind tailing, relinks₁.trans relinks₂⟩

theorem runs_contains_of_quiet (quiet : m.fault = none) (key : Key) :
    ∃ count, Runs (contains key) m (.ok (hasLink m.get? key)) (m.spend count) :=
  Memory.runs_hasRecord_of_quiet quiet (linkName key)

theorem runs_setUp (unlimited : m.quota = none) (quiet : m.fault = none) :
    ∃ m' count, Runs setUp m (.ok ()) m' ∧ m.Spends count m' ∧ m'.get? = prepared m.get? := by
  obtain ⟨count, heading⟩ := runs_contains_of_quiet quiet .head
  have spends := Memory.spends_spend m count
  obtain ⟨more, tailing⟩ := runs_contains_of_quiet (spends.fault_eq_none quiet) .tail
  rw [Memory.spend_spend] at tailing
  have both := Memory.spends_spend m (count + more)
  by_cases present : (hasLink m.get? .head && hasLink m.get? .tail) = true
  · rw [prepared, if_pos present]
    refine ⟨_, _, heading.bind (tailing.bind ?_), both, rfl⟩
    rw [Memory.get?_spend, if_pos present]
    exact .pure () _
  · obtain ⟨m', writing, spends', get⟩ :=
      runs_writeAnchors (m := m.spend (count + more)) unlimited (both.fault_eq_none quiet)
    rw [prepared, if_neg present]
    refine ⟨m', _, heading.bind (tailing.bind ?_), both.trans spends', get⟩
    rwa [Memory.get?_spend, if_neg present]

/-- A ring that is there is taken over as it is. -/
theorem runs_setUp_of_ring {table : Table} (shows : Shows m.get? table) (ring : IsRing table keys)
    (quiet : m.fault = none) : Runs setUp m (.ok ()) (m.spend 4) := by
  obtain ⟨head, headFound⟩ := ring.exists_link .head (.inl (.inl rfl))
  obtain ⟨tail, tailFound⟩ := ring.exists_link .tail (.inl (.inr rfl))
  have shows₂ := relinks_spend shows 2
  have heading := runs_contains_of_linked shows (Memory.allows_of_none quiet 2) headFound
  have tailing := runs_contains_of_linked shows₂.shows
    (Memory.allows_of_none (shows₂.fault_eq_none quiet) 2) tailFound
  rw [Memory.spend_spend] at tailing
  exact heading.bind (tailing.bind (.pure () _))

/-- Where there is no link at all, an empty ring is set up. -/
theorem runs_setUp_of_unlinked (shows : Shows m.get? fun _ => none) (unlimited : m.quota = none)
    (quiet : m.fault = none) :
    ∃ m', Runs setUp m (.ok ()) m' ∧ Shows m'.get? (anchored fun _ => none) := by
  have shows₁ := relinks_spend shows 1
  have shows₂ := relinks_spend shows 2
  have heading : Runs (contains .head) m (.ok false) (m.spend 1) :=
    runs_contains_of_unlinked shows (Memory.allows_of_none quiet 1) rfl
  have tailing : Runs (contains .tail) (m.spend 1) (.ok false) ((m.spend 1).spend 1) :=
    runs_contains_of_unlinked shows₁.shows
      (Memory.allows_of_none (shows₁.fault_eq_none quiet) 1) rfl
  rw [Memory.spend_spend] at tailing
  obtain ⟨m', anchoring, relinks⟩ := runs_writeAnchors_of_unlinked shows₂.shows
    (m := m.spend 2) unlimited (shows₂.fault_eq_none quiet)
  exact ⟨m', heading.bind (tailing.bind anchoring), relinks.shows⟩

theorem runs_clear (unlimited : m.quota = none) (quiet : m.fault = none) :
    ∃ m' count, Runs clear m (.ok ()) m' ∧ m.Spends count m' ∧
      m'.get? = withLinks (fun name => if RecordName.isLink name then none else m.get? name)
        (anchored fun _ => none) := by
  have listing := Memory.runs_list (Memory.allows_of_none quiet 1)
  have spends := Memory.spends_spend m 1
  obtain ⟨m₁, deleting, spends₁, get⟩ := runs_deleteAll (spends.fault_eq_none quiet)
    ((m.listing.arrange m.cabinet.names).filter RecordName.isLink)
  have unlinked : m₁.get? = fun name => if RecordName.isLink name then none else m.get? name := by
    rw [get, Memory.get?_spend]
    apply erased_eq
    intro name present
    rw [List.mem_filter, Memory.mem_list, and_iff_right present]
  have shows : Shows m₁.get? fun _ => none := by
    intro key
    simp [unlinked, isLink_linkName]
  have all := spends.trans spends₁
  obtain ⟨m', anchoring, relinks⟩ :=
    runs_writeAnchors_of_unlinked shows (all.quota.trans unlimited) (all.fault_eq_none quiet)
  refine ⟨m', _, listing.bind (deleting.bind anchoring), all.trans relinks.toSpends, ?_⟩
  rw [relinks.get?, unlinked]

end Ring

namespace Shelf

open Payloads

theorem glyph?_payloadName {key : Key} (glyph : ¬ key.IsAnchor) :
    RecordName.glyph? (payloadName key) = some key := by
  simp [RecordName.glyph?, payloadName, glyph]

theorem not_isAnchor_of_glyph? {key : Key} (read : RecordName.glyph? name = some key) :
    ¬ key.IsAnchor := by
  unfold RecordName.glyph? at read
  split at read
  · split at read
    · cases read
    · rename_i glyph
      cases read
      exact glyph
  · cases read

def isPayload (name : String) : Bool :=
  (RecordName.glyph? name).any fun key => payloadName key == name

theorem isPayload_iff : isPayload name = true ↔ ∃ key, ¬ key.IsAnchor ∧ name = payloadName key := by
  rw [isPayload, Option.any_eq_true]
  constructor
  · rintro ⟨key, read, same⟩
    exact ⟨key, not_isAnchor_of_glyph? read, (eq_of_beq same).symm⟩
  · rintro ⟨key, glyph, rfl⟩
    exact ⟨key, glyph?_payloadName glyph, beq_self_eq_true _⟩

/-- What wiping leaves of the records of a device. -/
def wiped (records : String → Option Bytes) : String → Option Bytes :=
  Ring.withLinks
    (fun name => if RecordName.isLink name || isPayload name then none else records name)
    (Ring.anchored fun _ => none)

/-- What is read as neither a link nor a payload under its own name is left as it was. -/
theorem wiped_of_other (notLink : RecordName.isLink name = false)
    (notPayload : isPayload name = false) (records : String → Option Bytes) :
    wiped records name = records name := by
  rw [wiped, Ring.withLinks_of_other (Ring.linkKey?_eq_none notLink), notLink, notPayload]
  rfl

/-- Links have no part in what is left. -/
theorem wiped_congr
    (same : ∀ name, RecordName.isLink name = false → records' name = records name) :
    wiped records' = wiped records := by
  unfold wiped
  congr 1
  funext name
  cases link : RecordName.isLink name with
  | true => rfl
  | false => rw [same name link]

theorem deletePayloads_eq {σ η : Type} [Device σ η] (glyphs : ∀ key ∈ keys, ¬ key.IsAnchor) :
    (deletePayloads keys : Action σ Unit) = Ring.deleteAll (keys.map payloadName) := by
  induction keys with
  | nil => rfl
  | cons key keys ih =>
    obtain ⟨glyph, glyphs⟩ := List.forall_mem_cons.1 glyphs
    rw [deletePayloads, List.map_cons, Ring.deleteAll, Payloads.delete,
      Action.requireGlyph_bind glyph, ih glyphs]
    rfl

/-- Wiping succeeds whatever the device holds. -/
theorem runs_wipe (unlimited : m.quota = none) (quiet : m.fault = none) :
    ∃ m' count, Runs wipe m (.ok ()) m' ∧ m.Spends count m' ∧ m'.get? = wiped m.get? := by
  have listing := runs_enumerate (Memory.allows_of_none quiet 1)
  have spends := Memory.spends_spend m 1
  have glyphs : ∀ key ∈ (m.listing.arrange m.cabinet.names).filterMap RecordName.glyph?,
      ¬ key.IsAnchor := by
    intro key member
    obtain ⟨name, -, read⟩ := List.mem_filterMap.1 member
    exact not_isAnchor_of_glyph? read
  obtain ⟨m₁, deleting, spends₁, get⟩ := Ring.runs_deleteAll (spends.fault_eq_none quiet)
    (((m.listing.arrange m.cabinet.names).filterMap RecordName.glyph?).map payloadName)
  rw [← deletePayloads_eq glyphs] at deleting
  have unpaid : m₁.get? = fun name => if isPayload name then none else m.get? name := by
    rw [get, Memory.get?_spend]
    apply erased_eq
    intro name present
    rw [isPayload_iff, List.mem_map]
    constructor
    · rintro ⟨key, member, rfl⟩
      exact ⟨key, glyphs key member, rfl⟩
    · rintro ⟨key, glyph, rfl⟩
      exact ⟨key, List.mem_filterMap.2
        ⟨_, (Memory.mem_list m _).2 present, glyph?_payloadName glyph⟩, rfl⟩
  have both := spends.trans spends₁
  obtain ⟨m', count, clearing, spends₂, get'⟩ :=
    Ring.runs_clear (both.quota.trans unlimited) (both.fault_eq_none quiet)
  refine ⟨m', _, listing.bind (deleting.bind clearing), both.trans spends₂, ?_⟩
  rw [get', unpaid, wiped]
  congr 1
  funext name
  by_cases link : RecordName.isLink name
  · simp [link]
  · simp [link]

/-! ## Opening cold -/

theorem runs_openOn_of_invalid {settings : Settings} {e : Failure}
    (invalid : settings.validate = .error e) (m : Memory) :
    Runs (openOn settings) m (.error e) m := by
  have refused : Runs (recover settings) m (.error e) m := by
    rw [recover, invalid]
    exact (Action.runs_ofExcept (.error e) m).bind_error
  exact refused.bind_error

/-- A shelf opened cold is empty, on a device that is wiped. -/
theorem runs_openOn_cold {settings : Settings} (valid : settings.validate = .ok ())
    (cold : settings.cold = true) (unlimited : m.quota = none) (quiet : m.fault = none) :
    ∃ m' count, Runs (openOn settings) m (.ok { capacity := settings.capacity }) m' ∧
      m.Spends count m' ∧ m'.get? = wiped m.get? := by
  obtain ⟨m₁, count, setting, spends, -⟩ := Ring.runs_setUp unlimited quiet
  have others := (Ring.respects_setUp.run setting).get?
  obtain ⟨m', more, wiping, spends', get⟩ :=
    runs_wipe (spends.quota.trans unlimited) (spends.fault_eq_none quiet)
  have recovering : Runs (recover settings) m (.ok 0) m' := by
    rw [recover, valid, cold]
    exact (Action.runs_ofExcept (.ok ()) m).bind (setting.bind (wiping.bind (.pure 0 m')))
  refine ⟨m', _, recovering.bind rfl, spends.trans spends', ?_⟩
  rw [get, wiped_congr fun name other => others name (Ring.not_mem_links other)]

end Shelf

end GlyphShelf

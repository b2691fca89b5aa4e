import GlyphShelf.Proofs.Shelf.Frames
import GlyphShelf.Proofs.Shelf.Stock

/-!
# Operations of a stocked shelf

Each operation of a shelf, run on a shelf with given entries: what it answers, how many
operations of the device it costs, and with which entries it leaves the shelf. The costs do not
depend on the number of entries, except that an operation pays for every glyph it drops.
-/

namespace GlyphShelf.Shelf

open Payloads

variable {m m₁ m₂ : Memory} {shelf : Shelf} {entries : Entries} {key : Key} {bytes : Bytes}
variable {payloads : Key → Option Bytes} {linked : List Key} {count : Nat} {α : Type} {e : Failure}

def promotionCost (linked : List Key) (key : Key) : Nat := if linked.head? = some key then 3 else 25

/-! ## Steps on the two parts -/

section

variable {table : Ring.Table} (shows : Ring.Shows m.get? table) (unlimited : m.quota = none)
include shows unlimited

theorem runs_storePayload_of_linked {link : Link} (allowed : m.Allows 5) (glyph : ¬ key.IsAnchor)
    (found : table key = some link) (bytes : Bytes) :
    ∃ m', Runs (storePayload key bytes) m (.ok true) m' ∧
      m.Sets 5 (payloadName key) (some bytes) m' := by
  obtain ⟨m₁, writing, sets⟩ :=
    Payloads.runs_write unlimited (allowed.mono (by omega)) glyph bytes
  have looking := Ring.runs_contains_of_linked (shows_of_sets shows sets)
    (sets.allows allowed 2 (by omega)) found
  exact ⟨_, Action.runs_orCleanUp (writing.bind looking), sets.spend 2⟩

theorem runs_storePayload_of_unlinked (allowed : m.Allows 4) (glyph : ¬ key.IsAnchor)
    (absent : table key = none) (bytes : Bytes) :
    ∃ m', Runs (storePayload key bytes) m (.ok false) m' ∧
      m.Sets 4 (payloadName key) (some bytes) m' := by
  obtain ⟨m₁, writing, sets⟩ :=
    Payloads.runs_write unlimited (allowed.mono (by omega)) glyph bytes
  have looking := Ring.runs_contains_of_unlinked (shows_of_sets shows sets)
    (sets.allows allowed 1 (by omega)) absent
  exact ⟨_, Action.runs_orCleanUp (writing.bind looking), sets.spend 1⟩

end

section

variable (stores : Stores m.get? linked payloads) (unlimited : m.quota = none)
variable (quiet : m.fault = none)
include stores unlimited quiet

theorem runs_storePayload (glyph : ¬ key.IsAnchor) (bytes : Bytes) :
    ∃ m', Runs (storePayload key bytes) m (.ok (decide (key ∈ linked))) m' ∧
      m.Spends (if key ∈ linked then 5 else 4) m' ∧
      Stores m'.get? linked (Function.update payloads key (some bytes)) := by
  have ring := stores.holds.isRing
  by_cases member : key ∈ linked
  · obtain ⟨link, found⟩ := ring.exists_link key (.inr member)
    obtain ⟨m', storing, sets⟩ := runs_storePayload_of_linked stores.holds.shows unlimited
      (Memory.allows_of_none quiet 5) glyph found bytes
    rw [if_pos member, decide_eq_true member]
    exact ⟨m', storing, sets.toSpends, stores.paid sets⟩
  · obtain ⟨m', storing, sets⟩ := runs_storePayload_of_unlinked stores.holds.shows unlimited
      (Memory.allows_of_none quiet 4) glyph (ring.eq_none glyph member) bytes
    rw [if_neg member, decide_eq_false member]
    exact ⟨m', storing, sets.toSpends, stores.paid sets⟩

/-- Promotion changes the ring alone; who has a payload open keeps it. -/
theorem runs_promote (member : key ∈ linked) :
    ∃ moved m', Runs (Ring.promote key) m (.ok moved) m' ∧
      m.Spends (promotionCost linked key) m' ∧
      Stores m'.get? (key :: linked.erase key) payloads ∧
      ∀ other, m'.cabinet.ref? (payloadName other) = m.cabinet.ref? (payloadName other) := by
  obtain ⟨moved, m', table, run, relinks, ring⟩ := Ring.runs_promote_of_linked stores.holds.shows
    stores.holds.isRing member unlimited quiet
  exact ⟨moved, m', run, relinks.toSpends, stores.relinked relinks ring,
    fun other => relinks.ref? _ (linkKey?_payloadName other)⟩

end

theorem runs_tell (event : Tally.Event) (m : Memory) (shelf : Shelf) :
    Runs (tell event) (m, shelf) (.ok ()) (m, shelf.record event) := rfl

/-! ## Storing -/

section

variable (stocked : Stocked m shelf entries) (glyph : ¬ key.IsAnchor) (bytes : Bytes)
include stocked glyph

/-- A glyph whose key is on the shelf takes the place of the earlier one. -/
theorem runs_put_of_member (member : key ∈ keysOf entries) :
    ∃ m' shelf', Runs (put key bytes) (m, shelf)
        (.ok ((toFront key bytes entries).take shelf.capacity).length) (m', shelf') ∧
      m.Spends (5 + promotionCost (keysOf entries) key +
        16 * (entries.length - shelf.capacity)) m' ∧
      Stocked m' shelf' ((toFront key bytes entries).take shelf.capacity) ∧
      shelf'.capacity = shelf.capacity := by
  obtain ⟨m₁, storing, spends₁, stores₁⟩ :=
    runs_storePayload stocked.stores stocked.unlimited stocked.quiet glyph bytes
  rw [decide_eq_true member] at storing
  rw [if_pos member] at spends₁
  obtain ⟨moved, m₂, promoting, spends₂, stores₂, -⟩ := runs_promote stores₁
    (spends₁.quota.trans stocked.unlimited) (spends₁.fault_eq_none stocked.quiet) member
  rw [← keysOf_toFront stocked.nodup key bytes, ← payloadOf_toFront] at stores₂
  have spends := spends₁.trans spends₂
  have length := stocked.length_toFront_of_member member bytes
  have stocked₂ : Stocked m₂ (shelf.record .update) (toFront key bytes entries) :=
    ⟨stores₂, stocked.size.trans length.symm, spends.quota.trans stocked.unlimited,
      spends.fault_eq_none stocked.quiet⟩
  obtain ⟨m', shelf', keeping, spends₃, stocked', same⟩ := runs_reconcile stocked₂
  rw [length] at spends₃
  refine ⟨m', shelf', ?_, spends.trans spends₃, stocked', same⟩
  rw [put_eq]
  exact (runs_bringIn_of_stored glyph storing (runs_enter_of_promoted promoting shelf)).bind keeping

/-- A new glyph is linked in front and makes the shelf one larger, before room is made. -/
theorem runs_put_of_fresh (fresh : key ∉ keysOf entries) :
    ∃ m' shelf', Runs (put key bytes) (m, shelf)
        (.ok ((toFront key bytes entries).take shelf.capacity).length) (m', shelf') ∧
      m.Spends (19 + 16 * (entries.length + 1 - shelf.capacity)) m' ∧
      Stocked m' shelf' ((toFront key bytes entries).take shelf.capacity) ∧
      shelf'.capacity = shelf.capacity := by
  obtain ⟨m₁, storing, spends₁, stores₁⟩ :=
    runs_storePayload stocked.stores stocked.unlimited stocked.quiet glyph bytes
  rw [decide_eq_false fresh] at storing
  rw [if_neg fresh] at spends₁
  obtain ⟨m₂, table, inserting, relinks, ring⟩ := Ring.runs_insert stores₁.holds.shows
    stores₁.holds.isRing (spends₁.quota.trans stocked.unlimited)
    (Memory.allows_of_none (spends₁.fault_eq_none stocked.quiet) 15) glyph fresh
  have stores₂ := stores₁.relinked relinks ring
  have keys := keysOf_toFront stocked.nodup key bytes
  rw [List.erase_of_not_mem fresh] at keys
  rw [← keys, ← payloadOf_toFront] at stores₂
  have spends := spends₁.trans relinks.toSpends
  have length := stocked.length_toFront_of_fresh fresh bytes
  have stocked₂ : Stocked m₂ shelf.afterInsert (toFront key bytes entries) :=
    ⟨stores₂, (congrArg (· + 1) stocked.size).trans length.symm,
      spends.quota.trans stocked.unlimited, spends.fault_eq_none stocked.quiet⟩
  obtain ⟨m', shelf', keeping, spends₃, stocked', same⟩ := runs_reconcile stocked₂
  rw [length] at spends₃
  refine ⟨m', shelf', ?_, spends.trans spends₃, stocked', same⟩
  rw [put_eq]
  exact (runs_bringIn_of_stored glyph storing (runs_enter_of_inserted inserting shelf)).bind keeping

theorem runs_put :
    ∃ m' shelf', Runs (put key bytes) (m, shelf)
        (.ok ((toFront key bytes entries).take shelf.capacity).length) (m', shelf') ∧
      Stocked m' shelf' ((toFront key bytes entries).take shelf.capacity) ∧
      shelf'.capacity = shelf.capacity := by
  by_cases member : key ∈ keysOf entries
  · obtain ⟨m', shelf', run, -, rest⟩ := runs_put_of_member stocked glyph bytes member
    exact ⟨m', shelf', run, rest⟩
  · obtain ⟨m', shelf', run, -, rest⟩ := runs_put_of_fresh stocked glyph bytes member
    exact ⟨m', shelf', run, rest⟩

end

theorem runs_put_of_anchor (anchor : key.IsAnchor) (bytes : Bytes) (s : Memory × Shelf) :
    Runs (put key bytes) s (.error (.reservedKey key)) s :=
  Action.refuses_anchor anchor _ s

/-! ## Reading -/

section

variable {act : Action Memory α} {a : α}

theorem runs_use (stocked : Stocked m shelf entries) (found : payloadOf entries key = some bytes)
    (acting : Runs act m (.ok a) (m.spend count)) :
    ∃ m', Runs (use key act) (m, shelf) (.ok a) (m', shelf.record .hit) ∧
      m.Spends (count + promotionCost (keysOf entries) key) m' ∧
      Stocked m' (shelf.record .hit) (toFront key bytes entries) ∧
      ∀ other, m'.cabinet.ref? (payloadName other) = m.cabinet.ref? (payloadName other) := by
  have member := mem_keysOf_of_payload found
  have stocked₁ := stocked.spend count
  obtain ⟨moved, m', promoting, spends, stores, attached⟩ :=
    runs_promote stocked₁.stores stocked₁.unlimited stocked₁.quiet member
  have payloads : payloadOf entries = payloadOf (toFront key bytes entries) := by
    rw [payloadOf_toFront, ← found, Function.update_eq_self]
  rw [← keysOf_toFront stocked.nodup key bytes, payloads] at stores
  have all := (Memory.spends_spend m count).trans spends
  have length := stocked.length_toFront_of_member member bytes
  refine ⟨m', ?_, all, ⟨stores, stocked.size.trans length.symm, all.quota.trans stocked.unlimited,
    all.fault_eq_none stocked.quiet⟩, attached⟩
  have reading := runs_orMiss acting nofun shelf
  exact reading.bind ((Action.runs_onFirst promoting shelf).bind
    ((runs_tell .hit m' shelf).bind (.pure a _)))

theorem runs_use_of_absent (acting : Runs act m (.error .notFound) m₁) (shelf : Shelf) :
    Runs (use key act) (m, shelf) (.error .notFound) (m₁, shelf.record .miss) :=
  (runs_orMiss_of_absent acting shelf).bind_error

theorem runs_use_of_anchor (acting : Runs act m (.error (.reservedKey key)) m₁) (shelf : Shelf) :
    Runs (use key act) (m, shelf) (.error (.reservedKey key)) (m₁, shelf) :=
  (runs_orMiss acting nofun shelf).bind_error

end

section

variable (stocked : Stocked m shelf entries)
include stocked

theorem runs_get (found : payloadOf entries key = some bytes) :
    ∃ m', Runs (get key) (m, shelf) (.ok bytes) (m', shelf.record .hit) ∧
      m.Spends (Memory.chunkReads bytes.length + 2 + promotionCost (keysOf entries) key) m' ∧
      Stocked m' (shelf.record .hit) (toFront key bytes entries) := by
  have stored : m.get? (payloadName key) = some bytes := (stocked.stores.payload key).trans found
  have reading := Payloads.runs_read (Memory.allows_of_none stocked.quiet _)
    (stocked.glyph (mem_keysOf_of_payload found)) stored
  obtain ⟨m', run, spends, stocked', -⟩ := runs_use stocked found reading
  exact ⟨m', run, spends, stocked'⟩

/-- The record that was opened is still that of the payload after the promotion. -/
theorem runs_openEntry (found : payloadOf entries key = some bytes) :
    ∃ handle m', Runs (openEntry key) (m, shelf) (.ok handle) (m', shelf.record .hit) ∧
      m.Spends (1 + promotionCost (keysOf entries) key) m' ∧
      Stocked m' (shelf.record .hit) (toFront key bytes entries) ∧
      m'.Attached handle (payloadName key) ∧ handle.pos = 0 := by
  have stored : m.get? (payloadName key) = some bytes := (stocked.stores.payload key).trans found
  obtain ⟨handle, opening, attached, start⟩ := Payloads.runs_openPayload
    (Memory.allows_of_none stocked.quiet 1) (stocked.glyph (mem_keysOf_of_payload found)) stored
  obtain ⟨m', run, spends, stocked', refs⟩ := runs_use stocked found opening
  exact ⟨handle, m', run, spends, stocked', (refs key).trans attached, start⟩

theorem runs_get_of_absent (glyph : ¬ key.IsAnchor) (absent : payloadOf entries key = none) :
    Runs (get key) (m, shelf) (.error .notFound) (m.spend 1, shelf.record .miss) := by
  have opening := Payloads.runs_openPayload_of_absent (Memory.allows_of_none stocked.quiet 1) glyph
    ((stocked.stores.payload key).trans absent)
  exact runs_use_of_absent opening.bind_error shelf

theorem runs_openEntry_of_absent (glyph : ¬ key.IsAnchor) (absent : payloadOf entries key = none) :
    Runs (openEntry key) (m, shelf) (.error .notFound) (m.spend 1, shelf.record .miss) := by
  have opening := Payloads.runs_openPayload_of_absent (Memory.allows_of_none stocked.quiet 1) glyph
    ((stocked.stores.payload key).trans absent)
  exact runs_use_of_absent opening shelf

end

theorem runs_get_of_anchor (anchor : key.IsAnchor) (s : Memory × Shelf) :
    Runs (get key) s (.error (.reservedKey key)) s :=
  runs_use_of_anchor (Action.refuses_anchor anchor _ s.1).bind_error s.2

theorem runs_openEntry_of_anchor (anchor : key.IsAnchor) (s : Memory × Shelf) :
    Runs (openEntry key) s (.error (.reservedKey key)) s :=
  runs_use_of_anchor (Action.refuses_anchor anchor _ s.1) s.2

/-! ## Looking -/

section

variable {table : Ring.Table} (shows : Ring.Shows m.get? table) (quiet : m.fault = none)
variable (ring : Ring.IsRing table linked)
include shows quiet ring

theorem runs_contains_of_ring (shelf : Shelf) (key : Key) :
    ∃ count, Runs (contains key) (m, shelf) (.ok (decide (¬ key.IsAnchor ∧ key ∈ linked)))
      (m.spend count, shelf) := by
  unfold contains
  by_cases anchor : key.IsAnchor
  · rw [if_pos anchor, decide_eq_false (by simp [anchor])]
    refine ⟨0, ?_⟩
    rw [Memory.spend_zero]
    exact .pure false _
  rw [if_neg anchor]
  by_cases member : key ∈ linked
  · obtain ⟨link, found⟩ := ring.exists_link key (.inr member)
    rw [decide_eq_true ⟨anchor, member⟩]
    exact ⟨2, Action.runs_onFirst (Ring.runs_contains_of_linked shows
      (Memory.allows_of_none quiet 2) found) shelf⟩
  · rw [decide_eq_false (by simp [member])]
    exact ⟨1, Action.runs_onFirst (Ring.runs_contains_of_unlinked shows
      (Memory.allows_of_none quiet 1) (ring.eq_none anchor member)) shelf⟩

end

section

variable {table : Ring.Table} (reads : Ring.Reads m.get? table) (quiet : m.fault = none)
variable (passes : Ring.Passes table linked)
include reads quiet passes

theorem runs_keys_of_passes (shelf : Shelf) :
    ∃ count, Runs keys (m, shelf) (.ok linked) (m.spend count, shelf) :=
  ⟨_, Action.runs_onFirst (Ring.runs_walk reads quiet passes) shelf⟩

/-- All that the examination can find is that the shelf counts another number of keys. -/
theorem runs_check_of_passes (shelf : Shelf) :
    ∃ count, Runs check (m, shelf)
      (if linked.length = shelf.size then .ok ()
        else .error (.count shelf.size linked.length)) (m.spend count, shelf) := by
  obtain ⟨count, checking⟩ := Ring.runs_check reads quiet passes
  have walking := Ring.runs_walk (m := m.spend count) reads
    (Memory.fault_spend quiet count) passes
  rw [Memory.spend_spend] at walking
  refine ⟨count + (3 + 3 * linked.length), runs_check_of_examined ?_⟩
  refine checking.bind ((Examination.runs_ofAction walking).bind ?_)
  split
  · exact .pure () _
  · rfl

/-- The examination finds nothing wrong with as many keys as the shelf counts. -/
theorem runs_check_of_counted (counted : linked.length = shelf.size) :
    ∃ count, Runs check (m, shelf) (.ok ()) (m.spend count, shelf) := by
  have checking := runs_check_of_passes reads quiet passes shelf
  rwa [if_pos counted] at checking

end

section

variable (stocked : Stocked m shelf entries)
include stocked

theorem runs_contains (key : Key) :
    ∃ count, Runs (contains key) (m, shelf)
      (.ok (decide (¬ key.IsAnchor ∧ key ∈ keysOf entries))) (m.spend count, shelf) :=
  runs_contains_of_ring stocked.shows stocked.quiet stocked.ring shelf key

theorem runs_keys :
    ∃ count, Runs keys (m, shelf) (.ok (keysOf entries)) (m.spend count, shelf) :=
  runs_keys_of_passes stocked.shows.reads stocked.quiet stocked.ring.passes shelf

/-- The examination of a stocked shelf finds nothing wrong. -/
theorem runs_check : ∃ count, Runs check (m, shelf) (.ok ()) (m.spend count, shelf) :=
  runs_check_of_counted stocked.shows.reads stocked.quiet stocked.ring.passes
    (by rw [length_keysOf, stocked.size])

/-- The records of a stocked shelf are those of an empty one after a reset. -/
theorem runs_reset :
    ∃ m', Runs reset (m, shelf) (.ok ()) (m', { capacity := shelf.capacity }) ∧
      Stocked m' { capacity := shelf.capacity } [] := by
  obtain ⟨m', count, wiping, spends, get⟩ := runs_wipe stocked.unlimited stocked.quiet
  have stores := stores_wiped stocked.owned
  rw [← get] at stores
  refine ⟨m', (Action.runs_onFirst wiping shelf).bind rfl, stores, rfl, ?_, ?_⟩
  · exact spends.quota.trans stocked.unlimited
  · exact spends.fault_eq_none stocked.quiet

end

end GlyphShelf.Shelf

import GlyphShelf.Proofs.Ring.Order
import GlyphShelf.Proofs.Ring.Walk
import GlyphShelf.Proofs.Shelf.Entries
import GlyphShelf.Proofs.Shelf.Wiping

/-!
# Shelves on a device

`Stores records linked payloads` takes the records of a device apart: they are the ring of the
linked keys, the given payloads, and nothing else. A change of the ring changes the first part,
a change of a payload the second, so each operation of a shelf is followed by updating the part
that it works on. A shelf is stocked with entries when both parts are those of the entries and
the shelf has their number in memory; between two steps of an operation they may differ.
-/

namespace GlyphShelf.Shelf

open Payloads

variable {m m₁ : Memory} {records : String → Option Bytes} {shelf : Shelf} {linked : List Key}
variable {payloads : Key → Option Bytes} {entries front : Entries} {key victim : Key}
variable {bytes : Bytes} {count : Nat} {α : Type}

/-! ## The two parts of the records -/

/-- The records are the ring of the linked keys, the payloads, and nothing else. -/
structure Stores (records : String → Option Bytes) (linked : List Key)
    (payloads : Key → Option Bytes) : Prop where
  holds : Ring.Holds records linked
  payload : ∀ key, records (payloadName key) = payloads key
  others : ∀ name, (∀ key, name ≠ Ring.linkName key) → (∀ key, name ≠ payloadName key) →
    records name = none

/-- A change of the ring. -/
theorem Stores.relinked {table : Ring.Table} {linked' : List Key}
    (stores : Stores m.get? linked payloads) (relinks : Ring.Relinks m count table m₁)
    (ring : Ring.IsRing table linked') : Stores m₁.get? linked' payloads where
  holds := Ring.holds_of_shows relinks.shows ring
  payload key := by
    rw [relinks.get?, Ring.withLinks_of_other (linkKey?_payloadName key), stores.payload]
  others name notLink notPayload := by
    rw [relinks.get?, Ring.withLinks_of_other (Ring.linkKey?_eq_none_iff.2 notLink),
      stores.others name notLink notPayload]

/-- A change of one payload. -/
theorem Stores.paid {value : Option Bytes} (stores : Stores m.get? linked payloads)
    (sets : m.Sets count (payloadName key) value m₁) :
    Stores m₁.get? linked (Function.update payloads key value) where
  holds := Ring.holds_of_shows (shows_of_sets stores.holds.shows sets) stores.holds.isRing
  payload other := by
    rw [sets.get?]
    by_cases same : other = key
    · subst same
      rw [Function.update_self, Function.update_self]
    · rw [Function.update_of_ne (payloadName_ne same), Function.update_of_ne same, stores.payload]
  others name notLink notPayload := by
    rw [sets.get?, Function.update_of_ne (notPayload key), stores.others name notLink notPayload]

/-- The device holds nothing but links and payloads of glyphs. -/
def Owned (records : String → Option Bytes) : Prop :=
  ∀ name, (∀ key, name ≠ Ring.linkName key) →
    (∀ key : Key, ¬ key.IsAnchor → name ≠ payloadName key) → records name = none

theorem holds_wiped (records : String → Option Bytes) : Ring.Holds (wiped records) [] :=
  Ring.holds_of_shows (Ring.shows_withLinks _ _) Ring.isRing_anchored

/-- Wiping such a device leaves the ring without keys alone. -/
theorem stores_wiped (owned : Owned records) : Stores (wiped records) [] (payloadOf []) where
  holds := holds_wiped records
  payload key := by
    rw [wiped, Ring.withLinks_of_other (linkKey?_payloadName key)]
    by_cases anchor : key.IsAnchor
    · have absent : records (payloadName key) = none := by
        refine owned _ (fun other => (linkName_ne_payloadName other key).symm) ?_
        intro other glyph same
        exact glyph (payloadName_injective same ▸ anchor)
      rw [absent, ite_self]
      rfl
    · rw [isPayload_iff.2 ⟨key, anchor, rfl⟩, Bool.or_true, if_pos rfl]
      rfl
  others name notLink notPayload := by
    rw [wiped, Ring.withLinks_of_other (Ring.linkKey?_eq_none_iff.2 notLink),
      owned name notLink fun key _ => notPayload key, ite_self]

/-- The shelf and its device have the entries, and no failure is armed. -/
structure Stocked (m : Memory) (shelf : Shelf) (entries : Entries) : Prop where
  stores : Stores m.get? (keysOf entries) (payloadOf entries)
  size : shelf.size = entries.length
  unlimited : m.quota = none
  quiet : m.fault = none

namespace Stocked

variable (stocked : Stocked m shelf entries)
include stocked

theorem nodup : (keysOf entries).Nodup := stocked.stores.holds.nodup

theorem glyph (member : key ∈ keysOf entries) : ¬ key.IsAnchor :=
  stocked.stores.holds.glyphs key member

theorem shows : Ring.Shows m.get? (Ring.linksOf m.get?) := stocked.stores.holds.shows

theorem ring : Ring.IsRing (Ring.linksOf m.get?) (keysOf entries) := stocked.stores.holds.isRing

theorem owned : Owned m.get? := by
  intro name notLink notPayload
  by_cases named : ∃ key, name = payloadName key
  · obtain ⟨key, rfl⟩ := named
    rw [stocked.stores.payload, payloadOf_eq_none_iff]
    exact fun member => notPayload key (stocked.glyph member) rfl
  · exact stocked.stores.others name notLink fun key same => named ⟨key, same⟩

/-- Reading leaves everything in place. -/
theorem spend (count : Nat) : Stocked (m.spend count) shelf entries where
  stores := stocked.stores
  size := stocked.size
  unlimited := stocked.unlimited
  quiet := Memory.fault_spend stocked.quiet count

theorem record (event : Tally.Event) : Stocked m (shelf.record event) entries where
  stores := stocked.stores
  size := stocked.size
  unlimited := stocked.unlimited
  quiet := stocked.quiet

theorem length_toFront_of_member (member : key ∈ keysOf entries) (bytes : Bytes) :
    (toFront key bytes entries).length = entries.length := by
  rw [← length_keysOf, keysOf_toFront stocked.nodup, List.length_cons,
    List.length_erase_of_mem member, length_keysOf]
  have := List.length_pos_of_mem member
  rw [length_keysOf] at this
  omega

theorem length_toFront_of_fresh (fresh : key ∉ keysOf entries) (bytes : Bytes) :
    (toFront key bytes entries).length = entries.length + 1 := by
  rw [← length_keysOf, keysOf_toFront stocked.nodup, List.length_cons,
    List.erase_of_not_mem fresh, length_keysOf]

end Stocked

/-! ## Dropping -/

def afterDrop (shelf : Shelf) : Shelf := { shelf with size := shelf.size - 1 }.record .eviction

/-- Once the ring gave up a key, the rest of a drop deletes its payload. -/
theorem runs_dropOldest_of_deleting {m' : Memory} {result : Except Failure Unit}
    (evicting : Runs Ring.evict m (.ok victim) m₁)
    (deleting : Runs (Action.allowAbsence (Payloads.delete victim)) m₁ result m') (shelf : Shelf) :
    Runs dropOldest (m, shelf) result (m', shelf.afterDrop) :=
  (Action.runs_onFirst evicting shelf).bind
    (Runs.bind rfl (Action.runs_onFirst deleting shelf.afterDrop))

theorem runs_dropOldest_of_evicted (evicting : Runs Ring.evict m (.ok victim) m₁)
    (glyph : ¬ victim.IsAnchor) (allowed : m₁.Allows 1) (shelf : Shelf) :
    ∃ m', Runs dropOldest (m, shelf) (.ok ()) (m', shelf.afterDrop) ∧
      m₁.Sets 1 (payloadName victim) none m' := by
  obtain ⟨m', deleting, sets⟩ := Payloads.runs_discard allowed glyph
  exact ⟨m', runs_dropOldest_of_deleting evicting deleting shelf, sets⟩

theorem runs_dropOldest (stocked : Stocked m shelf (front ++ [(victim, bytes)])) :
    ∃ m', Runs dropOldest (m, shelf) (.ok ()) (m', shelf.afterDrop) ∧ m.Spends 16 m' ∧
      Stocked m' shelf.afterDrop front := by
  have ring := stocked.ring
  rw [keysOf_append] at ring
  obtain ⟨m₁, table, evicting, relinks, ring₁⟩ := Ring.runs_evict stocked.shows ring
    stocked.unlimited (Memory.allows_of_none stocked.quiet 15)
  have quiet₁ := relinks.fault_eq_none stocked.quiet
  obtain ⟨m₂, dropping, sets⟩ := runs_dropOldest_of_evicted evicting (stocked.glyph (by simp))
    (Memory.allows_of_none quiet₁ 1) shelf
  have stores := (stocked.stores.relinked relinks ring₁).paid sets
  have fresh : victim ∉ keysOf front := by
    have nodup := ring.nodup
    rw [List.nodup_append] at nodup
    exact fun member => nodup.2.2 victim member victim (by simp) rfl
  rw [← payloadOf_front fresh] at stores
  have spends := relinks.toSpends.trans sets.toSpends
  refine ⟨m₂, dropping, spends, stores, ?_, spends.quota.trans stocked.unlimited,
    spends.fault_eq_none stocked.quiet⟩
  change shelf.size - 1 = front.length
  rw [stocked.size, List.length_append, List.length_singleton, Nat.add_sub_cancel]

theorem runs_dropExcess_of_within {drops : Nat} (fits : shelf.size ≤ shelf.capacity) :
    Runs (dropExcess drops) (m, shelf) (.ok ()) (m, shelf) :=
  dropExcess_of_within drops fits

theorem runs_dropExcess_of_beyond {drops : Nat} {s₁ s₂ : Memory × Shelf}
    (excess : ¬ shelf.size ≤ shelf.capacity) (dropping : Runs dropOldest (m, shelf) (.ok ()) s₁)
    (going : Runs (dropExcess drops) s₁ (.ok ()) s₂) :
    Runs (dropExcess (drops + 1)) (m, shelf) (.ok ()) s₂ := by
  have both : Runs (do dropOldest; dropExcess drops) (m, shelf) (.ok ()) s₂ := dropping.bind going
  exact (dropExcess_of_beyond drops excess).trans both

/-- If one key after the other can be dropped, they are until the rest fits. What the steps keep may
be told of any list that is as long as the size. -/
theorem runs_dropExcess_of_steps {α : Type} (holds : Memory × Shelf → List α → Prop)
    (counted : ∀ s kept, holds s kept → s.2.size = kept.length)
    (step : ∀ s front victim, s.2.capacity ≤ front.length → holds s (front ++ [victim]) →
      ∃ s', Runs dropOldest s (.ok ()) s' ∧ holds s' front ∧ s'.2.capacity = s.2.capacity)
    {drops : Nat} {s : Memory × Shelf} {kept : List α}
    (enough : kept.length - s.2.capacity ≤ drops) (start : holds s kept) :
    ∃ s', Runs (dropExcess drops) s (.ok ()) s' ∧ holds s' (kept.take s.2.capacity) ∧
      s'.2.capacity = s.2.capacity := by
  induction drops generalizing s kept with
  | zero =>
    have fits : kept.length ≤ s.2.capacity := by omega
    rw [List.take_of_length_le fits]
    exact ⟨s, runs_dropExcess_of_within (counted s kept start ▸ fits), start, rfl⟩
  | succ drops ih =>
    by_cases fits : kept.length ≤ s.2.capacity
    · rw [List.take_of_length_le fits]
      exact ⟨s, runs_dropExcess_of_within (counted s kept start ▸ fits), start, rfl⟩
    · have excess : ¬ s.2.size ≤ s.2.capacity := counted s kept start ▸ fits
      obtain ⟨front, victim, rfl⟩ := (List.eq_nil_or_concat' kept).resolve_left
        fun empty => fits (by rw [empty]; exact Nat.zero_le _)
      rw [List.length_append, List.length_singleton] at fits enough
      have beyond : s.2.capacity ≤ front.length := by omega
      obtain ⟨s₁, dropping, next, same⟩ := step s front victim beyond start
      have fewer : front.length - s₁.2.capacity ≤ drops := by omega
      obtain ⟨s', going, last, same'⟩ := ih fewer next
      rw [List.take_append_of_le_length beyond, ← same]
      exact ⟨s', runs_dropExcess_of_beyond excess dropping going, last, same'⟩

/-- Keeping within the capacity answers how many are left. -/
theorem runs_reconcile_of_steps {α : Type} (holds : Memory × Shelf → List α → Prop)
    (counted : ∀ s kept, holds s kept → s.2.size = kept.length)
    (step : ∀ s front victim, s.2.capacity ≤ front.length → holds s (front ++ [victim]) →
      ∃ s', Runs dropOldest s (.ok ()) s' ∧ holds s' front ∧ s'.2.capacity = s.2.capacity)
    {s : Memory × Shelf} {kept : List α} (start : holds s kept) :
    ∃ s', Runs reconcile s (.ok (kept.take s.2.capacity).length) s' ∧
      holds s' (kept.take s.2.capacity) ∧ s'.2.capacity = s.2.capacity := by
  have enough : kept.length - s.2.capacity ≤ s.2.size := by
    rw [counted s kept start]
    exact Nat.sub_le _ _
  obtain ⟨s', dropping, last, same⟩ := runs_dropExcess_of_steps holds counted step enough start
  refine ⟨s', ?_, last, same⟩
  refine Runs.bind (show Runs keepWithin s (.ok ()) s' from dropping) ?_
  rw [← counted s' _ last]
  rfl

/-- Some of the entries are left, and each of the others has cost sixteen operations. -/
structure Dropped (m : Memory) (entries : Entries) (s : Memory × Shelf) (kept : Entries) :
    Prop where
  stocked : Stocked s.1 s.2 kept
  most : kept.length ≤ entries.length
  spends : m.Spends (16 * (entries.length - kept.length)) s.1

theorem runs_dropOldest_of_dropped {s : Memory × Shelf} {victim : Key × Bytes}
    (dropped : Dropped m entries s (front ++ [victim])) :
    ∃ s', Runs dropOldest s (.ok ()) s' ∧ Dropped m entries s' front ∧
      s'.2.capacity = s.2.capacity := by
  obtain ⟨m₁, dropping, spends, stocked⟩ := runs_dropOldest dropped.stocked
  have most := dropped.most
  have all := dropped.spends.trans spends
  rw [List.length_append, List.length_singleton] at most all
  refine ⟨(m₁, s.2.afterDrop), dropping, ⟨stocked, by omega, ?_⟩, rfl⟩
  have cost : 16 * (entries.length - front.length) =
      16 * (entries.length - (front.length + 1)) + 16 := by omega
  rw [cost]
  exact all

/-- Keeping a stocked shelf within the capacity. -/
theorem runs_reconcile (stocked : Stocked m shelf entries) :
    ∃ m' shelf', Runs reconcile (m, shelf) (.ok (entries.take shelf.capacity).length)
        (m', shelf') ∧
      m.Spends (16 * (entries.length - shelf.capacity)) m' ∧
      Stocked m' shelf' (entries.take shelf.capacity) ∧ shelf'.capacity = shelf.capacity := by
  have start : Dropped m entries (m, shelf) entries := by
    refine ⟨stocked, Nat.le_refl _, ?_⟩
    rw [Nat.sub_self]
    exact Memory.spends_refl m
  obtain ⟨⟨m', shelf'⟩, reconciling, dropped, same⟩ := runs_reconcile_of_steps (Dropped m entries)
    (fun _ _ dropped => dropped.stocked.size)
    (fun _ _ _ _ dropped => runs_dropOldest_of_dropped dropped) start
  have spends := dropped.spends
  have left : entries.length - (entries.take shelf.capacity).length =
      entries.length - shelf.capacity := by
    rw [List.length_take]
    omega
  rw [left] at spends
  exact ⟨m', shelf', reconciling, spends, dropped.stocked, same⟩

end GlyphShelf.Shelf

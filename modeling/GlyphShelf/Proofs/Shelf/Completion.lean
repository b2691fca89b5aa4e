import GlyphShelf.Proofs.Ring.Interruption
import GlyphShelf.Proofs.Shelf.Reached

/-!
# Evictions that are completed later

Bringing a new glyph onto a full shelf takes nineteen operations of the device, and making room
for it sixteen: fifteen to evict the least recently used key and one to delete its payload. If
one of the sixteen fails, the new glyph is on the shelf, and keeping within the capacity later
succeeds. It takes away the key that the failed eviction was to take, unless the tail anchor
already named the one before it while the evicted key was still counted: then that one goes as
well, and the shelf counts a key more than the ring holds.
-/

namespace GlyphShelf.Shelf

open Payloads

variable {m m' : Memory} {shelf : Shelf} {s s₁ : Memory × Shelf} {linked front : List Key}
variable {key victim : Key} {bytes : Bytes} {left : Nat} {table : Ring.Table} {e : Failure}

/-! ## Bringing in a new glyph -/

/-- The operations that come before making room. -/
theorem runs_bringIn_of_fresh (shows : Ring.Shows m.get? table) (ring : Ring.IsRing table linked)
    (unlimited : m.quota = none) (allowed : m.Allows 19) (glyph : ¬ key.IsAnchor)
    (fresh : key ∉ linked) (bytes : Bytes) (shelf : Shelf) :
    ∃ m', Runs (bringIn key bytes) (m, shelf) (.ok ()) (m', shelf.afterInsert) ∧
      m.Spends 19 m' ∧ Ring.Holds m'.get? (key :: linked) := by
  obtain ⟨m₁, storing, sets⟩ := runs_storePayload_of_unlinked shows unlimited
    (allowed.mono (by omega)) glyph (ring.eq_none glyph fresh) bytes
  obtain ⟨m₂, table', inserting, relinks, ring'⟩ := Ring.runs_insert (shows_of_sets shows sets)
    ring (sets.quota.trans unlimited) (sets.allows allowed 15 (by omega)) glyph fresh
  exact ⟨m₂, runs_bringIn_of_stored glyph storing (runs_enter_of_inserted inserting shelf),
    sets.toSpends.trans relinks.toSpends, Ring.holds_of_shows relinks.shows ring'⟩

/-! ## Looking afterwards -/

/-- The keys that a shelf shows, and what its examination finds. -/
structure Displays (s : Memory × Shelf) (linked : List Key) (found : Except Breach Unit) :
    Prop where
  keys : ∃ s', Runs keys s (.ok linked) s'
  check : ∃ s', Runs check s found s'

section

variable (shows : Ring.Shows m.get? table) (quiet : m.fault = none)
variable (passes : Ring.Passes table linked)
include shows quiet passes

theorem displays_of_counted (counted : linked.length = shelf.size) :
    Displays (m, shelf) linked (.ok ()) := by
  obtain ⟨_, walking⟩ := runs_keys_of_passes shows.reads quiet passes shelf
  obtain ⟨_, checking⟩ := runs_check_of_counted shows.reads quiet passes counted
  exact ⟨⟨_, walking⟩, _, checking⟩

theorem displays_of_uncounted (uncounted : linked.length ≠ shelf.size) :
    Displays (m, shelf) linked (.error (.count shelf.size linked.length)) := by
  obtain ⟨_, walking⟩ := runs_keys_of_passes shows.reads quiet passes shelf
  obtain ⟨_, checking⟩ := runs_check_of_passes shows.reads quiet passes shelf
  rw [if_neg uncounted] at checking
  exact ⟨⟨_, walking⟩, _, checking⟩

end

/-! ## Making room -/

theorem runs_reconcile_of_within (fits : shelf.size ≤ shelf.capacity) :
    Runs reconcile (m, shelf) (.ok shelf.size) (m, shelf) := by
  have keeping : Runs keepWithin (m, shelf) (.ok ()) (m, shelf) := runs_dropExcess_of_within fits
  exact keeping.bind rfl

section

variable (excess : shelf.size = shelf.capacity + 1)
include excess

theorem runs_reconcile_of_failed (dropping : Runs dropOldest (m, shelf) (.error e) s₁) :
    Runs reconcile (m, shelf) (.error e) s₁ := by
  have beyond : ¬ shelf.size ≤ shelf.capacity := by omega
  have keeping : Runs keepWithin (m, shelf) (.error e) s₁ := by
    change Runs (dropExcess shelf.size) (m, shelf) (.error e) s₁
    rw [excess]
    exact (dropExcess_of_beyond _ beyond).trans dropping.bind_error
  exact keeping.bind_error

theorem size_afterDrop : shelf.afterDrop.size = shelf.capacity := by
  change shelf.size - 1 = shelf.capacity
  rw [excess, Nat.add_sub_cancel]

/-- A single key in excess is dropped, and then there is as much as fits. -/
theorem runs_reconcile_of_dropped
    (dropping : Runs dropOldest (m, shelf) (.ok ()) (m', shelf.afterDrop)) :
    Runs reconcile (m, shelf) (.ok shelf.capacity) (m', shelf.afterDrop) := by
  have size := size_afterDrop excess
  have keeping : Runs keepWithin (m, shelf) (.ok ()) (m', shelf.afterDrop) := by
    change Runs (dropExcess shelf.size) (m, shelf) (.ok ()) (m', shelf.afterDrop)
    rw [excess]
    exact runs_dropExcess_of_beyond (by omega) dropping (runs_dropExcess_of_within size.le)
  rw [← size]
  exact keeping.bind rfl

section

variable (holds : Ring.Holds m.get? (front ++ [victim])) (counted : front.length = shelf.capacity)
variable (unlimited : m.quota = none) (armed : m.fault = some left)
include holds counted unlimited armed

/-- The eviction fails: the key stays counted, and evicting it is left to do. -/
theorem reconcile_again_of_evicting (room : 1 ≤ shelf.capacity) (soon : left < 15) :
    ∃ m₁ m₂, Runs reconcile (m, shelf) (.error (.device .injected)) (m₁, shelf) ∧
      m₁.fault = none ∧ Runs reconcile (m₁, shelf) (.ok shelf.capacity) (m₂, shelf.afterDrop) ∧
      (left < 13 → Displays (m₂, shelf.afterDrop) front (.ok ())) ∧
      (¬ left < 13 → Displays (m₂, shelf.afterDrop) front.dropLast
        (.error (.count shelf.capacity (shelf.capacity - 1)))) := by
  have nonempty : front ≠ [] := by
    rintro rfl
    exact absurd counted (Nat.ne_of_lt room)
  have size := size_afterDrop excess
  obtain ⟨m₁, again, m', table, failing, -, quiet₁, evicting, glyph, relinks, early, late⟩ :=
    Ring.runs_evict_again holds.shows holds.isRing nonempty unlimited armed soon
  have quiet' := relinks.fault_eq_none quiet₁
  obtain ⟨m₂, dropping, sets⟩ :=
    runs_dropOldest_of_evicted evicting glyph (Memory.allows_of_none quiet' 1) shelf
  have shows₂ := shows_of_sets relinks.shows sets
  have quiet₂ := sets.fault_eq_none quiet'
  refine ⟨m₁, m₂, ?_, quiet₁, runs_reconcile_of_dropped excess dropping, ?_, ?_⟩
  · exact runs_reconcile_of_failed excess (Action.runs_onFirst failing shelf).bind_error
  · intro patching
    exact displays_of_counted shows₂ quiet₂ (early patching).passes (counted.trans size.symm)
  · intro patched
    have fewer : front.dropLast.length = shelf.capacity - 1 := by
      rw [List.length_dropLast, counted]
    have uncounted : front.dropLast.length ≠ shelf.afterDrop.size := by omega
    have displays := displays_of_uncounted shows₂ quiet₂ (late patched) uncounted
    rwa [size, fewer] at displays

/-- Deleting the payload fails: the key is gone already, and nothing is left to do. -/
theorem reconcile_again_of_evicted (last : left = 15) :
    ∃ m₁, Runs reconcile (m, shelf) (.error (.device .injected)) (m₁, shelf.afterDrop) ∧
      m₁.fault = none ∧
      Runs reconcile (m₁, shelf.afterDrop) (.ok shelf.capacity) (m₁, shelf.afterDrop) ∧
      Displays (m₁, shelf.afterDrop) front (.ok ()) := by
  have size := size_afterDrop excess
  obtain ⟨m', table, evicting, relinks, ring⟩ := Ring.runs_evict holds.shows holds.isRing
    unlimited (Memory.allows_of_some armed last.ge)
  have due : m'.fault = some 0 := relinks.fault_eq_some (by rw [armed, last])
  have deleting := runs_discard_of_due due (holds.glyphs victim (by simp))
  have dropping := runs_dropOldest_of_deleting evicting deleting shelf
  refine ⟨m'.trip, runs_reconcile_of_failed excess dropping, rfl, ?_, ?_⟩
  · rw [← size]
    exact runs_reconcile_of_within size.le
  · have shows₁ : Ring.Shows m'.trip.get? table := relinks.shows
    exact displays_of_counted shows₁ rfl ring.passes (counted.trans size.symm)

theorem reconcile_again (room : 1 ≤ shelf.capacity) (soon : left < 16) :
    ∃ s₁ s₂, Runs reconcile (m, shelf) (.error (.device .injected)) s₁ ∧ s₁.1.fault = none ∧
      Runs reconcile s₁ (.ok shelf.capacity) s₂ ∧
      (left ≠ 13 → left ≠ 14 → Displays s₂ front (.ok ())) ∧
      (left = 13 ∨ left = 14 → Displays s₂ front.dropLast
        (.error (.count shelf.capacity (shelf.capacity - 1)))) := by
  by_cases last : left = 15
  · obtain ⟨m₁, failing, quiet, again, displays⟩ := reconcile_again_of_evicted excess holds counted
      unlimited armed last
    exact ⟨_, _, failing, quiet, again, fun _ _ => displays, by omega⟩
  · obtain ⟨m₁, m₂, failing, quiet, again, early, late⟩ := reconcile_again_of_evicting excess holds
      counted unlimited armed room (by omega)
    exact ⟨_, _, failing, quiet, again, fun _ _ => early (by omega), fun _ => late (by omega)⟩

end

end

/-! ## The main statement -/

/-- When a full shelf failed to make room for a new glyph, keeping within the capacity completes
what was begun, unless the failure hit the end of the patch of the tail anchor or the deletion of
the evicted link: then one key more is gone than is counted. The failure is armed for one of the
sixteen operations after the nineteen that bring the glyph in. -/
theorem reconcile_completes_eviction (reached : Reached s) (full : s.2.size = s.2.capacity) :
    ∃ before s₀, Runs keys s (.ok before) s₀ ∧
      ∀ (key : Key) (bytes : Bytes) (left : Nat), ¬ key.IsAnchor → key ∉ before → left < 16 →
        ∃ s₁ s₂,
          Runs (put key bytes) (s.1.failAfter (19 + left), s.2) (.error (.device .injected)) s₁ ∧
          s₁.1.fault = none ∧ Runs reconcile s₁ (.ok s.2.capacity) s₂ ∧
          (left ≠ 13 → left ≠ 14 → Displays s₂ (key :: before.dropLast) (.ok ())) ∧
          (left = 13 ∨ left = 14 → Displays s₂ (key :: before.dropLast).dropLast
            (.error (.count s.2.capacity (s.2.capacity - 1)))) := by
  obtain ⟨m, shelf⟩ := s
  obtain ⟨linked, steady⟩ := reached.steady
  obtain ⟨_, walking⟩ := runs_keys_of_passes steady.shows.reads steady.quiet steady.ring.passes shelf
  refine ⟨linked, _, walking, fun key bytes left glyph fresh soon => ?_⟩
  have shows : Ring.Shows (m.failAfter (19 + left)).get? (Ring.linksOf m.get?) := steady.shows
  have armed : (m.failAfter (19 + left)).fault = some (left + 19) :=
    congrArg some (Nat.add_comm 19 left)
  obtain ⟨m₁, bringing, spends, holds⟩ := runs_bringIn_of_fresh shows steady.ring
    steady.unlimited (Memory.allows_of_some armed (Nat.le_add_left 19 left)) glyph fresh bytes shelf
  have nonempty : linked ≠ [] := by
    rintro rfl
    exact absurd (steady.counted.trans full) (Nat.ne_of_lt steady.room)
  -- The key that is to go is the last one, also once the new key is in front.
  have split : key :: linked = (key :: linked.dropLast) ++ [linked.getLast nonempty] := by
    rw [List.cons_append, List.dropLast_concat_getLast nonempty]
  have counted : (key :: linked.dropLast).length = shelf.capacity := by
    rw [List.length_cons, List.length_dropLast, steady.counted, full]
    exact Nat.sub_add_cancel steady.room
  have excess : shelf.afterInsert.size = shelf.afterInsert.capacity + 1 := congrArg (· + 1) full
  rw [split] at holds
  obtain ⟨s₁, s₂, failing, quiet, again, completed⟩ := reconcile_again excess holds counted
    (spends.quota.trans steady.unlimited) (spends.fault_eq_some armed) steady.room soon
  refine ⟨s₁, s₂, ?_, quiet, again, completed⟩
  rw [put_eq]
  exact bringing.bind failing

def twoStored : Memory × Shelf :=
  (answers [.put ⟨1⟩ [1], .put ⟨2⟩ [2]]
    (stateAfter (openOn { capacity := 2 }) ({} : Memory), { capacity := 2 })).2

theorem reached_twoStored : Reached twoStored := by
  have valid : ({ capacity := 2 } : Settings).validate = .ok () := by decide
  obtain ⟨m', count, run, -, -⟩ := runs_openOn_cold (m := {}) valid rfl rfl rfl
  have opened : Reached (m', { capacity := 2 }) := .opened rfl rfl (.inl rfl) run
  unfold twoStored
  rw [run.stateAfter_eq]
  exact opened.answers _

/-- The eviction of the first key fails in the middle of its second patch. -/
theorem retry_evicts_first :
    Reached twoStored ∧ twoStored.2.size = twoStored.2.capacity ∧ ∃ s₁ s₂,
      Runs (put ⟨3⟩ [3]) (twoStored.1.failAfter 31, twoStored.2) (.error (.device .injected)) s₁ ∧
      Runs reconcile s₁ (.ok twoStored.2.capacity) s₂ ∧ Displays s₂ [⟨3⟩, ⟨2⟩] (.ok ()) := by
  have full : twoStored.2.size = twoStored.2.capacity := by decide +kernel
  have answer : (Action.step keys twoStored).1 = .ok [⟨2⟩, ⟨1⟩] := by decide +kernel
  obtain ⟨before, s₀, walking, completes⟩ := reconcile_completes_eviction reached_twoStored full
  rw [walking.step_eq] at answer
  obtain rfl : before = [⟨2⟩, ⟨1⟩] := by injection answer
  obtain ⟨s₁, s₂, storing, -, again, completed, -⟩ :=
    completes ⟨3⟩ [3] 12 (by decide) (by decide) (by decide)
  exact ⟨reached_twoStored, full, s₁, s₂, storing, again, completed (by decide) (by decide)⟩

/-- When the failure hits the end of that patch or the deletion of the link, the second key goes
as well. -/
theorem retry_evicts_second :
    Reached twoStored ∧ twoStored.2.size = twoStored.2.capacity ∧
      (Action.step keys twoStored).1 = .ok [⟨2⟩, ⟨1⟩] ∧ ∀ left ∈ [13, 14],
        let storing := Action.step (put ⟨3⟩ [3]) (twoStored.1.failAfter (19 + left), twoStored.2)
        let again := Action.step reconcile storing.2
        storing.1 = .error (.device .injected) ∧ again.1 = .ok 2 ∧
          (Action.step keys again.2).1 = .ok [⟨3⟩] := by
  refine ⟨reached_twoStored, ?_, ?_, ?_⟩
  · decide +kernel
  · decide +kernel
  · decide +kernel

end GlyphShelf.Shelf

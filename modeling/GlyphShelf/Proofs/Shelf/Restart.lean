import GlyphShelf.Proofs.Shelf.Calls
import GlyphShelf.Proofs.Shelf.Completion

/-!
# Warm starts

A shelf remembers nothing that its device does not hold, the tally apart. Opened warm where a shelf
was in use, a new one takes over the ring and the payloads; if its capacity is smaller, the least
recently used glyphs are dropped with all their records. With the same capacity nothing is written,
and both shelves follow the same inventory from then on. So no sequence of calls tells them apart.
-/

namespace GlyphShelf.Shelf

open Payloads

variable {m m' m₁ : Memory} {s : Memory × Shelf} {shelf : Shelf} {inventory : Inventory}
variable {settings : Settings} {capacity size kept : Nat} {linked : List Key} {key : Key}

/-! ## Opening warm -/

theorem runs_openOn_of_recovered (recovering : Runs (recover settings) m (.ok size) m₁)
    (keeping : Runs reconcile (m₁, { capacity := settings.capacity, size }) (.ok kept)
      (m', shelf)) : Runs (openOn settings) m (.ok shelf) m' := by
  refine recovering.bind ?_
  unfold Runs at keeping ⊢
  dsimp only
  rw [keeping]

theorem recover_warm (valid : settings.validate = .ok ()) (warm : settings.cold = false) :
    (recover settings : Action Memory Nat) = (do
      Ring.setUp
      let keys ← Ring.walk
      pure keys.length) := by
  rw [recover, valid, warm]
  rfl

section

variable (holds : Holds m inventory) (valid : settings.validate = .ok ())
  (warm : settings.cold = false)
include holds valid warm

/-- The ring is found as it was left, and its keys are counted. -/
theorem runs_recover_of_holds :
    ∃ count, Runs (recover settings) m (.ok inventory.linked.length) (m.spend count) := by
  have setting := Ring.runs_setUp_of_ring holds.shows holds.isRing holds.solvent.quiet
  have found := holds.spend 4
  have walking := Ring.runs_walk found.shows.reads found.solvent.quiet found.isRing.passes
  rw [Memory.spend_spend] at walking
  rw [recover_warm valid warm]
  exact ⟨_, setting.bind (walking.bind (.pure _ _))⟩

/-- As many keys are kept as the new capacity allows. -/
theorem runs_openOn_of_holds (paid : inventory.Paid) :
    ∃ m' shelf', Runs (openOn settings) m (.ok shelf') m' ∧
      InUse settings.capacity (m', shelf') (inventory.keep settings.capacity) := by
  obtain ⟨count, recovering⟩ := runs_recover_of_holds holds valid warm
  have serves : Serves (m.spend count,
      { capacity := settings.capacity, size := inventory.linked.length }) inventory :=
    ⟨holds.spend count, rfl⟩
  obtain ⟨m', shelf', keeping, serves', same⟩ := runs_reconcile_of_serves serves
  exact ⟨m', shelf', runs_openOn_of_recovered recovering keeping, serves', same,
    Inventory.length_keep_le _ _, paid.keep _⟩

/-- If all of them fit nothing is written. -/
theorem runs_openOn_of_fits (fits : inventory.linked.length ≤ settings.capacity) :
    ∃ count, Runs (openOn settings) m
      (.ok { capacity := settings.capacity, size := inventory.linked.length }) (m.spend count) := by
  obtain ⟨count, recovering⟩ := runs_recover_of_holds holds valid warm
  have keeping : Runs reconcile (m.spend count,
      { capacity := settings.capacity, size := inventory.linked.length }) _ _ :=
    runs_reconcile_of_within fits
  exact ⟨count, runs_openOn_of_recovered recovering keeping⟩

end

/-! ## The shelf after a restart -/

/-- On the shelf there are as many of the keys on the device as its capacity allows, and these have
the payloads that they had there. Of the others there is nothing any more. -/
structure TakesOver (capacity : Nat) (m : Memory) (linked : List Key) (s : Memory × Shelf) :
    Prop where
  keys : ∃ s', Runs Shelf.keys s (.ok (linked.take capacity)) s'
  counted : s.2.size = min capacity linked.length
  examined : ∃ s', Runs check s (.ok ()) s'
  kept : ∀ key ∈ linked.take capacity, s.1.get? (payloadName key) = m.get? (payloadName key)
  dropped : ∀ key ∈ linked.drop capacity,
    s.1.get? (payloadName key) = none ∧ s.1.get? (Ring.linkName key) = none

theorem InUse.takesOver (inUse : InUse capacity s (inventory.keep capacity))
    (before : Holds m inventory) : TakesOver capacity m inventory.linked s := by
  have ring := before.isRing
  obtain ⟨_, walking⟩ := runs_keys_of_inUse inUse
  obtain ⟨_, checking⟩ := runs_check_of_inUse inUse
  refine ⟨⟨_, walking⟩, inUse.serves.counted.trans List.length_take, ⟨_, checking⟩, ?_, ?_⟩
  · intro key kept
    have glyph := ring.glyphs key (List.mem_of_mem_take kept)
    rw [inUse.serves.holds.payload key glyph, before.payload key glyph]
    exact Inventory.payload_keep_of_kept ring.nodup kept
  · intro key dropped
    have glyph := ring.glyphs key (List.mem_of_mem_drop dropped)
    have nodup := ring.nodup
    rw [← List.take_append_drop capacity inventory.linked] at nodup
    have unlinked : key ∉ inventory.linked.take capacity :=
      fun kept => (List.disjoint_of_nodup_append nodup) kept dropped
    constructor
    · rw [inUse.serves.holds.payload key glyph]
      exact Inventory.payload_keep_of_dropped dropped
    · exact Ring.get?_of_unlinked inUse.serves.holds.shows
        (inUse.serves.holds.isRing.eq_none glyph unlinked)

/-- The two shelves answer all calls alike, and nothing is found wrong with either of them. -/
def Indistinct (s t : Memory × Shelf) : Prop :=
  ∀ calls, (answers calls s).1 = (answers calls t).1 ∧
    (∃ s', Runs check (answers calls s).2 (.ok ()) s') ∧
    ∃ t', Runs check (answers calls t).2 (.ok ()) t'

/-- Without quotas what is answered depends on the inventory alone. -/
theorem indistinct_of_inUse {t : Memory × Shelf} (first : InUse capacity s inventory)
    (second : InUse capacity t inventory) (unlimited : s.1.quota = none)
    (unlimited' : t.1.quota = none) : Indistinct s t := by
  intro calls
  obtain ⟨same, inUse, -⟩ := answers_of_unlimited first unlimited calls
  obtain ⟨same', inUse', -⟩ := answers_of_unlimited second unlimited' calls
  obtain ⟨_, checking⟩ := runs_check_of_inUse inUse
  obtain ⟨_, checking'⟩ := runs_check_of_inUse inUse'
  exact ⟨same.trans same'.symm, ⟨_, checking⟩, _, checking'⟩

/-- However a shelf that was opened cold was called: opened warm with any capacity, its device gives
a shelf with the same glyphs in the same order, as far as they fit. With the same capacity no record
changes, and the new shelf goes on as the old one would have. -/
theorem warm_start_takes_over (unlimited : m.quota = none) (quiet : m.fault = none)
    (cold : settings.cold = true) (positive : 1 ≤ settings.capacity)
    (most : settings.capacity ≤ 65534) :
    ∃ m₀, Runs (openOn settings) m (.ok { capacity := settings.capacity }) m₀ ∧
      ∀ calls,
        let s := (answers calls (m₀, { capacity := settings.capacity })).2
        ∃ linked, (∃ s', Runs Shelf.keys s (.ok linked) s') ∧
          ∀ capacity, 1 ≤ capacity → capacity ≤ 65534 →
            ∃ m' shelf', Runs (openOn { capacity, cold := false }) s.1 (.ok shelf') m' ∧
              TakesOver capacity s.1 linked (m', shelf') ∧
              (capacity = settings.capacity →
                m'.get? = s.1.get? ∧ Indistinct (m', shelf') s) := by
  obtain ⟨m₀, opened, inUse₀, unlimited₀⟩ := opened_inUse unlimited quiet cold positive most
  refine ⟨m₀, opened, ?_⟩
  intro calls
  obtain ⟨-, inUse, unlimited'⟩ := answers_of_unlimited inUse₀ unlimited₀ calls
  generalize (outcomes (Call.onInventory settings.capacity) calls .empty).2 = inventory at inUse
  have holds := inUse.serves.holds
  obtain ⟨_, walking⟩ := runs_keys_of_inUse inUse
  refine ⟨inventory.linked, ⟨_, walking⟩, ?_⟩
  intro capacity positive' most'
  have valid : ({ capacity, cold := false } : Settings).validate = .ok () :=
    validate_of_bounds positive' most'
  obtain ⟨m', shelf', opening, inUse'⟩ := runs_openOn_of_holds holds valid rfl inUse.paid
  refine ⟨m', shelf', opening, inUse'.takesOver holds, ?_⟩
  rintro rfl
  obtain ⟨count, opening'⟩ := runs_openOn_of_fits holds valid rfl inUse.within
  obtain ⟨-, rfl⟩ := opening.deterministic opening'
  rw [Inventory.keep_of_fits inUse.within] at inUse'
  exact ⟨rfl, indistinct_of_inUse inUse' inUse unlimited' unlimited'⟩

/-- Three glyphs were put and the first one read again; two of them find room after a restart. -/
theorem restart_keeps_last_two :
    ∃ m₀, Runs (openOn { capacity := 3 }) ({} : Memory) (.ok { capacity := 3 }) m₀ ∧
      let s := (answers [.put ⟨1⟩ [7], .put ⟨2⟩ [], .put ⟨3⟩ [9], .get ⟨1⟩]
        (m₀, { capacity := 3 })).2
      ∃ m' shelf', Runs (openOn { capacity := 2, cold := false }) s.1 (.ok shelf') m' ∧
        (∃ s', Runs Shelf.keys (m', shelf') (.ok [⟨1⟩, ⟨3⟩]) s') ∧ shelf'.size = 2 ∧
        m'.get? (payloadName ⟨2⟩) = none ∧ m'.get? (Ring.linkName ⟨2⟩) = none := by
  obtain ⟨m₀, opened, restart⟩ := warm_start_takes_over (m := {}) rfl rfl
    (rfl : ({ capacity := 3 } : Settings).cold = true) (by decide) (by decide)
  refine ⟨m₀, opened, ?_⟩
  obtain ⟨linked, ⟨s', walking⟩, restarted⟩ :=
    restart [.put ⟨1⟩ [7], .put ⟨2⟩ [], .put ⟨3⟩ [9], .get ⟨1⟩]
  have order : linked = [⟨1⟩, ⟨3⟩, ⟨2⟩] := by
    obtain rfl := opened.stateAfter_eq
    have walked : Runs Shelf.keys
        (answers [.put ⟨1⟩ [7], .put ⟨2⟩ [], .put ⟨3⟩ [9], .get ⟨1⟩]
          (stateAfter (openOn { capacity := 3 }) ({} : Memory), { capacity := 3 })).2
        (.ok [⟨1⟩, ⟨3⟩, ⟨2⟩]) _ := runs_of_step (by decide +kernel)
    exact Except.ok.inj (walking.deterministic walked).1
  obtain ⟨m', shelf', opening, takesOver, -⟩ := restarted 2 (by decide) (by decide)
  rw [order] at takesOver
  obtain ⟨payload, link⟩ := takesOver.dropped ⟨2⟩ (by decide)
  exact ⟨m', shelf', opening, takesOver.keys, takesOver.counted, payload, link⟩

end GlyphShelf.Shelf

import GlyphShelf.Proofs.Shelf.Examination
import GlyphShelf.Proofs.Shelf.Restart

/-!
# What a warm start accepts

A warm start on a device that nobody vouches for makes sure of the anchors and then walks from the
head anchor to the tail anchor. If the walk does not close the start fails with damage. If it does,
the keys that were passed are taken for those of the ring: neither their way back is looked at, nor
whether other keys have links as well. So a shelf may be opened whose examination finds something,
and on which there are keys that are not listed.

This is all that can go wrong. If the way back leads through the same keys, every examination
succeeds, also after keys were dropped; and the keys that are found without being listed are those
that had links beside the walk.
-/

namespace GlyphShelf.Shelf

open Payloads

variable {m m' m₁ : Memory} {s : Memory × Shelf} {shelf : Shelf} {settings : Settings}
variable {records : String → Option Bytes} {linked listed front : List Key} {key victim : Key}

/-! ## Looking -/

theorem runs_contains_of_glyph (quiet : m.fault = none) (glyph : ¬ key.IsAnchor) (shelf : Shelf) :
    ∃ count, Runs (contains key) (m, shelf) (.ok (Ring.hasLink m.get? key))
      (m.spend count, shelf) := by
  obtain ⟨count, looking⟩ := Ring.runs_contains_of_quiet quiet key
  refine ⟨count, ?_⟩
  rw [contains, if_neg glyph]
  exact Action.runs_onFirst looking shelf

/-- What the examination finds depends on the way back. -/
theorem check_iff_leadsBack (closes : Ring.Closes m.get? linked) (quiet : m.fault = none)
    (counted : linked.length = shelf.size) :
    (∃ s', Runs check (m, shelf) (.ok ()) s') ↔ Ring.LeadsBack m.get? linked := by
  constructor
  · rintro ⟨s', run⟩
    obtain ⟨m', checking⟩ := examined_of_check run
    exact closes.leadsBack_of_check quiet checking
  · intro back
    obtain ⟨_, run⟩ := runs_check_of_counted (Ring.reads_linksOf m.get?) quiet (closes.passes back)
      counted
    exact ⟨_, run⟩

/-! ## Dropping keys -/

/-- Of the keys that were passed both ways some are left, and the others have no links. All other
keys have links or not as in the records. -/
structure Leaves (records : String → Option Bytes) (linked : List Key) (s : Memory × Shelf)
    (left : List Key) : Prop where
  passes : Ring.Passes (Ring.linksOf s.1.get?) left
  counted : s.2.size = left.length
  unlimited : s.1.quota = none
  quiet : s.1.fault = none
  gone : ∃ gone, linked = left ++ gone ∧
    ∀ key, Ring.hasLink s.1.get? key = (Ring.hasLink records key && decide (key ∉ gone))

theorem runs_dropOldest_of_leaves (leaves : Leaves records linked s (front ++ [victim])) :
    ∃ s', Runs dropOldest s (.ok ()) s' ∧ Leaves records linked s' front ∧
      s'.2.capacity = s.2.capacity := by
  obtain ⟨m₁, evicting, spends, passes, links⟩ :=
    Ring.runs_evict_of_passes leaves.unlimited leaves.quiet leaves.passes
  have quiet₁ := spends.fault_eq_none leaves.quiet
  obtain ⟨m₂, dropping, sets⟩ := runs_dropOldest_of_evicted evicting
    (leaves.passes.glyphs victim (by simp)) (Memory.allows_of_none quiet₁ 1) s.2
  have same (key : Key) : m₂.get? (Ring.linkName key) = m₁.get? (Ring.linkName key) := by
    rw [sets.get?, Function.update_of_ne (linkName_ne_payloadName key victim)]
  refine ⟨_, dropping, ⟨?_, ?_, ?_, sets.fault_eq_none quiet₁, ?_⟩, rfl⟩
  · rwa [Ring.linksOf_congr same]
  · change s.2.size - 1 = front.length
    rw [leaves.counted, List.length_append, List.length_singleton, Nat.add_sub_cancel]
  · exact sets.quota.trans (spends.quota.trans leaves.unlimited)
  · obtain ⟨gone, split, before⟩ := leaves.gone
    refine ⟨victim :: gone, by rw [split, List.append_assoc, List.singleton_append], ?_⟩
    intro key
    rw [Ring.hasLink_congr same, links]
    by_cases dropped : key = victim
    · rw [dropped, Function.update_self, decide_eq_false (by simp), Bool.and_false]
    · rw [Function.update_of_ne dropped, before]
      simp only [List.mem_cons, dropped, false_or]

/-! ## The main statement -/

/-- The shelf lists these keys and counts them. Beside them it finds the keys that have links in the
records without being linked. -/
structure Finds (records : String → Option Bytes) (linked listed : List Key)
    (s : Memory × Shelf) : Prop where
  keys : ∃ s', Runs Shelf.keys s (.ok listed) s'
  counted : s.2.size = listed.length
  contains : ∀ key, ¬ key.IsAnchor → ∃ s', Runs (contains key) s
    (.ok (decide (key ∈ listed ∨ key ∉ linked ∧ Ring.hasLink records key = true))) s'

theorem finds_of_closes (closes : Ring.Closes m.get? linked) (quiet : m.fault = none)
    (counted : shelf.size = linked.length) : Finds m.get? linked linked (m, shelf) where
  keys := ⟨_, Action.runs_onFirst (closes.runs_walk quiet) shelf⟩
  counted := counted
  contains key glyph := by
    obtain ⟨count, looking⟩ := runs_contains_of_glyph quiet glyph shelf
    have answer : decide (key ∈ linked ∨ key ∉ linked ∧ Ring.hasLink m.get? key = true) =
        Ring.hasLink m.get? key := by
      by_cases member : key ∈ linked
      · rw [closes.hasLink member]
        exact decide_eq_true (.inl member)
      · simp [member]
    rw [answer]
    exact ⟨_, looking⟩

theorem Leaves.examined (leaves : Leaves records linked s front) :
    ∃ s', Runs check s (.ok ()) s' := by
  obtain ⟨_, run⟩ := runs_check_of_counted (Ring.reads_linksOf s.1.get?) leaves.quiet leaves.passes
    leaves.counted.symm
  exact ⟨_, run⟩

theorem Leaves.finds {capacity : Nat} (leaves : Leaves records linked s (linked.take capacity))
    (closes : Ring.Closes records linked) : Finds records linked (linked.take capacity) s where
  keys := by
    obtain ⟨_, walking⟩ :=
      runs_keys_of_passes (Ring.reads_linksOf s.1.get?) leaves.quiet leaves.passes s.2
    exact ⟨_, walking⟩
  counted := leaves.counted
  contains key glyph := by
    obtain ⟨count, looking⟩ := runs_contains_of_glyph leaves.quiet glyph s.2
    obtain ⟨gone, split, links⟩ := leaves.gone
    have apart : ∀ key ∈ linked.take capacity, key ∉ gone := by
      have nodup := closes.nodup
      rw [split] at nodup
      exact fun key kept dropped => (List.disjoint_of_nodup_append nodup) kept dropped
    have answer : decide (key ∈ linked.take capacity ∨
        key ∉ linked ∧ Ring.hasLink records key = true) = Ring.hasLink s.1.get? key := by
      rw [links]
      by_cases kept : key ∈ linked.take capacity
      · rw [closes.hasLink (List.mem_of_mem_take kept), decide_eq_true (apart key kept)]
        exact decide_eq_true (.inl kept)
      · have member : key ∈ linked ↔ key ∈ gone := by
          rw [split, List.mem_append]
          simp [kept]
        by_cases dropped : key ∈ gone
        · simp [kept, member, dropped]
        · simp [kept, member, dropped]
    rw [answer]
    exact ⟨_, looking⟩

section

variable (unlimited : m.quota = none) (quiet : m.fault = none)
variable (valid : settings.validate = .ok ()) (warm : settings.cold = false)
include unlimited quiet valid warm

/-- A walk that closes is counted, one that does not ends the start. -/
theorem runs_recover_of_prepared :
    ∃ m₁ count, m₁.get? = Ring.prepared m.get? ∧ m.Spends count m₁ ∧
      (∀ linked, Ring.Closes m₁.get? linked →
        Runs (recover settings) m (.ok linked.length) (m₁.spend (3 + 3 * linked.length))) ∧
      ((∃ linked, Ring.Closes m₁.get? linked) ∨
        ∃ damage m', Runs (recover settings) m (.error (.corrupt damage)) m') := by
  obtain ⟨m₁, count, setting, spends, get⟩ := Ring.runs_setUp unlimited quiet
  have quiet₁ := spends.fault_eq_none quiet
  rw [recover_warm valid warm]
  refine ⟨m₁, count, get, spends, ?_, ?_⟩
  · intro linked closes
    exact setting.bind ((closes.runs_walk quiet₁).bind (.pure _ _))
  · rcases Ring.walk_cases quiet₁ with closes | ⟨damage, m', failing⟩
    · exact .inl closes
    · exact .inr ⟨damage, m', setting.bind failing.bind_error⟩

end

/-- A warm start on any device makes sure of the anchors and fails with damage unless the walk
closes. If the keys it passes fit, nothing more is written; these keys are listed, all keys with
links are found, and the examination finds nothing exactly if the way back leads through the same
keys. If it does, then however many keys there are, as many as fit are listed, the others have gone,
and the examination finds nothing. -/
theorem warm_start_accepts_closing_walks (unlimited : m.quota = none) (quiet : m.fault = none)
    (warm : settings.cold = false) (positive : 1 ≤ settings.capacity)
    (most : settings.capacity ≤ 65534) :
    ((∃ linked, Ring.Closes (Ring.prepared m.get?) linked) ∨
      ∃ damage m', Runs (openOn settings) m (.error (.corrupt damage)) m') ∧
    ∀ linked, Ring.Closes (Ring.prepared m.get?) linked →
      (linked.length ≤ settings.capacity →
        ∃ m' shelf, Runs (openOn settings) m (.ok shelf) m' ∧ m'.get? = Ring.prepared m.get? ∧
          Finds (Ring.prepared m.get?) linked linked (m', shelf) ∧
          ((∃ s', Runs check (m', shelf) (.ok ()) s') ↔
            Ring.LeadsBack (Ring.prepared m.get?) linked)) ∧
      (Ring.LeadsBack (Ring.prepared m.get?) linked →
        ∃ m' shelf, Runs (openOn settings) m (.ok shelf) m' ∧
          Finds (Ring.prepared m.get?) linked (linked.take settings.capacity) (m', shelf) ∧
          ∃ s', Runs check (m', shelf) (.ok ()) s') := by
  have valid := validate_of_bounds positive most
  obtain ⟨m₁, count, get, spends, recovering, cases⟩ :=
    runs_recover_of_prepared unlimited quiet valid warm
  rw [← get]
  have quiet₁ := spends.fault_eq_none quiet
  refine ⟨?_, ?_⟩
  · refine cases.imp_right ?_
    rintro ⟨damage, m', failing⟩
    exact ⟨damage, m', failing.bind_error⟩
  intro linked closes
  have recovered := recovering linked closes
  refine ⟨?_, ?_⟩
  · intro fits
    have keeping : Runs reconcile (m₁.spend (3 + 3 * linked.length),
        { capacity := settings.capacity, size := linked.length }) _ _ :=
      runs_reconcile_of_within fits
    refine ⟨_, _, runs_openOn_of_recovered recovered keeping, rfl, ?_, ?_⟩
    · exact finds_of_closes (m := m₁.spend _) closes (Memory.fault_spend quiet₁ _) rfl
    · exact check_iff_leadsBack (m := m₁.spend _) closes (Memory.fault_spend quiet₁ _) rfl
  · intro back
    have start : Leaves m₁.get? linked (m₁.spend (3 + 3 * linked.length),
        { capacity := settings.capacity, size := linked.length }) linked := by
      refine ⟨closes.passes back, rfl, spends.quota.trans unlimited,
        Memory.fault_spend quiet₁ _, [], (List.append_nil linked).symm, ?_⟩
      intro key
      simp
    obtain ⟨⟨m', shelf⟩, keeping, leaves, -⟩ := runs_reconcile_of_steps (Leaves m₁.get? linked)
      (fun _ _ leaves => leaves.counted)
      (fun _ _ _ _ leaves => runs_dropOldest_of_leaves leaves) start
    exact ⟨m', shelf, runs_openOn_of_recovered recovered keeping, leaves.finds closes,
      leaves.examined⟩

/-- Two keys that are passed both ways, and the link of a third beside them. -/
def straying : Memory := deviceOf
  [("0.lnk", [255, 255, 1, 0]), ("1.lnk", [0, 0, 2, 0]), ("2.lnk", [1, 0, 255, 255]),
    ("9.lnk", [7]), ("65535.lnk", [2, 0, 0, 0])]

/-- One of the two is dropped, and the third one is found without being listed. -/
theorem short_link_found :
    (straying.quota = none ∧ straying.fault = none) ∧
      ∃ m' shelf, Runs (openOn { capacity := 1, cold := false }) straying (.ok shelf) m' ∧
        (∃ s', Runs Shelf.keys (m', shelf) (.ok [⟨1⟩]) s') ∧
        (∃ s', Runs (contains ⟨2⟩) (m', shelf) (.ok false) s') ∧
        (∃ s', Runs (contains ⟨9⟩) (m', shelf) (.ok true) s') ∧
        ∃ s', Runs check (m', shelf) (.ok ()) s' := by
  obtain ⟨-, accepts⟩ := warm_start_accepts_closing_walks (m := straying) rfl rfl
    (rfl : ({ capacity := 1, cold := false } : Settings).cold = false) (by decide) (by decide)
  have closes : Ring.Closes (Ring.prepared straying.get?) [⟨1⟩, ⟨2⟩] := by
    refine ⟨by decide, by decide, ?_⟩
    unfold Ring.IsPath
    decide +kernel
  have back : Ring.LeadsBack (Ring.prepared straying.get?) [⟨1⟩, ⟨2⟩] := by
    unfold Ring.LeadsBack Ring.IsPath
    decide +kernel
  obtain ⟨m', shelf, opening, finds, checking⟩ := (accepts _ closes).2 back
  have dropped := finds.contains ⟨2⟩ (by decide)
  have found := finds.contains ⟨9⟩ (by decide)
  have stray : Ring.hasLink (Ring.prepared straying.get?) ⟨9⟩ = true := by decide +kernel
  simp only [stray] at found
  exact ⟨⟨rfl, rfl⟩, m', shelf, opening, finds.keys, dropped, found, checking⟩

/-- A key whose way back misses it, and the link of another key. -/
def frayed : Memory := deviceOf
  [("0.lnk", [255, 255, 5, 0]), ("5.lnk", [0, 0, 255, 255]), ("9.lnk", [0, 0, 255, 255]),
    ("65535.lnk", [0, 0, 0, 0])]

/-- A warm start accepts it all the same: the examination finds something, and a key that is not
listed is found. -/
theorem frayed_ring_accepted :
    ∃ shelf m', Runs (openOn { capacity := 4, cold := false }) frayed (.ok shelf) m' ∧
      (¬ ∃ s', Runs check (m', shelf) (.ok ()) s') ∧
      (∃ s', Runs Shelf.keys (m', shelf) (.ok [⟨5⟩]) s') ∧
      ∃ s', Runs (contains ⟨9⟩) (m', shelf) (.ok true) s' := by
  have opening : Runs (openOn { capacity := 4, cold := false }) frayed
      (.ok { capacity := 4, size := 1 }) _ := runs_of_step (by decide +kernel)
  refine ⟨_, _, opening, ?_, ⟨_, runs_of_step (by decide +kernel)⟩,
    _, runs_of_step (by decide +kernel)⟩
  rintro ⟨s', checking⟩
  have found : (match check (stateAfter (openOn { capacity := 4, cold := false }) frayed,
      ({ capacity := 4, size := 1 } : Shelf)) with
    | .ok _ _ => true
    | .error _ _ => false) = false := by decide +kernel
  rw [show check _ = _ from checking] at found
  cases found

end GlyphShelf.Shelf

import GlyphShelf.Proofs.Memory.Limits
import GlyphShelf.Proofs.Ring.Frames
import GlyphShelf.Proofs.Shelf.Refinement

/-!
# Recovering from anything

A reset and a cold start begin anew whatever the device holds: links that are broken, short,
missing or going around in circles, payloads that belong to no key of the ring, records of
others. If they succeed, what they leave is known to the last byte from what was there before.
It does not depend on the order in which the device lists its records, and not on quotas and
failures either: these decide only whether the recovery succeeds.
-/

namespace GlyphShelf.Shelf

open Payloads

variable {m m' : Memory} {shelf shelf' : Shelf} {settings : Settings} {key : Key}

/-! ## What wiping leaves -/

theorem carries_deleteAll (names : List String) :
    Carries Memory.unbound (Ring.deleteAll names : Action Memory Unit) := by
  induction names with
  | nil => exact .pure ()
  | cons name names ih => exact (Memory.carries_discard name).bind fun _ => ih

theorem carries_clear : Carries Memory.unbound (Ring.clear : Action Memory Unit) := by
  have writing (key : Key) (link : Link) :
      Carries Memory.unbound (Ring.writeLink key link : Action Memory Unit) :=
    Memory.carries_withRecord _ _ (Memory.carries_write link.encode)
  refine Memory.carries_list.bind fun names => (carries_deleteAll _).bind fun _ => ?_
  exact (writing _ _).bind fun _ => writing _ _

theorem carries_discardPayload (key : Key) :
    Carries Memory.unbound (Action.allowAbsence (Payloads.delete key) : Action Memory Unit) := by
  by_cases anchor : key.IsAnchor
  · intro m a m' run
    have refused : Runs (Payloads.delete key) m (.error (.reservedKey key)) m :=
      Action.refuses_anchor anchor _ m
    rcases Action.allowAbsence_cases run with deleted | absent
    · cases (refused.deterministic deleted).1
    · cases (refused.deterministic absent).1
  · rw [Payloads.delete, Action.requireGlyph_bind anchor]
    exact Memory.carries_discard (payloadName key)

theorem carries_deletePayloads (keys : List Key) :
    Carries Memory.unbound (deletePayloads keys : Action Memory Unit) := by
  induction keys with
  | nil => exact .pure ()
  | cons key keys ih => exact (carries_discardPayload key).bind fun _ => ih

theorem carries_wipe : Carries Memory.unbound (wipe : Action Memory Unit) := by
  refine .bind (Memory.carries_list.bind fun names => .pure _) fun keys => ?_
  exact (carries_deletePayloads keys).bind fun _ => carries_clear

/-- A wipe that succeeds leaves what a wipe without limits leaves. -/
theorem get?_of_wipe (run : Runs wipe m (.ok ()) m') : m'.get? = wiped m.get? := by
  obtain ⟨m'', count, wiping, -, get⟩ := runs_wipe (m := m.unbound) rfl rfl
  obtain ⟨-, rfl⟩ := (carries_wipe m () m' run).deterministic wiping
  exact get

/-! ## Recoveries -/

/-- A reset, or a cold start, that succeeds on the device `m` and leaves `m'` and the shelf. -/
inductive Recovers (m m' : Memory) (shelf : Shelf) : Prop
  | byReset (old : Shelf) (run : Runs reset (m, old) (.ok ()) (m', shelf))
  | byColdStart (settings : Settings) (cold : settings.cold = true)
      (run : Runs (openOn settings) m (.ok shelf) m')

theorem get?_of_reset (run : Runs reset (m, shelf) (.ok ()) (m', shelf')) :
    m'.get? = wiped m.get? ∧ shelf'.size = 0 := by
  obtain ⟨_, ⟨m₁, shelf₁⟩, wiping, rest⟩ := run.bind_ok
  cases rest
  exact ⟨get?_of_wipe wiping.of_onFirst.1, rfl⟩

/-- Setting up comes before a cold start wipes, and writes nothing but links. -/
theorem get?_of_recover {size : Nat} (cold : settings.cold = true)
    (run : Runs (recover settings) m (.ok size) m') : m'.get? = wiped m.get? ∧ size = 0 := by
  obtain ⟨_, m₀, validating, rest⟩ := run.bind_ok
  obtain ⟨-, rfl⟩ := validating.deterministic (Action.runs_ofExcept settings.validate m)
  obtain ⟨_, m₁, setting, rest⟩ := rest.bind_ok
  rw [cold, if_pos rfl] at rest
  obtain ⟨_, m₂, wiping, rest⟩ := rest.bind_ok
  cases rest
  have others := (Ring.respects_setUp.run setting).get?
  refine ⟨(get?_of_wipe wiping).trans (wiped_congr fun name other => ?_), rfl⟩
  exact others name (Ring.not_mem_links other)

theorem get?_of_openOn (cold : settings.cold = true)
    (run : Runs (openOn settings) m (.ok shelf) m') :
    m'.get? = wiped m.get? ∧ shelf.size = 0 := by
  obtain ⟨size, m₁, recovering, rest⟩ := run.bind_ok
  obtain ⟨get, rfl⟩ := get?_of_recover cold recovering
  cases rest
  exact ⟨get, rfl⟩

theorem Recovers.get? (recovers : Recovers m m' shelf) :
    m'.get? = wiped m.get? ∧ shelf.size = 0 := by
  cases recovers with
  | byReset old run => exact get?_of_reset run
  | byColdStart settings cold run => exact get?_of_openOn cold run

/-! ## The main statement -/

/-- What the device `m'` and the shelf look like after a recovery from the device `m`. -/
structure Recovered (m m' : Memory) (shelf : Shelf) : Prop where
  head : m'.get? (Ring.linkName .head) = some (Link.encode ⟨.tail, .tail⟩)
  tail : m'.get? (Ring.linkName .tail) = some (Link.encode ⟨.head, .head⟩)
  /-- No other record is read as a link, canonical or not. -/
  unlinked : ∀ name, RecordName.isLink name = true → name ≠ Ring.linkName .head →
    name ≠ Ring.linkName .tail → m'.get? name = none
  /-- No glyph has a payload. -/
  unpaid : ∀ key : Key, ¬ key.IsAnchor → m'.get? (payloadName key) = none
  /-- Every record that is neither is as it was. -/
  others : ∀ name, RecordName.isLink name = false →
    (∀ key : Key, ¬ key.IsAnchor → name ≠ payloadName key) → m'.get? name = m.get? name
  ring : Ring.Holds m'.get? []
  size : shelf.size = 0
  examined : m'.fault = none → ∃ s, Runs check (m', shelf) (.ok ()) s
  keyless : m'.fault = none → ∃ s, Runs keys (m', shelf) (.ok []) s
  absent : m'.fault = none → ∀ key : Key, ¬ key.IsAnchor →
    (∃ s, Runs (contains key) (m', shelf) (.ok false) s) ∧
      ∃ s, Runs (get key) (m', shelf) (.error .notFound) s

theorem recovered_of_wiped (get : m'.get? = wiped m.get?) (size : shelf.size = 0) :
    Recovered m m' shelf := by
  have shows : Ring.Shows m'.get? (Ring.anchored fun _ => none) := by
    rw [get, wiped]
    exact Ring.shows_withLinks _ _
  have ring : Ring.IsRing (Ring.anchored fun _ => none) [] := Ring.isRing_anchored
  have unpaid (key : Key) (glyph : ¬ key.IsAnchor) : m'.get? (payloadName key) = none := by
    rw [get, wiped, Ring.withLinks_of_other (linkKey?_payloadName key),
      isPayload_iff.2 ⟨key, glyph, rfl⟩, Bool.or_true, if_pos rfl]
  have holds := Ring.holds_of_shows shows ring
  refine ⟨shows .head, shows .tail, ?_, unpaid, ?_, holds, size, ?_, ?_, ?_⟩
  · intro name link notHead notTail
    cases canonical : Ring.linkKey? name with
    | some key =>
      obtain rfl := Ring.linkKey?_eq_some_iff.1 canonical
      have differs : key ≠ .head ∧ key ≠ .tail :=
        ⟨fun same => notHead (by rw [same]), fun same => notTail (by rw [same])⟩
      rw [shows key, Ring.anchored, Function.update_of_ne differs.2,
        Function.update_of_ne differs.1]
      rfl
    | none => rw [get, wiped, Ring.withLinks_of_other canonical, link, Bool.true_or, if_pos rfl]
  · intro name notLink notPayload
    have spared : isPayload name = false := by
      rw [Bool.eq_false_iff, ne_eq, isPayload_iff]
      rintro ⟨key, glyph, named⟩
      exact notPayload key glyph named
    rw [get, wiped_of_other notLink spared]
  · intro quiet
    obtain ⟨count, run⟩ := runs_check_of_counted shows.reads quiet ring.passes size.symm
    exact ⟨_, run⟩
  · intro quiet
    obtain ⟨count, run⟩ := runs_keys_of_passes shows.reads quiet ring.passes shelf
    exact ⟨_, run⟩
  · intro quiet key glyph
    obtain ⟨count, looking⟩ := runs_contains_of_ring shows quiet ring shelf key
    rw [decide_eq_false (by simp)] at looking
    have missing := runs_openPayload_of_absent (Memory.allows_of_none quiet 1) glyph
      (unpaid key glyph)
    exact ⟨⟨_, looking⟩, _, runs_use_of_absent missing.bind_error shelf⟩

/-- Whatever the device holds: a recovery that succeeds leaves an empty shelf and touches nothing
but links and payloads of glyphs; what it leaves depends on the records alone, not on their order;
and without a quota and a failure it succeeds. -/
theorem recovery_from_anything (m : Memory) :
    (∀ m' shelf, Recovers m m' shelf → Recovered m m' shelf) ∧
    (∀ m' shelf other other' shelf', other.get? = m.get? → Recovers m m' shelf →
      Recovers other other' shelf' → other'.get? = m'.get?) ∧
    (m.quota = none → m.fault = none →
      (∀ shelf, ∃ s, Runs reset (m, shelf) (.ok ()) s) ∧
      ∀ settings : Settings, settings.cold = true → 1 ≤ settings.capacity →
        settings.capacity ≤ 65534 → ∃ shelf m', Runs (openOn settings) m (.ok shelf) m') := by
  refine ⟨?_, ?_, ?_⟩
  · intro m' shelf recovers
    exact recovered_of_wiped recovers.get?.1 recovers.get?.2
  · intro m' shelf other other' shelf' same recovers recovers'
    rw [recovers'.get?.1, recovers.get?.1, same]
  · intro unlimited quiet
    refine ⟨fun shelf => ?_, fun settings cold positive most => ?_⟩
    · obtain ⟨m', count, wiping, -, -⟩ := runs_wipe unlimited quiet
      exact ⟨_, (Action.runs_onFirst wiping shelf).bind rfl⟩
    · obtain ⟨m', count, run, -, -⟩ :=
        runs_openOn_cold (validate_of_bounds positive most) cold unlimited quiet
      exact ⟨_, m', run⟩

/-- A device with a short anchor, a link and a payload under names that are not canonical, and a
record of somebody else. Its quota and its armed failure are not reached. -/
def cluttered : Memory :=
  let records : List (String × Bytes) :=
    [("0.lnk", [1]), ("007.lnk", [7, 0, 7, 0]), ("7", [7]), ("007", [0, 7]), ("notes", [1, 2, 3])]
  let stored : Memory := records.foldl (fun m record => m.poke record.1 record.2) {}
  { stored with quota := some 60, fault := some 40 }

/-- Canonical payloads and all links are gone, everything else is still there. -/
theorem notes_survive_reset :
    ∃ m' shelf, Recovers cluttered m' shelf ∧ m'.get? "007.lnk" = none ∧
      m'.get? "7" = none ∧ m'.get? "007" = some [0, 7] ∧ m'.get? "notes" = some [1, 2, 3] := by
  have answer : (Action.step reset (cluttered, ({ capacity := 1, size := 5 } : Shelf))).1 =
      .ok () := by decide +kernel
  obtain ⟨result, run⟩ := exists_runs reset (cluttered, ({ capacity := 1, size := 5 } : Shelf))
  generalize stateAfter reset (cluttered, ({ capacity := 1, size := 5 } : Shelf)) = last at run
  rw [run.step_eq] at answer
  obtain rfl : result = .ok () := answer
  have recovers : Recovers cluttered last.1 last.2 := .byReset _ run
  obtain ⟨recovered, -, -⟩ := recovery_from_anything cluttered
  have after := recovered _ _ recovers
  have foreign {name : String} (other : isPayload name = false) (key : Key)
      (glyph : ¬ key.IsAnchor) : name ≠ payloadName key := by
    intro same
    rw [isPayload_iff.2 ⟨key, glyph, same⟩] at other
    cases other
  refine ⟨_, _, recovers, ?_, ?_, ?_, ?_⟩
  · exact after.unlinked "007.lnk" (by decide +kernel) (by decide +kernel) (by decide +kernel)
  · exact after.unpaid ⟨7⟩ (by decide)
  · rw [after.others "007" (by decide +kernel) (foreign (by decide +kernel))]
    decide +kernel
  · rw [after.others "notes" (by decide +kernel) (foreign (by decide +kernel))]
    decide +kernel

end GlyphShelf.Shelf

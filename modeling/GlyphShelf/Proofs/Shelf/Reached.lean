import GlyphShelf.Proofs.Shelf.Frames
import GlyphShelf.Proofs.Shelf.Refinement

/-!
# States reached without failures

A shelf that was opened on a device without limits, and called and opened anew any number of
times, counts the keys of a ring that its device holds. Unlike a stocked shelf it may share the
device with anything: foreign records, payloads of keys that are not in the ring, and keys whose
payload is gone. The invariant is a frame of its own, so it is kept by what is put together from
operations that keep it.
-/

namespace GlyphShelf.Shelf

open Memory (within)
open Payloads

variable {m m' : Memory} {shelf shelf' : Shelf} {s : Memory × Shelf} {linked linked' : List Key}
variable {key : Key} {size count : Nat} {names : Set String} {table : Ring.Table} {α : Type}

/-- The device has no limits and holds the ring of the given keys; the shelf has room for glyphs
and counts these keys. -/
structure Steady (m : Memory) (shelf : Shelf) (linked : List Key) : Prop where
  holds : Ring.Holds m.get? linked
  counted : linked.length = shelf.size
  room : 1 ≤ shelf.capacity
  unlimited : m.quota = none
  quiet : m.fault = none

namespace Steady

variable (steady : Steady m shelf linked)
include steady

theorem shows : Ring.Shows m.get? (Ring.linksOf m.get?) := steady.holds.shows

theorem ring : Ring.IsRing (Ring.linksOf m.get?) linked := steady.holds.isRing

theorem allowed (count : Nat) : m.Allows count := Memory.allows_of_none steady.quiet count

theorem within (within : m.Within names m') (apart : ∀ key, Ring.linkName key ∉ names) :
    Steady m' shelf linked where
  holds := steady.holds.congr fun key => within.get? _ (apart key)
  counted := steady.counted
  room := steady.room
  unlimited := within.quota.trans steady.unlimited
  quiet := within.quiet steady.quiet

theorem spend (count : Nat) : Steady (m.spend count) shelf linked where
  holds := steady.holds
  counted := steady.counted
  room := steady.room
  unlimited := steady.unlimited
  quiet := Memory.fault_spend steady.quiet count

theorem record (event : Tally.Event) : Steady m (shelf.record event) linked where
  holds := steady.holds
  counted := steady.counted
  room := steady.room
  unlimited := steady.unlimited
  quiet := steady.quiet

theorem relinked (relinks : Ring.Relinks m count table m') (ring : Ring.IsRing table linked')
    (counted : linked'.length = shelf'.size) (same : shelf'.capacity = shelf.capacity) :
    Steady m' shelf' linked' where
  holds := Ring.holds_of_shows relinks.shows ring
  counted := counted
  room := same ▸ steady.room
  unlimited := relinks.quota.trans steady.unlimited
  quiet := relinks.fault_eq_none steady.quiet

end Steady

/-- The frame in which a steady state stays one, with whatever ring. -/
def steadily : FrameCondition (Memory × Shelf) :=
  preserving fun s => ∃ linked, Steady s.1 s.2 linked

/-! ## Steps -/

theorem steadily_within {act : Action Memory α} (respects : Respects (within names) act)
    (apart : ∀ key, Ring.linkName key ∉ names) : Respects steadily (Action.onFirst act) := by
  rintro ⟨m, shelf⟩ ⟨linked, steady⟩
  rw [stateAfter_onFirst]
  exact ⟨linked, steady.within (respects m) apart⟩

theorem linkName_not_mem_empty (key : Key) : Ring.linkName key ∉ (∅ : Set String) :=
  Set.notMem_empty _

theorem steadily_looking {act : Action Memory α} (respects : Respects (within ∅) act) :
    Respects steadily (Action.onFirst act) :=
  steadily_within respects linkName_not_mem_empty

theorem steadily_tell (event : Tally.Event) :
    Respects steadily (tell event : Action (Memory × Shelf) Unit) := by
  rintro ⟨m, shelf⟩ ⟨linked, steady⟩
  exact ⟨linked, steady.record event⟩

theorem steadily_promote (key : Key) :
    Respects steadily (Action.onFirst (Ring.promote key)) := by
  rintro ⟨m, shelf⟩ ⟨linked, steady⟩
  rw [stateAfter_onFirst]
  by_cases anchor : key.IsAnchor
  · have refused : Runs (Ring.promote key) m _ m := Action.refuses_anchor anchor _ m
    rw [refused.stateAfter_eq]
    exact ⟨linked, steady⟩
  by_cases member : key ∈ linked
  · obtain ⟨moved, m', table, run, relinks, ring⟩ := Ring.runs_promote_of_linked steady.shows
      steady.ring member steady.unlimited steady.quiet
    rw [run.stateAfter_eq]
    have same : (key :: linked.erase key).length = shelf.size := by
      have := List.length_pos_of_mem member
      rw [List.length_cons, List.length_erase_of_mem member, ← steady.counted]
      omega
    exact ⟨_, steady.relinked relinks ring same rfl⟩
  · have run := Ring.runs_promote_of_unlinked steady.shows steady.ring (steady.allowed 1) anchor
      member
    rw [run.stateAfter_eq]
    exact ⟨linked, steady.spend 1⟩

/-- Whatever was found out before: a key that is in the ring is not put into it again. -/
theorem steadily_enter (glyph : ¬ key.IsAnchor) (present : Bool) :
    Respects steadily (enter key present) := by
  cases present with
  | true => exact (steadily_promote key).bind fun _ => steadily_tell .update
  | false =>
    rintro ⟨m, shelf⟩ ⟨linked, steady⟩
    by_cases member : key ∈ linked
    · have refused := Ring.runs_insert_of_linked steady.shows steady.ring (steady.allowed 2) member
      obtain ⟨result, deleting⟩ :=
        exists_runs (Payloads.delete key : Action Memory Unit) (m.spend 2)
      rw [(runs_enter_of_failed refused deleting shelf).stateAfter_eq]
      exact ⟨linked, (steady.spend 2).within (Payloads.respects_delete key _)
        fun other => linkName_ne_payloadName other key⟩
    · obtain ⟨m', table, inserting, relinks, ring⟩ := Ring.runs_insert steady.shows steady.ring
        steady.unlimited (steady.allowed 15) glyph member
      rw [(runs_enter_of_inserted inserting shelf).stateAfter_eq]
      exact ⟨_, steady.relinked relinks ring (congrArg (· + 1) steady.counted) rfl⟩

theorem Steady.length_front {front : List Key} (steady : Steady m shelf (front ++ [key])) :
    front.length = shelf.afterDrop.size := by
  change front.length = shelf.size - 1
  rw [← steady.counted, List.length_append, List.length_singleton, Nat.add_sub_cancel]

theorem steadily_dropOldest :
    Respects steadily (dropOldest : Action (Memory × Shelf) Unit) := by
  rintro ⟨m, shelf⟩ ⟨linked, steady⟩
  rcases List.eq_nil_or_concat' linked with rfl | ⟨front, victim, rfl⟩
  · have empty := Ring.runs_evict_of_empty steady.shows steady.ring (steady.allowed 3)
    have run : Runs dropOldest (m, shelf) _ _ := (Action.runs_onFirst empty shelf).bind_error
    rw [run.stateAfter_eq]
    exact ⟨[], steady.spend 3⟩
  · obtain ⟨m₁, table, evicting, relinks, ring⟩ :=
      Ring.runs_evict steady.shows steady.ring steady.unlimited (steady.allowed 15)
    have steady₁ : Steady m₁ shelf.afterDrop front :=
      steady.relinked relinks ring steady.length_front rfl
    obtain ⟨m', dropping, sets⟩ := runs_dropOldest_of_evicted evicting
      (steady.ring.glyphs victim (by simp)) (steady₁.allowed 1) shelf
    rw [dropping.stateAfter_eq]
    exact ⟨front, steady₁.within (Memory.within_of_sets sets)
      fun other => linkName_ne_payloadName other victim⟩

/-! ## Calls -/

theorem steadily_reconcile : Respects steadily (reconcile : Action (Memory × Shelf) Nat) :=
  (respects_keepWithin fun s _ => steadily_dropOldest s).bind fun _ _ steady => steady

theorem steadily_put (key : Key) (bytes : Bytes) : Respects steadily (put key bytes) := by
  by_cases anchor : key.IsAnchor
  · intro s
    rw [(runs_put_of_anchor anchor bytes s).stateAfter_eq]
    exact steadily.refl s
  · rw [put_eq, bringIn, Action.requireGlyph_bind anchor]
    refine .bind (.bind ?_ fun present => steadily_enter anchor present)
      fun _ => steadily_reconcile
    exact steadily_within (respects_storePayload key bytes)
      fun other => linkName_ne_payloadName other key

theorem steadily_orMiss {act : Action Memory α} (respects : Respects (within ∅) act) :
    Respects steadily (orMiss act) := by
  rintro ⟨m, shelf⟩ ⟨linked, steady⟩
  have steady' := steady.within (respects m) linkName_not_mem_empty
  rcases stateAfter_orMiss act m shelf with same | same
  · rw [same]
    exact ⟨linked, steady'⟩
  · rw [same]
    exact ⟨linked, steady'.record .miss⟩

theorem steadily_use {act : Action Memory α} (respects : Respects (within ∅) act) :
    Respects steadily (use key act) :=
  (steadily_orMiss respects).bind fun _ => (steadily_promote key).bind fun _ =>
    (steadily_tell .hit).bind fun _ => .pure _

theorem steadily_reset : Respects steadily (reset : Action (Memory × Shelf) Unit) := by
  rintro ⟨m, shelf⟩ ⟨linked, steady⟩
  obtain ⟨m', count, wiping, spends, get⟩ := runs_wipe steady.unlimited steady.quiet
  have run : Runs reset (m, shelf) (.ok ()) (m', { capacity := shelf.capacity }) :=
    (Action.runs_onFirst wiping shelf).bind rfl
  rw [run.stateAfter_eq]
  exact ⟨[], get ▸ holds_wiped m.get?, rfl, steady.room, spends.quota.trans steady.unlimited,
    spends.fault_eq_none steady.quiet⟩

theorem steadily_check :
    Respects steadily (check : Examination (Memory × Shelf) Unit) := by
  rintro ⟨m, shelf⟩ ⟨linked, steady⟩
  obtain ⟨count, run⟩ := runs_check_of_counted steady.shows.reads steady.quiet steady.ring.passes
    steady.counted
  rw [run.stateAfter_eq]
  exact ⟨linked, steady.spend count⟩

theorem steadily_call (call : Call) : Respects steadily call.act := by
  cases call with
  | put key bytes => exact (steadily_put key bytes).bind fun _ => .pure _
  | get key => exact (steadily_use (Payloads.respects_read key)).bind fun _ => .pure _
  | openEntry key =>
    refine (steadily_use (Payloads.respects_openPayload key)).bind fun record => ?_
    exact (steadily_looking (Memory.respects_takeAll record)).bind fun _ => .pure _
  | contains key =>
    refine .bind (.ite (fun _ => .pure false) fun _ => ?_) fun _ => .pure _
    exact steadily_looking (Ring.respects_contains key)
  | keys => exact (steadily_looking Ring.respects_walk).bind fun _ => .pure _
  | size => exact .bind (fun s => steadily.refl s) fun _ => .pure _
  | check => exact (respects_examined steadily_check).bind fun _ => .pure _
  | reconcile => exact steadily_reconcile.bind fun _ => .pure _
  | reset => exact steadily_reset.bind fun _ => .pure _

/-! ## Opening -/

theorem capacity_of_validate {settings : Settings} (valid : settings.validate = .ok ()) :
    1 ≤ settings.capacity := by
  unfold Settings.validate at valid
  split at valid
  · cases valid
  · omega

/-- A shelf is recovered with as many keys as it finds in the ring, or wipes the ring first. -/
theorem steady_of_recover {settings : Settings} (unlimited : m.quota = none)
    (quiet : m.fault = none)
    (ready : settings.cold = true ∨
      ∀ m₁, Runs Ring.setUp m (.ok ()) m₁ → ∃ linked, Ring.Holds m₁.get? linked)
    (run : Runs (recover settings) m (.ok size) m') :
    ∃ linked, Steady m' { capacity := settings.capacity, size } linked := by
  obtain ⟨_, m₀, validating, rest⟩ := run.bind_ok
  obtain ⟨valid, rfl⟩ := validating.deterministic (Action.runs_ofExcept settings.validate m)
  obtain ⟨_, m₁, setting, rest⟩ := rest.bind_ok
  have room := capacity_of_validate valid.symm
  have within := Ring.respects_setUp.run setting
  have unlimited₁ := within.quota.trans unlimited
  have quiet₁ := within.quiet quiet
  by_cases cold : settings.cold = true
  · rw [if_pos cold] at rest
    obtain ⟨_, m₂, wiping, rest⟩ := rest.bind_ok
    obtain ⟨m₂', count, wiping', spends, get⟩ := runs_wipe unlimited₁ quiet₁
    obtain ⟨-, rfl⟩ := wiping.deterministic wiping'
    cases rest
    exact ⟨[], get ▸ holds_wiped m₁.get?, rfl, room, spends.quota.trans unlimited₁,
      spends.fault_eq_none quiet₁⟩
  -- A warm start takes over what setting up left, so a ring must be there by then.
  · rw [if_neg cold] at rest
    obtain ⟨linked, holds⟩ := ready.resolve_left cold m₁ setting
    obtain ⟨keys, m₂, walking, rest⟩ := rest.bind_ok
    have walking' := Ring.runs_walk holds.shows.reads quiet₁ holds.isRing.passes
    obtain ⟨keysEq, rfl⟩ := walking.deterministic walking'
    obtain rfl : keys = linked := by injection keysEq
    cases rest
    have steady : Steady m₁ { capacity := settings.capacity, size := keys.length } keys :=
      ⟨holds, rfl, room, unlimited₁, quiet₁⟩
    exact ⟨keys, steady.spend _⟩

/-- A shelf opened cold, or on a ring that setting up leaves, counts the keys of that ring. -/
theorem steady_of_openOn {settings : Settings} (unlimited : m.quota = none) (quiet : m.fault = none)
    (ready : settings.cold = true ∨
      ∀ m₁, Runs Ring.setUp m (.ok ()) m₁ → ∃ linked, Ring.Holds m₁.get? linked)
    (run : Runs (openOn settings) m (.ok shelf) m') : ∃ linked, Steady m' shelf linked := by
  rcases openOn_cases run with ⟨size, m₁, shelf', answer, recovered, reconciled, same⟩ | failed
  · obtain rfl := same shelf rfl
    exact steadily_reconcile.run reconciled (steady_of_recover unlimited quiet ready recovered)
  · obtain ⟨e, -, failed⟩ := failed
    cases failed

/-- The states of a shelf that was opened on a device without limits, cold or where there were
no links, and then called, examined and opened anew without failures. -/
inductive Reached : Memory × Shelf → Prop
  | opened {m m' : Memory} {settings : Settings} {shelf : Shelf} (unlimited : m.quota = none)
      (quiet : m.fault = none)
      (fresh : settings.cold = true ∨ ∀ key, m.get? (Ring.linkName key) = none)
      (run : Runs (openOn settings) m (.ok shelf) m') : Reached (m', shelf)
  | called {s : Memory × Shelf} (reached : Reached s) (call : Call) : Reached (call.act.step s).2
  | examined {s : Memory × Shelf} (reached : Reached s) : Reached (stateAfter check s)
  | reopened {s : Memory × Shelf} {m' : Memory} {settings : Settings} {shelf : Shelf}
      (reached : Reached s) (run : Runs (openOn settings) s.1 (.ok shelf) m') : Reached (m', shelf)

theorem Reached.answers (reached : Reached s) (calls : List Call) :
    Reached (answers calls s).2 :=
  outcomes_preserve Reached (fun call _ reached => reached.called call) calls reached

/-- So whatever was done before, the shelf and its device agree on the ring. -/
theorem Reached.steady (reached : Reached s) : ∃ linked, Steady s.1 s.2 linked := by
  induction reached with
  | opened unlimited quiet fresh run =>
    refine steady_of_openOn unlimited quiet (fresh.imp_right fun absent m₁ setting => ?_) run
    obtain ⟨m', setting', shows⟩ := Ring.runs_setUp_of_unlinked absent unlimited quiet
    obtain ⟨-, rfl⟩ := setting.deterministic setting'
    exact ⟨[], Ring.holds_of_shows shows Ring.isRing_anchored⟩
  | called reached call ih =>
    rw [step_snd]
    exact steadily_call call _ ih
  | examined reached ih =>
    obtain ⟨linked, steady⟩ := ih
    obtain ⟨count, checking⟩ :=
      runs_check_of_counted steady.shows.reads steady.quiet steady.ring.passes steady.counted
    rw [checking.stateAfter_eq]
    exact ⟨linked, steady.spend count⟩
  | reopened reached run ih =>
    obtain ⟨linked, steady⟩ := ih
    refine steady_of_openOn steady.unlimited steady.quiet (.inr fun m₁ setting => ?_) run
    have setting' := Ring.runs_setUp_of_ring steady.shows steady.ring steady.quiet
    obtain ⟨-, rfl⟩ := setting.deterministic setting'
    exact ⟨linked, steady.holds⟩

end GlyphShelf.Shelf

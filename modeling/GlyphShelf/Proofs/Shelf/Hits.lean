import GlyphShelf.Proofs.Absences
import GlyphShelf.Proofs.Shelf.Accounts
import GlyphShelf.Proofs.Shelf.Integrity

/-!
# Hits and misses

A read asks the device twice: for the payload, and then for the link of its key, which is to be
brought to the front. It is counted as a hit when both are done, and as a miss when the payload is
not there. A payload can be there without a link, as when a key was dropped and deleting its payload
failed. Then the read is answered that nothing is found, just as if the payload were gone, but it is
counted as neither.

So hits are the reads that succeeded, and misses are the reads that were told of an absence, less
those whose payload was there. This holds whatever was done with the shelf, whatever happened to its
device between two operations, and wherever an operation failed.
-/

namespace GlyphShelf.Shelf

open Payloads

variable {m m' : Memory} {shelf shelf' : Shelf} {key : Key} {settings : Settings} {α : Type}
variable {act : Action Memory α} {answer : Except Failure α} {s' : Memory × Shelf}

/-! ## Single reads -/

/-- What a read enters that is answered in this way. -/
def Entered (m : Memory) (key : Key) (shelf : Shelf) : Except Failure α → Shelf → Prop
  | .ok _, shelf' => shelf' = shelf.record .hit
  | .error .notFound, shelf' =>
    m.get? (payloadName key) = none ∧ shelf' = shelf.record .miss ∨
      m.get? (payloadName key) ≠ none ∧ m.get? (Ring.linkName key) = none ∧ shelf' = shelf
  | .error _, shelf' => shelf' = shelf

theorem entered_of_other {e : Failure} (other : e ≠ .notFound) :
    Entered m key shelf (.error e : Except Failure α) shelf := by
  cases e with
  | notFound => exact absurd rfl other
  | _ => rfl

/-- The action finds the payload of a key if and only if it is stored, and changes no record. -/
structure Fetches (key : Key) (act : Action Memory α) : Prop where
  absent : AbsentOnly (fun m => m.get? (payloadName key) = none) act
  present : ∀ m a m', Runs act m (.ok a) m' → m.get? (payloadName key) ≠ none
  still : Respects (Memory.within ∅) act

theorem fetches_read (key : Key) : Fetches key (Payloads.read key : Action Memory Bytes) where
  absent := absentOnly_read key
  present m bytes m' run := by
    rw [get?_of_read run]
    exact Option.some_ne_none bytes
  still := Payloads.respects_read key

theorem fetches_openPayload (key : Key) :
    Fetches key (Payloads.openPayload key : Action Memory Memory.Handle) where
  absent := absentOnly_openPayload key
  present _ _ _ := get?_of_openPayload
  still := Payloads.respects_openPayload key

/-- Once the payload was found, the link alone can be missing. -/
theorem Fetches.entered (fetches : Fetches key act)
    (run : Runs (use key act) (m, shelf) answer s') : Entered m key shelf answer s'.2 := by
  obtain ⟨a, ⟨m₁, shelf₁⟩, reading, rest⟩ | ⟨e, failing, rfl⟩ := run.bind_cases
  · obtain ⟨acting, ⟨absent, -⟩ | ⟨-, same⟩⟩ := orMiss_cases reading
    · cases absent
    obtain rfl : shelf₁ = shelf := same
    obtain ⟨moved, s₂, promoting, ended⟩ | ⟨e, promoting, rfl⟩ := rest.bind_cases
    · obtain ⟨_, kept⟩ := promoting.of_onFirst
      cases answer <;> cases ended
      exact congrArg (Shelf.record · .hit) kept
    · obtain ⟨missing, kept⟩ := promoting.of_onFirst
      rw [show s'.2 = shelf₁ from kept]
      by_cases absent : e = .notFound
      · subst absent
        have unlinked : m₁.get? (Ring.linkName key) = none := Ring.absentOnly_promote key _ _ missing
        rw [(fetches.still.run acting).get? _ (Set.notMem_empty _)] at unlinked
        exact .inr ⟨fetches.present m a m₁ acting, unlinked, rfl⟩
      · exact entered_of_other absent
  · obtain ⟨acting, ⟨absent, counted⟩ | ⟨other, same⟩⟩ := orMiss_cases failing
    · cases absent
      exact .inl ⟨fetches.absent m s'.1 acting, counted⟩
    · rw [same]
      exact entered_of_other fun absent => other (congrArg _ absent)

theorem entered_get {answer : Except Failure Bytes} (run : Runs (get key) (m, shelf) answer s') :
    Entered m key shelf answer s'.2 :=
  (fetches_read key).entered run

theorem entered_openEntry {answer : Except Failure Memory.Handle}
    (run : Runs (openEntry key) (m, shelf) answer s') : Entered m key shelf answer s'.2 :=
  (fetches_openPayload key).entered run

/-! ## Counting answers -/

structure ReadCounts where
  /-- Reads that succeeded. -/
  found : Nat := 0
  /-- Reads that were answered that nothing is found. -/
  missing : Nat := 0
  /-- Those of the latter whose payload was there. -/
  unlinked : Nat := 0
deriving DecidableEq

/-- The counts after a read that was answered in this way, with its payload stored or not. -/
def ReadCounts.note (counts : ReadCounts) (stored : Bool) : Except Failure α → ReadCounts
  | .ok _ => { counts with found := counts.found + 1 }
  | .error .notFound =>
    { counts with
      missing := counts.missing + 1
      unlinked := counts.unlinked + if stored then 1 else 0 }
  | .error _ => counts

/-- The counts after an operation. They start anew with a new shelf and with a reset. -/
def Operation.countsAfter (s : Memory × Shelf) (counts : ReadCounts) : Operation → ReadCounts
  | .get key =>
    counts.note (s.1.get? (payloadName key)).isSome
      ((Shelf.get key : Action (Memory × Shelf) Bytes).step s).1
  | .openEntry key =>
    counts.note (s.1.get? (payloadName key)).isSome
      ((Shelf.openEntry key : Action (Memory × Shelf) Memory.Handle).step s).1
  | .reset => if ((Shelf.reset : Action (Memory × Shelf) Unit).step s).1.isOk then {} else counts
  | .reopen settings =>
    if ((openOn settings : Action Memory Shelf).step s.1).1.isOk then {} else counts
  | .put _ _ | .reconcile | .contains _ | .keys | .check => counts

/-- What the shelf tallies of reads is what the counts say. -/
structure Tallied (counts : ReadCounts) (shelf : Shelf) : Prop where
  hits : shelf.tally.hits = counts.found
  misses : shelf.tally.misses + counts.unlinked = counts.missing

theorem tallied_start (capacity size : Nat) : Tallied {} { capacity, size } := ⟨rfl, rfl⟩

variable {counts : ReadCounts}

theorem Tallied.note (tallied : Tallied counts shelf) (entered : Entered m key shelf answer shelf') :
    Tallied (counts.note (m.get? (payloadName key)).isSome answer) shelf' := by
  obtain ⟨hits, misses⟩ := tallied
  cases answer with
  | ok a =>
    obtain rfl : shelf' = shelf.record .hit := entered
    exact ⟨congrArg (· + 1) hits, misses⟩
  | error e =>
    cases e with
    | notFound =>
      obtain ⟨absent, rfl⟩ | ⟨present, -, rfl⟩ := entered
      · rw [absent]
        refine ⟨hits, ?_⟩
        change shelf.tally.misses + 1 + counts.unlinked = counts.missing + 1
        omega
      · refine ⟨hits, ?_⟩
        rw [ReadCounts.note, Option.isSome_iff_ne_none.2 present]
        change shelf'.tally.misses + (counts.unlinked + 1) = counts.missing + 1
        omega
    | _ =>
      obtain rfl : shelf' = shelf := entered
      exact ⟨hits, misses⟩

/-! ## Operations that read no glyph -/

/-- The frame in which nothing more is tallied of reads. -/
def readsKept : FrameCondition Shelf where
  allows shelf shelf' :=
    shelf'.tally.hits = shelf.tally.hits ∧ shelf'.tally.misses = shelf.tally.misses
  refl _ := ⟨rfl, rfl⟩
  trans first second := ⟨second.1.trans first.1, second.2.trans first.2⟩

theorem admits_readsKept : Admits readsKept where
  inserting _ := ⟨rfl, rfl⟩
  updating _ := ⟨rfl, rfl⟩
  dropping _ _ := ⟨rfl, rfl⟩

theorem Tallied.kept (tallied : Tallied counts shelf) (kept : readsKept.allows shelf shelf') :
    Tallied counts shelf' :=
  ⟨kept.1.trans tallied.hits, by rw [kept.2, tallied.misses]⟩

/-- A shelf that is opened has tallied drops at most. -/
theorem tallied_of_openOn (opening : Runs (openOn settings) m (.ok shelf) m') :
    Tallied {} shelf := by
  obtain ⟨size, m₁, shelf', answer, -, keeping, opened⟩ | ⟨e, -, failed⟩ := openOn_cases opening
  · rw [opened shelf rfl]
    exact (tallied_start _ size).kept (admits_readsKept.respects_reconcile.run keeping)
  · cases failed

theorem Operation.tallied_after (operation : Operation) {s : Memory × Shelf}
    (tallied : Tallied counts s.2) :
    Tallied (operation.countsAfter s counts) (operation.after s).2 := by
  cases operation with
  | get key =>
    obtain ⟨answer, run⟩ := exists_runs (Shelf.get key : Action (Memory × Shelf) Bytes) s
    rw [countsAfter, run.step_eq]
    exact tallied.note (entered_get run)
  | openEntry key =>
    obtain ⟨answer, run⟩ :=
      exists_runs (Shelf.openEntry key : Action (Memory × Shelf) Memory.Handle) s
    rw [countsAfter, run.step_eq]
    exact tallied.note (entered_openEntry run)
  | reset =>
    obtain ⟨result, run⟩ := exists_runs (Shelf.reset : Action (Memory × Shelf) Unit) s
    rw [countsAfter, run.step_eq]
    change Tallied _ (stateAfter Shelf.reset s).2
    obtain ⟨rfl, started⟩ | ⟨e, rfl, same⟩ := reset_cases run
    · rw [started]
      exact tallied_start _ 0
    · rw [same]
      exact tallied
  | reopen settings =>
    obtain ⟨result, run⟩ := exists_runs (openOn settings : Action Memory Shelf) s.1
    rw [countsAfter, run.step_eq]
    unfold after
    cases result with
    | ok shelf =>
      dsimp only
      rw [run.ok_eq]
      exact tallied_of_openOn run
    | error e =>
      dsimp only
      rw [run.error_eq]
      exact tallied
  | put key bytes => exact tallied.kept (admits_readsKept.respects_put key bytes s)
  | reconcile => exact tallied.kept (admits_readsKept.respects_reconcile s)
  | contains key => exact tallied.kept (respects_contains_onSecond readsKept key s)
  | keys => exact tallied.kept (respects_onSecond readsKept Ring.walk s)
  | check =>
    change Tallied counts (stateAfter Shelf.check s).2
    rwa [shelf_of_check]

/-! ## The main statement -/

/-- An operation, and what happens to the device right before it: a failure may be armed, and
records may come and go. -/
structure Occasion where
  meanwhile : Memory → Memory := id
  operation : Operation

/-- A shelf on its device, and how the reads were answered since it began to count. -/
structure Ledger where
  site : Memory × Shelf
  counts : ReadCounts := {}

def Occasion.enter (ledger : Ledger) (occasion : Occasion) : Ledger :=
  let site := (occasion.meanwhile ledger.site.1, ledger.site.2)
  ⟨occasion.operation.after site, occasion.operation.countsAfter site ledger.counts⟩

theorem tallied_occasions (occasions : List Occasion) (ledger : Ledger)
    (tallied : Tallied ledger.counts ledger.site.2) :
    Tallied (occasions.foldl Occasion.enter ledger).counts
      (occasions.foldl Occasion.enter ledger).site.2 := by
  induction occasions generalizing ledger with
  | nil => exact tallied
  | cons occasion occasions ih => exact ih _ (occasion.operation.tallied_after tallied)

/-- Whatever was done with a shelf since it was opened, and whatever failed: its hits are the reads
that succeeded since it began to count, and its misses and the reads whose payload had no link are
those that were answered that nothing is found. A read that succeeds enters one hit and nothing
else. One that finds nothing enters one miss and nothing else, unless the payload is there and the
link is not; then it enters nothing, and neither does a read that fails in any other way. -/
theorem reads_are_tallied (opening : Runs (openOn settings) m (.ok shelf) m')
    (occasions : List Occasion) :
    let last := occasions.foldl Occasion.enter ⟨(m', shelf), {}⟩
    last.site.2.tally.hits = last.counts.found ∧
    last.site.2.tally.misses + last.counts.unlinked = last.counts.missing ∧
    ∀ (found : Memory) key,
      (∀ answer s', Runs (get key) (found, last.site.2) answer s' →
        Entered found key last.site.2 answer s'.2) ∧
      ∀ answer s', Runs (openEntry key) (found, last.site.2) answer s' →
        Entered found key last.site.2 answer s'.2 := by
  intro last
  obtain ⟨hits, misses⟩ := tallied_occasions occasions ⟨(m', shelf), {}⟩ (tallied_of_openOn opening)
  exact ⟨hits, misses, fun found key => ⟨fun _ _ => entered_get, fun _ _ => entered_openEntry⟩⟩

/-- On a shelf for one glyph a second one takes the place of the first, but deleting the payload of
the first one fails. Then the first one is read. -/
def displaced : List Occasion :=
  [{ operation := .put ⟨1⟩ [7] },
    { meanwhile := fun m => m.failAfter 34, operation := .put ⟨2⟩ [8] },
    { operation := .get ⟨1⟩ }]

def unmissed : Ledger :=
  displaced.foldl Occasion.enter
    ⟨(stateAfter (openOn { capacity := 1 }) ({} : Memory), { capacity := 1 }), {}⟩

/-- A read was answered that nothing is found, and no miss is tallied. -/
theorem displaced_glyph_unmissed :
    (∃ m', Runs (openOn { capacity := 1 }) ({} : Memory) (.ok { capacity := 1 }) m') ∧
      unmissed.counts.missing = 1 ∧ unmissed.site.2.tally.misses = 0 := by
  have opening : Runs (openOn { capacity := 1 }) ({} : Memory) (.ok { capacity := 1 }) _ :=
    runs_of_step (by decide +kernel)
  obtain ⟨-, misses, -⟩ := reads_are_tallied opening displaced
  rw [← unmissed] at misses
  have missing : unmissed.counts.missing = 1 := by decide +kernel
  have unlinked : unmissed.counts.unlinked = 1 := by decide +kernel
  refine ⟨⟨_, opening⟩, missing, ?_⟩
  rw [missing, unlinked] at misses
  omega

end GlyphShelf.Shelf

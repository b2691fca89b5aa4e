import GlyphShelf.Proofs.Shelf.Examination
import GlyphShelf.Proofs.Shelf.Frames
import GlyphShelf.Proofs.Shelf.Readers
import GlyphShelf.Proofs.Shelf.Stock

/-!
# Accounts of a shelf

A shelf never counts its keys again after it was opened. It adds one for each key it links and takes
one off for each key it drops, and tallies both. So whatever becomes of the ring, the size and the
tally agree with each other: with the keys it started from and those it linked, a shelf has as many
keys as it still counts and those it dropped.

Nothing is asked of the device. It may hold anything, it may be changed by others between two
operations, and an operation may fail wherever it uses it; the books are kept in memory, and each
entry is made at once, where nothing fails.
-/

namespace GlyphShelf.Shelf

variable {σ η α : Type} [Device σ η] {s s' : σ × Shelf} {shelf shelf' : Shelf} {key : Key}
variable {base : Nat}

/-! ## Balances -/

/-- The keys at the start and those linked since are those counted and those dropped. -/
def Balanced (base : Nat) (shelf : Shelf) : Prop :=
  shelf.size + shelf.tally.evictions = base + shelf.tally.inserts

theorem balanced_start (capacity size : Nat) : Balanced size { capacity, size } := rfl

/-- The frame in which a balance stays one, and the capacity stays what it is. -/
def bookkeeping : FrameCondition Shelf where
  allows shelf shelf' :=
    shelf'.capacity = shelf.capacity ∧ ∀ base, Balanced base shelf → Balanced base shelf'
  refl _ := ⟨rfl, fun _ => id⟩
  trans first second := ⟨second.1.trans first.1, fun base => second.2 base ∘ first.2 base⟩

theorem bookkeeping_afterInsert (shelf : Shelf) : bookkeeping.allows shelf shelf.afterInsert := by
  refine ⟨rfl, fun base balanced => ?_⟩
  calc shelf.size + 1 + shelf.tally.evictions
      = shelf.size + shelf.tally.evictions + 1 := by omega
    _ = base + shelf.tally.inserts + 1 := by rw [balanced]

/-- Dropping is entered correctly, provided there is a key to be taken off. -/
theorem bookkeeping_afterDrop (counts : 0 < shelf.size) :
    bookkeeping.allows shelf shelf.afterDrop := by
  refine ⟨rfl, fun base balanced => ?_⟩
  calc shelf.size - 1 + (shelf.tally.evictions + 1)
      = shelf.size + shelf.tally.evictions := by omega
    _ = base + shelf.tally.inserts := balanced

/-- Reads are no part of the balance. -/
theorem respects_tell_hit : Respects bookkeeping.onSecond (tell .hit : Action (σ × Shelf) Unit) :=
  fun _ => ⟨rfl, fun _ => id⟩

/-! ## Entries -/

/-- What a shelf enters when it stores or drops something is allowed by the frame. -/
structure Admits (frame : FrameCondition Shelf) : Prop where
  inserting : ∀ shelf, frame.allows shelf shelf.afterInsert
  updating : ∀ shelf : Shelf, frame.allows shelf (shelf.record .update)
  dropping : ∀ shelf : Shelf, ¬ shelf.size ≤ shelf.capacity → frame.allows shelf shelf.afterDrop

/-- A glyph that was there already is no part of the balance. -/
theorem admits_bookkeeping : Admits bookkeeping where
  inserting := bookkeeping_afterInsert
  updating _ := ⟨rfl, fun _ => id⟩
  dropping _ excess := bookkeeping_afterDrop (by omega)

/-! ## Dropping -/

/-- A drop is entered once the ring gave up a key, whatever becomes of the payload. -/
theorem dropOldest_cases {result : Except Failure Unit} (run : Runs dropOldest s result s') :
    (s'.2 = s.2 ∧ ∃ e, result = .error e) ∨ s'.2 = s.2.afterDrop := by
  obtain ⟨victim, s₁, evicting, rest⟩ | ⟨e, evicting, failed⟩ := run.bind_cases
  · obtain ⟨_, s₂, entering, deleting⟩ | ⟨e, entering, -⟩ := rest.bind_cases
    · cases entering
      refine .inr (deleting.of_onFirst.2.trans ?_)
      rw [evicting.of_onFirst.2]
      rfl
    · cases entering
  · exact .inl ⟨evicting.of_onFirst.2, e, failed⟩

section

variable {frame : FrameCondition Shelf} (admits : Admits frame)

include admits

theorem Admits.allows_dropOldest (excess : ¬ s.2.size ≤ s.2.capacity) :
    frame.onSecond.allows s (stateAfter (dropOldest : Action (σ × Shelf) Unit) s) := by
  obtain ⟨result, run⟩ := exists_runs (dropOldest : Action (σ × Shelf) Unit) s
  change frame.allows s.2 _
  obtain ⟨same, -⟩ | dropped := dropOldest_cases run
  · rw [same]
    exact frame.refl s.2
  · rw [dropped]
    exact admits.dropping s.2 excess

theorem Admits.respects_reconcile :
    Respects frame.onSecond (reconcile : Action (σ × Shelf) Nat) :=
  (respects_keepWithin fun _ => admits.allows_dropOldest).bind fun _ s => frame.refl s.2

theorem Admits.respects_settle (key : Key) (linked : Bool) :
    Respects frame.onSecond (settle key linked : Action (σ × Shelf) Nat) := by
  cases linked with
  | true =>
    exact (respects_onSecond _ _).bind fun _ =>
      .bind (fun s => admits.updating s.2) fun _ => admits.respects_reconcile
  | false =>
    exact (respects_onSecond _ _).bind fun _ =>
      .bind (fun s => admits.inserting s.2) fun _ => admits.respects_reconcile

theorem Admits.respects_put (key : Key) (bytes : Bytes) :
    Respects frame.onSecond (put key bytes : Action (σ × Shelf) Nat) := by
  rw [put_eq_settle]
  exact (respects_ofExcept _).bind fun _ => (respects_onSecond _ _).bind fun linked =>
    admits.respects_settle key linked

end

/-- There are enough drops to get within the capacity. -/
theorem fits_of_dropExcess {drops : Nat} (run : Runs (dropExcess drops) s (.ok ()) s')
    (enough : s.2.size ≤ s.2.capacity + drops) : s'.2.size ≤ s'.2.capacity := by
  induction drops generalizing s with
  | zero =>
    cases run
    exact enough
  | succ drops ih =>
    by_cases fits : s.2.size ≤ s.2.capacity
    · have still : Runs (dropExcess (drops + 1)) s (.ok ()) s := dropExcess_of_within _ fits
      obtain ⟨-, rfl⟩ := run.deterministic still
      exact fits
    · unfold Runs at run
      rw [dropExcess_of_beyond drops fits] at run
      obtain ⟨_, s₁, dropping, going⟩ := Runs.bind_ok run
      obtain ⟨-, e, failed⟩ | dropped := dropOldest_cases dropping
      · cases failed
      · apply ih going
        rw [dropped]
        change s.2.size - 1 ≤ s.2.capacity + drops
        omega

theorem fits_of_keepWithin (run : Runs keepWithin s (.ok ()) s') : s'.2.size ≤ s'.2.capacity := by
  have dropping : Runs (dropExcess s.2.size) s (.ok ()) s' := run
  exact fits_of_dropExcess dropping (Nat.le_add_left _ _)

/-! ## Counting down -/

section

variable (instead : Action (σ × Shelf) Unit)

/-- As `dropOldest`, but with something else in place of counting down from zero. -/
def dropOldestOr : Action (σ × Shelf) Unit := do
  let victim ← Action.onFirst Ring.evict
  fun (s, shelf) => if shelf.size = 0 then instead (s, shelf) else .ok () (s, shelf.afterDrop)
  Action.onFirst (Action.allowAbsence (Payloads.delete victim))

def dropExcessOr : (drops : Nat) → Action (σ × Shelf) Unit
  | 0 => pure ()
  | drops + 1 => fun (s, shelf) =>
    if shelf.size ≤ shelf.capacity then .ok () (s, shelf)
    else (do dropOldestOr instead; dropExcessOr drops : Action (σ × Shelf) Unit) (s, shelf)

def keepWithinOr : Action (σ × Shelf) Unit := fun (s, shelf) =>
  dropExcessOr instead shelf.size (s, shelf)

theorem dropOldestOr_eq (counts : s.2.size ≠ 0) : dropOldestOr instead s = dropOldest s := by
  refine bind_congr_run rfl fun victim s₁ evicting => bind_congr_run ?_ fun _ _ _ => rfl
  obtain ⟨s₁, shelf⟩ := s₁
  obtain rfl : shelf = s.2 := evicting.of_onFirst.2
  exact if_neg counts

theorem dropExcessOr_eq (drops : Nat) : dropExcessOr instead drops = dropExcess drops := by
  induction drops with
  | zero => rfl
  | succ drops ih =>
    funext s
    by_cases fits : s.2.size ≤ s.2.capacity
    · rw [dropExcess_of_within _ fits]
      exact if_pos fits
    · have counts : s.2.size ≠ 0 := by omega
      rw [dropExcess_of_beyond drops fits]
      refine (if_neg fits).trans (bind_congr_run (dropOldestOr_eq instead counts) ?_)
      intro _ s₁ _
      rw [ih]

/-- Nowhere is anything counted down from zero. -/
theorem keepWithinOr_eq : keepWithinOr instead = keepWithin := by
  funext s
  exact congrFun (dropExcessOr_eq instead s.2.size) s

end

/-! ## Calls -/

theorem respects_reconcile_bookkeeping :
    Respects bookkeeping.onSecond (reconcile : Action (σ × Shelf) Nat) :=
  admits_bookkeeping.respects_reconcile

theorem fits_of_reconcile {size : Nat} (run : Runs reconcile s (.ok size) s') :
    size = s'.2.size ∧ size ≤ s'.2.capacity := by
  obtain ⟨_, s₁, keeping, telling⟩ := run.bind_ok
  cases telling
  exact ⟨rfl, fits_of_keepWithin keeping⟩

theorem respects_put_bookkeeping (key : Key) (bytes : Bytes) :
    Respects bookkeeping.onSecond (put key bytes : Action (σ × Shelf) Nat) :=
  admits_bookkeeping.respects_put key bytes

theorem fits_of_put {bytes : Bytes} {size : Nat} (run : Runs (put key bytes) s (.ok size) s') :
    size = s'.2.size ∧ size ≤ s'.2.capacity := by
  rw [put_eq_settle] at run
  obtain ⟨_, s₁, -, storing⟩ := run.bind_ok
  obtain ⟨linked, s₂, -, settling⟩ := storing.bind_ok
  cases linked with
  | true =>
    obtain ⟨_, s₃, -, telling⟩ := settling.bind_ok
    obtain ⟨_, s₄, -, reconciling⟩ := telling.bind_ok
    exact fits_of_reconcile reconciling
  | false =>
    obtain ⟨_, s₃, -, entering⟩ := settling.bind_ok
    obtain ⟨_, s₄, -, reconciling⟩ := entering.bind_ok
    exact fits_of_reconcile reconciling

theorem respects_use_bookkeeping (key : Key) (act : Action σ α) :
    Respects bookkeeping.onSecond (use key act) := by
  refine .bind ?_ fun _ => (respects_onSecond _ _).bind fun _ =>
    respects_tell_hit.bind fun _ => .pure _
  rintro ⟨s, shelf⟩
  obtain same | same := stateAfter_orMiss act s shelf
  · rw [same]
    exact bookkeeping.refl shelf
  · rw [same]
    exact ⟨rfl, fun _ => id⟩

theorem respects_contains_onSecond (frame : FrameCondition Shelf) (key : Key) :
    Respects frame.onSecond (contains key : Action (σ × Shelf) Bool) :=
  .ite (fun _ => .pure false) fun _ => respects_onSecond _ _

theorem shelf_of_check (s : σ × Shelf) : (stateAfter check s).2 = s.2 := by
  obtain ⟨s, shelf⟩ := s
  obtain ⟨found, examining⟩ := exists_runs (examination shelf.size : Examination σ Unit) s
  rw [(runs_check_of_examined examining).stateAfter_eq]

/-- A reset that fails leaves the books alone, one that succeeds opens new ones. -/
theorem reset_cases {result : Except Failure Unit} (run : Runs reset s result s') :
    (result = .ok () ∧ s'.2 = { capacity := s.2.capacity }) ∨
      ∃ e, result = .error e ∧ s'.2 = s.2 := by
  obtain ⟨_, s₁, wiping, starting⟩ | ⟨e, wiping, failed⟩ := run.bind_cases
  · obtain ⟨device, shelf⟩ := s₁
    obtain rfl : shelf = s.2 := wiping.of_onFirst.2
    cases result with
    | ok _ =>
      cases starting
      exact .inl ⟨rfl, rfl⟩
    | error e => cases starting
  · exact .inr ⟨e, failed, wiping.of_onFirst.2⟩

/-! ## Openings -/

/-- How many keys a shelf starts from: none after a cold start, and otherwise those that are passed
by the walk, once the anchors are there. -/
def startsWith (settings : Settings) (s : σ) : Nat :=
  if settings.cold then 0
  else
    match Ring.walk (stateAfter Ring.setUp s) with
    | .ok keys _ => keys.length
    | .error _ _ => 0

theorem startsWith_of_recover {settings : Settings} {s s' : σ} {size : Nat}
    (run : Runs (recover settings) s (.ok size) s') : startsWith settings s = size := by
  obtain ⟨_, s₁, checking, rest⟩ := run.bind_ok
  obtain ⟨-, rfl⟩ := checking.deterministic (Action.runs_ofExcept _ _)
  obtain ⟨_, s₂, setting, rest⟩ := rest.bind_ok
  rw [startsWith, setting.stateAfter_eq]
  by_cases cold : settings.cold = true
  · rw [if_pos cold] at rest ⊢
    obtain ⟨_, s₃, -, ended⟩ := rest.bind_ok
    cases ended
    rfl
  · rw [if_neg cold] at rest ⊢
    obtain ⟨keys, s₃, walking, ended⟩ := rest.bind_ok
    cases ended
    rw [walking.ok_eq]

theorem balanced_of_openOn {settings : Settings} {s s' : σ}
    (run : Runs (openOn settings) s (.ok shelf) s') : Balanced (startsWith settings s) shelf := by
  obtain ⟨size, s₁, shelf', answer, recovered, reconciled, opened⟩ | ⟨e, -, failed⟩ :=
    openOn_cases run
  · rw [startsWith_of_recover recovered, opened shelf rfl]
    exact (respects_reconcile_bookkeeping.run reconciled).2 size (balanced_start _ size)
  · cases failed

/-! ## The main statement -/

/-- What the balance is to be told from after an operation, if it was the given number before. -/
def Operation.baseAfter (site : σ × Shelf) (base : Nat) : Operation → Nat
  | .reset =>
    match (Shelf.reset : Action (σ × Shelf) Unit) site with
    | .ok _ _ => 0
    | .error _ _ => base
  | .reopen settings =>
    match (openOn settings : Action σ Shelf) site.1 with
    | .ok _ _ => startsWith settings site.1
    | .error _ _ => base
  | .put _ _ | .get _ | .openEntry _ | .reconcile | .contains _ | .keys | .check => base

theorem Operation.balanced_after (operation : Operation) {site : σ × Shelf}
    (balanced : Balanced base site.2) :
    Balanced (operation.baseAfter site base) (operation.after site).2 := by
  cases operation with
  | put key bytes => exact (respects_put_bookkeeping key bytes site).2 base balanced
  | get key => exact (respects_use_bookkeeping key _ site).2 base balanced
  | openEntry key => exact (respects_use_bookkeeping key _ site).2 base balanced
  | reconcile => exact (respects_reconcile_bookkeeping site).2 base balanced
  | contains key =>
    exact (respects_contains_onSecond bookkeeping key site).2 base balanced
  | keys => exact (respects_onSecond bookkeeping _ site).2 base balanced
  | check =>
    change Balanced base (stateAfter Shelf.check site).2
    rwa [shelf_of_check]
  | reset =>
    obtain ⟨result, run⟩ := exists_runs (Shelf.reset : Action (σ × Shelf) Unit) site
    unfold baseAfter after
    obtain ⟨rfl, started⟩ | ⟨e, rfl, same⟩ := reset_cases run
    · dsimp only
      rw [run.ok_eq, started]
      exact balanced_start _ 0
    · dsimp only
      rw [run.error_eq, same]
      exact balanced
  | reopen settings =>
    obtain ⟨result, run⟩ := exists_runs (openOn settings : Action σ Shelf) site.1
    unfold baseAfter after
    cases result with
    | ok shelf =>
      dsimp only
      rw [run.ok_eq]
      exact balanced_of_openOn run
    | error e =>
      dsimp only
      rw [run.error_eq]
      exact balanced

/-- A shelf and the number that its balance is told from. -/
structure Account where
  shelf : Shelf
  base : Nat

/-- An operation on a shelf whose device is found in some state. It need not be the one in which the
operation before left it: others may have written there, there may be less room, and failures may be
due. -/
structure Visit (σ : Type) where
  found : σ
  operation : Operation

def Visit.after (account : Account) (visit : Visit σ) : Account where
  shelf := (visit.operation.after (visit.found, account.shelf)).2
  base := visit.operation.baseAfter (visit.found, account.shelf) account.base

theorem balanced_visits (visits : List (Visit σ)) {account : Account}
    (balanced : Balanced account.base account.shelf) :
    Balanced (visits.foldl Visit.after account).base (visits.foldl Visit.after account).shelf := by
  induction visits generalizing account with
  | nil => exact balanced
  | cons visit visits ih => exact ih (visit.operation.balanced_after balanced)

/-- The books of a shelf always balance, whatever operations were carried out and whatever device
they met with. Where storing or making room succeeds, the answer is the size, and it is within the
capacity. A reset that fails leaves the books as they are. And the size is never counted down from
zero: whatever were done instead there, nothing would be different. -/
theorem books_balance {settings : Settings} {s s' : σ}
    (opening : Runs (openOn settings) s (.ok shelf) s') (visits : List (Visit σ)) :
    let last := visits.foldl Visit.after ⟨shelf, startsWith settings s⟩
    last.shelf.size + last.shelf.tally.evictions = last.base + last.shelf.tally.inserts ∧
    (∀ (found : σ) key bytes size site,
      Runs (put key bytes) (found, last.shelf) (.ok size) site →
        size = site.2.size ∧ size ≤ site.2.capacity ∧ site.2.capacity = last.shelf.capacity) ∧
    (∀ (found : σ) size site, Runs reconcile (found, last.shelf) (.ok size) site →
      size = site.2.size ∧ size ≤ site.2.capacity ∧ site.2.capacity = last.shelf.capacity) ∧
    (∀ (found : σ) e site, Runs reset (found, last.shelf) (.error e) site →
      site.2 = last.shelf) ∧
    ∀ instead : Action (σ × Shelf) Unit, keepWithinOr instead = keepWithin := by
  intro last
  refine ⟨balanced_visits visits (balanced_of_openOn opening), ?_, ?_, ?_, keepWithinOr_eq⟩
  · intro found key bytes size site run
    obtain ⟨told, fits⟩ := fits_of_put run
    exact ⟨told, fits, ((respects_put_bookkeeping key bytes).run run).1⟩
  · intro found size site run
    obtain ⟨told, fits⟩ := fits_of_reconcile run
    exact ⟨told, fits, (respects_reconcile_bookkeeping.run run).1⟩
  · intro found e site run
    obtain ⟨succeeded, -⟩ | ⟨_, -, same⟩ := reset_cases run
    · cases succeeded
    · exact same

/-- Two glyphs are stored on a shelf that started with two keys; each time the device is found as it
was at the start, and the second time it fails while room is being made. -/
def interrupted : List (Visit Memory) :=
  [⟨encircled, .put ⟨7⟩ [1]⟩, ⟨{ encircled with fault := some 19 }, .put ⟨8⟩ [1]⟩]

def overfull : Account :=
  interrupted.foldl Visit.after
    ⟨{ capacity := 2, size := 2 }, startsWith { capacity := 2, cold := false } encircled⟩

/-- Three keys are counted on a shelf for two, and the books balance all the same; a reset that
fails at once leaves them so. -/
theorem overfull_shelf_balances :
    (∃ s', Runs (openOn { capacity := 2, cold := false }) encircled
      (.ok { capacity := 2, size := 2 }) s') ∧
    overfull.base = 2 ∧ overfull.shelf.size = 3 ∧ overfull.shelf.tally.inserts = 2 ∧
      overfull.shelf.tally.evictions = 1 ∧
      ∃ site, Runs reset (({ fault := some 0 } : Memory), overfull.shelf)
        (.error (.device .injected)) site ∧ site.2 = overfull.shelf := by
  have opening : Runs (openOn { capacity := 2, cold := false }) encircled
      (.ok { capacity := 2, size := 2 }) _ := runs_of_step (by decide +kernel)
  obtain ⟨balance, -, -, failing, -⟩ := books_balance opening interrupted
  rw [← overfull] at balance failing
  have base : overfull.base = 2 := by decide +kernel
  have size : overfull.shelf.size = 3 := by decide +kernel
  have inserts : overfull.shelf.tally.inserts = 2 := by decide +kernel
  have resetting : Runs reset (({ fault := some 0 } : Memory), overfull.shelf)
      (.error (.device .injected)) _ := runs_of_step (by decide +kernel)
  refine ⟨⟨_, opening⟩, base, size, inserts, ?_, _, resetting, failing _ _ _ resetting⟩
  rw [base, size, inserts] at balance
  omega

end GlyphShelf.Shelf

import GlyphShelf.Proofs.Ring.Reporting
import GlyphShelf.Proofs.Shelf.Restart

/-!
# Shelves report failures

No operation of a shelf succeeds if a step of it ran into the armed failure, whatever the device
holds and whatever the shelf counts. In states that were reached without failures even more is
true: there an operation would succeed or be refused at once, so the armed failure is all that it
can report.
-/

namespace GlyphShelf.Shelf

open Memory (injection injected)
open Payloads

variable {m m' : Memory} {s : Memory × Shelf} {shelf : Shelf} {linked : List Key} {key : Key}
variable {settings : Settings} {ε α : Type}

/-! ## Steps -/

theorem tells_tell (event : Tally.Event) :
    injection.onFirst.Tells injected (tell event : Action (Memory × Shelf) Unit) :=
  tells_second (fun _ => ()) fun shelf : Shelf => shelf.record event

theorem reports_dropOldest :
    injection.onFirst.Reports injected (dropOldest : Action (Memory × Shelf) Unit) := by
  refine (reports_onFirst Ring.reports_evict).bind fun victim => ?_
  refine (tells_second (fun _ => ()) afterDrop).reports.bind fun _ => ?_
  exact (tells_onFirst (Payloads.tells_discard victim)).reports

theorem reports_dropExcess (drops : Nat) :
    injection.onFirst.Reports injected (dropExcess drops : Action (Memory × Shelf) Unit) := by
  induction drops with
  | zero => exact .pure ()
  | succ drops ih =>
    rintro ⟨m, shelf⟩ armed result s' run
    by_cases fits : shelf.size ≤ shelf.capacity
    · obtain ⟨rfl, rfl⟩ := run.deterministic (runs_dropExcess_of_within fits)
      exact .inl ⟨armed, runs_dropExcess_of_within fits⟩
    · -- the trap has no part in the sizes, so both runs go on to drop a key
      have beyond (m : Memory) {result : Except Failure Unit} {t : Memory × Shelf} :
          Runs (dropExcess (drops + 1)) (m, shelf) result t ↔
            Runs (do dropOldest; dropExcess drops) (m, shelf) result t := by
        unfold Runs
        rw [dropExcess_of_beyond drops fits]
      have reports := reports_dropOldest.bind fun _ => ih
      rcases reports (m, shelf) armed result s' ((beyond m).1 run) with
        ⟨armed', free⟩ | failed | ⟨e, t, failed, free⟩
      · exact .inl ⟨armed', (beyond m.clearFault).2 free⟩
      · exact .inr (.inl failed)
      · exact .inr (.inr ⟨e, t, failed, (beyond m.clearFault).2 free⟩)

theorem reports_reconcile :
    injection.onFirst.Reports injected (reconcile : Action (Memory × Shelf) Nat) := by
  refine .bind ?_ fun _ => (tells_second Shelf.size id).reports
  exact .depending (f := dropExcess) (fun s => s.2.size) (fun _ => rfl) reports_dropExcess

/-! ## Opening and wiping -/

theorem tells_deletePayloads (keys : List Key) :
    injection.Tells injected (deletePayloads keys : Action Memory Unit) := by
  induction keys with
  | nil => exact .pure ()
  | cons key keys ih => exact (Payloads.tells_discard key).bind fun _ => ih

theorem reports_wipe : injection.Reports injected (wipe : Action Memory Unit) :=
  Payloads.tells_enumerate.reports.bind fun _ => (tells_deletePayloads _).reports.bind fun _ =>
    Ring.reports_clear

theorem reports_recover (settings : Settings) :
    injection.Reports injected (recover settings : Action Memory Nat) := by
  refine (tells_ofExcept _).reports.bind fun _ => Ring.reports_setUp.bind fun _ => ?_
  exact .ite (reports_wipe.bind fun _ => .pure 0) (Ring.reports_walk.bind fun _ => .pure _)

theorem reports_openOn (settings : Settings) :
    injection.Reports injected (openOn settings : Action Memory Shelf) := by
  rw [openOn_eq]
  exact (reports_recover settings).bind fun size => reports_keeping reports_reconcile _

theorem reports_reset :
    injection.onFirst.Reports injected (reset : Action (Memory × Shelf) Unit) :=
  (reports_onFirst reports_wipe).bind fun _ =>
    (tells_second (fun _ => ()) fun shelf : Shelf => { capacity := shelf.capacity }).reports

/-! ## Storing -/

theorem reports_storePayload (key : Key) (bytes : Bytes) :
    injection.Reports injected (storePayload key bytes : Action Memory Bool) :=
  reports_orCleanUp ((Payloads.reports_write key bytes).bind fun _ =>
    (Ring.tells_contains key).reports) (Payloads.tells_delete key).reports

theorem reports_put (key : Key) (bytes : Bytes) :
    injection.onFirst.Reports injected (put key bytes : Action (Memory × Shelf) Nat) := by
  refine (tells_ofExcept _).reports.bind fun _ => ?_
  refine (reports_onFirst (reports_storePayload key bytes)).bind fun present => ?_
  refine .ite ((reports_onFirst (Ring.reports_promote key)).bind fun _ => ?_)
    ((reports_onFirst (reports_orCleanUp (Ring.reports_insert key)
      (Payloads.tells_delete key).reports)).bind fun _ => ?_)
  · exact (tells_tell .update).reports.bind fun _ => reports_reconcile
  · exact (tells_second (fun _ => ()) afterInsert).reports.bind fun _ => reports_reconcile

/-! ## Reading -/

theorem tells_orMiss {act : Action Memory α} (tells : injection.Tells injected act) :
    injection.onFirst.Tells injected (orMiss act) := by
  rintro ⟨m, shelf⟩ armed result s' run
  obtain ⟨result', acting⟩ := exists_runs act m
  by_cases absent : result' = .error .notFound
  · subst absent
    obtain ⟨rfl, rfl⟩ := run.deterministic (runs_orMiss_of_absent acting shelf)
    rcases tells m armed _ _ acting with ⟨armed', free⟩ | failed
    · exact .inl ⟨armed', runs_orMiss_of_absent free shelf⟩
    · cases failed
  · obtain ⟨rfl, rfl⟩ := run.deterministic (runs_orMiss acting absent shelf)
    exact (tells m armed _ _ acting).imp_left
      fun spared => ⟨spared.1, runs_orMiss spared.2 absent shelf⟩

theorem reports_use {act : Action Memory α} (key : Key) (tells : injection.Tells injected act) :
    injection.onFirst.Reports injected (use key act) :=
  (tells_orMiss tells).reports.bind fun _ => (reports_onFirst (Ring.reports_promote key)).bind
    fun _ => (tells_tell .hit).reports.bind fun _ => .pure _

/-! ## Looking -/

theorem tells_contains (key : Key) :
    injection.onFirst.Tells injected (contains key : Action (Memory × Shelf) Bool) :=
  .ite (.pure false) (tells_onFirst (Ring.tells_contains key))

theorem reports_keys :
    injection.onFirst.Reports injected (keys : Action (Memory × Shelf) (List Key)) :=
  reports_onFirst Ring.reports_walk

theorem reports_check :
    injection.onFirst.Reports (.failed injected) (check : Examination (Memory × Shelf) Unit) := by
  rintro ⟨m, shelf⟩ armed result s' run
  have reports : injection.Reports (.failed injected) (examination shelf.size) :=
    Ring.reports_check.bind fun _ => (reports_ofAction Ring.reports_walk).bind fun _ =>
      .ite (.pure ()) (.throw _)
  obtain ⟨found, examining⟩ := exists_runs (examination shelf.size) m
  obtain ⟨rfl, rfl⟩ := run.deterministic (runs_check_of_examined examining)
  rcases reports m armed _ _ examining with ⟨armed', free⟩ | failed | ⟨e, t, failed, free⟩
  · exact .inl ⟨armed', runs_check_of_examined free⟩
  · exact .inr (.inl failed)
  · exact .inr (.inr ⟨e, _, failed, runs_check_of_examined free⟩)

/-! ## States reached without failures -/

theorem Steady.serves (steady : Steady m shelf linked) :
    Serves (m, shelf) ⟨linked, fun key => m.get? (payloadName key)⟩ where
  holds := ⟨steady.holds, fun _ _ => rfl, Memory.solvent_of_unlimited steady.unlimited steady.quiet⟩
  counted := steady.counted.symm

section

variable (steady : Steady m shelf linked)
include steady

theorem Steady.runs_reconcile :
    ∃ size s', Runs reconcile (m, shelf) (.ok size) s' := by
  obtain ⟨m', shelf', run, -, -⟩ := runs_reconcile_of_serves steady.serves
  exact ⟨_, _, run⟩

theorem Steady.runs_put (glyph : ¬ key.IsAnchor) (bytes : Bytes) :
    ∃ size s', Runs (put key bytes) (m, shelf) (.ok size) s' := by
  rcases runs_bringIn steady.serves glyph bytes with ⟨s₁, bringing, serves, -⟩ | ⟨limited, -⟩
  · obtain ⟨m', shelf', reconciling, -, -⟩ := runs_reconcile_of_serves serves
    rw [put_eq]
    exact ⟨_, _, bringing.bind reconciling⟩
  · exact absurd steady.unlimited limited

theorem Steady.runs_openOn (valid : settings.validate = .ok ()) :
    ∃ shelf' m', Runs (openOn settings) m (.ok shelf') m' := by
  cases cold : settings.cold with
  | true =>
    obtain ⟨m', _, run, -, -⟩ := runs_openOn_cold valid cold steady.unlimited steady.quiet
    exact ⟨_, m', run⟩
  | false =>
    obtain ⟨count, recovering⟩ := runs_recover_of_holds steady.serves.holds valid cold
    have serves : Serves (m.spend count,
        { capacity := settings.capacity, size := linked.length }) _ :=
      ⟨steady.serves.holds.spend count, rfl⟩
    obtain ⟨m', shelf', keeping, -, -⟩ := runs_reconcile_of_serves serves
    exact ⟨shelf', m', runs_openOn_of_recovered recovering keeping⟩

theorem Steady.runs_reset : ∃ s', Runs reset (m, shelf) (.ok ()) s' := by
  obtain ⟨m', count, wiping, -, -⟩ := runs_wipe steady.unlimited steady.quiet
  exact ⟨_, (Action.runs_onFirst wiping shelf).bind rfl⟩

end

section

variable (armed : injection.onFirst.armed s) (steady : Steady s.1.clearFault s.2 linked)
include armed steady

theorem tellsFrom_openOn (settings : Settings) :
    injection.TellsFrom injected s.1 (openOn settings : Action Memory Shelf) := by
  cases valid : settings.validate with
  | ok _ =>
    obtain ⟨_, _, free⟩ := steady.runs_openOn valid
    exact (reports_openOn settings).tellsFrom armed free
  | error e => exact .of_refused armed (runs_openOn_of_invalid valid)

theorem tellsFrom_put (key : Key) (bytes : Bytes) :
    injection.onFirst.TellsFrom injected s (put key bytes : Action (Memory × Shelf) Nat) := by
  by_cases anchor : key.IsAnchor
  · exact .of_refused armed (runs_put_of_anchor anchor bytes)
  · obtain ⟨_, _, free⟩ := steady.runs_put anchor bytes
    exact (reports_put key bytes).tellsFrom armed free

/-- A key that is not in the ring is found out by opening its link. -/
theorem tellsFrom_promote (key : Key) :
    injection.TellsFrom injected s.1 (Ring.promote key : Action Memory Bool) := by
  by_cases anchor : key.IsAnchor
  · exact .of_refused armed fun m => Action.refuses_anchor anchor _ m
  by_cases member : key ∈ linked
  · obtain ⟨_, _, _, free, -, -⟩ := Ring.runs_promote_of_linked steady.shows steady.ring member
      steady.unlimited steady.quiet
    exact (Ring.reports_promote key).tellsFrom armed free
  · have absent := Ring.get?_of_unlinked steady.shows (steady.ring.eq_none anchor member)
    have missing := Memory.runs_openRecord_of_absent .readOnly (steady.allowed 1) absent rfl
    have opening := Memory.tells_openRecord (Ring.linkName key) .readOnly s.1 armed
    rw [Ring.promote, Action.requireGlyph_bind anchor]
    have reading : injection.TellsFrom injected s.1 (Ring.readLink key : Action Memory Link) :=
      .bind_of_failed (Device.tellsFrom_withRecord_of_unopened opening missing)
        (Device.runs_withRecord_of_unopened missing)
    exact reading.bind_of_failed (Device.runs_withRecord_of_unopened missing).bind_error

/-- Reading changes no link, so afterwards the key is in the ring or not, as before. -/
theorem tellsFrom_use {act : Action Memory α} (tells : injection.Tells injected act)
    (respects : Respects (Memory.within ∅) act) :
    injection.onFirst.TellsFrom injected s (use key act) := by
  refine (tells_orMiss tells s armed).bind fun a s₁ armed₁ free => ?_
  obtain ⟨linked₁, steady₁⟩ := (steadily_orMiss respects).run free ⟨linked, steady⟩
  have promoting := tellsFrom_promote armed₁ steady₁ key
  refine (tellsFrom_onFirst promoting s₁.2).bind fun _ s₂ armed₂ _ => ?_
  exact (tells_tell .hit).bind (fun _ => .pure a) s₂ armed₂

theorem tellsFrom_reset :
    injection.onFirst.TellsFrom injected s (reset : Action (Memory × Shelf) Unit) := by
  obtain ⟨_, free⟩ := steady.runs_reset
  exact reports_reset.tellsFrom armed free

theorem tellsFrom_reconcile :
    injection.onFirst.TellsFrom injected s (reconcile : Action (Memory × Shelf) Nat) := by
  obtain ⟨_, _, free⟩ := steady.runs_reconcile
  exact reports_reconcile.tellsFrom armed free

theorem tellsFrom_keys :
    injection.onFirst.TellsFrom injected s (keys : Action (Memory × Shelf) (List Key)) := by
  obtain ⟨_, free⟩ := runs_keys_of_passes steady.shows.reads steady.quiet steady.ring.passes s.2
  exact reports_keys.tellsFrom armed free

theorem tellsFrom_check :
    injection.onFirst.TellsFrom (.failed injected) s
      (check : Examination (Memory × Shelf) Unit) := by
  obtain ⟨_, free⟩ :=
    runs_check_of_counted steady.shows.reads steady.quiet steady.ring.passes steady.counted
  exact reports_check.tellsFrom armed free

end

/-- If the armed failure hits a step of the operation, the operation fails; in a state that was
reached without failures it fails with what was armed. -/
def Reveals (told : ε) (act : EStateM ε (Memory × Shelf) α) : Prop :=
  ∀ (s : Memory × Shelf) (left : Nat) (result : Except ε α) (s' : Memory × Shelf),
    Runs act (s.1.failAfter left, s.2) result s' → s'.1.fault = none →
      (∃ e, result = .error e) ∧ (Reached s → result = .error told)

theorem reveals_of_reports {told : ε} {act : EStateM ε (Memory × Shelf) α}
    (reports : injection.onFirst.Reports told act)
    (tells : ∀ s linked, injection.onFirst.armed s → Steady s.1.clearFault s.2 linked →
      injection.onFirst.TellsFrom told s act) : Reveals told act := by
  intro s left result s' run hit
  have armed : injection.onFirst.armed (s.1.failAfter left, s.2) := Option.some_ne_none left
  refine ⟨reports.exists_error armed run fun waiting => waiting hit, fun reached => ?_⟩
  obtain ⟨linked, steady⟩ := reached.steady
  have same : (s.1.failAfter left).clearFault = s.1 := by
    rw [Memory.failAfter, Memory.clearFault, ← steady.quiet]
  rcases tells _ linked armed (same.symm ▸ steady) result s' run with spared | failed
  · exact absurd hit spared.1
  · exact failed

/-- No operation of a shelf hides a failure of its device. Whatever the device holds, with a quota or
without, whatever the shelf counts and wherever the failure was armed: an operation that it hits
fails. In states reached without failures it fails with just that failure. -/
theorem failures_are_revealed :
    (∀ settings, Reveals injected (Action.onFirst (τ := Shelf) (openOn settings))) ∧
    (∀ key bytes, Reveals injected (put key bytes)) ∧
    (∀ key, Reveals injected (get key)) ∧
    (∀ key, Reveals injected (openEntry key)) ∧
    Reveals injected reset ∧
    Reveals injected reconcile ∧
    (∀ key, Reveals injected (contains key)) ∧
    Reveals injected keys ∧
    Reveals (.failed injected) check := by
  refine ⟨fun settings => ?_, fun key bytes => ?_, fun key => ?_, fun key => ?_, ?_, ?_,
    fun key => ?_, ?_, ?_⟩
  · exact reveals_of_reports (reports_onFirst (reports_openOn settings)) fun s _ armed steady =>
      tellsFrom_onFirst (tellsFrom_openOn armed steady settings) s.2
  · exact reveals_of_reports (reports_put key bytes) fun _ _ armed steady =>
      tellsFrom_put armed steady key bytes
  · exact reveals_of_reports (reports_use key (Payloads.tells_read key)) fun _ _ armed steady =>
      tellsFrom_use armed steady (Payloads.tells_read key) (Payloads.respects_read key)
  · exact reveals_of_reports (reports_use key (Payloads.tells_openPayload key))
      fun _ _ armed steady => tellsFrom_use armed steady (Payloads.tells_openPayload key)
        (Payloads.respects_openPayload key)
  · exact reveals_of_reports reports_reset fun _ _ => tellsFrom_reset
  · exact reveals_of_reports reports_reconcile fun _ _ => tellsFrom_reconcile
  · exact reveals_of_reports (tells_contains key).reports fun s _ armed _ =>
      tells_contains key s armed
  · exact reveals_of_reports reports_keys fun _ _ => tellsFrom_keys
  · exact reveals_of_reports reports_check fun _ _ => tellsFrom_check

/-- The payload is read before the failure hits one of the patches that promote its key. -/
theorem failed_promotion_revealed :
    Reached twoStored ∧ ∃ s',
      Runs (get ⟨1⟩) (twoStored.1.failAfter 14, twoStored.2) (.error (.device .injected)) s' ∧
        s'.1.fault = none := by
  obtain ⟨result, run⟩ :=
    exists_runs (get ⟨1⟩ : Action (Memory × Shelf) Bytes) (twoStored.1.failAfter 14, twoStored.2)
  have hit : (stateAfter (get ⟨1⟩ : Action (Memory × Shelf) Bytes)
      (twoStored.1.failAfter 14, twoStored.2)).1.fault = none := by decide +kernel
  obtain ⟨-, told⟩ := failures_are_revealed.2.2.1 ⟨1⟩ twoStored 14 result _ run hit
  rw [told reached_twoStored] at run
  exact ⟨reached_twoStored, _, run, hit⟩

end GlyphShelf.Shelf

import GlyphShelf.Proofs.Benches
import GlyphShelf.Proofs.Shelf.Entries
import GlyphShelf.Proofs.Shelf.Readers

/-!
# Work with a shelf

Whoever works with a shelf calls it, opens entries, and reads on in them later, when other calls
have been made. A `Desk` has all of this: it is a bench at which there is a shelf beside the device,
and the open records are the entries that are open. Every step gives an answer, or the failure or
finding that it ended with.
-/

namespace GlyphShelf.Shelf

/-- A device with a shelf on it, and the entries of the shelf that are open, by number. -/
abbrev Desk (σ η : Type) := Bench (σ × Shelf) η

variable {σ η α : Type}

namespace Desk

def onShelf (act : Action (σ × Shelf) α) : Examination (Desk σ η) α :=
  Examination.ofAction (Action.onFirst act)

/-- Takes a shelf in place of the one before. -/
def take (shelf : Shelf) : Examination (Desk σ η) Unit :=
  fun ((s, _), entries) => .ok () ((s, shelf), entries)

/-- Works on the device and an open record, past the shelf. -/
def besideShelf (act : Action (σ × η) α) : Action ((σ × Shelf) × η) α :=
  fun ((s, shelf), record) =>
    match act (s, record) with
    | .ok a (s, record) => .ok a ((s, shelf), record)
    | .error e (s, record) => .error e ((s, shelf), record)

def onEntry (number : Nat) (act : Action (σ × η) Reply) : Examination (Desk σ η) Reply :=
  Examination.ofAction (Bench.onRecord .done number (besideShelf act))

variable [Device σ η]

def close (number : Nat) : Examination (Desk σ η) Unit :=
  Examination.ofAction (Bench.release number fun record => Action.onFirst (Device.close record))

def examine : Examination (Desk σ η) Reply := fun (site, entries) =>
  match (check : Examination (σ × Shelf) Unit) site with
  | .ok () site => .ok .done (site, entries)
  | .error breach site => .error breach (site, entries)

/-! ## Runs -/

variable {s s' : σ} {shelf : Shelf} {entries : Nat → Option η} {number : Nat} {record record' : η}

omit [Device σ η] in
theorem runs_onShelf {act : Action (σ × Shelf) α} {result : Except Failure α}
    {site site' : σ × Shelf} (run : Runs act site result site') :
    Runs (onShelf act) (site, entries) (result.mapError .failed) (site', entries) :=
  Examination.runs_ofAction_mapError (Action.runs_onFirst run entries)

omit [Device σ η] in
theorem runs_besideShelf {act : Action (σ × η) α} {result : Except Failure α}
    (run : Runs act (s, record) result (s', record')) (shelf : Shelf) :
    Runs (besideShelf act) ((s, shelf), record) result ((s', shelf), record') := by
  unfold Runs at run ⊢
  rw [besideShelf, run]
  cases result <;> rfl

omit [Device σ η] in
theorem runs_onEntry_of_none {act : Action (σ × η) Reply} (none : entries number = none) :
    Runs (onEntry number act) ((s, shelf), entries) (.ok .done) ((s, shelf), entries) :=
  Examination.runs_ofAction (Bench.runs_onRecord_of_none _ _ none)

omit [Device σ η] in
theorem runs_onEntry {act : Action (σ × η) Reply} {result : Except Failure Reply}
    (entry : entries number = some record) (run : Runs act (s, record) result (s', record')) :
    Runs (onEntry number act) ((s, shelf), entries) (result.mapError .failed)
      ((s', shelf), Function.update entries number (some record')) :=
  Examination.runs_ofAction_mapError (Bench.runs_onRecord _ entry (runs_besideShelf run shelf))

theorem runs_close_of_none (none : entries number = none) :
    Runs (close number) ((s, shelf), entries) (.ok ()) ((s, shelf), entries) :=
  Examination.runs_ofAction (Bench.runs_release_of_none _ none)

theorem runs_close {result : Except Failure Unit} (entry : entries number = some record)
    (run : Runs (Device.close record) s result s') :
    Runs (close number) ((s, shelf), entries) (result.mapError .failed)
      ((s', shelf), Function.update entries number none) :=
  Examination.runs_ofAction_mapError (Bench.runs_release entry (Action.runs_onFirst run shelf))

theorem runs_examine {site site' : σ × Shelf} {result : Except Breach Unit}
    (run : Runs (check : Examination (σ × Shelf) Unit) site result site') :
    Runs examine (site, entries) (result.map fun _ => .done) (site', entries) := by
  unfold Runs at run ⊢
  unfold examine
  dsimp only
  rw [run]
  cases result <;> rfl

end Desk

open Desk

variable [Device σ η]

/-- An operation with its answer. An entry that it opens is dropped. -/
def Operation.perform : Operation → Examination (Desk σ η) Reply
  | .put key bytes => do
    let size ← onShelf (Shelf.put key bytes)
    pure (.number size)
  | .get key => do
    let bytes ← onShelf (Shelf.get key)
    pure (.payload bytes)
  | .openEntry key => do
    let _ ← onShelf (Shelf.openEntry key)
    pure .done
  | .reset => do
    onShelf Shelf.reset
    pure .done
  | .reconcile => do
    let size ← onShelf Shelf.reconcile
    pure (.number size)
  | .contains key => do
    let yes ← onShelf (Shelf.contains key)
    pure (.answer yes)
  | .keys => do
    let keys ← onShelf Shelf.keys
    pure (.keys keys)
  | .check => examine
  | .reopen settings => do
    let shelf ← onShelf (Action.onFirst (openOn settings))
    take shelf
    pure .done

inductive Step
  | operate (operation : Operation)
  | size
  /-- Opens an entry, to be read later under a number. -/
  | openAs (number : Nat) (key : Key)
  | read (number count : Nat)
  | readExact (number count : Nat)
  | readToEnd (number : Nat)
  | seek (number pos : Nat)
  | length (number : Nat)
  | close (number : Nat)
deriving DecidableEq

namespace Step

def perform : Step → Examination (Desk σ η) Reply
  | operate operation => operation.perform
  | size => do
    let size ← onShelf Shelf.getSize
    pure (.number size)
  | openAs number key => do
    let record ← onShelf (Shelf.openEntry key)
    Examination.ofAction (Bench.keep number record)
    pure .done
  | read number count => onEntry number do
    let bytes ← Device.read count
    pure (.payload bytes)
  | readExact number count => onEntry number do
    let bytes ← Device.readExact count
    pure (.payload bytes)
  | readToEnd number => onEntry number do
    let bytes ← Device.readToEnd
    pure (.payload bytes)
  | seek number pos => onEntry number do
    Device.seek pos
    pure .done
  | length number => onEntry number do
    let size ← Bench.tellSize
    pure (.number size)
  | close number => do
    Desk.close number
    pure .done

def take (step : Step) (desk : Desk σ η) : Except Breach Reply × Desk σ η :=
  match (step.perform : Examination (Desk σ η) Reply) desk with
  | .ok reply desk => (.ok reply, desk)
  | .error breach desk => (.error breach, desk)

theorem take_snd (step : Step) (desk : Desk σ η) :
    (step.take desk).2 = stateAfter step.perform desk := by
  unfold take stateAfter
  split <;> rename_i ended <;> rw [ended]

theorem take_of_runs {step : Step} {desk desk' : Desk σ η} {answer : Except Breach Reply}
    (run : Runs step.perform desk answer desk') : step.take desk = (answer, desk') := by
  unfold Runs at run
  rw [take, run]
  cases answer <;> rfl

end Step

/-! ## What a step does to the shelf -/

omit [Device σ η] in
theorem stateAfter_onShelf (act : Action (σ × Shelf) α) (desk : Desk σ η) :
    stateAfter (onShelf act) desk = (stateAfter act desk.1, desk.2) := by
  obtain ⟨result, run⟩ := exists_runs act desk.1
  exact (runs_onShelf run).stateAfter_eq

theorem Operation.site_perform (operation : Operation) (desk : Desk σ η) :
    (stateAfter operation.perform desk).1 = operation.after desk.1 := by
  obtain ⟨site, entries⟩ := desk
  cases operation with
  | check =>
    obtain ⟨result, run⟩ := exists_runs (Shelf.check : Examination (σ × Shelf) Unit) site
    exact congrArg Prod.fst (runs_examine run).stateAfter_eq
  | reopen settings =>
    obtain ⟨result, run⟩ := exists_runs (openOn settings : Action σ Shelf) site.1
    have opening : Runs (onShelf (Action.onFirst (openOn settings))) (site, entries) _ _ :=
      runs_onShelf (Action.runs_onFirst run site.2)
    unfold after
    dsimp only
    cases result with
    | ok shelf =>
      have taking : Runs (perform (.reopen settings)) (site, entries) (.ok .done)
          ((stateAfter (openOn settings) site.1, shelf), entries) := opening.bind rfl
      rw [run.ok_eq, taking.stateAfter_eq]
    | error e =>
      have failing : Runs (perform (.reopen settings)) (site, entries) (.error (.failed e))
          ((stateAfter (openOn settings) site.1, site.2), entries) := opening.bind_error
      rw [run.error_eq, failing.stateAfter_eq]
  | _ =>
    unfold perform
    rw [stateAfter_bind_pure, stateAfter_onShelf]
    rfl

/-- The frame in which the shelf does not differ, and the device as the given one allows. -/
def shelfKept (frame : FrameCondition σ) : FrameCondition (σ × Shelf) where
  allows site site' := frame.allows site.1 site'.1 ∧ site'.2 = site.2
  refl site := ⟨frame.refl site.1, rfl⟩
  trans first second := ⟨frame.trans first.1 second.1, second.2.trans first.2⟩

section

variable {frame : FrameCondition σ}

omit [Device σ η] in
theorem respects_onEntry {act : Action (σ × η) Reply} (respects : Respects frame.onFirst act)
    (number : Nat) : Respects (shelfKept frame).onFirst (onEntry number act) := by
  refine respects_ofAction (Bench.respects_onRecord ?_ _ number)
  rintro ⟨⟨s, shelf⟩, record⟩
  obtain ⟨result, run⟩ := exists_runs act (s, record)
  rw [(runs_besideShelf run shelf).stateAfter_eq]
  exact ⟨respects (s, record), rfl⟩

theorem respects_closeEntry (closing : ∀ record : η, Respects frame (Device.close record))
    (number : Nat) :
    Respects (shelfKept frame).onFirst (Desk.close number : Examination (Desk σ η) Unit) := by
  refine respects_ofAction (Bench.respects_release (fun record => ?_) number)
  rintro ⟨s, shelf⟩
  rw [stateAfter_onFirst]
  exact ⟨closing record s, rfl⟩

end

namespace Step

def operation? : Step → Option Operation
  | operate operation => some operation
  | openAs _ key => some (.openEntry key)
  | _ => none

theorem site_of_operation {step : Step} {operation : Operation}
    (operates : step.operation? = some operation) (desk : Desk σ η) :
    (step.take desk).2.1 = operation.after desk.1 := by
  rw [take_snd]
  cases step with
  | operate performed =>
    cases operates
    exact operation.site_perform desk
  | openAs number key =>
    cases operates
    obtain ⟨site, entries⟩ := desk
    obtain ⟨result, run⟩ := exists_runs (Shelf.openEntry key : Action (σ × Shelf) η) site
    have opening : Runs (onShelf (Shelf.openEntry key)) (site, entries) _ _ := runs_onShelf run
    cases result with
    | ok record =>
      have keeping : Runs (perform (.openAs number key)) (site, entries) (.ok .done)
          (stateAfter (Shelf.openEntry key) site, Function.update entries number (some record)) :=
        opening.bind rfl
      exact congrArg Prod.fst keeping.stateAfter_eq
    | error e =>
      have failing : Runs (perform (.openAs number key)) (site, entries) (.error (.failed e))
          (stateAfter (Shelf.openEntry key) site, entries) := opening.bind_error
      exact congrArg Prod.fst failing.stateAfter_eq
  | _ => cases operates

/-- What is done with open entries is reading and closing, and is nothing to the shelf. -/
theorem respects_perform_of_reading {frame : FrameCondition σ}
    (reading : ∀ count, Respects frame.onFirst (Device.read count : Action (σ × η) Bytes))
    (seeking : ∀ pos, Respects frame.onFirst (Device.seek pos : Action (σ × η) Unit))
    (closing : ∀ record : η, Respects frame (Device.close record)) {step : Step}
    (other : step.operation? = none) :
    Respects (shelfKept frame).onFirst (step.perform : Examination (Desk σ η) Reply) := by
  cases step with
  | operate operation => cases other
  | openAs number key => cases other
  | size =>
    have telling : Respects (shelfKept frame).onFirst
        (onShelf getSize : Examination (Desk σ η) Nat) := by
      intro desk
      rw [stateAfter_onShelf]
      exact (shelfKept frame).refl desk.1
    exact telling.bind fun _ => .pure _
  | read number count => exact respects_onEntry ((reading count).bind fun _ => .pure _) number
  | readExact number count =>
    exact respects_onEntry ((Device.respects_readExact reading count).bind fun _ => .pure _) number
  | readToEnd number =>
    exact respects_onEntry ((Device.respects_readToEnd reading).bind fun _ => .pure _) number
  | seek number pos => exact respects_onEntry ((seeking pos).bind fun _ => .pure _) number
  | length number => exact respects_onEntry (Bench.respects_tellSize.bind fun _ => .pure _) number
  | close number => exact (respects_closeEntry closing number).bind fun _ => .pure _

end Step

end GlyphShelf.Shelf

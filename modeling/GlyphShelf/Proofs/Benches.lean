import Mathlib.Logic.Function.Basic
import GlyphShelf.Proofs.Frames

/-!
# Work with records

A bench is something to work at, such as a device, together with the records that are open, each
under a number. Whoever works at a device opens records in any way, any number of them and also the
same one several times, reads and writes through those that are open, and deletes and lists records
meanwhile. Every step gives a report or the failure that it ended with.
-/

namespace GlyphShelf

inductive Report
  | done
  | contents (bytes : Bytes)
  | number (n : Nat)
  | answer (yes : Bool)
  | names (names : List String)
deriving DecidableEq

/-- Reports say the same. The order in which names are listed says nothing. -/
def Report.Alike : Report → Report → Prop
  | .names listed, .names listed' => ∀ name, name ∈ listed ↔ name ∈ listed'
  | report, report' => report = report'

theorem Report.Alike.refl (report : Report) : report.Alike report := by
  cases report with
  | names listed => exact fun _ => .rfl
  | _ => rfl

/-- What someone works at, and the records that are open there, by number. -/
abbrev Bench (ρ η : Type) := ρ × (Nat → Option η)

namespace Bench

variable {ρ σ η α : Type} {records : Nat → Option η} {number : Nat} {idle : α}

/-- Keeps an open record under a number. One that was kept there is dropped. -/
def keep (number : Nat) (record : η) : Action (Bench ρ η) Unit :=
  fun (s, records) => .ok () (s, Function.update records number (some record))

/-- Works on the open record under a number. Where there is none nothing happens, and the answer is
`idle`. -/
def onRecord (idle : α) (number : Nat) (act : Action (ρ × η) α) : Action (Bench ρ η) α :=
  fun (s, records) =>
    match records number with
    | none => .ok idle (s, records)
    | some record =>
      match act (s, record) with
      | .ok a (s, record) => .ok a (s, Function.update records number (some record))
      | .error e (s, record) => .error e (s, Function.update records number (some record))

/-- Closes the open record under a number; it is gone also if that fails. -/
def release (number : Nat) (closing : η → Action ρ Unit) : Action (Bench ρ η) Unit :=
  fun (s, records) =>
    match records number with
    | none => .ok () (s, records)
    | some record =>
      match closing record s with
      | .ok () s => .ok () (s, Function.update records number none)
      | .error e s => .error e (s, Function.update records number none)

variable [Device σ η]

def tellSize : Action (σ × η) Nat := fun (s, record) =>
  .ok (Device.size s record) (s, record)

inductive Step
  /-- Opens a record, to be worked on later under a number. -/
  | openAs (number : Nat) (name : String) (access : Access)
  | read (number count : Nat)
  | readExact (number count : Nat)
  | readToEnd (number : Nat)
  | seek (number pos : Nat)
  | write (number : Nat) (bytes : Bytes)
  | size (number : Nat)
  | close (number : Nat)
  | delete (name : String)
  | hasRecord (name : String)
  | list

namespace Step

def perform : Step → Action (Bench σ η) Report
  | openAs number name access => do
    let record ← Action.onFirst (Device.openRecord name access)
    keep number record
    pure .done
  | read number count => onRecord .done number do
    let bytes ← Device.read count
    pure (.contents bytes)
  | readExact number count => onRecord .done number do
    let bytes ← Device.readExact count
    pure (.contents bytes)
  | readToEnd number => onRecord .done number do
    let bytes ← Device.readToEnd
    pure (.contents bytes)
  | seek number pos => onRecord .done number do
    Device.seek pos
    pure .done
  | write number bytes => onRecord .done number do
    Device.write bytes
    pure .done
  | size number => onRecord .done number do
    let size ← tellSize
    pure (.number size)
  | close number => do
    release number Device.close
    pure .done
  | delete name => do
    Action.onFirst (Device.delete name)
    pure .done
  | hasRecord name => do
    let yes ← Action.onFirst (Device.hasRecord name)
    pure (.answer yes)
  | list => do
    let names ← Action.onFirst Device.list
    pure (.names names)

/-- The answer of a step, and the bench afterwards, also after a failure. -/
def take (step : Step) (bench : Bench σ η) : Except Failure Report × Bench σ η :=
  Action.step step.perform bench

end Step

def atStart (s : σ) : Bench σ η := (s, fun _ => none)

/-! ## Runs -/

section

variable {s s' : ρ} {record record' : η}

theorem runs_onRecord_of_none (idle : α) (act : Action (ρ × η) α) (none : records number = none) :
    Runs (onRecord idle number act) (s, records) (.ok idle) (s, records) := by
  unfold Runs onRecord
  dsimp only
  rw [none]

theorem runs_onRecord (idle : α) {act : Action (ρ × η) α} {result : Except Failure α}
    (kept : records number = some record) (run : Runs act (s, record) result (s', record')) :
    Runs (onRecord idle number act) (s, records) result
      (s', Function.update records number (some record')) := by
  unfold Runs at run ⊢
  unfold onRecord
  dsimp only
  rw [kept]
  dsimp only
  rw [run]
  cases result <;> rfl

theorem runs_release_of_none (closing : η → Action ρ Unit) (none : records number = none) :
    Runs (release number closing) (s, records) (.ok ()) (s, records) := by
  unfold Runs release
  dsimp only
  rw [none]

theorem runs_release {closing : η → Action ρ Unit} {result : Except Failure Unit}
    (kept : records number = some record) (run : Runs (closing record) s result s') :
    Runs (release number closing) (s, records) result
      (s', Function.update records number none) := by
  unfold Runs at run ⊢
  unfold release
  dsimp only
  rw [kept]
  dsimp only
  rw [run]
  cases result <;> rfl

/-! ## What is kept -/

variable {frame : FrameCondition ρ}

theorem respects_onRecord {act : Action (ρ × η) α} (respects : Respects frame.onFirst act)
    (idle : α) (number : Nat) : Respects frame.onFirst (onRecord idle number act) := by
  rintro ⟨s, records⟩
  cases kept : records number with
  | none =>
    rw [(runs_onRecord_of_none idle act kept).stateAfter_eq]
    exact frame.refl s
  | some record =>
    obtain ⟨result, run⟩ := exists_runs act (s, record)
    rw [(runs_onRecord idle kept run).stateAfter_eq]
    exact respects (s, record)

theorem respects_release {closing : η → Action ρ Unit}
    (respects : ∀ record, Respects frame (closing record)) (number : Nat) :
    Respects frame.onFirst (release number closing) := by
  rintro ⟨s, records⟩
  cases kept : records number with
  | none =>
    rw [(runs_release_of_none closing kept).stateAfter_eq]
    exact frame.refl s
  | some record =>
    obtain ⟨result, run⟩ := exists_runs (closing record) s
    rw [(runs_release kept run).stateAfter_eq]
    exact respects record s

end

variable {s s' : σ} {record record' : η}

theorem runs_tellSize (s : σ) (record : η) :
    Runs tellSize (s, record) (.ok (Device.size s record)) (s, record) := rfl

theorem respects_tellSize {frame : FrameCondition σ} :
    Respects frame.onFirst (tellSize : Action (σ × η) Nat) :=
  fun s => frame.refl s.1

namespace Step

theorem take_write {bytes : Bytes} {result : Except Failure Unit}
    (kept : records number = some record)
    (run : Runs (Device.write bytes) (s, record) result (s', record')) :
    (write number bytes).take (s, records) =
      (result.map fun _ => Report.done, (s', Function.update records number (some record'))) :=
  (runs_onRecord Report.done kept (run.bind_pure fun _ => Report.done)).step_eq

/-- A write at a bench is one to the open record under its number, if there is one. -/
theorem take_write_cases (number : Nat) (bytes : Bytes) (s : σ) (records : Nat → Option η) :
    records number = none ∧ (write number bytes).take (s, records) = (.ok .done, (s, records)) ∨
    ∃ record result s' record', records number = some record ∧
      Runs (Device.write bytes) (s, record) result (s', record') ∧
      (write number bytes).take (s, records) =
        (result.map fun _ => Report.done, (s', Function.update records number (some record'))) := by
  cases kept : records number with
  | none => exact .inl ⟨rfl, (runs_onRecord_of_none _ _ kept).step_eq⟩
  | some record =>
    obtain ⟨result, run⟩ := exists_runs (Device.write bytes : Action (σ × η) Unit) (s, record)
    exact .inr ⟨record, result, _, _, rfl, run, take_write kept run⟩

theorem take_size (kept : records number = some record) :
    (size number).take (s, records) =
      (.ok (.number (Device.size s record)), (s, Function.update records number (some record))) :=
  (runs_onRecord Report.done kept ((runs_tellSize s record).bind_pure Report.number)).step_eq

end Step

end Bench

end GlyphShelf

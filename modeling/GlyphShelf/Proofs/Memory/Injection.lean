import GlyphShelf.Device.Memory
import GlyphShelf.Proofs.Reporting

/-!
# The armed failure

The failure that is armed on a device in memory is a trap. Every single operation tells of it: it
is the first thing that an operation looks at, and nothing else that an operation does depends on
it.
-/

namespace GlyphShelf.Memory

variable {α : Type}

/-- What an operation reports that was armed to fail. -/
abbrev injected : Failure := .device .injected

def injection : Trap Memory where
  armed m := m.fault ≠ none
  disarm := clearFault

theorem injected_ne_notFound : injected ≠ .notFound := nofun

theorem tells_tick : injection.Tells injected tick := by
  intro m armed result m' run
  unfold Runs tick at run
  cases waiting : m.fault with
  | none => exact absurd waiting armed
  | some left =>
    rw [waiting] at run
    cases left with
    | zero =>
      cases result with
      | ok a => cases run
      | error e =>
        cases run
        exact .inr rfl
    | succ left =>
      cases result with
      | ok a =>
        cases run
        exact .inl ⟨Option.some_ne_none left, rfl⟩
      | error e => cases run

theorem tells_close (handle : Handle) :
    injection.Tells injected (Device.close handle : Action Memory Unit) := tells_tick

/-- After looking at the armed failure an operation goes on as if there were none. -/
theorem tells_tick_bind {next : Action Memory α}
    (blind : ∀ m result m', Runs next m result m' →
      m'.fault = m.fault ∧ Runs next m.clearFault result m'.clearFault) :
    injection.Tells injected (do tick; next) := by
  refine tells_tick.bind fun _ m armed result m' run => ?_
  obtain ⟨same, free⟩ := blind m result m' run
  exact .inl ⟨fun gone => armed (same ▸ gone), free⟩

theorem tells_onFirst_tick_bind {next : Action (Memory × Handle) α}
    (blind : ∀ m handle result m' handle', Runs next (m, handle) result (m', handle') →
      m'.fault = m.fault ∧ Runs next (m.clearFault, handle) result (m'.clearFault, handle')) :
    injection.onFirst.Tells injected (do Action.onFirst tick; next) := by
  refine (tells_onFirst tells_tick).bind fun _ s armed result s' run => ?_
  obtain ⟨same, free⟩ := blind s.1 s.2 result s'.1 s'.2 run
  exact .inl ⟨fun gone => armed (same ▸ gone), free⟩

theorem tells_list : injection.Tells injected (Device.list : Action Memory (List String)) := by
  apply tells_tick_bind
  intro m result m' run
  cases result with
  | ok names =>
    cases run
    exact ⟨rfl, rfl⟩
  | error e => cases run

theorem tells_openRecord (name : String) (access : Access) :
    injection.Tells injected (Device.openRecord name access : Action Memory Handle) := by
  apply tells_tick_bind
  intro m result m' run
  dsimp only [Runs, clearFault] at run ⊢
  cases found : m.cabinet.ref? name with
  | some ref =>
    rw [found] at run
    by_cases emptied : access = .truncate
    · simp only [if_pos emptied] at run ⊢
      cases result <;> cases run
      exact ⟨rfl, rfl⟩
    · simp only [if_neg emptied] at run ⊢
      cases result <;> cases run
      exact ⟨rfl, rfl⟩
  | none =>
    rw [found] at run
    by_cases created : access.creates = true
    · simp only [if_pos created] at run ⊢
      cases result <;> cases run
      exact ⟨rfl, rfl⟩
    · simp only [if_neg created] at run ⊢
      cases result <;> cases run
      exact ⟨rfl, rfl⟩

theorem tells_read (count : Nat) :
    injection.onFirst.Tells injected (Device.read count : Action (Memory × Handle) Bytes) := by
  apply tells_onFirst_tick_bind
  intro m handle result m' handle' run
  cases result <;> cases run
  exact ⟨rfl, rfl⟩

theorem tells_seek (pos : Nat) :
    injection.onFirst.Tells injected (Device.seek pos : Action (Memory × Handle) Unit) := by
  apply tells_onFirst_tick_bind
  intro m handle result m' handle' run
  cases result <;> cases run
  exact ⟨rfl, rfl⟩

theorem tells_write (bytes : Bytes) :
    injection.onFirst.Tells injected (Device.write bytes : Action (Memory × Handle) Unit) := by
  apply tells_onFirst_tick_bind
  rintro m handle result m' handle' run
  have blind : m.clearFault.afterOverrun handle bytes =
      (m.afterOverrun handle bytes).clearFault := by
    unfold afterOverrun
    dsimp only
    split <;> rfl
  have same : (m.afterOverrun handle bytes).fault = m.fault := by
    unfold afterOverrun
    dsimp only
    split <;> rfl
  dsimp only [Runs] at run ⊢
  split at run <;> rename_i writable
  · split at run <;> rename_i place
    · split at run <;> rename_i late <;> cases result <;> cases run
      · refine ⟨same, (if_pos writable).trans ((if_pos place).trans ?_)⟩
        rw [blind]
        exact if_pos late
      · refine ⟨rfl, (if_pos writable).trans ((if_pos place).trans ?_)⟩
        rw [blind]
        exact if_neg late
    · split at run <;> rename_i room <;> cases result <;> cases run
      · exact ⟨rfl, (if_pos writable).trans ((if_neg place).trans (if_pos room))⟩
      · exact ⟨rfl, (if_pos writable).trans ((if_neg place).trans (if_neg room))⟩
  · cases result <;> cases run
    exact ⟨rfl, if_neg writable⟩

theorem tells_delete (name : String) :
    injection.Tells injected (Device.delete name : Action Memory Unit) := by
  apply tells_tick_bind
  intro m result m' run
  dsimp only [Runs, clearFault] at run ⊢
  cases found : m.cabinet.contents? name with
  | some contents =>
    rw [found] at run
    cases result <;> cases run
    exact ⟨rfl, rfl⟩
  | none =>
    rw [found] at run
    cases result <;> cases run
    exact ⟨rfl, rfl⟩

/-! ## Whole records -/

theorem tells_hasRecord (name : String) :
    injection.Tells injected (Device.hasRecord name : Action Memory Bool) :=
  Device.tells_hasRecord injected_ne_notFound (tells_openRecord name .readOnly) tells_close

theorem reports_withRecord {work : Action (Memory × Handle) α} (name : String) (access : Access)
    (working : injection.onFirst.Reports injected work) :
    injection.Reports injected (Device.withRecord name access work) :=
  Device.reports_withRecord (tells_openRecord name access) working tells_close

theorem tells_takeAll (handle : Handle) :
    injection.Tells injected (Device.takeAll handle : Action Memory Bytes) :=
  Device.tells_takeAll handle (Device.tells_readToEnd (fun _ _ => rfl) tells_read) tells_close

theorem tells_discard (name : String) :
    injection.Tells injected (Action.allowAbsence (Device.delete name) : Action Memory Unit) :=
  tells_allowAbsence injected_ne_notFound (tells_delete name)

end GlyphShelf.Memory

import GlyphShelf.Proofs.Frames
import GlyphShelf.Proofs.Memory.Operations

/-!
# Successes within limits

A quota and an armed failure make operations fail that would succeed without them, and do
nothing else. So an action that succeeds on a device with limits succeeds on the device without
them too, with the same value and the same records. Whatever is known of actions on devices
without limits is thereby known of every success.
-/

namespace GlyphShelf

variable {ε σ τ α β : Type}

/-- Every success is one from the freed state too, and leads to the freed state after it. -/
def Carries (free : σ → σ) (act : EStateM ε σ α) : Prop :=
  ∀ s a s', Runs act s (.ok a) s' → Runs act (free s) (.ok a) (free s')

namespace Carries

variable {free : σ → σ} {act : EStateM ε σ α} {next : α → EStateM ε σ β}

theorem pure (a : α) : Carries free (Pure.pure a : EStateM ε σ α) := by
  intro s a' s' run
  obtain ⟨same, rfl⟩ := run.deterministic (.pure a s)
  rw [same]
  exact .pure a _

theorem bind (first : Carries free act) (rest : ∀ a, Carries free (next a)) :
    Carries free (act >>= next) := by
  intro s b s' run
  obtain ⟨a, s₁, begun, ended⟩ := run.bind_ok
  exact (first s a s₁ begun).bind (rest a s₁ b s' ended)

theorem ite {condition : Prop} [Decidable condition] {act' : EStateM ε σ α}
    (positive : Carries free act) (negative : Carries free act') :
    Carries free (if condition then act else act') := by
  split
  · exact positive
  · exact negative

theorem ofExcept (result : Except Failure α) : Carries free (Action.ofExcept result) := by
  intro s a s' run
  obtain ⟨same, rfl⟩ := run.deterministic (Action.runs_ofExcept result s)
  rw [← same]
  exact Action.runs_ofExcept _ _

theorem onFirst {act : Action σ α} (carries : Carries free act) :
    Carries (Prod.map free id) (Action.onFirst (τ := τ) act) := by
  rintro ⟨s, t⟩ a ⟨s', t'⟩ run
  obtain ⟨first, same⟩ := run.of_onFirst
  obtain rfl : t' = t := same
  exact Action.runs_onFirst (carries s a s' first) t'

end Carries

theorem Action.allowAbsence_cases {act : Action σ Unit} {s s' : σ} {a : Unit}
    (run : Runs (Action.allowAbsence act) s (.ok a) s') :
    Runs act s (.ok ()) s' ∨ Runs act s (.error .notFound) s' := by
  unfold Runs Action.allowAbsence at run
  split at run
  · rename_i acting
    cases run
    exact .inl acting
  · rename_i acting
    cases run
    exact .inr acting
  · cases run

namespace Device

variable {η : Type} [Device σ η] {name : String} {access : Access} {work : Action (σ × η) α}
variable {s s' : σ} {a : α}

theorem withRecord_cases (run : Runs (withRecord name access work) s (.ok a) s') :
    ∃ opened s₁ record s₂, Runs (openRecord name access) s (.ok opened) s₁ ∧
      Runs work (s₁, opened) (.ok a) (s₂, record) ∧ Runs (close record) s₂ (.ok ()) s' := by
  unfold Runs withRecord at run
  split at run
  · cases run
  · rename_i opened s₁ opening
    split at run
    · rename_i a' s₂ record working
      split at run
      · rename_i closing
        cases run
        exact ⟨opened, s₁, record, s₂, opening, working, closing⟩
      · cases run
    · split at run <;> cases run

theorem takeAll_cases {opened : η} {bytes : Bytes} (run : Runs (takeAll opened) s (.ok bytes) s') :
    ∃ s₁ record, Runs readToEnd (s, opened) (.ok bytes) (s₁, record) ∧
      Runs (close record) s₁ (.ok ()) s' := by
  unfold Runs takeAll at run
  split at run
  · cases run
  · rename_i bytes' s₁ record reading
    split at run
    · rename_i closing
      cases run
      exact ⟨s₁, record, reading, closing⟩
    · cases run

end Device

namespace Memory

variable {name : String} {access : Access} {m m' : Memory} {α : Type}

def unbound (m : Memory) : Memory := { m with quota := none, fault := none }

theorem carries_tick : Carries unbound tick := by
  intro m a m' run
  unfold Runs tick at *
  cases armed : m.fault with
  | none =>
    rw [armed] at run
    cases run
    rfl
  | some left =>
    rw [armed] at run
    cases left with
    | zero => cases run
    | succ left =>
      cases run
      rfl

theorem carries_close (handle : Handle) :
    Carries unbound (Device.close handle : Action Memory Unit) := carries_tick

theorem carries_list : Carries unbound (Device.list : Action Memory (List String)) := by
  refine carries_tick.bind fun _ m names m' run => ?_
  cases run
  rfl

theorem carries_openRecord (name : String) (access : Access) :
    Carries unbound (Device.openRecord name access : Action Memory Handle) := by
  refine carries_tick.bind fun _ m handle m' run => ?_
  dsimp only [Runs, unbound] at run ⊢
  cases found : m.cabinet.ref? name with
  | some ref =>
    rw [found] at run
    by_cases emptied : access = .truncate
    · simp only [if_pos emptied] at run ⊢
      cases run
      rfl
    · simp only [if_neg emptied] at run ⊢
      cases run
      rfl
  | none =>
    rw [found] at run
    by_cases created : access.creates = true
    · simp only [if_pos created] at run ⊢
      cases run
      rfl
    · simp only [if_neg created] at run
      cases run

theorem carries_read (count : Nat) :
    Carries (Prod.map unbound id) (Device.read count : Action (Memory × Handle) Bytes) := by
  refine carries_tick.onFirst.bind fun _ s bytes s' run => ?_
  cases run
  rfl

theorem carries_seek (pos : Nat) :
    Carries (Prod.map unbound id) (Device.seek pos : Action (Memory × Handle) Unit) := by
  refine carries_tick.onFirst.bind fun _ s a s' run => ?_
  cases run
  rfl

theorem carries_write (bytes : Bytes) :
    Carries (Prod.map unbound id) (Device.write bytes : Action (Memory × Handle) Unit) := by
  rintro ⟨m, handle⟩ a ⟨m', handle'⟩ run
  cases written_of_write run with
  | done writable inside =>
    exact runs_write_of_admitted (m := m.unbound) (allows_of_none rfl 1) writable inside (.inr rfl)

/-- Finding nothing to delete is no matter of limits. -/
theorem runs_delete_unbound (absent : Runs (Device.delete name) m (.error .notFound) m') :
    Runs (Device.delete name) m.unbound (.error .notFound) m'.unbound := by
  rcases absent.bind_cases with ⟨_, m₁, ticking, missing⟩ | ⟨e, ticking, failed⟩
  · refine (carries_tick m () m₁ ticking).bind ?_
    dsimp only [Runs, unbound] at missing ⊢
    cases found : m₁.cabinet.contents? name with
    | some contents =>
      rw [found] at missing
      cases missing
    | none =>
      rw [found] at missing
      cases missing
      rfl
  · cases failed
    unfold Runs tick at ticking
    split at ticking <;> cases ticking

theorem carries_delete (name : String) :
    Carries unbound (Device.delete name : Action Memory Unit) := by
  refine carries_tick.bind fun _ m a m' run => ?_
  dsimp only [Runs, unbound] at run ⊢
  cases found : m.cabinet.contents? name with
  | some contents =>
    rw [found] at run
    cases run
    rfl
  | none =>
    rw [found] at run
    cases run

theorem carries_discard (name : String) :
    Carries unbound (Action.allowAbsence (Device.delete name) : Action Memory Unit) := by
  intro m a m' run
  rcases Action.allowAbsence_cases run with deleted | absent
  · exact Action.runs_allowAbsence (carries_delete name m () m' deleted)
  · exact Action.runs_allowAbsence_of_absent (runs_delete_unbound absent)

/-! ## Whole records -/

theorem carries_withRecord {work : Action (Memory × Handle) α} (name : String) (access : Access)
    (working : Carries (Prod.map unbound id) work) :
    Carries unbound (Device.withRecord name access work) := by
  intro m a m' run
  obtain ⟨opened, m₁, record, m₂, opening, worked, closing⟩ := Device.withRecord_cases run
  exact Device.runs_withRecord_of_closed (carries_openRecord name access m opened m₁ opening)
    (working _ a _ worked) (carries_close record m₂ () m' closing)

theorem carries_readChunks (reads : Nat) (chunks : List Bytes) :
    Carries (Prod.map unbound id)
      (Device.readChunks reads chunks : Action (Memory × Handle) Bytes) := by
  induction reads generalizing chunks with
  | zero => exact .pure _
  | succ reads ih =>
    unfold Device.readChunks
    exact (carries_read _).bind fun chunk => .ite (.pure _) (ih _)

theorem carries_takeAll (handle : Handle) :
    Carries unbound (Device.takeAll handle : Action Memory Bytes) := by
  intro m bytes m' run
  obtain ⟨m₁, record, reading, closing⟩ := Device.takeAll_cases run
  exact Device.runs_takeAll (carries_readChunks (Device.size m handle + 1) [] _ bytes _ reading)
    (carries_close record m₁ () m' closing)

end Memory

end GlyphShelf

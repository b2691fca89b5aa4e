import Mathlib.Data.Set.Basic
import GlyphShelf.Proofs.Frames
import GlyphShelf.Proofs.Memory.Operations

/-!
# What operations of the memory device leave alone

`Within names` says that nothing but the records of the given names may differ. Every operation
stays within the name it was given, also if it fails and whatever handles are open: a handle
writes to the record it was opened for, under that name or, once the name is gone, under none.
So a record that is opened, worked on and closed is the only one that changes, and none changes
if it was opened for reading.
-/

namespace GlyphShelf.Memory

variable {names names' : Set String} {m m₁ m₂ : Memory} {name : String} {access : Access}
variable {handle : Handle} {α : Type}

/-- Nothing but the records of the given names differs, and no limit is added: the quota is the
same, and no failure is armed that was not armed before. -/
structure Within (names : Set String) (m m' : Memory) : Prop where
  quota : m'.quota = m.quota
  quiet : m.fault = none → m'.fault = none
  get? : ∀ name, name ∉ names → m'.get? name = m.get? name

theorem Within.refl (names : Set String) (m : Memory) : Within names m m where
  quota := rfl
  quiet := id
  get? _ _ := rfl

theorem Within.trans (first : Within names m m₁) (second : Within names m₁ m₂) :
    Within names m m₂ where
  quota := second.quota.trans first.quota
  quiet := second.quiet ∘ first.quiet
  get? name other := (second.get? name other).trans (first.get? name other)

theorem Within.mono (within : Within names m m₁) (more : names ⊆ names') :
    Within names' m m₁ where
  quota := within.quota
  quiet := within.quiet
  get? name other := within.get? name fun member => other (more member)

theorem within_of_sets {count : Nat} {value : Option Bytes} (sets : m.Sets count name value m₁) :
    Within {name} m m₁ where
  quota := sets.quota
  quiet := sets.fault_eq_none
  get? other differs := by
    rw [sets.get?, Function.update_of_ne differs]

def within (names : Set String) : FrameCondition Memory where
  allows := Within names
  refl := Within.refl names
  trans := Within.trans

/-- Staying within fewer names is staying within more. -/
theorem respects_mono {act : EStateM Failure Memory α} (respects : Respects (within names) act)
    (more : names ⊆ names') : Respects (within names') act :=
  respects.mono fun _ _ within => within.mono more

/-- Outside of the given names, records are as they were or gone; no limit is added. -/
structure Sheds (free : Set String) (m m' : Memory) : Prop where
  quota : m'.quota = m.quota
  quiet : m.fault = none → m'.fault = none
  get? : ∀ name, name ∉ free → m'.get? name = m.get? name ∨ m'.get? name = none

theorem Within.sheds (within : Within names m m₁) : Sheds names m m₁ where
  quota := within.quota
  quiet := within.quiet
  get? name other := .inl (within.get? name other)

theorem Sheds.trans (first : Sheds names m m₁) (second : Sheds names m₁ m₂) :
    Sheds names m m₂ where
  quota := second.quota.trans first.quota
  quiet := second.quiet ∘ first.quiet
  get? name other := by
    rcases second.get? name other with same | gone
    · rw [same]
      exact first.get? name other
    · exact .inr gone

theorem Sheds.mono (sheds : Sheds names m m₁) (more : names ⊆ names') : Sheds names' m m₁ where
  quota := sheds.quota
  quiet := sheds.quiet
  get? name other := sheds.get? name fun member => other (more member)

/-- The frame in which records may go, and those of the given names may differ in any way. -/
def shedding (free : Set String) : FrameCondition Memory where
  allows := Sheds free
  refl m := (Within.refl free m).sheds
  trans := Sheds.trans

theorem respects_shedding {act : EStateM Failure Memory α}
    (respects : Respects (within names) act) :
    Respects (shedding names) act :=
  respects.mono fun _ _ within => within.sheds

/-- The record that an access may change. -/
def changed (access : Access) (name : String) : Set String :=
  {other | access.writes = true ∧ other = name}

theorem changed_readOnly (name : String) : changed .readOnly name = ∅ := by
  ext other
  simp [changed, Access.writes]

theorem changed_subset (access : Access) (name : String) : changed access name ⊆ {name} :=
  fun _ member => member.2

def Handle.changed (handle : Handle) : Set String :=
  {name | handle.writable = true ∧ name = handle.ref.name}

/-- The frame for work on an open record, which stays open for that record. -/
def ownRecord : FrameCondition (Memory × Handle) where
  allows s s' :=
    s'.2.ref = s.2.ref ∧ s'.2.writable = s.2.writable ∧ Within s.2.changed s.1 s'.1
  refl s := ⟨rfl, rfl, .refl _ s.1⟩
  trans := by
    rintro s₁ s₂ s₃ ⟨ref, writable, first⟩ ⟨ref', writable', second⟩
    refine ⟨ref'.trans ref, writable'.trans writable, first.trans ?_⟩
    have same : s₂.2.changed = s₁.2.changed := by rw [Handle.changed, ref, writable, Handle.changed]
    rwa [same] at second

/-! ## Single operations -/

theorem respects_tick : Respects (within names) tick := by
  intro m
  unfold stateAfter tick
  cases armed : m.fault with
  | none => exact ⟨rfl, fun _ => rfl, fun _ _ => rfl⟩
  | some left => cases left <;> exact ⟨rfl, fun quiet => by simp [armed] at quiet, fun _ _ => rfl⟩

theorem respects_close (handle : Handle) :
    Respects (within names) (Device.close handle : Action Memory Unit) := respects_tick

theorem respects_list : Respects (within names) (Device.list : Action Memory (List String)) :=
  respects_tick.bind fun _ m => .refl names m

theorem respects_openRecord (name : String) (access : Access) :
    Respects (within (changed access name))
      (Device.openRecord name access : Action Memory Handle) := by
  refine respects_tick.bind fun _ m => ?_
  dsimp only [stateAfter]
  cases found : m.cabinet.ref? name with
  | some ref =>
    by_cases emptied : access = .truncate
    · subst emptied
      refine ⟨rfl, id, fun other differs => ?_⟩
      have away : name ≠ other := fun same => differs ⟨rfl, same.symm⟩
      exact (Cabinet.get?_write_of_ref? found _ _).trans (if_neg away)
    · dsimp only
      rw [if_neg emptied]
      exact .refl _ m
  | none =>
    by_cases created : access.creates = true
    · dsimp only
      rw [if_pos created]
      refine ⟨rfl, id, fun other differs => ?_⟩
      have writes : access.writes = true := by cases access <;> first | rfl | cases created
      have away : name ≠ other := fun same => differs ⟨writes, same.symm⟩
      exact (Cabinet.get?_create _ _ _ _).trans (if_neg away)
    · dsimp only
      rw [if_neg created]
      exact .refl _ m

/-- An open record refers to the name it was opened by, and accepts writes as asked. -/
theorem handle_of_openRecord
    (run : Runs (Device.openRecord name access) m (.ok handle) m₁) :
    handle.ref.name = name ∧ handle.writable = access.writes := by
  obtain ⟨_, s, -, opening⟩ := run.bind_ok
  unfold Runs at opening
  cases found : s.cabinet.ref? name with
  | some ref =>
    have named : ref.name = name := by
      obtain ⟨stored, -, rfl⟩ := Option.map_eq_some_iff.1 found
      rfl
    by_cases emptied : access = .truncate <;> simp [found, emptied] at opening <;>
      simp [← opening.1, named, emptied]
  | none =>
    by_cases created : access.creates = true <;> simp [found, created] at opening
    simp [← opening.1]

theorem respects_onFirst_tick : Respects ownRecord (Action.onFirst tick) := by
  rintro ⟨m, handle⟩
  rw [stateAfter_onFirst]
  exact ⟨rfl, rfl, respects_tick m⟩

theorem respects_seek (pos : Nat) :
    Respects ownRecord (Device.seek pos : Action (Memory × Handle) Unit) :=
  .bind respects_onFirst_tick fun _ s => ⟨rfl, rfl, .refl _ s.1⟩

/-- Writing through a reference leaves every name alone but its own. -/
theorem get?_write_of_ne (cabinet : Cabinet String) {ref : Cabinet.Ref String} {other : String}
    (differs : ref.name ≠ other) (contents : Contents) :
    (cabinet.write ref contents).get? other = cabinet.get? other := by
  unfold Cabinet.write
  split
  · split
    · simp [Cabinet.get?, Cabinet.contents?, Std.TreeMap.getElem?_insert, differs]
    · rfl
  · rfl

theorem within_of_afterOverrun (writable : handle.writable = true) (bytes : Bytes) :
    Within handle.changed m (m.afterOverrun handle bytes) := by
  rcases m.afterOverrun_cases handle bytes with ⟨-, after⟩ | ⟨-, after⟩ <;> rw [after]
  · exact ⟨rfl, id, fun _ _ => rfl⟩
  · exact ⟨rfl, id, fun other differs =>
      get?_write_of_ne _ (fun same => differs ⟨writable, same.symm⟩) _⟩

theorem respects_write (bytes : Bytes) :
    Respects ownRecord (Device.write bytes : Action (Memory × Handle) Unit) := by
  refine .of_runs fun {s result s'} run => ?_
  obtain ⟨m, handle⟩ := s
  obtain ⟨m', handle'⟩ := s'
  have counted (m : Memory) : Within handle.changed m (m.spend 1) :=
    ⟨rfl, (fault_spend · 1), fun _ _ => rfl⟩
  cases written_of_write run with
  | due => exact ⟨rfl, rfl, rfl, fun _ => rfl, fun _ _ => rfl⟩
  | refused => exact ⟨rfl, rfl, counted m⟩
  | full => exact ⟨rfl, rfl, counted m⟩
  | halted writable =>
    exact ⟨rfl, rfl, (within_of_afterOverrun writable bytes).trans (counted _)⟩
  | done writable =>
    refine ⟨rfl, rfl, rfl, (fault_spend · 1), fun other differs => ?_⟩
    exact get?_write_of_ne _ (fun same => differs ⟨writable, same.symm⟩) _

theorem respects_delete (name : String) :
    Respects (within {name}) (Device.delete name : Action Memory Unit) := by
  refine respects_tick.bind fun _ m => ?_
  dsimp only [stateAfter]
  cases found : m.cabinet.contents? name with
  | some contents =>
    refine ⟨rfl, id, fun other differs => ?_⟩
    have away : name ≠ other := fun same => differs same.symm
    exact (Cabinet.get?_remove _ _ _).trans (if_neg away)
  | none => exact .refl _ m

/-- Deleting leaves nothing half-way. -/
theorem respects_delete_shedding (name : String) :
    Respects (shedding names) (Device.delete name : Action Memory Unit) := by
  refine (respects_shedding respects_tick).bind fun _ m => ?_
  dsimp only [stateAfter]
  cases found : m.cabinet.contents? name with
  | some contents =>
    refine ⟨rfl, id, fun other _ => ?_⟩
    dsimp only [Memory.get?]
    rw [Cabinet.get?_remove]
    split
    · exact .inr rfl
    · exact .inl rfl
  | none => exact (shedding names).refl m

/-! ## Whole records -/

/-- A record that is opened, worked on and closed is the only one that may change, and it may
change only if it was opened for writing. -/
theorem respects_withRecord {work : Action (Memory × Handle) α} (name : String) (access : Access)
    (working : Respects ownRecord work) :
    Respects (within (changed access name)) (Device.withRecord name access work) := by
  refine Device.respects_withRecord (respects_openRecord name access) ?_ respects_close
  intro s handle s₁ opened
  obtain ⟨named, writable⟩ := handle_of_openRecord opened
  have own : handle.changed = changed access name := by
    rw [Handle.changed, named, writable, changed]
  rw [← own]
  exact (working (s₁, handle)).2.2

theorem respects_hasRecord (name : String) :
    Respects (within names) (Device.hasRecord name : Action Memory Bool) := by
  have opening := respects_openRecord name .readOnly
  rw [changed_readOnly] at opening
  exact Device.respects_hasRecord (respects_mono opening (Set.empty_subset names)) respects_close

theorem respects_takeAll (handle : Handle) :
    Respects (within names) (Device.takeAll handle : Action Memory Bytes) := by
  refine Device.respects_takeAll handle (fun count => ?_) respects_close
  exact .bind (respects_onFirst respects_tick) fun _ s => .refl names s.1

end GlyphShelf.Memory

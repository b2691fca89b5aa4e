import GlyphShelf.Proofs.Archives
import GlyphShelf.Proofs.Memory.Operations

/-!
# The cabinet of the device in memory

The device in memory keeps every record under its own name. Each operation counts itself first,
and may fail then; what it does to the cabinet comes after that. A quota can only refuse a write,
which then changes nothing.
-/

namespace GlyphShelf.Memory

variable {m m₁ m' : Memory} {access : Access} {name : RecordName} {text : String} {bytes : Bytes}
variable {handle handle' : Handle} {c : Cabinet String} {α : Type}

def archive : Archive Memory Handle String where
  cabinet m := m.cabinet
  place _ name := some name.text
  target handle := some handle.ref
  position handle := handle.pos
  Healthy m := m.fault = none
  Reaches _ := True

theorem becomes_of (cabinet : m'.cabinet = c) (quiet : m.fault = none → m'.fault = none) :
    archive.Becomes m m' c :=
  ⟨cabinet, rfl, quiet⟩

/-! ## Counting -/

theorem unchanged_of_tick {result : Except Failure Unit} (run : Runs tick m result m') :
    m'.cabinet = m.cabinet ∧ (m.fault = none → m'.fault = none ∧ result = .ok ()) := by
  rcases tick_cases run with ⟨rfl, rfl⟩ | ⟨rfl, rfl, armed⟩
  · exact ⟨rfl, fun quiet => ⟨fault_spend quiet 1, rfl⟩⟩
  · exact ⟨rfl, fun quiet => nomatch quiet.symm.trans armed⟩

/-- An operation fails because it was to fail, or goes on with the same cabinet. -/
theorem cases_of_tick {next : Unit → Action Memory α} {result : Except Failure α}
    (run : Runs (tick >>= next) m result m') :
    (∃ m₁, m₁.cabinet = m.cabinet ∧ (m.fault = none → m₁.fault = none) ∧
      Runs (next ()) m₁ result m') ∨
    (∃ e, result = .error e) ∧ m'.cabinet = m.cabinet ∧ m.fault ≠ none := by
  rcases run.bind_cases with ⟨_, m₁, ticked, rest⟩ | ⟨e, ticked, rfl⟩
  · obtain ⟨same, healthy⟩ := unchanged_of_tick ticked
    exact .inl ⟨m₁, same, fun quiet => (healthy quiet).1, rest⟩
  · obtain ⟨same, healthy⟩ := unchanged_of_tick ticked
    exact .inr ⟨⟨e, rfl⟩, same, fun quiet => nomatch (healthy quiet).2⟩

theorem cases_of_onFirst_tick {next : Unit → Action (Memory × Handle) α}
    {result : Except Failure α}
    (run : Runs (Action.onFirst tick >>= next) (m, handle) result (m', handle')) :
    (∃ m₁, m₁.cabinet = m.cabinet ∧ (m.fault = none → m₁.fault = none) ∧
      Runs (next ()) (m₁, handle) result (m', handle')) ∨
    (∃ e, result = .error e) ∧ m'.cabinet = m.cabinet ∧ m.fault ≠ none ∧ handle' = handle := by
  rcases run.bind_cases with ⟨_, ⟨m₁, handle₁⟩, ticked, rest⟩ | ⟨e, ticked, rfl⟩
  · obtain ⟨ticked, kept⟩ := ticked.of_onFirst
    obtain rfl : handle₁ = handle := kept
    obtain ⟨same, healthy⟩ := unchanged_of_tick ticked
    exact .inl ⟨m₁, same, fun quiet => (healthy quiet).1, rest⟩
  · obtain ⟨ticked, kept⟩ := ticked.of_onFirst
    obtain ⟨same, healthy⟩ := unchanged_of_tick ticked
    exact .inr ⟨⟨e, rfl⟩, same, fun quiet => (nomatch (healthy quiet).2), kept⟩

theorem becomes_of_armed (same : m'.cabinet = m.cabinet) (armed : m.fault ≠ none) :
    archive.Becomes m m' m.cabinet :=
  becomes_of same fun quiet => absurd quiet armed

/-! ## Single operations -/

/-- Opening for reading or overwriting finds what is there. -/
theorem finds_of_openRecord {result : Except Failure Handle} (existing : access.creates = false)
    (run : Runs (openRecord name.text access) m result m') :
    archive.Becomes m m' m.cabinet ∧ ∀ handle ref, result = .ok handle →
      archive.target handle = some ref → archive.place m name = some ref.name ∧
        m.cabinet.Holds ref ∧ archive.position handle = 0 := by
  have untruncated : access ≠ .truncate := by rintro rfl; cases existing
  cases opened_of_openRecord run with
  | due => exact ⟨becomes_of rfl fun _ => rfl, nofun⟩
  | absent => exact ⟨becomes_of rfl fun quiet => fault_spend quiet 1, nofun⟩
  | created _ creates =>
    rw [existing] at creates
    cases creates
  | emptied _ _ replaced => exact absurd replaced untruncated
  | found ref found =>
    refine ⟨becomes_of rfl fun quiet => fault_spend quiet 1, fun handle ref' opened refers => ?_⟩
    cases opened
    cases refers
    obtain ⟨named, held⟩ := Cabinet.holds_of_ref? found
    exact ⟨congrArg some named.symm, held, rfl⟩

/-- Opening for replacing empties what is there or creates it. -/
theorem empties_of_openRecord {result : Except Failure Handle}
    (run : Runs (openRecord name.text .truncate) m result m') :
    (∃ e, result = .error e) ∧ archive.Becomes m m' m.cabinet ∨
    ∃ handle ref, result = .ok handle ∧ archive.target handle = some ref ∧
      archive.position handle = 0 ∧ archive.place m name = some ref.name ∧
      archive.Becomes m m' (m.cabinet.put ref.name .empty) ∧
      (m.cabinet.put ref.name .empty).Holds ref := by
  cases opened_of_openRecord run with
  | due => exact .inl ⟨⟨_, rfl⟩, becomes_of rfl fun _ => rfl⟩
  | absent _ existing => cases existing
  | created missing =>
    have created : m.cabinet.put name.text .empty = m.cabinet.create name.text .empty := by
      rw [Cabinet.put, missing]
    refine .inr ⟨_, ⟨name.text, m.cabinet.nextSerial⟩, rfl, rfl, rfl, rfl, ?_⟩
    rw [created]
    refine ⟨becomes_of rfl fun quiet => fault_spend quiet 1, ?_⟩
    rw [Cabinet.Holds, Cabinet.ref?_create, if_pos rfl]
  | emptied ref found =>
    obtain ⟨named, held⟩ := Cabinet.holds_of_ref? found
    have written : m.cabinet.put ref.name .empty = m.cabinet.write ref .empty := by
      rw [Cabinet.put, named, found]
    refine .inr ⟨_, ref, rfl, rfl, rfl, congrArg some named.symm, ?_⟩
    rw [written]
    refine ⟨becomes_of rfl fun quiet => fault_spend quiet 1, ?_⟩
    rw [Cabinet.holds_write_iff]
    exact held
  | found _ _ kept => exact absurd rfl kept

/-- Writing overlays the contents of the record, if it is not refused and the program goes on. -/
theorem overlays_of_write {result : Except Failure Unit}
    (run : Runs (write bytes) (m, handle) result (m', handle')) :
    archive.Becomes m m' m.cabinet ∧ (result = .ok () → bytes = []) ∨
    ∃ ref contents, archive.target handle = some ref ∧
      archive.Becomes m m' (m.cabinet.write ref contents) ∧ (result = .ok () →
        contents = (m.cabinet.read ref).overlay (archive.position handle) bytes) := by
  cases written_of_write run with
  | due => exact .inl ⟨becomes_of rfl fun _ => rfl, nofun⟩
  | refused => exact .inl ⟨becomes_of rfl fun quiet => fault_spend quiet 1, nofun⟩
  | full => exact .inl ⟨becomes_of rfl fun quiet => fault_spend quiet 1, nofun⟩
  | halted =>
    rcases m.afterOverrun_cases handle bytes with ⟨-, after⟩ | ⟨-, after⟩ <;> rw [after]
    · exact .inl ⟨becomes_of rfl fun quiet => fault_spend quiet 1, nofun⟩
    · exact .inr ⟨handle.ref, _, rfl, becomes_of rfl fun quiet => fault_spend quiet 1, nofun⟩
  | done => exact .inr ⟨handle.ref, _, rfl, becomes_of rfl fun quiet => fault_spend quiet 1,
      fun _ => rfl⟩

/-- Deleting takes the record of the name away, if there is one. -/
theorem removes_of_delete {result : Except Failure Unit} (run : Runs (delete text) m result m') :
    archive.Becomes m m' (m.cabinet.remove text) ∨
      archive.Becomes m m' m.cabinet ∧ (m.fault = none → m.cabinet.ref? text = none) := by
  cases deleted_of_delete run with
  | due armed =>
    exact .inr ⟨becomes_of rfl fun _ => rfl, fun quiet => nomatch quiet.symm.trans armed⟩
  | absent missing =>
    refine .inr ⟨becomes_of rfl fun quiet => fault_spend quiet 1, fun _ => ?_⟩
    rw [Cabinet.ref?_eq_none_iff, Cabinet.get?, missing, Option.map_none]
  | done => exact .inl (becomes_of rfl fun quiet => fault_spend quiet 1)

/-- Reading yields the next bytes of the record and moves the cursor behind them. -/
theorem slices_of_read {count : Nat} {result : Except Failure Bytes}
    (run : Runs (read count) (m, handle) result (m', handle')) :
    archive.Becomes m m' m.cabinet ∧ archive.target handle' = archive.target handle ∧
      (∀ bytes, result = .ok bytes → ∃ ref, archive.target handle = some ref ∧
        bytes = Bytes.slice (m.cabinet.read ref).bytes (archive.position handle) count ∧
        archive.position handle' = archive.position handle + bytes.length) ∧
      ∀ e, result = .error e → archive.position handle' = archive.position handle ∧
        (archive.Healthy m → ∀ ref, archive.target handle = some ref →
          ¬ archive.Reaches (archive.position handle + count)) := by
  rcases cases_of_onFirst_tick run with ⟨m₁, same, quiet, rest⟩ | ⟨⟨e, rfl⟩, same, armed, rfl⟩
  · unfold Runs at rest
    split at rest <;> cases rest
    refine ⟨becomes_of same quiet, rfl, fun bytes ended => ?_, nofun⟩
    cases ended
    refine ⟨handle.ref, rfl, ?_, rfl⟩
    rw [Contents.slice_eq, same]
    rfl
  · exact ⟨becomes_of_armed same armed, rfl, nofun, fun _ _ =>
      ⟨rfl, fun quiet => absurd quiet armed⟩⟩

theorem becomes_of_seek {pos : Nat} {result : Except Failure Unit}
    (run : Runs (seek pos) (m, handle) result (m', handle')) :
    archive.Becomes m m' m.cabinet ∧ archive.target handle' = archive.target handle := by
  rcases cases_of_onFirst_tick run with ⟨m₁, same, quiet, rest⟩ | ⟨-, same, armed, rfl⟩
  · unfold Runs at rest
    split at rest <;> cases rest
    exact ⟨becomes_of same quiet, rfl⟩
  · exact ⟨becomes_of_armed same armed, rfl⟩

/-- Listing names every record. -/
theorem lists_of_list {result : Except Failure (List String)} (run : Runs list m result m') :
    archive.Becomes m m' m.cabinet ∧ ∀ names name ref, result = .ok names →
      archive.place m name = some ref.name → m.cabinet.Holds ref → name.text ∈ names := by
  rcases cases_of_tick run with ⟨m₁, same, quiet, rest⟩ | ⟨⟨e, rfl⟩, same, armed⟩
  · unfold Runs at rest
    split at rest <;> cases rest
    refine ⟨becomes_of same quiet, fun names name ref listed placed held => ?_⟩
    cases listed
    rw [Listing.mem_arrange, Cabinet.mem_names, same, Option.some.inj placed]
    exact Option.isSome_iff_exists.2 ⟨_, Cabinet.get?_of_holds held⟩
  · exact ⟨becomes_of_armed same armed, nofun⟩

theorem lawful_archive : archive.Lawful where
  place_injective first second :=
    RecordName.text_injective (Option.some.inj (first.trans second.symm))
  reaches_mono _ := id
  opening := finds_of_openRecord
  emptying := empties_of_openRecord
  reading := slices_of_read
  seeking := becomes_of_seek
  writing := overlays_of_write
  closing run :=
    have ⟨same, healthy⟩ := unchanged_of_tick run
    becomes_of same fun quiet => (healthy quiet).1
  listing := lists_of_list
  deleting {text _ _ _} run :=
    (removes_of_delete run).symm.imp And.left fun removed => ⟨text, removed⟩
  deleted {name _ _ _} quiet run ref placed held := by
    have named : name.text = ref.name := Option.some.inj placed
    rcases removes_of_delete run with removed | ⟨same, absent⟩
    · rw [removed.cabinet, Cabinet.holds_remove_iff] at held
      exact held.1 named
    · rw [same.cabinet, Cabinet.Holds, ← named, absent quiet] at held
      cases held
  size refers := by
    cases refers
    rfl

end GlyphShelf.Memory

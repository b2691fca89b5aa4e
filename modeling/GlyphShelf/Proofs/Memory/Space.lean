import Mathlib.Algebra.BigOperators.Finprod
import GlyphShelf.Proofs.Frames
import GlyphShelf.Proofs.Memory.Records

/-!
# Space on the memory device

`load records` is the number of bytes in all records together. A device is solvent when no
failure is armed, what it has charged against its quota is this number, and it is within the
quota. Every operation on whole records keeps a device solvent, whether it succeeds or finds the
device full.

So whether a change fits can be read off the records that it would leave: a record can be
replaced if they fit, and overwriting bytes that a record already has needs no space at all.
-/

namespace GlyphShelf.Memory

variable {m m' : Memory} {handle : Handle} {name : String} {value : Option Bytes}
variable {records records' : String → Option Bytes} {bytes old : Bytes} {count quota : Nat}

/-! ## Numbers of bytes -/

/-- The number of bytes of a record; an absent one has none. -/
def extent (record : Option Bytes) : Nat := (record.getD []).length

@[simp] theorem extent_some (bytes : Bytes) : extent (some bytes) = bytes.length := rfl

@[simp] theorem extent_none : extent none = 0 := rfl

/-- The number of bytes in all records together. -/
noncomputable def load (records : String → Option Bytes) : Nat := ∑ᶠ name, extent (records name)

theorem finite_support (m : Memory) :
    (Function.support fun name => extent (m.get? name)).Finite := by
  apply (List.finite_toSet m.cabinet.names).subset
  intro name nonempty
  apply (Cabinet.mem_names _ _).2
  cases stored : m.get? name with
  | some bytes => exact Option.isSome_iff_exists.2 ⟨bytes, stored⟩
  | none =>
    have empty : extent (m.get? name) = 0 := by rw [stored, extent_none]
    exact absurd empty nonempty

/-- Setting a record exchanges its bytes for those of the old one. -/
theorem load_update (finite : (Function.support fun name => extent (records name)).Finite)
    (name : String) (value : Option Bytes) :
    load (Function.update records name value) + extent (records name) =
      load records + extent value := by
  have inside : (Function.support fun other => extent (records other)) ⊆
      ↑(insert name finite.toFinset) := by
    intro other nonempty
    simpa using .inr nonempty
  have inside' : (Function.support fun other =>
      extent (Function.update records name value other)) ⊆ ↑(insert name finite.toFinset) := by
    intro other nonempty
    by_cases same : other = name
    · simp [same]
    · rw [Function.mem_support, Function.update_of_ne same] at nonempty
      exact inside nonempty
  have rest : ∑ other ∈ (insert name finite.toFinset).erase name,
        extent (Function.update records name value other) =
      ∑ other ∈ (insert name finite.toFinset).erase name, extent (records other) := by
    apply Finset.sum_congr rfl
    intro other member
    rw [Function.update_of_ne (Finset.ne_of_mem_erase member)]
  rw [load, load, finsum_eq_sum_of_support_subset _ inside',
    finsum_eq_sum_of_support_subset _ inside,
    ← Finset.add_sum_erase _ _ (Finset.mem_insert_self name finite.toFinset),
    ← Finset.add_sum_erase _ (fun other => extent (records other))
      (Finset.mem_insert_self name finite.toFinset), rest, Function.update_self]
  omega

theorem extent_le_load (m : Memory) (name : String) : extent (m.get? name) ≤ load m.get? := by
  have without := load_update (finite_support m) name none
  rw [extent_none] at without
  omega

/-- Records none of which is larger have no more bytes together. -/
theorem load_mono (finite : (Function.support fun name => extent (records' name)).Finite)
    (smaller : ∀ name, extent (records name) ≤ extent (records' name)) :
    load records ≤ load records' := by
  refine finsum_le_finsum' (finite.subset ?_) finite smaller
  intro name nonempty
  have := smaller name
  rw [Function.mem_support] at nonempty ⊢
  omega

theorem load_of_absent (absent : ∀ name, records name = none) : load records = 0 := by
  apply finsum_eq_zero_of_forall_eq_zero
  intro name
  rw [absent, extent_none]

/-! ## Devices on which nothing is overcharged -/

theorem count_of_held (held : m.overcharge = 0) : m.count = m.used := if_pos held

theorem hasRoom_of_held (held : m.overcharge = 0) (limited : m.quota = some quota) (grow : Nat) :
    m.hasRoom grow = true ↔ m.used + grow ≤ quota := by
  have charged : { m with used := m.used + grow }.count = m.used + grow := count_of_held held
  rw [hasRoom, keepsQuota, charged, limited, decide_eq_true_iff]

/-! ## Solvent devices -/

/-- The records stay within the quota of the device, if it has one. -/
def Fits (m : Memory) (records : String → Option Bytes) : Prop :=
  ∀ quota, m.quota = some quota → load records ≤ quota

/-- No failure is armed, and under a quota the bytes charged are those of the records and are
within the quota. -/
structure Solvent (m : Memory) : Prop where
  quiet : m.fault = none
  charged : ∀ quota, m.quota = some quota → m.used = load m.get?
  held : ∀ quota, m.quota = some quota → m.overcharge = 0
  fits : m.Fits m.get?

theorem fits_of_unlimited (unlimited : m.quota = none) (records : String → Option Bytes) :
    m.Fits records := by
  intro quota limited
  rw [unlimited] at limited
  cases limited

theorem solvent_of_unlimited (unlimited : m.quota = none) (quiet : m.fault = none) :
    m.Solvent where
  quiet := quiet
  charged quota limited := by
    rw [unlimited] at limited
    cases limited
  held quota limited := by
    rw [unlimited] at limited
    cases limited
  fits := fits_of_unlimited unlimited _

/-- An empty device that has charged nothing is solvent under any quota. -/
theorem solvent_of_empty (empty : ∀ name, m.get? name = none) (unused : m.used = 0)
    (held : m.overcharge = 0) (quiet : m.fault = none) : m.Solvent where
  quiet := quiet
  charged quota limited := by rw [unused, load_of_absent empty]
  held _ _ := held
  fits quota limited := by
    rw [load_of_absent empty]
    exact Nat.zero_le quota

namespace Solvent

variable (solvent : m.Solvent)
include solvent

theorem allows (count : Nat) : m.Allows count := allows_of_none solvent.quiet count

theorem count_eq_load (limited : m.quota = some quota) : m.count = load m.get? :=
  (count_of_held (solvent.held quota limited)).trans (solvent.charged quota limited)

theorem count_le (limited : m.quota = some quota) : m.count ≤ quota := by
  rw [solvent.count_eq_load limited]
  exact solvent.fits quota limited

theorem extent_le_used (limited : m.quota = some quota) (name : String) :
    extent (m.get? name) ≤ m.used := by
  rw [solvent.charged quota limited]
  exact extent_le_load m name

/-- What is charged depends on the records alone. -/
theorem count_eq (solvent' : m'.Solvent) (limited : m.quota = some quota)
    (sameQuota : m'.quota = m.quota) (same : m'.get? = m.get?) : m'.count = m.count := by
  rw [solvent'.count_eq_load (sameQuota.trans limited), solvent.count_eq_load limited, same]

theorem spend (count : Nat) : (m.spend count).Solvent where
  quiet := fault_spend solvent.quiet count
  charged := solvent.charged
  held := solvent.held
  fits := solvent.fits

theorem sets (sets : m.Sets count name value m')
    (charged : ∀ quota, m.quota = some quota →
      m'.used + extent (m.get? name) = m.used + extent value)
    (fits : m.Fits (Function.update m.get? name value)) : m'.Solvent where
  quiet := sets.fault_eq_none solvent.quiet
  charged quota limited := by
    rw [sets.quota] at limited
    have exchanged := load_update (finite_support m) name value
    have before := solvent.charged quota limited
    have after := charged quota limited
    rw [sets.get?]
    omega
  held quota limited := sets.overcharge.trans (solvent.held quota (sets.quota ▸ limited))
  fits quota limited := by
    rw [sets.get?]
    exact fits quota (sets.quota ▸ limited)

/-- Fewer bytes than a record has always fit in its place. -/
theorem fits_update (smaller : extent value ≤ extent (m.get? name)) :
    m.Fits (Function.update m.get? name value) := by
  intro quota limited
  have exchanged := load_update (finite_support m) name value
  have fits := solvent.fits quota limited
  omega

end Solvent

/-! ## Emptying and deleting -/

theorem used_of_tick {m₁ : Memory} {result : Except Failure Unit} (run : Runs tick m result m₁) :
    m₁.used = m.used ∧ m₁.cabinet = m.cabinet := by
  rcases tick_cases run with ⟨-, rfl⟩ | ⟨-, rfl, -⟩ <;> exact ⟨rfl, rfl⟩

/-- Emptying a record gives all of its bytes back. -/
theorem used_of_truncated (run : Runs (Device.openRecord name .truncate) m (.ok handle) m') :
    m'.used = m.used - extent (m.get? name) := by
  cases opened_of_openRecord run with
  | created missing =>
    rw [Memory.get?, Cabinet.ref?_eq_none_iff.1 missing, extent_none]
    rfl
  | emptied ref found =>
    rw [Memory.get?, Cabinet.get?_of_ref? found, extent_some, Contents.length_bytes]
    rfl
  | found _ _ kept => exact absurd rfl kept

/-- And so does deleting it. -/
theorem used_of_deleted (run : Runs (Device.delete name) m (.ok ()) m') :
    m'.used = m.used - extent (m.get? name) := by
  cases deleted_of_delete run with
  | done contents found =>
    rw [Memory.get?, Cabinet.get?, found, Option.map_some, extent_some, Contents.length_bytes]
    rfl

/-- Whether or not there is a record to delete, the device stays solvent. -/
theorem runs_delete_solvent (solvent : m.Solvent) (name : String) :
    ∃ result m', Runs (Device.delete name) m result m' ∧ m.Sets 1 name none m' ∧ m'.Solvent := by
  by_cases absent : m.get? name = none
  · exact ⟨_, _, runs_delete_of_absent (solvent.allows 1) absent, sets_spend_of_absent absent 1,
      solvent.spend 1⟩
  · obtain ⟨m', deleting, sets⟩ := runs_delete (solvent.allows 1) absent
    refine ⟨_, m', deleting, sets, solvent.sets sets ?_ (solvent.fits_update (Nat.zero_le _))⟩
    intro quota limited
    have given := used_of_deleted deleting
    have enough := solvent.extent_le_used limited name
    rw [extent_none]
    omega

theorem runs_discard_solvent (solvent : m.Solvent) (name : String) :
    ∃ m', Runs (Action.allowAbsence (Device.delete name)) m (.ok ()) m' ∧
      m.Sets 1 name none m' ∧ m'.Solvent := by
  by_cases absent : m.get? name = none
  · exact ⟨_, Action.runs_allowAbsence_of_absent (runs_delete_of_absent (solvent.allows 1) absent),
      sets_spend_of_absent absent 1, solvent.spend 1⟩
  · obtain ⟨result, m', deleting, sets, solvent'⟩ := runs_delete_solvent solvent name
    obtain ⟨m'', deleting', -⟩ := runs_delete (solvent.allows 1) absent
    obtain ⟨rfl, rfl⟩ := deleting.deterministic deleting'
    exact ⟨m', Action.runs_allowAbsence deleting, sets, solvent'⟩

/-! ## Replacing and overwriting -/

/-- What is left of a record that is about to be replaced is no bytes. -/
theorem runs_emptied (solvent : m.Solvent) (name : String) :
    ∃ handle m₁, Runs (Device.openRecord name .truncate) m (.ok handle) m₁ ∧
      m.Sets 1 name (some []) m₁ ∧ m₁.Attached handle name ∧ handle.pos = 0 ∧
      handle.writable = true ∧ m₁.Solvent := by
  obtain ⟨handle, m₁, opening, emptied, attached, start, writable⟩ :=
    runs_openRecord_truncate (solvent.allows 1) name
  refine ⟨handle, m₁, opening, emptied, attached, start, writable,
    solvent.sets emptied ?_ (solvent.fits_update (Nat.zero_le _))⟩
  intro quota limited
  have given := used_of_truncated opening
  have enough := solvent.extent_le_used limited name
  rw [extent_some, List.length_nil]
  omega

/-- Under a quota, the room that is left is what the records may still grow by. -/
theorem Solvent.hasRoom_iff (solvent : m.Solvent) (empty : m.get? name = some []) :
    m.hasRoom bytes.length = true ↔ m.Fits (Function.update m.get? name (some bytes)) := by
  have exchanged := load_update (finite_support m) name (some bytes)
  rw [empty, extent_some, extent_some, List.length_nil, Nat.add_zero] at exchanged
  cases limited : m.quota with
  | none => simp [hasRoom, keepsQuota, limited, fits_of_unlimited limited]
  | some quota =>
    rw [hasRoom_of_held (solvent.held quota limited) limited, solvent.charged quota limited, Fits,
      limited, exchanged]
    simp only [Option.some.injEq, forall_eq']

/-- A record is replaced if what the device holds afterwards fits. -/
theorem runs_replace_of_fits (solvent : m.Solvent) (name : String) (bytes : Bytes)
    (fits : m.Fits (Function.update m.get? name (some bytes))) :
    ∃ m', Runs (Device.withRecord name .truncate (Device.write bytes)) m (.ok ()) m' ∧
      m.Sets 3 name (some bytes) m' ∧ m'.Solvent := by
  obtain ⟨handle, m₁, opening, emptied, attached, start, writable, solvent₁⟩ :=
    runs_emptied solvent name
  have fits₁ : m₁.Fits (Function.update m₁.get? name (some bytes)) := by
    rw [emptied.get?, Function.update_idem]
    intro quota limited
    exact fits quota (emptied.quota ▸ limited)
  have room := (solvent₁.hasRoom_iff emptied.get?_same).2 fits₁
  obtain ⟨m₂, writing, written, used⟩ := runs_write_of_room (solvent₁.allows 1) attached writable
    emptied.get?_same bytes (overruns_of_start start bytes) (.inr (by simpa [start] using room))
  rw [start, show Bytes.overlay [] 0 bytes = bytes by simp [Bytes.overlay]] at written
  have solvent₂ : m₂.Solvent := by
    refine solvent₁.sets written (fun quota limited => ?_) fits₁
    rw [used, emptied.get?_same, start, extent_some, extent_some, List.length_nil]
    omega
  exact ⟨_, Device.runs_withRecord_of_closed opening writing (runs_close (solvent₂.allows 1) _),
    (emptied.trans written).spend 1, solvent₂.spend 1⟩

/-- If it does not fit, an empty record is left where the old one was. -/
theorem runs_replace_of_unfit (solvent : m.Solvent) (name : String) (bytes : Bytes)
    (unfit : ¬ m.Fits (Function.update m.get? name (some bytes))) :
    ∃ m', Runs (Device.withRecord name .truncate (Device.write bytes)) m (.error .outOfSpace) m' ∧
      m.Sets 3 name (some []) m' ∧ m'.Solvent := by
  obtain ⟨handle, m₁, opening, emptied, attached, start, writable, solvent₁⟩ :=
    runs_emptied solvent name
  have unfit₁ : ¬ m₁.Fits (Function.update m₁.get? name (some bytes)) := by
    rw [emptied.get?, Function.update_idem]
    intro fits
    apply unfit
    intro quota limited
    exact fits quota (emptied.quota.trans limited)
  have grows : bytes.length ≠ 0 := by
    intro empty
    obtain rfl := List.eq_nil_of_length_eq_zero empty
    exact unfit (solvent.fits_update (Nat.zero_le _))
  have full : m₁.hasRoom bytes.length = false :=
    Bool.eq_false_iff.2 fun room => unfit₁ ((solvent₁.hasRoom_iff emptied.get?_same).1 room)
  have writing := runs_write_of_full (solvent₁.allows 1) attached writable emptied.get?_same bytes
    (overruns_of_start start bytes) (by simpa [start] using grows) (by simpa [start] using full)
  have closing := runs_close ((solvent₁.spend 1).allows 1) handle
  rw [spend_spend] at closing
  exact ⟨_, Device.runs_withRecord_of_failed opening writing closing, emptied.spend 2,
    solvent₁.spend 2⟩

/-- Replacing a record keeps the device solvent, whether it fits or not. -/
theorem runs_replace_solvent (solvent : m.Solvent) (name : String) (bytes : Bytes) :
    ∃ result value m', Runs (Device.withRecord name .truncate (Device.write bytes)) m result m' ∧
      m.Sets 3 name value m' ∧ m'.Solvent := by
  by_cases fits : m.Fits (Function.update m.get? name (some bytes))
  · obtain ⟨m', run, sets, solvent'⟩ := runs_replace_of_fits solvent name bytes fits
    exact ⟨_, _, m', run, sets, solvent'⟩
  · obtain ⟨m', run, sets, solvent'⟩ := runs_replace_of_unfit solvent name bytes fits
    exact ⟨_, _, m', run, sets, solvent'⟩

/-- Bytes that a record has are overwritten however full the device is. -/
theorem runs_overwrite_inside (solvent : m.Solvent) (holds : m.get? name = some old) (pos : Nat)
    (bytes : Bytes) (inside : pos + bytes.length ≤ old.length) :
    ∃ m', Runs (Device.withRecord name .readWrite do
        Device.seek pos
        Device.write bytes) m (.ok ()) m' ∧
      m.Sets 4 name (some (Bytes.overlay old pos bytes)) m' ∧ m'.Solvent := by
  obtain ⟨handle, opening, attached, -, writable⟩ :=
    runs_openRecord_of_present .readWrite (solvent.allows 1) holds (by decide)
  have seeking := runs_seek ((solvent.spend 1).allows 1) handle pos
  rw [spend_spend] at seeking
  have attached' : (m.spend 2).Attached { handle with pos } name := attached
  have still : pos + bytes.length - old.length = 0 := Nat.sub_eq_zero_of_le inside
  have within : pos ≤ (m.cabinet.read handle.ref).size := by
    rw [← Contents.length_bytes, ← Memory.contents, attached.contents holds]
    exact Nat.le_of_add_right_le inside
  obtain ⟨m₁, writing, written, used⟩ := runs_write_of_room ((solvent.spend 2).allows 1) attached'
    writable holds bytes (overruns_of_le within bytes) (.inl still)
  have length : (Bytes.overlay old pos bytes).length = old.length := by
    rw [Bytes.length_overlay, Nat.max_eq_left inside]
  have solvent₁ : m₁.Solvent := by
    refine (solvent.spend 2).sets written (fun quota limited => ?_)
      ((solvent.spend 2).fits_update ?_)
    · rw [used, get?_spend, holds, extent_some, extent_some, length, still, Nat.add_zero]
    · rw [get?_spend, holds, extent_some, extent_some, length]
  exact ⟨_, Device.runs_withRecord_of_closed opening (seeking.bind writing)
    (runs_close (solvent₁.allows 1) _), written.after_spend.spend 1, solvent₁.spend 1⟩

end GlyphShelf.Memory

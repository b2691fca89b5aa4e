import GlyphShelf.Proofs.Cabinets
import GlyphShelf.Proofs.Memory.Operations
import GlyphShelf.Ring

/-!
# A device in memory without limits

Without a quota and without an armed failure, what the device in memory does depends on its cabinet
alone. What it counts on the side does not matter then, so each operation is stated by what it finds
in the cabinet and by the cabinet that it leaves.
-/

namespace GlyphShelf.Memory

variable {m : Memory} {c : Cabinet String} {ref : Cabinet.Ref String} {name : String}
variable {access : Access} {handle : Handle}

/-- The device has this cabinet, no quota, and no armed failure. -/
structure Boundless (m : Memory) (c : Cabinet String) : Prop where
  cabinet : m.cabinet = c
  unlimited : m.quota = none
  faultless : m.fault = none

namespace Boundless

variable (boundless : m.Boundless c)

include boundless

theorem spend (count : Nat) : (m.spend count).Boundless c :=
  ⟨boundless.cabinet, boundless.unlimited, fault_spend boundless.faultless count⟩

theorem runs_tick : Runs tick m (.ok ()) (m.spend 1) :=
  Memory.runs_tick (allows_of_none boundless.faultless 1)

theorem runs_close (handle : Handle) :
    ∃ m', Runs (Device.close handle) m (.ok ()) m' ∧ m'.Boundless c :=
  ⟨_, boundless.runs_tick, boundless.spend 1⟩

theorem runs_openRecord_of_present (access : Access) (found : c.ref? name = some ref) :
    ∃ m', Runs (openRecord name access) m (.ok ⟨ref, 0, access.writes⟩) m' ∧
      m'.Boundless (if access = .truncate then c.write ref .empty else c) := by
  obtain rfl := boundless.cabinet
  by_cases truncates : access = .truncate
  · refine ⟨{ m.spend 1 with
      cabinet := m.cabinet.write ref .empty
      used := m.used - (m.cabinet.read ref).size }, boundless.runs_tick.bind ?_, ?_⟩
    · simp only [Runs, cabinet_spend, found, if_pos truncates]
      rfl
    · rw [if_pos truncates]
      exact ⟨rfl, boundless.unlimited, fault_spend boundless.faultless 1⟩
  · refine ⟨m.spend 1, boundless.runs_tick.bind ?_, ?_⟩
    · simp only [Runs, cabinet_spend, found, if_neg truncates]
    · rw [if_neg truncates]
      exact boundless.spend 1

theorem runs_openRecord_of_absent (free : c.ref? name = none) (existing : access.creates = false) :
    ∃ m', Runs (openRecord name access) m (.error .notFound) m' ∧ m'.Boundless c := by
  obtain rfl := boundless.cabinet
  refine ⟨m.spend 1, boundless.runs_tick.bind ?_, boundless.spend 1⟩
  simp only [Runs, cabinet_spend, free, existing, Bool.false_eq_true, if_false]

theorem runs_openRecord_of_created (free : c.ref? name = none) (creates : access.creates = true) :
    ∃ m', Runs (openRecord name access) m (.ok ⟨⟨name, c.nextSerial⟩, 0, access.writes⟩) m' ∧
      m'.Boundless (c.create name .empty) := by
  obtain rfl := boundless.cabinet
  refine ⟨{ m.spend 1 with cabinet := m.cabinet.create name .empty }, boundless.runs_tick.bind ?_,
    rfl, boundless.unlimited, fault_spend boundless.faultless 1⟩
  simp only [Runs, cabinet_spend, free, creates, if_true]

theorem runs_read (handle : Handle) (count : Nat) :
    ∃ m', Runs (read count) (m, handle) (.ok ((c.read handle.ref).slice handle.pos count))
        (m', { handle with
          pos := handle.pos + ((c.read handle.ref).slice handle.pos count).length }) ∧
      m'.Boundless c := by
  obtain rfl := boundless.cabinet
  exact ⟨m.spend 1, (Action.runs_onFirst boundless.runs_tick handle).bind rfl, boundless.spend 1⟩

theorem runs_seek (handle : Handle) (pos : Nat) :
    ∃ m', Runs (seek pos) (m, handle) (.ok ()) (m', { handle with pos }) ∧ m'.Boundless c :=
  ⟨m.spend 1, (Action.runs_onFirst boundless.runs_tick handle).bind rfl, boundless.spend 1⟩

theorem runs_write (writable : handle.writable = true) (bytes : Bytes)
    (short : handle.pos + bytes.length ≤ maxExtent) :
    ∃ m', Runs (write bytes) (m, handle) (.ok ())
        (m', { handle with pos := handle.pos + bytes.length }) ∧
      m'.Boundless (c.write handle.ref ((c.read handle.ref).overlay handle.pos bytes)) := by
  obtain rfl := boundless.cabinet
  have room : m.hasRoom (m.growth handle bytes) = true := by
    simp [hasRoom, keepsQuota, boundless.unlimited]
  exact ⟨m.afterWrite handle bytes,
    runs_write_of_admitted (allows_of_none boundless.faultless 1) writable
      (overruns_of_short short) (.inr room),
    rfl, boundless.unlimited, fault_spend boundless.faultless 1⟩

theorem runs_write_of_readOnly (readOnly : handle.writable = false) (bytes : Bytes) :
    ∃ m', Runs (write bytes) (m, handle) (.error (.device .readOnly)) (m', handle) ∧
      m'.Boundless c := by
  refine ⟨m.spend 1, (Action.runs_onFirst boundless.runs_tick handle).bind ?_, boundless.spend 1⟩
  simp only [Runs, readOnly, Bool.false_eq_true, if_false]

theorem runs_delete_of_present (found : c.ref? name = some ref) :
    ∃ m', Runs (delete name) m (.ok ()) m' ∧ m'.Boundless (c.remove name) := by
  obtain rfl := boundless.cabinet
  refine ⟨{ m.spend 1 with
    cabinet := m.cabinet.remove name
    used := m.used - (m.cabinet.read ref).size }, boundless.runs_tick.bind ?_, rfl,
    boundless.unlimited, fault_spend boundless.faultless 1⟩
  simp only [Runs, cabinet_spend, Cabinet.contents?_of_ref? found]
  rfl

theorem runs_delete_of_absent (free : c.ref? name = none) :
    ∃ m', Runs (delete name) m (.error .notFound) m' ∧ m'.Boundless c := by
  obtain rfl := boundless.cabinet
  have absent : m.get? name = none := Cabinet.ref?_eq_none_iff.1 free
  exact ⟨m.spend 1, Memory.runs_delete_of_absent (allows_of_none boundless.faultless 1) absent,
    boundless.spend 1⟩

/-- Whether or not there is a record to delete, none is there afterwards. -/
theorem runs_discard (name : String) :
    ∃ m', Runs (Action.allowAbsence (Device.delete name)) m (.ok ()) m' ∧
      m'.Boundless (c.remove name) := by
  cases found : c.ref? name with
  | some ref =>
    obtain ⟨m', run, after⟩ := boundless.runs_delete_of_present found
    exact ⟨m', Action.runs_allowAbsence run, after⟩
  | none =>
    obtain ⟨m', run, after⟩ := boundless.runs_delete_of_absent found
    rw [Cabinet.remove_of_absent found]
    exact ⟨m', Action.runs_allowAbsence_of_absent run, after⟩

/-- All records are listed, and nothing else. -/
theorem runs_list : ∃ names m', Runs list m (.ok names) m' ∧ m'.Boundless c ∧
    ∀ name, name ∈ names ↔ ∃ ref, c.ref? name = some ref := by
  obtain rfl := boundless.cabinet
  refine ⟨m.listing.arrange m.cabinet.names, m.spend 1, boundless.runs_tick.bind rfl,
    boundless.spend 1, fun name => ?_⟩
  rw [Listing.mem_arrange, Cabinet.mem_names, ← Option.isSome_iff_exists,
    ← Option.ne_none_iff_isSome, ← Option.ne_none_iff_isSome, ne_eq, ne_eq, Cabinet.ref?_eq_none_iff]

/-- Deleting names one after the other takes all of them away. -/
theorem runs_deleteAll (names : List String) :
    ∃ m' c', Runs (Ring.deleteAll names) m (.ok ()) m' ∧ m'.Boundless c' ∧
      c.Loses (· ∈ names) c' := by
  induction names generalizing m c with
  | nil => exact ⟨m, c, .pure () m, boundless, (Cabinet.Loses.nothing c).congr (by simp)⟩
  | cons name names ih =>
    obtain ⟨m₁, discarding, after⟩ := boundless.runs_discard name
    obtain ⟨m', c', deleting, last, loses⟩ := ih after
    refine ⟨m', c', discarding.bind deleting, last, ?_⟩
    refine ((Cabinet.loses_remove c name).trans loses).congr fun other => ?_
    rw [List.mem_cons, eq_comm]

end Boundless

end GlyphShelf.Memory

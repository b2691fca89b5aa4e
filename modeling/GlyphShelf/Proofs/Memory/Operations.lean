import Mathlib.Logic.Function.Basic
import GlyphShelf.Device.Memory
import GlyphShelf.Proofs.Frames

/-!
# Operations of the memory device

What each operation of a device in memory does to the records by name, to the count of
operations and to an armed failure. `Allows count` says that no failure is due within the next
`count` operations; an operation that is due to fail changes no record.

`Spends` keeps account of what operations use up, `Sets` adds that they changed one record and
no other. Both compose by adding counts, so whoever runs several operations states one count
for all of them.
-/

namespace GlyphShelf.Memory

variable {m m₁ m₂ : Memory} {handle : Handle} {name : String} {count more left : Nat}

/-- No failure is armed for one of the next `count` operations. -/
def Allows (m : Memory) (count : Nat) : Prop := ∀ left, m.fault = some left → count ≤ left

theorem Allows.mono (h : m.Allows count) (fewer : more ≤ count) : m.Allows more :=
  fun left armed => Nat.le_trans fewer (h left armed)

theorem allows_of_none (h : m.fault = none) (count : Nat) : m.Allows count := by
  intro left armed
  rw [h] at armed
  cases armed

theorem allows_of_some (h : m.fault = some left) (later : count ≤ left) : m.Allows count := by
  intro left' armed
  rw [h] at armed
  cases armed
  exact later

/-- The device after operations that succeeded and changed no record. -/
def spend (m : Memory) (count : Nat) : Memory :=
  { m with ops := m.ops + count, fault := m.fault.map (· - count) }

/-- The device after an operation that was armed to fail. -/
def trip (m : Memory) : Memory := { m with ops := m.ops + 1, fault := none }

@[simp] theorem get?_spend (m : Memory) (count : Nat) : (m.spend count).get? = m.get? := rfl

@[simp] theorem cabinet_spend (m : Memory) (count : Nat) :
    (m.spend count).cabinet = m.cabinet := rfl

@[simp] theorem get?_trip (m : Memory) : m.trip.get? = m.get? := rfl

@[simp] theorem spend_zero (m : Memory) : m.spend 0 = m := by
  simp [spend]

theorem spend_spend (m : Memory) (count more : Nat) :
    (m.spend count).spend more = m.spend (count + more) := by
  simp [spend, Nat.add_assoc, Function.comp_def, Nat.sub_sub]

theorem Allows.spend {total : Nat} (h : m.Allows total) (count more : Nat)
    (fits : count + more ≤ total) : (m.spend count).Allows more := by
  intro left armed
  obtain ⟨before, was, rfl⟩ := Option.map_eq_some_iff.1 armed
  have := h before was
  omega

/-! ## Accounts -/

/-- So many operations, none of which failed, lead from `m` to `m'`. -/
structure Spends (m : Memory) (count : Nat) (m' : Memory) : Prop where
  quota : m'.quota = m.quota
  overcharge : m'.overcharge = m.overcharge
  listing : m'.listing = m.listing
  ops : m'.ops = m.ops + count
  fault : m'.fault = m.fault.map (· - count)

theorem spends_spend (m : Memory) (count : Nat) : m.Spends count (m.spend count) :=
  ⟨rfl, rfl, rfl, rfl, rfl⟩

theorem spends_refl (m : Memory) : m.Spends 0 m := by
  have still := spends_spend m 0
  rwa [spend_zero] at still

theorem Spends.trans (first : m.Spends count m₁) (second : m₁.Spends more m₂) :
    m.Spends (count + more) m₂ where
  quota := second.quota.trans first.quota
  overcharge := second.overcharge.trans first.overcharge
  listing := second.listing.trans first.listing
  ops := by rw [second.ops, first.ops, Nat.add_assoc]
  fault := by
    rw [second.fault, first.fault, Option.map_map]
    simp [Function.comp_def, Nat.sub_sub]

theorem Spends.allows {total : Nat} (h : m.Spends count m₁) (allowed : m.Allows total)
    (more : Nat) (fits : count + more ≤ total) : m₁.Allows more := by
  intro left armed
  rw [h.fault] at armed
  exact allowed.spend count more fits left armed

theorem Spends.fault_eq_some (h : m.Spends count m₁) (armed : m.fault = some (left + count)) :
    m₁.fault = some left := by
  rw [h.fault, armed, Option.map_some, Nat.add_sub_cancel]

theorem Spends.fault_eq_none (h : m.Spends count m₁) (quiet : m.fault = none) :
    m₁.fault = none := by
  rw [h.fault, quiet, Option.map_none]

theorem fault_spend (quiet : m.fault = none) (count : Nat) : (m.spend count).fault = none :=
  (spends_spend m count).fault_eq_none quiet

/-- So many operations, none of which failed, set one record and leave every other one. -/
structure Sets (m : Memory) (count : Nat) (name : String) (value : Option Bytes)
    (m' : Memory) : Prop extends m.Spends count m' where
  get? : m'.get? = Function.update m.get? name value
  ref? : ∀ other, other ≠ name → m'.cabinet.ref? other = m.cabinet.ref? other

theorem Sets.get?_same {value : Option Bytes} (h : m.Sets count name value m₁) :
    m₁.get? name = value := by
  rw [h.get?, Function.update_self]

theorem Sets.spend {value : Option Bytes} (h : m.Sets count name value m₁) (more : Nat) :
    m.Sets (count + more) name value (m₁.spend more) where
  toSpends := h.toSpends.trans (spends_spend m₁ more)
  get? := h.get?
  ref? := h.ref?

theorem Sets.trans {value value' : Option Bytes} (first : m.Sets count name value m₁)
    (second : m₁.Sets more name value' m₂) : m.Sets (count + more) name value' m₂ where
  toSpends := first.toSpends.trans second.toSpends
  get? := by rw [second.get?, first.get?, Function.update_idem]
  ref? other differs := (second.ref? other differs).trans (first.ref? other differs)

theorem Sets.after_spend {value : Option Bytes} (h : (m.spend count).Sets more name value m₁) :
    m.Sets (count + more) name value m₁ where
  toSpends := (spends_spend m count).trans h.toSpends
  get? := h.get?
  ref? := h.ref?

/-- The armed failure happened on the way from `m` to `m'`. -/
structure Trips (m : Memory) (m' : Memory) : Prop where
  quota : m'.quota = m.quota
  listing : m'.listing = m.listing
  fault : m'.fault = none

theorem trips_trip (m : Memory) : m.Trips m.trip := ⟨rfl, rfl, rfl⟩

theorem Spends.trips (first : m.Spends count m₁) (second : m₁.Trips m₂) : m.Trips m₂ where
  quota := second.quota.trans first.quota
  listing := second.listing.trans first.listing
  fault := second.fault

theorem Trips.spends (first : m.Trips m₁) (second : m₁.Spends count m₂) : m.Trips m₂ where
  quota := second.quota.trans first.quota
  listing := second.listing.trans first.listing
  fault := second.fault_eq_none first.fault

/-! ## Counting -/

theorem runs_tick (allowed : m.Allows 1) : Runs tick m (.ok ()) (m.spend 1) := by
  unfold Runs tick
  cases armed : m.fault with
  | none => simp [Memory.spend, armed]
  | some left =>
    cases left with
    | zero => exact absurd (allowed 0 armed) (by decide)
    | succ left => simp [Memory.spend, armed]

/-- The operation that is armed to fail. -/
theorem runs_tick_of_due (due : m.fault = some 0) :
    Runs tick m (.error (.device .injected)) m.trip := by
  unfold Runs tick
  rw [due]
  rfl

/-- There is no other way for counting to end. -/
theorem tick_cases {result : Except Failure Unit} (run : Runs tick m result m₁) :
    result = .ok () ∧ m₁ = m.spend 1 ∨
      result = .error (.device .injected) ∧ m₁ = m.trip ∧ m.fault = some 0 := by
  by_cases due : m.fault = some 0
  · obtain ⟨rfl, rfl⟩ := run.deterministic (runs_tick_of_due due)
    exact .inr ⟨rfl, rfl, due⟩
  · have allowed : m.Allows 1 := by
      rintro (_ | left) armed
      · exact absurd armed due
      · exact Nat.le_add_left 1 left
    obtain ⟨rfl, rfl⟩ := run.deterministic (runs_tick allowed)
    exact .inl ⟨rfl, rfl⟩

theorem runs_close (allowed : m.Allows 1) (handle : Handle) :
    Runs (Device.close handle) m (.ok ()) (m.spend 1) := runs_tick allowed

theorem runs_close_of_due (due : m.fault = some 0) (handle : Handle) :
    Runs (Device.close handle) m (.error (.device .injected)) m.trip := runs_tick_of_due due

/-! ## Opening -/

/-- The handle means the record that is under the name. -/
def Attached (m : Memory) (handle : Handle) (name : String) : Prop :=
  m.cabinet.ref? name = some handle.ref

theorem Attached.get? (h : m.Attached handle name) :
    m.get? name = some (m.cabinet.read handle.ref).bytes :=
  Cabinet.get?_of_ref? h

theorem exists_ref?_of_get? {bytes : Bytes} (present : m.get? name = some bytes) :
    ∃ ref, m.cabinet.ref? name = some ref := by
  cases h : m.cabinet.ref? name with
  | some ref => exact ⟨ref, rfl⟩
  | none =>
    rw [Memory.get?, Cabinet.ref?_eq_none_iff.1 h] at present
    cases present

theorem runs_openRecord_of_due (due : m.fault = some 0) (name : String) (access : Access) :
    Runs (Device.openRecord name access) m (.error (.device .injected)) m.trip :=
  (runs_tick_of_due due).bind_error

theorem runs_openRecord_of_absent (access : Access) (allowed : m.Allows 1)
    (absent : m.get? name = none) (existing : access.creates = false) :
    Runs (Device.openRecord name access) m (.error .notFound) (m.spend 1) := by
  refine (runs_tick allowed).bind ?_
  have missing : m.cabinet.ref? name = none := Cabinet.ref?_eq_none_iff.2 absent
  simp [Runs, missing, existing]

/-- Unless it empties the record, opening leaves the contents alone. -/
theorem runs_openRecord_of_present (access : Access) {bytes : Bytes} (allowed : m.Allows 1)
    (present : m.get? name = some bytes) (keeps : access ≠ .truncate) :
    ∃ handle, Runs (Device.openRecord name access) m (.ok handle) (m.spend 1) ∧
      m.Attached handle name ∧ handle.pos = 0 ∧ handle.writable = access.writes := by
  obtain ⟨ref, found⟩ := exists_ref?_of_get? present
  refine ⟨⟨ref, 0, access.writes⟩, (runs_tick allowed).bind ?_, found, rfl, rfl⟩
  simp [Runs, found, keeps]

theorem runs_openRecord_truncate (allowed : m.Allows 1) (name : String) :
    ∃ handle m', Runs (Device.openRecord name .truncate) m (.ok handle) m' ∧
      m.Sets 1 name (some []) m' ∧ m'.Attached handle name ∧ handle.pos = 0 ∧
      handle.writable = true := by
  cases found : m.cabinet.ref? name with
  | some ref =>
    refine ⟨⟨ref, 0, true⟩, { m.spend 1 with
      cabinet := m.cabinet.write ref .empty
      used := m.used - (m.cabinet.read ref).size }, (runs_tick allowed).bind ?_, ?_, ?_, rfl, rfl⟩
    · simp only [Runs, cabinet_spend, found, if_true]
      rfl
    · refine ⟨⟨rfl, rfl, rfl, rfl, rfl⟩, ?_, fun other _ => Cabinet.ref?_write_of_ref? found _ other⟩
      funext other
      simp only [Memory.get?, Cabinet.get?_write_of_ref? found, Function.update_apply,
        Contents.bytes_empty, eq_comm]
    · exact (Cabinet.ref?_write_of_ref? found _ name).trans found
  | none =>
    refine ⟨⟨⟨name, m.cabinet.nextSerial⟩, 0, true⟩, { m.spend 1 with
      cabinet := m.cabinet.create name .empty }, (runs_tick allowed).bind ?_, ?_, ?_, rfl, rfl⟩
    · simp only [Runs, cabinet_spend, found, Access.creates, if_true]
      rfl
    · refine ⟨⟨rfl, rfl, rfl, rfl, rfl⟩, ?_, fun other differs => ?_⟩
      · funext other
        simp only [Memory.get?, Cabinet.get?_create, Function.update_apply,
          Contents.bytes_empty, eq_comm]
      · simp [Cabinet.ref?_create, differs.symm]
    · simp [Attached, Cabinet.ref?_create]

def afterEmptying (m : Memory) (ref : Cabinet.Ref String) : Memory :=
  { m.spend 1 with
    cabinet := m.cabinet.write ref .empty
    used := m.used - (m.cabinet.read ref).size }

def afterCreating (m : Memory) (name : String) : Memory :=
  { m.spend 1 with cabinet := m.cabinet.create name .empty }

/-- The ways in which opening ends. -/
inductive Opened (m : Memory) (name : String) (access : Access) :
    Except Failure Handle → Memory → Prop
  /-- It was armed to fail. -/
  | due (armed : m.fault = some 0) : Opened m name access (.error (.device .injected)) m.trip
  | absent (missing : m.cabinet.ref? name = none) (existing : access.creates = false) :
    Opened m name access (.error .notFound) (m.spend 1)
  | created (missing : m.cabinet.ref? name = none) (creates : access.creates = true) :
    Opened m name access (.ok ⟨⟨name, m.cabinet.nextSerial⟩, 0, access.writes⟩)
      (m.afterCreating name)
  | emptied (ref : Cabinet.Ref String) (found : m.cabinet.ref? name = some ref)
    (replaced : access = .truncate) :
    Opened m name access (.ok ⟨ref, 0, access.writes⟩) (m.afterEmptying ref)
  | found (ref : Cabinet.Ref String) (found : m.cabinet.ref? name = some ref)
    (kept : access ≠ .truncate) :
    Opened m name access (.ok ⟨ref, 0, access.writes⟩) (m.spend 1)

theorem opened_of_openRecord {access : Access} {result : Except Failure Handle}
    (run : Runs (Device.openRecord name access) m result m₁) : Opened m name access result m₁ := by
  rcases run.bind_cases with ⟨_, m₂, ticking, opening⟩ | ⟨e, ticking, rfl⟩
  · obtain ⟨-, rfl⟩ | ⟨failed, -⟩ := tick_cases ticking
    · dsimp only [Runs, cabinet_spend] at opening
      split at opening
      · rename_i ref found
        split at opening <;> rename_i replaced <;> cases result <;> cases opening
        · exact .emptied ref found replaced
        · exact .found ref found replaced
      · rename_i missing
        split at opening <;> rename_i creates <;> cases result <;> cases opening
        · exact .created missing creates
        · exact .absent missing (Bool.eq_false_iff.2 creates)
    · cases failed
  · obtain ⟨failed, -⟩ | ⟨injected, rfl, armed⟩ := tick_cases ticking
    · cases failed
    · cases injected
      exact .due armed

/-! ## Reading and writing -/

/-- The bytes that an open record reads, whether or not a name leads to it. -/
def contents (m : Memory) (handle : Handle) : Bytes := (m.cabinet.read handle.ref).bytes

theorem Attached.contents {bytes : Bytes} (attached : m.Attached handle name)
    (holds : m.get? name = some bytes) : m.contents handle = bytes :=
  Option.some.inj (attached.get?.symm.trans holds)

theorem runs_read (allowed : m.Allows 1) (handle : Handle) (count : Nat) :
    Runs (Device.read count) (m, handle) (.ok (Bytes.slice (m.contents handle) handle.pos count))
      (m.spend 1, { handle with
        pos := handle.pos + (Bytes.slice (m.contents handle) handle.pos count).length }) := by
  refine (Action.runs_onFirst (runs_tick allowed) handle).bind ?_
  simp [Runs, Contents.slice_eq, Memory.contents]

/-- At the end, and behind it as well, nothing is read. -/
theorem runs_read_of_ended (allowed : m.Allows 1) (handle : Handle)
    (ended : (m.contents handle).length ≤ handle.pos) (count : Nat) :
    Runs (Device.read count) (m, handle) (.ok []) (m.spend 1, handle) := by
  have reading := runs_read allowed handle count
  have nothing : Bytes.slice (m.contents handle) handle.pos count = [] := by
    rw [Bytes.slice, List.drop_eq_nil_of_le ended, List.take_nil]
  rw [nothing] at reading
  exact reading

theorem runs_read_of_due (due : m.fault = some 0) (handle : Handle) (count : Nat) :
    Runs (Device.read count) (m, handle) (.error (.device .injected)) (m.trip, handle) :=
  (Action.runs_onFirst (runs_tick_of_due due) handle).bind_error

theorem runs_seek (allowed : m.Allows 1) (handle : Handle) (pos : Nat) :
    Runs (Device.seek pos) (m, handle) (.ok ()) (m.spend 1, { handle with pos }) :=
  (Action.runs_onFirst (runs_tick allowed) handle).bind rfl

theorem runs_seek_of_due (due : m.fault = some 0) (handle : Handle) (pos : Nat) :
    Runs (Device.seek pos) (m, handle) (.error (.device .injected)) (m.trip, handle) :=
  (Action.runs_onFirst (runs_tick_of_due due) handle).bind_error

/-- There is no gap between the end and the cursor. -/
theorem overruns_of_le (within : handle.pos ≤ (m.cabinet.read handle.ref).size) (bytes : Bytes) :
    m.overruns handle bytes = false := by
  rw [overruns, decide_eq_false (Nat.not_lt.2 within), Bool.false_and]

theorem overruns_of_start (start : handle.pos = 0) (bytes : Bytes) :
    m.overruns handle bytes = false :=
  overruns_of_le (start ▸ Nat.zero_le _) bytes

theorem overruns_of_short {bytes : Bytes} (short : handle.pos + bytes.length ≤ maxExtent) :
    m.overruns handle bytes = false := by
  rw [overruns, decide_eq_false (Nat.not_lt.2 short), Bool.and_false]

/-- The bytes by which a record grows in a write. -/
def growth (m : Memory) (handle : Handle) (bytes : Bytes) : Nat :=
  handle.pos + bytes.length - (m.cabinet.read handle.ref).size

def afterWrite (m : Memory) (handle : Handle) (bytes : Bytes) : Memory :=
  { m.spend 1 with
    cabinet := m.cabinet.write handle.ref ((m.cabinet.read handle.ref).overlay handle.pos bytes)
    used := m.used + m.growth handle bytes }

@[simp] theorem used_afterWrite (m : Memory) (handle : Handle) (bytes : Bytes) :
    (m.afterWrite handle bytes).used = m.used + m.growth handle bytes := rfl

/-- A write that does not overrun succeeds if the record does not grow, or what it grows by fits. -/
theorem runs_write_of_admitted {bytes : Bytes} (allowed : m.Allows 1)
    (writable : handle.writable = true) (inside : m.overruns handle bytes = false)
    (room : m.growth handle bytes = 0 ∨ m.hasRoom (m.growth handle bytes) = true) :
    Runs (Device.write bytes) (m, handle) (.ok ())
      (m.afterWrite handle bytes, { handle with pos := handle.pos + bytes.length }) := by
  refine (Action.runs_onFirst (runs_tick allowed) handle).bind ?_
  have inside' : (m.spend 1).overruns handle bytes = false := inside
  have fits : (decide (handle.pos + bytes.length - ((m.spend 1).cabinet.read handle.ref).size = 0) ||
      (m.spend 1).hasRoom (handle.pos + bytes.length -
        ((m.spend 1).cabinet.read handle.ref).size)) = true := by
    rw [Bool.or_eq_true, decide_eq_true_iff]
    exact room
  simp only [Runs, writable, inside', fits, if_true, Bool.false_eq_true, if_false]
  rfl

theorem runs_write_of_room {old : Bytes} (allowed : m.Allows 1) (attached : m.Attached handle name)
    (writable : handle.writable = true) (holds : m.get? name = some old) (bytes : Bytes)
    (inside : m.overruns handle bytes = false)
    (room : handle.pos + bytes.length - old.length = 0 ∨
      m.hasRoom (handle.pos + bytes.length - old.length) = true) :
    ∃ m', Runs (Device.write bytes) (m, handle) (.ok ())
        (m', { handle with pos := handle.pos + bytes.length }) ∧
      m.Sets 1 name (some (Bytes.overlay old handle.pos bytes)) m' ∧
      m'.used = m.used + (handle.pos + bytes.length - old.length) := by
  have same : (m.cabinet.read handle.ref).bytes = old := attached.contents holds
  have grows : m.growth handle bytes = handle.pos + bytes.length - old.length := by
    rw [growth, ← same, Contents.length_bytes]
  rw [← grows] at room ⊢
  refine ⟨_, runs_write_of_admitted allowed writable inside room,
    ⟨⟨rfl, rfl, rfl, rfl, rfl⟩, ?_, fun other _ => Cabinet.ref?_write_of_ref? attached _ other⟩, rfl⟩
  funext other
  simp only [Memory.get?, afterWrite, Cabinet.get?_write_of_ref? attached, Function.update_apply,
    Contents.bytes_overlay, same, eq_comm]

theorem runs_write {old : Bytes} (unlimited : m.quota = none) (allowed : m.Allows 1)
    (attached : m.Attached handle name) (writable : handle.writable = true)
    (holds : m.get? name = some old) (bytes : Bytes) (inside : m.overruns handle bytes = false) :
    ∃ m', Runs (Device.write bytes) (m, handle) (.ok ())
        (m', { handle with pos := handle.pos + bytes.length }) ∧
      m.Sets 1 name (some (Bytes.overlay old handle.pos bytes)) m' := by
  obtain ⟨m', writing, sets, -⟩ := runs_write_of_room allowed attached writable holds bytes inside
    (.inr (by simp [hasRoom, keepsQuota, unlimited]))
  exact ⟨m', writing, sets⟩

/-- A write that finds no room changes nothing, not even the cursor. -/
theorem runs_write_of_full {old : Bytes} (allowed : m.Allows 1) (attached : m.Attached handle name)
    (writable : handle.writable = true) (holds : m.get? name = some old) (bytes : Bytes)
    (inside : m.overruns handle bytes = false)
    (grows : handle.pos + bytes.length - old.length ≠ 0)
    (full : m.hasRoom (handle.pos + bytes.length - old.length) = false) :
    Runs (Device.write bytes) (m, handle) (.error .outOfSpace) (m.spend 1, handle) := by
  have size : (m.cabinet.read handle.ref).size = old.length := by
    rw [← Contents.length_bytes, Option.some.inj (attached.get?.symm.trans holds)]
  refine (Action.runs_onFirst (runs_tick allowed) handle).bind ?_
  have unfit : (decide (handle.pos + bytes.length - old.length = 0) ||
      (m.spend 1).hasRoom (handle.pos + bytes.length - old.length)) = false := by
    rw [Bool.or_eq_false_iff, decide_eq_false_iff_not]
    exact ⟨grows, full⟩
  have inside' : (m.spend 1).overruns handle bytes = false := inside
  simp only [Runs, writable, inside', cabinet_spend, size, unfit, if_true, Bool.false_eq_true,
    if_false]

theorem runs_write_of_due (due : m.fault = some 0) (handle : Handle) (bytes : Bytes) :
    Runs (Device.write bytes) (m, handle) (.error (.device .injected)) (m.trip, handle) :=
  (Action.runs_onFirst (runs_tick_of_due due) handle).bind_error

/-- The bytes of a write that overruns are charged to no end, unless its end got around all words. -/
theorem afterOverrun_cases (m : Memory) (handle : Handle) (bytes : Bytes) :
    maxExtent < handle.stop bytes ∧ m.afterOverrun handle bytes =
        { m with
          overcharge := m.overcharge + (handle.stop bytes - (m.cabinet.read handle.ref).size) } ∨
      handle.stop bytes ≤ maxExtent ∧ m.afterOverrun handle bytes =
        { m with
          cabinet := m.cabinet.write handle.ref
            ((m.cabinet.read handle.ref).overlay (handle.stop bytes) [])
          used := m.used + (handle.stop bytes - (m.cabinet.read handle.ref).size) } := by
  rcases Nat.lt_or_ge maxExtent (handle.stop bytes) with far | near
  · exact .inl ⟨far, if_pos far⟩
  · exact .inr ⟨near, if_neg (Nat.not_lt.2 near)⟩

/-- Operations that are counted before make no difference to it. -/
theorem afterOverrun_spend (m : Memory) (count : Nat) (handle : Handle) (bytes : Bytes) :
    (m.spend count).afterOverrun handle bytes = (m.afterOverrun handle bytes).spend count := by
  unfold afterOverrun
  dsimp only
  split <;> rfl

/-- A write that overruns finds out too late: no bytes were asked for, or the quota admits them. -/
def Overcharges (m : Memory) (handle : Handle) (bytes : Bytes) : Prop :=
  handle.stop bytes ≤ (m.cabinet.read handle.ref).size ∨
    (m.afterOverrun handle bytes).keepsQuota = true

/-- The ways in which a write ends. -/
inductive Written (m : Memory) (handle : Handle) (bytes : Bytes) :
    Except Failure Unit → Memory → Handle → Prop
  /-- It was armed to fail. -/
  | due (armed : m.fault = some 0) :
    Written m handle bytes (.error (.device .injected)) m.trip handle
  /-- The record was opened for reading. -/
  | refused (readOnly : handle.writable = false) :
    Written m handle bytes (.error (.device .readOnly)) (m.spend 1) handle
  /-- The device is full. -/
  | full (asked : m.overruns handle bytes = true → ¬ m.Overcharges handle bytes) :
    Written m handle bytes (.error .outOfSpace) (m.spend 1) handle
  /-- No record is as large, and the program stops. -/
  | halted (writable : handle.writable = true) (beyond : m.overruns handle bytes = true)
    (charged : m.Overcharges handle bytes) :
    Written m handle bytes (.error .halted) ((m.afterOverrun handle bytes).spend 1) handle
  /-- The bytes are in the record, and those that are new are charged. -/
  | done (writable : handle.writable = true) (inside : m.overruns handle bytes = false)
    (room : m.growth handle bytes = 0 ∨ m.hasRoom (m.growth handle bytes) = true) :
    Written m handle bytes (.ok ()) (m.afterWrite handle bytes)
      { handle with pos := handle.pos + bytes.length }

theorem written_of_write {result : Except Failure Unit} {handle' : Handle} {bytes : Bytes}
    (run : Runs (Device.write bytes) (m, handle) result (m₁, handle')) :
    Written m handle bytes result m₁ handle' := by
  rcases run.bind_cases with ⟨_, ⟨m₂, handle₂⟩, ticked, writing⟩ | ⟨e, ticked, rfl⟩
  · obtain ⟨ticking, kept⟩ := ticked.of_onFirst
    obtain rfl : handle₂ = handle := kept
    obtain ⟨-, counted⟩ | ⟨failed, -⟩ := tick_cases ticking
    · obtain rfl : m₂ = m.spend 1 := counted
      dsimp only [Runs] at writing
      split at writing <;> rename_i writable
      · split at writing <;> rename_i place
        · split at writing <;> rename_i late <;>
            rw [Bool.or_eq_true, decide_eq_true_iff, afterOverrun_spend] at late <;>
            cases result <;> cases writing
          · rw [afterOverrun_spend]
            exact .halted writable place late
          · exact .full fun _ => late
        · split at writing <;> rename_i room <;> cases result <;> cases writing
          · rw [Bool.or_eq_true, decide_eq_true_iff] at room
            exact .done writable (Bool.eq_false_iff.2 place) room
          · exact .full fun beyond => absurd beyond place
      · cases result <;> cases writing
        exact .refused (Bool.eq_false_iff.2 writable)
    · cases failed
  · obtain ⟨ticking, kept⟩ := ticked.of_onFirst
    obtain rfl : handle' = handle := kept
    obtain ⟨failed, -⟩ | ⟨injected, tripped, armed⟩ := tick_cases ticking
    · cases failed
    · cases injected
      obtain rfl : m₁ = m.trip := tripped
      exact .due armed

/-! ## Deleting and listing -/

theorem runs_delete (allowed : m.Allows 1) (present : m.get? name ≠ none) :
    ∃ m', Runs (Device.delete name) m (.ok ()) m' ∧ m.Sets 1 name none m' := by
  have found : ∃ contents, m.cabinet.contents? name = some contents := by
    cases h : m.cabinet.contents? name with
    | some contents => exact ⟨contents, rfl⟩
    | none => simp [Memory.get?, Cabinet.get?, h] at present
  obtain ⟨contents, found⟩ := found
  refine ⟨{ m.spend 1 with
    cabinet := m.cabinet.remove name, used := m.used - contents.size },
    (runs_tick allowed).bind ?_, ⟨⟨rfl, rfl, rfl, rfl, rfl⟩, ?_, ?_⟩⟩
  · simp only [Runs, cabinet_spend, found]
    rfl
  · funext other
    simp only [Memory.get?, Cabinet.get?_remove, Function.update_apply, eq_comm]
  · exact fun other differs => Cabinet.ref?_remove_of_ne _ (Ne.symm differs)

theorem runs_delete_of_absent (allowed : m.Allows 1) (absent : m.get? name = none) :
    Runs (Device.delete name) m (.error .notFound) (m.spend 1) := by
  refine (runs_tick allowed).bind ?_
  have missing : m.cabinet.contents? name = none := by
    simpa [Memory.get?, Cabinet.get?] using absent
  simp [Runs, missing]

theorem runs_delete_of_due (due : m.fault = some 0) (name : String) :
    Runs (Device.delete name) m (.error (.device .injected)) m.trip :=
  (runs_tick_of_due due).bind_error

def afterDeleting (m : Memory) (name : String) (contents : Contents) : Memory :=
  { m.spend 1 with cabinet := m.cabinet.remove name, used := m.used - contents.size }

/-- The ways in which deleting ends. -/
inductive Deleted (m : Memory) (name : String) : Except Failure Unit → Memory → Prop
  /-- It was armed to fail. -/
  | due (armed : m.fault = some 0) : Deleted m name (.error (.device .injected)) m.trip
  | absent (missing : m.cabinet.contents? name = none) :
    Deleted m name (.error .notFound) (m.spend 1)
  | done (contents : Contents) (found : m.cabinet.contents? name = some contents) :
    Deleted m name (.ok ()) (m.afterDeleting name contents)

theorem deleted_of_delete {result : Except Failure Unit}
    (run : Runs (Device.delete name) m result m₁) : Deleted m name result m₁ := by
  rcases run.bind_cases with ⟨_, m₂, ticking, deleting⟩ | ⟨e, ticking, rfl⟩
  · obtain ⟨-, rfl⟩ | ⟨failed, -⟩ := tick_cases ticking
    · dsimp only [Runs, cabinet_spend] at deleting
      split at deleting <;> rename_i found <;> cases result <;> cases deleting
      · exact .done _ found
      · exact .absent found
    · cases failed
  · obtain ⟨failed, -⟩ | ⟨injected, rfl, armed⟩ := tick_cases ticking
    · cases failed
    · cases injected
      exact .due armed

theorem sets_spend_of_absent (absent : m.get? name = none) (count : Nat) :
    m.Sets count name none (m.spend count) where
  toSpends := spends_spend m count
  get? := by rw [get?_spend, ← absent, Function.update_eq_self]
  ref? _ _ := rfl

/-- Whether or not there is a record to delete, none is there afterwards. -/
theorem exists_runs_delete (allowed : m.Allows 1) (name : String) :
    ∃ result m', Runs (Device.delete name) m result m' ∧ m.Sets 1 name none m' := by
  by_cases absent : m.get? name = none
  · exact ⟨_, _, runs_delete_of_absent allowed absent, sets_spend_of_absent absent 1⟩
  · obtain ⟨m', run, sets⟩ := runs_delete allowed absent
    exact ⟨_, m', run, sets⟩

theorem runs_discard (allowed : m.Allows 1) (name : String) :
    ∃ m', Runs (Action.allowAbsence (Device.delete name)) m (.ok ()) m' ∧
      m.Sets 1 name none m' := by
  by_cases absent : m.get? name = none
  · exact ⟨_, Action.runs_allowAbsence_of_absent (runs_delete_of_absent allowed absent),
      sets_spend_of_absent absent 1⟩
  · obtain ⟨m', run, sets⟩ := runs_delete allowed absent
    exact ⟨m', Action.runs_allowAbsence run, sets⟩

theorem runs_list (allowed : m.Allows 1) :
    Runs Device.list m (.ok (m.listing.arrange m.cabinet.names)) (m.spend 1) :=
  (runs_tick allowed).bind rfl

theorem nodup_names (m : Memory) : m.cabinet.names.Nodup := Std.TreeMap.nodup_keys

/-! ## From outside -/

theorem get?_poke (m : Memory) (name : String) (bytes : Bytes) :
    (m.poke name bytes).get? = Function.update m.get? name (some bytes) := by
  funext other
  simp only [Memory.get?, poke, Cabinet.get?_put, Function.update_apply, Contents.bytes_ofBytes,
    eq_comm]

end GlyphShelf.Memory

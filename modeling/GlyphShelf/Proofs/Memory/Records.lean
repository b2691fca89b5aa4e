import GlyphShelf.Proofs.Memory.Operations

/-!
# Whole records of the memory device

A record is read, replaced or patched by opening it, working on it and closing it. Each of
these is one step for everybody above the device, and has two descriptions here: what it does
when no failure is due, with its exact number of operations, and what it leaves behind when one
of its operations is the one that was armed to fail.

A replacement that fails may leave the old bytes, no bytes or the new ones. A patch that fails
has written nothing, unless the failure was that of closing: then it is complete.
-/

namespace GlyphShelf.Memory

variable {m : Memory} {handle : Handle} {name : String} {bytes old : Bytes} {left : Nat}

/-! ## Existence -/

theorem runs_hasRecord (allowed : m.Allows 2) (present : m.get? name = some bytes) :
    Runs (Device.hasRecord name) m (.ok true) (m.spend 2) := by
  obtain ⟨handle, opening, -, -, -⟩ :=
    runs_openRecord_of_present .readOnly (allowed.mono (by omega)) present (by decide)
  have closing := runs_close (allowed.spend 1 1 (by omega)) handle
  rw [spend_spend] at closing
  exact Device.runs_hasRecord_of_present opening closing

theorem runs_hasRecord_of_absent (allowed : m.Allows 1) (absent : m.get? name = none) :
    Runs (Device.hasRecord name) m (.ok false) (m.spend 1) :=
  Device.runs_hasRecord_of_absent (runs_openRecord_of_absent _ allowed absent rfl)

/-- Where no failure is armed the question is always answered. -/
theorem runs_hasRecord_of_quiet (quiet : m.fault = none) (name : String) :
    ∃ count, Runs (Device.hasRecord name) m (.ok (m.get? name).isSome) (m.spend count) := by
  cases found : m.get? name with
  | some bytes => exact ⟨2, runs_hasRecord (allows_of_none quiet 2) found⟩
  | none => exact ⟨1, runs_hasRecord_of_absent (allows_of_none quiet 1) found⟩

theorem runs_hasRecord_of_due (due : m.fault = some 0) (name : String) :
    Runs (Device.hasRecord name) m (.error (.device .injected)) m.trip :=
  Device.runs_hasRecord_of_error (runs_openRecord_of_due due name .readOnly) nofun

/-! ## Reading -/

/-- The next bytes of a record that has at least as many left are read at once. -/
theorem runs_readExact {count : Nat} (allowed : m.Allows 1) (handle : Handle)
    (positive : 0 < count) (enough : count ≤ (m.contents handle).length - handle.pos) :
    Runs (Device.readExact count) (m, handle)
      (.ok (Bytes.slice (m.contents handle) handle.pos count))
      (m.spend 1, { handle with pos := handle.pos + count }) := by
  have reading := runs_read allowed handle count
  have length := Bytes.length_slice (m.contents handle) handle.pos count
  rw [Nat.min_eq_left enough] at length
  rw [length] at reading
  generalize Bytes.slice (m.contents handle) handle.pos count = chunk at reading length ⊢
  have nonempty : chunk.isEmpty = false := by
    rw [List.isEmpty_eq_false_iff, ← List.length_pos_iff]
    omega
  obtain ⟨reads, rfl⟩ : ∃ reads, count = reads + 1 := ⟨count - 1, by omega⟩
  unfold Device.readExact Device.readUpTo
  rw [if_neg (by simp)]
  refine reading.bind ?_
  rw [nonempty, if_neg (by decide), List.nil_append]
  cases reads with
  | zero => exact .pure _ _
  | succ reads =>
    rw [Device.readUpTo, if_pos (Nat.le_of_eq length.symm)]
    exact .pure _ _

/-- Two operations read the first bytes; what comes after them is the closing. -/
theorem runs_readingHead {count : Nat} (allowed : m.Allows 2) (holds : m.get? name = some bytes)
    (positive : 0 < count) (enough : count ≤ bytes.length) :
    ∃ handle handle', Runs (Device.openRecord name .readOnly) m (.ok handle) (m.spend 1) ∧
      Runs (Device.readExact count) (m.spend 1, handle) (.ok (bytes.take count))
        (m.spend 2, handle') := by
  obtain ⟨handle, opening, attached, start, -⟩ :=
    runs_openRecord_of_present .readOnly (allowed.mono (by omega)) holds (by decide)
  have whole : (m.spend 1).contents handle = bytes := attached.contents holds
  have reading := runs_readExact (allowed.spend 1 1 (by omega)) handle positive
    (by rwa [whole, start])
  rw [spend_spend, whole, start] at reading
  exact ⟨handle, _, opening, reading⟩

theorem runs_readHead {count : Nat} (allowed : m.Allows 3) (holds : m.get? name = some bytes)
    (positive : 0 < count) (enough : count ≤ bytes.length) :
    Runs (Device.withRecord name .readOnly (Device.readExact count)) m
      (.ok (bytes.take count)) (m.spend 3) := by
  obtain ⟨handle, handle', opening, reading⟩ :=
    runs_readingHead (allowed.mono (by omega)) holds positive enough
  have closing := runs_close (allowed.spend 2 1 (by omega)) handle'
  rw [spend_spend] at closing
  exact Device.runs_withRecord_of_closed opening reading closing

theorem runs_readHead_of_absent {count : Nat} (allowed : m.Allows 1) (absent : m.get? name = none) :
    Runs (Device.withRecord name .readOnly (Device.readExact count)) m
      (.error .notFound) (m.spend 1) :=
  Device.runs_withRecord_of_unopened (runs_openRecord_of_absent _ allowed absent rfl)

/-- A record that ends before is damaged: once its bytes are read, the next read brings none. -/
theorem runs_readExact_of_short {count : Nat} (quiet : m.fault = none) (handle : Handle)
    (short : (m.contents handle).length - handle.pos < count) :
    ∃ reads, Runs (Device.readExact count) (m, handle)
      (.error (.corrupt (.endOfRecord ((m.contents handle).length - handle.pos) count)))
      (m.spend reads, { handle with
        pos := handle.pos + ((m.contents handle).length - handle.pos) }) := by
  obtain ⟨reads, rfl⟩ : ∃ reads, count = reads + 1 := ⟨count - 1, by omega⟩
  have reading := runs_read (allows_of_none quiet 1) handle (reads + 1)
  have length := Bytes.length_slice (m.contents handle) handle.pos (reads + 1)
  rw [Nat.min_eq_right (Nat.le_of_lt short)] at length
  generalize Bytes.slice (m.contents handle) handle.pos (reads + 1) = chunk at reading length
  unfold Device.readExact Device.readUpTo
  rw [if_neg (by simp), ← length]
  cases chunk with
  | nil => exact ⟨1, reading.bind rfl⟩
  | cons byte chunk =>
    obtain ⟨reads, rfl⟩ : ∃ fewer, reads = fewer + 1 :=
      ⟨reads - 1, by rw [List.length_cons] at length; omega⟩
    have same : (m.spend 1).contents
        { handle with pos := handle.pos + (byte :: chunk).length } = m.contents handle := rfl
    have ending := runs_read_of_ended (allows_of_none (fault_spend quiet 1) 1)
      { handle with pos := handle.pos + (byte :: chunk).length }
      (by rw [same]; dsimp only; omega) (reads + 1 + 1 - (byte :: chunk).length)
    rw [spend_spend] at ending
    refine ⟨1 + 1, reading.bind ?_⟩
    rw [if_neg (by simp), List.nil_append, Device.readUpTo, if_neg (by omega)]
    exact ending.bind rfl

theorem runs_readHead_of_short {count : Nat} (quiet : m.fault = none)
    (holds : m.get? name = some bytes) (short : bytes.length < count) :
    ∃ m', Runs (Device.withRecord name .readOnly (Device.readExact count)) m
      (.error (.corrupt (.endOfRecord bytes.length count))) m' := by
  obtain ⟨handle, opening, attached, start, -⟩ :=
    runs_openRecord_of_present .readOnly (allows_of_none quiet 1) holds (by decide)
  have whole : (m.spend 1).contents handle = bytes := attached.contents holds
  obtain ⟨reads, reading⟩ :=
    runs_readExact_of_short (m := m.spend 1) (fault_spend quiet 1) handle (by rwa [whole, start])
  rw [spend_spend, whole, start, Nat.sub_zero] at reading
  have closing := runs_close (allows_of_none (fault_spend quiet (1 + reads)) 1)
    { handle with pos := 0 + bytes.length }
  exact ⟨_, Device.runs_withRecord_of_failed opening reading closing⟩

/-- Reading changes no record, whichever of its operations fails. -/
theorem runs_readHead_of_armed {count : Nat} (armed : m.fault = some left) (soon : left < 3)
    (holds : m.get? name = some bytes) (positive : 0 < count) (enough : count ≤ bytes.length) :
    ∃ m', Runs (Device.withRecord name .readOnly (Device.readExact count)) m
        (.error (.device .injected)) m' ∧ m.Trips m' ∧ m'.get? = m.get? := by
  obtain rfl | later : left = 0 ∨ 1 ≤ left := by omega
  · exact ⟨_, Device.runs_withRecord_of_unopened (runs_openRecord_of_due armed name _),
      trips_trip m, rfl⟩
  obtain rfl | rfl : left = 1 ∨ left = 2 := by omega
  · obtain ⟨handle, opening, -, -, -⟩ := runs_openRecord_of_present .readOnly
      (allows_of_some armed later) holds (by decide)
    have due : (m.spend 1).fault = some 0 := (spends_spend m 1).fault_eq_some armed
    have failing : Runs (Device.readExact count) (m.spend 1, handle)
        (.error (.device .injected)) ((m.spend 1).trip, handle) := by
      obtain ⟨reads, rfl⟩ : ∃ reads, count = reads + 1 := ⟨count - 1, by omega⟩
      unfold Device.readExact Device.readUpTo
      rw [if_neg (by simp)]
      exact (runs_read_of_due due handle _).bind_error
    have closing := runs_close (m := (m.spend 1).trip) (allows_of_none rfl 1) handle
    refine ⟨_, Device.runs_withRecord_of_failed opening failing closing, ?_, rfl⟩
    exact (spends_spend m 1).trips ((trips_trip _).spends (spends_spend _ 1))
  · have due : (m.spend 2).fault = some 0 := (spends_spend m 2).fault_eq_some armed
    obtain ⟨handle, handle', opening, reading⟩ :=
      runs_readingHead (allows_of_some armed (Nat.le_refl 2)) holds positive enough
    refine ⟨_, Device.runs_withRecord_of_closed opening reading (runs_close_of_due due _), ?_, rfl⟩
    exact (spends_spend m 2).trips (trips_trip _)

/-! ## Reading to the end -/

/-- How many reads find the end of so many bytes: one for each chunk, and one that brings
nothing. -/
def chunkReads (remaining : Nat) : Nat := (remaining + 255) / 256 + 1

/-- A slice and what follows it are all bytes from its start on. -/
theorem slice_append_drop (bytes : Bytes) (pos count : Nat) :
    Bytes.slice bytes pos count ++ bytes.drop (pos + (Bytes.slice bytes pos count).length) =
      bytes.drop pos := by
  rw [← List.drop_drop]
  exact List.prefix_iff_eq_append.1 (List.take_prefix count (bytes.drop pos))

/-- How many reads may be made plays no part, as long as they are more than there are bytes. -/
theorem runs_readChunks {reads : Nat} (handle : Handle) (chunks : List Bytes)
    (allowed : m.Allows (chunkReads ((m.contents handle).length - handle.pos)))
    (enough : (m.contents handle).length - handle.pos < reads) :
    Runs (Device.readChunks reads chunks) (m, handle)
      (.ok (chunks.reverse.flatten ++ (m.contents handle).drop handle.pos))
      (m.spend (chunkReads ((m.contents handle).length - handle.pos)),
        { handle with pos := handle.pos + ((m.contents handle).length - handle.pos) }) := by
  induction reads generalizing m handle chunks with
  | zero => omega
  | succ reads ih =>
    have allowed₁ : m.Allows 1 := allowed.mono (Nat.le_add_left 1 _)
    by_cases ended : (m.contents handle).length ≤ handle.pos
    · rw [Nat.sub_eq_zero_of_le ended, List.drop_eq_nil_of_le ended, List.append_nil]
      exact (runs_read_of_ended allowed₁ handle ended Device.chunkSize).bind (.pure _ _)
    · have reading := runs_read allowed₁ handle Device.chunkSize
      have length := Bytes.length_slice (m.contents handle) handle.pos Device.chunkSize
      have whole := slice_append_drop (m.contents handle) handle.pos Device.chunkSize
      rw [show Device.chunkSize = 256 from rfl] at reading length whole
      generalize Bytes.slice (m.contents handle) handle.pos 256 = chunk at reading length whole
      refine reading.bind ?_
      have nonempty : ¬ chunk.isEmpty = true := by
        rw [List.isEmpty_iff_length_eq_zero]
        omega
      have fewer : chunkReads ((m.contents handle).length - handle.pos) =
          1 + chunkReads ((m.contents handle).length - (handle.pos + chunk.length)) := by
        unfold chunkReads
        omega
      have last : handle.pos + chunk.length +
          ((m.contents handle).length - (handle.pos + chunk.length)) =
          handle.pos + ((m.contents handle).length - handle.pos) := by omega
      have same : (m.spend 1).contents { handle with pos := handle.pos + chunk.length } =
          m.contents handle := rfl
      rw [fewer] at allowed
      have going := ih (m := m.spend 1) { handle with pos := handle.pos + chunk.length }
        (chunk :: chunks) (allowed.spend 1 _ (Nat.le_refl _)) (by rw [same]; dsimp only; omega)
      rw [same] at going
      dsimp only at going
      rw [Memory.spend_spend, List.reverse_cons, List.flatten_append, List.flatten_singleton,
        List.append_assoc, whole, last, ← fewer] at going
      rw [if_neg nonempty]
      exact going

theorem runs_readToEnd (handle : Handle)
    (allowed : m.Allows (chunkReads ((m.contents handle).length - handle.pos))) :
    Runs Device.readToEnd (m, handle) (.ok ((m.contents handle).drop handle.pos))
      (m.spend (chunkReads ((m.contents handle).length - handle.pos)),
        { handle with pos := handle.pos + ((m.contents handle).length - handle.pos) }) := by
  have size : Device.size m handle = (m.contents handle).length := (Contents.length_bytes _).symm
  have enough : (m.contents handle).length - handle.pos < (m.contents handle).length + 1 := by
    omega
  have going := runs_readChunks handle [] allowed enough
  unfold Runs Device.readToEnd
  dsimp only
  rw [size]
  exact going

/-- A record that was just opened is read whole, and closed. -/
theorem runs_takeAll (allowed : m.Allows (chunkReads bytes.length + 1))
    (attached : m.Attached handle name) (start : handle.pos = 0)
    (holds : m.get? name = some bytes) :
    Runs (Device.takeAll handle) m (.ok bytes) (m.spend (chunkReads bytes.length + 1)) := by
  have whole := attached.contents holds
  have reading := runs_readToEnd (m := m) handle
    (by rw [whole, start]; exact allowed.mono (Nat.le_add_right _ 1))
  rw [whole, start, Nat.sub_zero, List.drop_zero] at reading
  have closing := runs_close (allowed.spend _ 1 (Nat.le_refl _))
    { handle with pos := 0 + bytes.length }
  rw [spend_spend] at closing
  exact Device.runs_takeAll reading closing

/-! ## Replacing -/

/-- Two operations replace the bytes; what comes after them is the closing. -/
theorem runs_replacing (unlimited : m.quota = none) (allowed : m.Allows 2) (name : String)
    (bytes : Bytes) :
    ∃ handle handle' m₁ m', Runs (Device.openRecord name .truncate) m (.ok handle) m₁ ∧
      Runs (Device.write bytes) (m₁, handle) (.ok ()) (m', handle') ∧
      m.Sets 2 name (some bytes) m' := by
  obtain ⟨handle, m₁, opening, emptied, attached, start, writable⟩ :=
    runs_openRecord_truncate (allowed.mono (by omega)) name
  obtain ⟨m', writing, written⟩ := runs_write (emptied.quota.trans unlimited)
    (emptied.allows allowed 1 (by omega)) attached writable
    emptied.get?_same bytes (overruns_of_start start bytes)
  have both := emptied.trans written
  rw [start, show Bytes.overlay [] 0 bytes = bytes by simp [Bytes.overlay]] at both
  exact ⟨handle, _, m₁, m', opening, writing, both⟩

theorem runs_replace (unlimited : m.quota = none) (allowed : m.Allows 3) (name : String)
    (bytes : Bytes) :
    ∃ m', Runs (Device.withRecord name .truncate (Device.write bytes)) m (.ok ()) m' ∧
      m.Sets 3 name (some bytes) m' := by
  obtain ⟨handle, handle', m₁, m₂, opening, writing, sets⟩ :=
    runs_replacing unlimited (allowed.mono (by omega)) name bytes
  have closing := runs_close (sets.allows allowed 1 (by omega)) handle'
  exact ⟨_, Device.runs_withRecord_of_closed opening writing closing, sets.spend 1⟩

/-- What a replacement leaves behind that failed at one of its operations. -/
theorem runs_replace_of_armed (unlimited : m.quota = none) (armed : m.fault = some left)
    (soon : left < 3) (name : String) (bytes : Bytes) :
    ∃ value m', Runs (Device.withRecord name .truncate (Device.write bytes)) m
        (.error (.device .injected)) m' ∧ m.Trips m' ∧
      m'.get? = Function.update m.get? name value ∧
      (value = m.get? name ∨ value = some [] ∨ value = some bytes) := by
  obtain rfl | later : left = 0 ∨ 1 ≤ left := by omega
  · refine ⟨m.get? name, _, Device.runs_withRecord_of_unopened
      (runs_openRecord_of_due armed name _), trips_trip m, ?_, .inl rfl⟩
    rw [Function.update_eq_self, get?_trip]
  obtain rfl | rfl : left = 1 ∨ left = 2 := by omega
  · obtain ⟨handle, m₁, opening, emptied, -, -, -⟩ :=
      runs_openRecord_truncate (allows_of_some armed later) name
    have due : m₁.fault = some 0 := emptied.fault_eq_some armed
    have closing := runs_close (m := m₁.trip) (allows_of_none rfl 1) handle
    refine ⟨some [], _, Device.runs_withRecord_of_failed opening
      (runs_write_of_due due handle bytes) closing, ?_, emptied.get?, .inr (.inl rfl)⟩
    exact emptied.trips ((trips_trip m₁).spends (spends_spend _ 1))
  · obtain ⟨handle, handle', m₁, m₂, opening, writing, sets⟩ :=
      runs_replacing unlimited (allows_of_some armed (Nat.le_refl 2)) name bytes
    have due : m₂.fault = some 0 := sets.fault_eq_some armed
    exact ⟨some bytes, _, Device.runs_withRecord_of_closed opening writing
      (runs_close_of_due due handle'), sets.trips (trips_trip m₂), sets.get?, .inr (.inr rfl)⟩

/-! ## Patching -/

/-- Three operations overwrite part of an existing record; what comes after them is the
closing. -/
theorem runs_overwriting (unlimited : m.quota = none) (allowed : m.Allows 3)
    (holds : m.get? name = some old) {pos : Nat} {bytes : Bytes}
    (short : pos + bytes.length ≤ maxExtent) :
    ∃ handle handle' m', Runs (Device.openRecord name .readWrite) m (.ok handle) (m.spend 1) ∧
      Runs (do
        Device.seek pos
        Device.write bytes) (m.spend 1, handle) (.ok ()) (m', handle') ∧
      m.Sets 3 name (some (Bytes.overlay old pos bytes)) m' := by
  obtain ⟨handle, opening, attached, -, writable⟩ :=
    runs_openRecord_of_present .readWrite (allowed.mono (by omega)) holds (by decide)
  have seeking := runs_seek (m := m.spend 1) (allowed.spend 1 1 (by omega))
    handle pos
  rw [spend_spend] at seeking
  have attached' : (m.spend 2).Attached { handle with pos } name := attached
  obtain ⟨m', writing, written⟩ :=
    runs_write (m := m.spend 2) unlimited (allowed.spend 2 1 (by omega)) attached' writable holds
      bytes (overruns_of_short short)
  exact ⟨handle, _, m', opening, seeking.bind writing, written.after_spend⟩

/-- Overwriting part of an existing record. -/
theorem runs_overwrite (unlimited : m.quota = none) (allowed : m.Allows 4)
    (holds : m.get? name = some old) {pos : Nat} {bytes : Bytes}
    (short : pos + bytes.length ≤ maxExtent) :
    ∃ m', Runs (Device.withRecord name .readWrite do
        Device.seek pos
        Device.write bytes) m (.ok ()) m' ∧
      m.Sets 4 name (some (Bytes.overlay old pos bytes)) m' := by
  obtain ⟨handle, handle', m₁, opening, writing, sets⟩ :=
    runs_overwriting unlimited (allowed.mono (by omega)) holds short
  have closing := runs_close (sets.allows allowed 1 (by omega)) handle'
  exact ⟨_, Device.runs_withRecord_of_closed opening writing closing, sets.spend 1⟩

/-- Nothing is overwritten when opening, seeking or writing fails. -/
theorem runs_overwrite_of_armed (armed : m.fault = some left) (soon : left < 3)
    (holds : m.get? name = some old) (pos : Nat) (bytes : Bytes) :
    ∃ m', Runs (Device.withRecord name .readWrite do
        Device.seek pos
        Device.write bytes) m (.error (.device .injected)) m' ∧
      m.Trips m' ∧ m'.get? = m.get? := by
  obtain rfl | later : left = 0 ∨ 1 ≤ left := by omega
  · exact ⟨_, Device.runs_withRecord_of_unopened (runs_openRecord_of_due armed name _),
      trips_trip m, rfl⟩
  obtain ⟨handle, opening, -, -, -⟩ := runs_openRecord_of_present .readWrite
    (allows_of_some armed later) holds (by decide)
  obtain rfl | rfl : left = 1 ∨ left = 2 := by omega
  · have due : (m.spend 1).fault = some 0 := (spends_spend m 1).fault_eq_some armed
    have closing := runs_close (m := (m.spend 1).trip) (allows_of_none rfl 1) handle
    refine ⟨_, Device.runs_withRecord_of_failed opening (runs_seek_of_due due handle pos).bind_error
      closing, ?_, rfl⟩
    exact (spends_spend m 1).trips ((trips_trip _).spends (spends_spend _ 1))
  · have armed₁ : (m.spend 1).fault = some 1 := (spends_spend m 1).fault_eq_some armed
    have due : (m.spend 2).fault = some 0 := (spends_spend m 2).fault_eq_some armed
    have seeking := runs_seek (allows_of_some armed₁ (Nat.le_refl 1)) handle pos
    rw [spend_spend] at seeking
    have closing := runs_close (m := (m.spend 2).trip) (allows_of_none rfl 1) { handle with pos }
    refine ⟨_, Device.runs_withRecord_of_failed opening
      (seeking.bind (runs_write_of_due due { handle with pos } bytes)) closing, ?_, rfl⟩
    exact (spends_spend m 2).trips ((trips_trip _).spends (spends_spend _ 1))

/-- A failure to close comes too late: the record is overwritten. -/
theorem runs_overwrite_of_armed_closing (unlimited : m.quota = none) (armed : m.fault = some 3)
    (holds : m.get? name = some old) {pos : Nat} {bytes : Bytes}
    (short : pos + bytes.length ≤ maxExtent) :
    ∃ m', Runs (Device.withRecord name .readWrite do
        Device.seek pos
        Device.write bytes) m (.error (.device .injected)) m' ∧ m.Trips m' ∧
      m'.get? = Function.update m.get? name (some (Bytes.overlay old pos bytes)) := by
  obtain ⟨handle, handle', m₁, opening, writing, sets⟩ :=
    runs_overwriting unlimited (allows_of_some armed (Nat.le_refl 3)) holds short
  have due : m₁.fault = some 0 := sets.fault_eq_some armed
  exact ⟨_, Device.runs_withRecord_of_closed opening writing (runs_close_of_due due handle'),
    sets.trips (trips_trip m₁), sets.get?⟩

end GlyphShelf.Memory

import GlyphShelf.Proofs.Cabinets
import GlyphShelf.Proofs.Shelf.Guards

/-!
# Devices that keep records in a cabinet

The device in memory and the directory of files have a cabinet in common, where open records
refer to contents by serial. An `Archive` is a view of a device that shows this cabinet: where in
it a record is kept, and what an open record refers to. `Lawful` says of a view what each operation
of the device does to the cabinet; nothing else of the device matters here.

A shelf that stores no glyph under a key, whatever else it does, leaves the payload of that key to
those who have it open: this is the frame `keeping`.
-/

namespace GlyphShelf

variable {σ η ν α : Type} [Ord ν]

/-- A view of a device as a cabinet. -/
structure Archive (σ η ν : Type) [Ord ν] where
  cabinet : σ → Cabinet ν
  /-- Where a record is kept, unless its name leads to something else or nowhere. -/
  place : σ → RecordName → Option ν
  /-- The record that is open, unless something else was opened under its name. -/
  target : η → Option (Cabinet.Ref ν)
  /-- Where the cursor stands. -/
  position : η → Nat
  /-- No failure is armed. -/
  Healthy : σ → Prop
  /-- Whether a cursor can get to a position by reading. -/
  Reaches : Nat → Prop

namespace Archive

variable {archive : Archive σ η ν} {s s₁ s₂ s' : σ} {name kept : RecordName} {key : Key}
variable {bytes : Bytes} {ref : Cabinet.Ref ν} {c : Cabinet ν}

def payload? (archive : Archive σ η ν) (s : σ) (key : Key) : Option Bytes :=
  (archive.place s (.payload key)).bind (archive.cabinet s).get?

/-- The cabinet becomes `c`, and records are kept where they were. -/
structure Becomes (archive : Archive σ η ν) (s s' : σ) (c : Cabinet ν) : Prop where
  cabinet : archive.cabinet s' = c
  place : archive.place s' = archive.place s
  healthy : archive.Healthy s → archive.Healthy s'

/-- What the operations of a device do to its cabinet. -/
structure Lawful [Device σ η] (archive : Archive σ η ν) : Prop where
  place_injective : ∀ {s a b p}, archive.place s a = some p → archive.place s b = some p → a = b
  reaches_mono : ∀ {a b}, a ≤ b → archive.Reaches b → archive.Reaches a
  /-- Opening for reading or overwriting changes nothing. -/
  opening : ∀ {name access s result s'}, access.creates = false →
    Runs (Device.openRecord name.text access) s result s' →
      archive.Becomes s s' (archive.cabinet s) ∧
      ∀ record ref, result = .ok record → archive.target record = some ref →
        archive.place s name = some ref.name ∧ (archive.cabinet s).Holds ref ∧
          archive.position record = 0
  /-- Opening for replacing empties the record or creates it. -/
  emptying : ∀ {name s result s'}, Runs (Device.openRecord name.text .truncate) s result s' →
    (∃ e, result = .error e) ∧ archive.Becomes s s' (archive.cabinet s) ∨
    ∃ record ref, result = .ok record ∧ archive.target record = some ref ∧
      archive.position record = 0 ∧ archive.place s name = some ref.name ∧
      archive.Becomes s s' ((archive.cabinet s).put ref.name .empty) ∧
      ((archive.cabinet s).put ref.name .empty).Holds ref
  /-- Only a record can be read, and reading changes nothing but the cursor. -/
  reading : ∀ {count s record result s' record'},
    Runs (Device.read count) (s, record) result (s', record') →
      archive.Becomes s s' (archive.cabinet s) ∧ archive.target record' = archive.target record ∧
      (∀ bytes, result = .ok bytes → ∃ ref, archive.target record = some ref ∧
        bytes = Bytes.slice ((archive.cabinet s).read ref).bytes (archive.position record) count ∧
        archive.position record' = archive.position record + bytes.length) ∧
      ∀ e, result = .error e → archive.position record' = archive.position record ∧
        (archive.Healthy s → ∀ ref, archive.target record = some ref →
          ¬ archive.Reaches (archive.position record + count))
  seeking : ∀ {pos s record result s' record'},
    Runs (Device.seek pos) (s, record) result (s', record') →
      archive.Becomes s s' (archive.cabinet s) ∧ archive.target record' = archive.target record
  /-- Writing changes the contents of the record or nothing, and if it succeeds it overlays them. -/
  writing : ∀ {bytes s record result s' record'},
    Runs (Device.write bytes) (s, record) result (s', record') →
      archive.Becomes s s' (archive.cabinet s) ∧ (result = .ok () → bytes = []) ∨
      ∃ ref contents, archive.target record = some ref ∧
        archive.Becomes s s' ((archive.cabinet s).write ref contents) ∧
        (result = .ok () → contents =
          ((archive.cabinet s).read ref).overlay (archive.position record) bytes)
  closing : ∀ {s record result s'}, Runs (Device.close record) s result s' →
    archive.Becomes s s' (archive.cabinet s)
  /-- Every record is listed. -/
  listing : ∀ {s result s'}, Runs Device.list s result s' →
    archive.Becomes s s' (archive.cabinet s) ∧
    ∀ names name ref, result = .ok names → archive.place s name = some ref.name →
      (archive.cabinet s).Holds ref → name.text ∈ names
  /-- Whatever the name, no more than one record is taken away. -/
  deleting : ∀ {text s result s'}, Runs (Device.delete text) s result s' →
    archive.Becomes s s' (archive.cabinet s) ∨
    ∃ p, archive.Becomes s s' ((archive.cabinet s).remove p)
  /-- Deleting does not fail on a record that is there. -/
  deleted : ∀ {name s result s'}, archive.Healthy s → Runs (Device.delete name.text) s result s' →
    ∀ ref, archive.place s name = some ref.name → ¬ (archive.cabinet s').Holds ref
  size : ∀ {s record ref}, archive.target record = some ref →
    Device.size s record = ((archive.cabinet s).read ref).size

/-! ## The frame -/

/-- Records are kept where they were, and of the record of one name nobody lost anything. -/
structure Keeps (archive : Archive σ η ν) (kept : RecordName) (s s' : σ) : Prop where
  place : archive.place s' = archive.place s
  healthy : archive.Healthy s → archive.Healthy s'
  spares : Cabinet.Spares (archive.place s kept) (archive.cabinet s) (archive.cabinet s')

theorem Keeps.trans (first : archive.Keeps kept s s₁) (second : archive.Keeps kept s₁ s₂) :
    archive.Keeps kept s s₂ where
  place := second.place.trans first.place
  healthy := second.healthy ∘ first.healthy
  spares := first.spares.trans (first.place ▸ second.spares)

/-- The frame in which the record of one name is not written to. -/
def keeping (archive : Archive σ η ν) (kept : RecordName) : FrameCondition σ where
  allows := archive.Keeps kept
  refl _ := ⟨rfl, id, .refl _ _⟩
  trans := Keeps.trans

theorem Becomes.keeps (becomes : archive.Becomes s s' c)
    (spares : Cabinet.Spares (archive.place s kept) (archive.cabinet s) c) :
    archive.Keeps kept s s' where
  place := becomes.place
  healthy := becomes.healthy
  spares := becomes.cabinet ▸ spares

theorem Becomes.keeps_of_same (becomes : archive.Becomes s s' (archive.cabinet s)) :
    archive.Keeps kept s s' :=
  becomes.keeps (.refl _ _)

/-- The record of a name is given new contents, or created with these contents. -/
structure Refills (archive : Archive σ η ν) (name : RecordName) (contents : Contents) (s s' : σ) :
    Prop where
  place : archive.place s' = archive.place s
  healthy : archive.Healthy s → archive.Healthy s'
  fills : ∃ p, archive.place s name = some p ∧
    Cabinet.Fills p contents (archive.cabinet s) (archive.cabinet s')

theorem Refills.trans {contents later : Contents} (first : archive.Refills name contents s s₁)
    (second : archive.Refills name later s₁ s₂) : archive.Refills name later s s₂ := by
  obtain ⟨p, placed, fills⟩ := first.fills
  obtain ⟨q, placed', fills'⟩ := second.fills
  rw [first.place, placed] at placed'
  obtain rfl := Option.some.inj placed'
  exact ⟨second.place.trans first.place, second.healthy ∘ first.healthy, p, placed,
    fills.trans fills'⟩

theorem Refills.of_becomes {contents : Contents} (refills : archive.Refills name contents s s₁)
    (becomes : archive.Becomes s₁ s₂ (archive.cabinet s₁)) :
    archive.Refills name contents s s₂ where
  place := becomes.place.trans refills.place
  healthy := becomes.healthy ∘ refills.healthy
  fills := becomes.cabinet ▸ refills.fills

namespace Lawful

variable [Device σ η] (lawful : archive.Lawful)

include lawful

theorem respects_close (record : η) :
    Respects (archive.keeping kept) (Device.close record : Action σ Unit) := by
  intro s
  obtain ⟨result, run⟩ := exists_runs (Device.close record : Action σ Unit) s
  exact (lawful.closing run).keeps_of_same

theorem respects_read (count : Nat) :
    Respects (archive.keeping kept).onFirst (Device.read count : Action (σ × η) Bytes) := by
  rintro ⟨s, record⟩
  obtain ⟨result, run⟩ := exists_runs (Device.read count : Action (σ × η) Bytes) (s, record)
  exact (lawful.reading run).1.keeps_of_same

theorem respects_openRecord (name : RecordName) :
    Respects (archive.keeping kept) (Device.openRecord name.text .readOnly : Action σ η) := by
  intro s
  obtain ⟨result, run⟩ := exists_runs (Device.openRecord name.text .readOnly : Action σ η) s
  exact (lawful.opening rfl run).1.keeps_of_same

theorem place_ne (differs : name ≠ kept) (placed : archive.place s name = some ref.name) :
    archive.place s kept ≠ some ref.name :=
  fun same => differs (lawful.place_injective placed same)

/-! ## Reading to the end -/

/-- Chunks are collected up to the end of the record, if a cursor gets that far. -/
theorem collects_of_readChunks {reads : Nat} {chunks : List Bytes} {record : η}
    {result : Except Failure Bytes} {last : σ × η} (healthy : archive.Healthy s)
    (opens : archive.target record = some ref)
    (within : archive.position record ≤ ((archive.cabinet s).read ref).bytes.length)
    (enough : ((archive.cabinet s).read ref).bytes.length - archive.position record < reads)
    (run : Runs (Device.readChunks reads chunks) (s, record) result last) :
    result = .ok (chunks.reverse.flatten ++
        ((archive.cabinet s).read ref).bytes.drop (archive.position record)) ∨
      (∃ e, result = .error e) ∧
        ¬ archive.Reaches (((archive.cabinet s).read ref).bytes.length + Device.chunkSize) := by
  induction reads generalizing chunks s record with
  | zero => omega
  | succ reads ih =>
    unfold Device.readChunks at run
    rcases run.bind_cases with ⟨chunk, ⟨s₁, record₁⟩, reading, rest⟩ | ⟨e, reading, rfl⟩
    · obtain ⟨same, target, reads_chunk, -⟩ := lawful.reading reading
      obtain ⟨ref', opens', sliced, moved⟩ := reads_chunk chunk rfl
      obtain rfl := Option.some.inj (opens.symm.trans opens')
      have length := Bytes.length_slice ((archive.cabinet s).read ref).bytes
        (archive.position record) Device.chunkSize
      have parts := List.prefix_iff_eq_append.1 (List.take_prefix Device.chunkSize
        (((archive.cabinet s).read ref).bytes.drop (archive.position record)))
      change Bytes.slice _ _ _ ++ List.drop (Bytes.slice _ _ _).length _ = _ at parts
      rw [← sliced] at length parts
      rw [show Device.chunkSize = 256 from rfl] at length
      split at rest
      · rename_i ended
        obtain rfl := List.isEmpty_iff.1 ended
        obtain ⟨rfl, -⟩ := rest.deterministic (.pure _ _)
        rw [List.length_nil] at length
        rw [List.drop_eq_nil_of_le (by omega), List.append_nil]
        exact .inl rfl
      · rename_i nonempty
        have some : chunk.length ≠ 0 := fun none =>
          nonempty (List.isEmpty_iff.2 (List.eq_nil_of_length_eq_zero none))
        have going := ih (same.healthy healthy) (target.trans opens)
          (by rw [same.cabinet, moved]; omega) (by rw [same.cabinet, moved]; omega) rest
        rw [same.cabinet, moved, List.reverse_cons, List.flatten_append, List.flatten_singleton,
          List.append_assoc, ← List.drop_drop, parts] at going
        exact going
    · obtain ⟨-, -, -, stays⟩ := lawful.reading reading
      refine .inr ⟨⟨e, rfl⟩, fun reaches => (stays e rfl).2 healthy ref opens ?_⟩
      exact lawful.reaches_mono (Nat.add_le_add_right within _) reaches

theorem collects_of_readToEnd {record : η} {result : Except Failure Bytes} {last : σ × η}
    (healthy : archive.Healthy s) (opens : archive.target record = some ref)
    (within : archive.position record ≤ ((archive.cabinet s).read ref).bytes.length)
    (run : Runs Device.readToEnd (s, record) result last) :
    result = .ok (((archive.cabinet s).read ref).bytes.drop (archive.position record)) ∨
      (∃ e, result = .error e) ∧
        ¬ archive.Reaches (((archive.cabinet s).read ref).bytes.length + Device.chunkSize) := by
  have size := lawful.size (s := s) opens
  have reading : Runs (Device.readChunks (Device.size s record + 1) []) (s, record) result last :=
    run
  refine lawful.collects_of_readChunks healthy opens within ?_ reading
  rw [size, Contents.length_bytes]
  omega

/-- What is not a record cannot be read at all. -/
theorem error_of_readToEnd {record : η} {result : Except Failure Bytes} {last : σ × η}
    (nothing : archive.target record = none)
    (run : Runs Device.readToEnd (s, record) result last) : ∃ e, result = .error e := by
  have reading : Runs (Device.readChunks (Device.size s record + 1) []) (s, record) result last :=
    run
  unfold Device.readChunks at reading
  rcases reading.bind_cases with ⟨chunk, ⟨s₁, record₁⟩, first, -⟩ | ⟨e, -, rfl⟩
  · obtain ⟨-, -, reads_chunk, -⟩ := lawful.reading first
    obtain ⟨ref, opens, -⟩ := reads_chunk chunk rfl
    cases nothing.symm.trans opens
  · exact ⟨e, rfl⟩

/-! ## Writing and deleting -/

variable [Std.TransOrd ν] [Std.LawfulEqOrd ν] [DecidableEq ν]

theorem respects_delete (text : String) :
    Respects (archive.keeping kept) (Device.delete text : Action σ Unit) := by
  intro s
  obtain ⟨result, run⟩ := exists_runs (Device.delete text : Action σ Unit) s
  rcases lawful.deleting run with same | ⟨p, removed⟩
  · exact same.keeps_of_same
  · exact removed.keeps (Cabinet.spares_remove _ _ p)

/-- An empty record that is open is filled with what is written, or with whatever is there when
writing fails. -/
theorem refills_of_write {result : Except Failure Unit} {record record' : η}
    (opens : archive.target record = some ref) (start : archive.position record = 0)
    (placed : archive.place s name = some ref.name) (held : (archive.cabinet s).Holds ref)
    (empty : (archive.cabinet s).read ref = .empty)
    (run : Runs (Device.write bytes) (s, record) result (s', record')) :
    ∃ contents, archive.Refills name contents s s' ∧
      (result = .ok () → contents.bytes = bytes) := by
  rcases lawful.writing run with ⟨still, none⟩ | ⟨ref', contents, opens', filled, overlaid⟩
  · refine ⟨.empty, ⟨still.place, still.healthy, ref.name, placed, ?_⟩, fun ok => (none ok).symm⟩
    rw [still.cabinet]
    refine .refl fun r found => ?_
    obtain rfl := Option.some.inj (held.symm.trans found)
    exact empty
  · obtain rfl := Option.some.inj (opens.symm.trans opens')
    refine ⟨contents, ⟨filled.place, filled.healthy, ref.name, placed, ?_⟩, fun ok => ?_⟩
    · rw [filled.cabinet]
      exact Cabinet.fills_write held _
    · rw [overlaid ok, empty, start]
      simp [Bytes.overlay]

/-- A record that is replaced is filled with what is written, if nothing fails. -/
theorem refills_of_replace {result : Except Failure Unit}
    (run : Runs (Device.withRecord name.text .truncate (Device.write bytes)) s result s') :
    (∃ e, result = .error e) ∧ archive.Becomes s s' (archive.cabinet s) ∨
    ∃ contents, archive.Refills name contents s s' ∧
      (result = .ok () → contents.bytes = bytes) := by
  obtain ⟨opened, opening⟩ := exists_runs (Device.openRecord name.text .truncate : Action σ η) s
  generalize stateAfter (Device.openRecord name.text .truncate : Action σ η) s = s₁ at opening
  rcases lawful.emptying opening with ⟨⟨e, rfl⟩, same⟩ | ⟨record, ref, rfl, opens, start, placed,
    emptied, held⟩
  · obtain ⟨rfl, rfl⟩ := run.deterministic (Device.runs_withRecord_of_unopened opening)
    exact .inl ⟨⟨e, rfl⟩, same⟩
  · right
    have first : archive.Refills name .empty s s₁ := by
      refine ⟨emptied.place, emptied.healthy, ref.name, placed, ?_⟩
      rw [emptied.cabinet]
      exact Cabinet.fills_put _ _ _
    obtain ⟨written, writing⟩ := exists_runs (Device.write bytes : Action (σ × η) Unit) (s₁, record)
    generalize stateAfter (Device.write bytes : Action (σ × η) Unit) (s₁, record) = last at writing
    obtain ⟨s₂, record'⟩ := last
    obtain ⟨closed, closing⟩ := exists_runs (Device.close record' : Action σ Unit) s₂
    have ending : (result = .ok () → written = .ok ()) ∧
        s' = stateAfter (Device.close record' : Action σ Unit) s₂ := by
      cases written with
      | ok _ =>
        obtain ⟨rfl, rfl⟩ := run.deterministic
          (Device.runs_withRecord_of_closed opening writing closing)
        exact ⟨fun _ => rfl, rfl⟩
      | error e =>
        obtain ⟨rfl, rfl⟩ := run.deterministic
          (Device.runs_withRecord_of_failed opening writing closing)
        exact ⟨nofun, rfl⟩
    obtain ⟨succeeds, rfl⟩ := ending
    have held₁ : (archive.cabinet s₁).Holds ref := emptied.cabinet ▸ held
    have empty : (archive.cabinet s₁).read ref = .empty := by
      rw [emptied.cabinet]
      exact (Cabinet.fills_put _ _ _).there ref held
    obtain ⟨contents, second, wrote⟩ :=
      lawful.refills_of_write opens start (emptied.place ▸ placed) held₁ empty writing
    exact ⟨contents, (first.trans second).of_becomes (lawful.closing closing), wrote ∘ succeeds⟩

theorem respects_replace (differs : name ≠ kept) (bytes : Bytes) :
    Respects (archive.keeping kept)
      (Device.withRecord name.text .truncate (Device.write bytes) : Action σ Unit) := by
  intro s
  obtain ⟨result, run⟩ := exists_runs
    (Device.withRecord name.text .truncate (Device.write bytes) : Action σ Unit) s
  rcases lawful.refills_of_replace run with ⟨-, same⟩ | ⟨contents, refills, -⟩
  · exact same.keeps_of_same
  · obtain ⟨p, placed, fills⟩ := refills.fills
    refine ⟨refills.place, refills.healthy, fills.spares _ fun same => ?_⟩
    exact differs (lawful.place_injective placed same)

theorem respects_overwrite (differs : name ≠ kept) (pos : Nat) (bytes : Bytes) :
    Respects (archive.keeping kept) (Device.withRecord name.text .readWrite (do
      Device.seek pos
      Device.write bytes) : Action σ Unit) := by
  have opening : Respects (archive.keeping kept)
      (Device.openRecord name.text .readWrite : Action σ η) := by
    intro s
    obtain ⟨result, run⟩ := exists_runs (Device.openRecord name.text .readWrite : Action σ η) s
    exact (lawful.opening rfl run).1.keeps_of_same
  refine Device.respects_withRecord opening ?_ lawful.respects_close
  intro s record s₁ opened
  obtain ⟨same, refers⟩ := lawful.opening rfl opened
  obtain ⟨result, run⟩ := exists_runs (do
    Device.seek pos
    Device.write bytes : Action (σ × η) Unit) (s₁, record)
  generalize stateAfter _ (s₁, record) = last at run ⊢
  obtain ⟨s₃, record₃⟩ := last
  rcases run.bind_cases with ⟨_, ⟨s₂, record₂⟩, seeking, writing⟩ | ⟨e, failing, -⟩
  · obtain ⟨still, target⟩ := lawful.seeking seeking
    refine (archive.keeping kept).trans still.keeps_of_same ?_
    rcases lawful.writing writing with ⟨unwritten, -⟩ | ⟨ref, contents, opens, filled, -⟩
    · exact unwritten.keeps_of_same
    · obtain ⟨placed, held, -⟩ := refers record ref rfl (target ▸ opens)
      refine filled.keeps (Cabinet.spares_write ?_ ?_ _)
      · rwa [still.cabinet, same.cabinet]
      · rw [still.place, same.place]
        exact lawful.place_ne differs placed
  · exact (lawful.seeking failing).1.keeps_of_same

/-- Nothing but storing under a key writes to the payload of that key. -/
theorem guards_keeping (key : Key) : Shelf.Guards (archive.keeping (.payload key)) :=
  have apart (link : Key) : RecordName.link link ≠ .payload key := nofun
  { opening := lawful.respects_openRecord
    reading := lawful.respects_read
    closing := lawful.respects_close
    replacing link bytes := lawful.respects_replace (apart link) bytes
    overwriting link pos bytes := lawful.respects_overwrite (apart link) pos bytes
    deleting name _ := lawful.respects_delete name
    listing s := by
      obtain ⟨result, run⟩ := exists_runs (Device.list : Action σ (List String)) s
      exact (lawful.listing run).1.keeps_of_same
    discarding _ := (respects_ofExcept _).bind fun _ => lawful.respects_delete _ }

end Lawful

end Archive

end GlyphShelf

import GlyphShelf.Proofs.Directory.Archive
import GlyphShelf.Proofs.Memory.Archive
import GlyphShelf.Proofs.Shelf.Readers

/-!
# Reading an open entry

Devices take no copy of a record that is open: who reads it sees what is written to it. A glyph put
under the key of an open entry empties its record and fills it anew, and a reader in the middle of
it goes on in the middle of another payload; a glyph that the device refuses leaves it without any.
Nothing else disturbs a reader. A record that is deleted stays as it is for those who have it open,
and a glyph put under its key later is written to another one. So a reader collects one whole
payload, as long as every payload that is written to its record is taken by the device and begins
with what the reader has by then.
-/

namespace GlyphShelf.Shelf

variable {σ η ν : Type} [Device σ η] [Ord ν] {archive : Archive σ η ν} {key : Key}

/-- An entry is opened by opening its payload, and after that no other record is touched than those
of links. -/
theorem runs_openPayload_of_openEntry {frame : FrameCondition σ} {site site' : σ × Shelf}
    {record : η} (promoting : Respects frame (Ring.promote key : Action σ Bool))
    (run : Runs (openEntry key) site (.ok record) site') : ∃ s,
      Runs (Payloads.openPayload key) site.1 (.ok record) s ∧ frame.allows s site'.1 := by
  obtain ⟨found, ⟨s, shelf⟩, opening, rest⟩ := run.bind_ok
  have after : frame.allows s site'.1 := ((respects_onFirst promoting).bind fun _ =>
    (respects_tell .hit).bind fun _ => .pure found).run rest
  obtain ⟨_, s₁, -, rest⟩ := rest.bind_ok
  obtain ⟨_, s₂, -, rest⟩ := rest.bind_ok
  obtain ⟨found, -⟩ := rest.deterministic (.pure _ _)
  obtain rfl := Except.ok.inj found
  refine ⟨s, ?_, after⟩
  unfold Runs orMiss at opening
  dsimp only at opening
  split at opening <;> cases opening
  assumption

/-- A shelf is opened on a device, some operations are executed, an entry is opened, and while it
is read some more operations are executed. -/
structure Reading (σ : Type) where
  start : σ
  settings : Settings := {}
  before : List Operation := []
  key : Key
  steps : List Reader.Step

namespace Reading

/-- The device with the shelf just opened, unless that fails. -/
def site? (reading : Reading σ) : Option (σ × Shelf) :=
  match (openOn reading.settings : Action σ Shelf) reading.start with
  | .ok shelf s => some (s, shelf)
  | .error _ _ => none

/-- The reader that has just opened the entry, unless that fails. -/
def reader? (reading : Reading σ) : Option (Reader σ η) :=
  reading.site?.bind fun site =>
    match (openEntry reading.key : Action (σ × Shelf) η)
        (reading.before.foldl Operation.after site) with
    | .ok record site => some { site, record }
    | .error _ _ => none

/-- The bytes that are read in all, with what is left read to the end. -/
def payload? (reading : Reading σ) : Option Bytes :=
  reading.reader?.bind fun reader => (reading.steps.foldl Reader.after reader).finish

/-- The payload was stored under the key: by an operation before the entry was opened or later, or
already when the shelf was opened, which took it over then. -/
inductive Stored (archive : Archive σ η ν) (reading : Reading σ) (payload : Bytes) : Prop
  | before {site : σ × Shelf} {moment : (σ × Shelf) × Operation}
      (opened : reading.site? = some site)
      (met : moment ∈ moments Operation.after site reading.before)
      (stores : moment.2.Stores reading.key payload moment.1.1)
  | later {reader : Reader σ η} {moment : Reader σ η × Reader.Step} {done : Operation}
      (opened : reading.reader? = some reader)
      (met : moment ∈ moments Reader.after reader reading.steps)
      (operates : moment.2 = .operation done)
      (stores : done.Stores reading.key payload moment.1.site.1)
  | takenOver (warm : reading.settings.cold = false)
      (found : archive.payload? reading.start reading.key = some payload)

/-- The device works, and the reader can do with all glyphs put under the key. -/
structure Fair (archive : Archive σ η ν) (reading : Reading σ) : Prop where
  sound : (archive.cabinet reading.start).Sound
  healthy : archive.Healthy reading.start
  undisturbed : ∀ reader ∈ reading.reader?,
    reader.Undisturbed archive reading.key reading.steps

variable [Std.TransOrd ν] [Std.LawfulEqOrd ν] [DecidableEq ν] (lawful : archive.Lawful)
variable {reading : Reading σ} {reader : Reader σ η}

include lawful

/-- When the shelf has been opened, what is under the key was taken over. -/
theorem orderly_site (fair : reading.Fair archive) (glyph : ¬ reading.key.IsAnchor)
    {site : σ × Shelf} (opened : reading.site? = some site) :
    Orderly archive (reading.Stored archive) reading.key site.1 := by
  have guards := lawful.guards_keeping reading.key
  have run : Runs (openOn reading.settings) reading.start (.ok site.2) site.1 := by
    unfold site? at opened
    unfold Runs
    split at opened <;> cases opened
    assumption
  have keeps := (guards.respects_openOn reading.settings).run run
  cases cold : reading.settings.cold with
  | true =>
    exact (vacant_of_openOn lawful cold glyph fair.healthy run).orderly
      (keeps.spares.sound fair.sound) (keeps.healthy fair.healthy)
  | false =>
    refine Orderly.of_keeps keeps ⟨fair.sound, fair.healthy, fun ref placed held => ?_⟩
    refine .takenOver cold ?_
    rw [Archive.payload?, placed]
    exact Cabinet.get?_of_holds held

/-- When the entry is opened, what is under the key was stored there. -/
theorem orderly_before (fair : reading.Fair archive) (glyph : ¬ reading.key.IsAnchor)
    {site : σ × Shelf} (opened : reading.site? = some site) :
    Orderly archive (reading.Stored archive) reading.key
      (reading.before.foldl Operation.after site).1 :=
  foldl_induction (motive := fun site : σ × Shelf =>
      Orderly archive (reading.Stored archive) reading.key site.1)
    (orderly_site lawful fair glyph opened) fun moment met =>
      moment.2.orderly_after lawful glyph fun _ stores => .before opened met stores

/-- A reader starts with a payload that was stored under the key. -/
theorem follows_reader (fair : reading.Fair archive) (opened : reading.reader? = some reader) :
    ¬ reading.key.IsAnchor ∧
      reader.Follows archive (reading.Stored archive) reading.key := by
  have guards := lawful.guards_keeping reading.key
  unfold reader? at opened
  obtain ⟨site, taken, opened⟩ := Option.bind_eq_some_iff.1 opened
  split at opened <;> cases opened
  rename_i record site' opening
  obtain ⟨s, run, keeps⟩ := runs_openPayload_of_openEntry (guards.respects_promote _) opening
  have glyph : ¬ reading.key.IsAnchor := by
    intro anchor
    obtain ⟨refused, -⟩ := run.deterministic (Action.refuses_anchor anchor _ _)
    cases refused
  rw [Payloads.openPayload, Action.requireGlyph_bind glyph] at run
  obtain ⟨same, refers⟩ := lawful.opening rfl run
  have orderly := orderly_before lawful fair glyph taken
  have follows : Reader.Follows archive (reading.Stored archive) reading.key
      { site := (s, site'.2), record } := by
    refine Reader.follows_start (orderly.of_keeps same.keeps_of_same) fun ref target => ?_
    obtain ⟨placed, held, start⟩ := refers record ref rfl target
    exact ⟨same.place ▸ placed, same.cabinet ▸ held, start⟩
  -- Only the promotion of the key comes after that.
  exact ⟨glyph, follows.of_keeps keeps⟩

/-- What is opened cannot be read at all, or one payload that was stored under the key is read,
if a cursor can get to its end. -/
theorem cases_of_reader (fair : reading.Fair archive) (opened : reading.reader? = some reader) :
    archive.target reader.record = none ∧ reading.payload? = none ∨
    ∃ payload, reading.Stored archive payload ∧ (reading.payload? = some payload ∨
      reading.payload? = none ∧ ¬ archive.Reaches (payload.length + Device.chunkSize)) := by
  obtain ⟨glyph, follows⟩ := follows_reader lawful fair opened
  have last := Reader.follows_steps lawful glyph
    (fun moment met done bytes operates stores => .later opened met operates stores)
    (fair.undisturbed reader opened) follows
  have target := Reader.target_foldl lawful reader reading.steps
  rw [payload?, opened, Option.bind_some]
  cases found : archive.target reader.record with
  | none => exact .inl ⟨rfl, Reader.finish_of_nothing lawful (target.trans found)⟩
  | some ref => exact .inr (Reader.finish_of_follows lawful last (target.trans found))

end Reading

/-- Whoever opens an entry reads one whole payload that was stored under its key, in memory and in a
directory, whatever is done with the shelf meanwhile, if the glyphs put under that key can be done
with. In a directory a folder may be opened instead of a payload, but not read, and the cursor may
not get to the end of a payload that is longer than any cursor can count. -/
theorem one_payload_read :
    (∀ (reading : Reading Memory) (reader : Reader Memory Memory.Handle),
      reading.Fair Memory.archive → reading.reader? = some reader →
        ∃ payload, reading.payload? = some payload ∧ reading.Stored Memory.archive payload) ∧
    ∀ (reading : Reading Directory) (reader : Reader Directory Directory.Handle),
      reading.Fair Directory.archive → reading.reader? = some reader →
        (∃ number, reader.record.target = .folder number) ∧ reading.payload? = none ∨
        ∃ payload, reading.Stored Directory.archive payload ∧ (reading.payload? = some payload ∨
          reading.payload? = none ∧
            Directory.maxPosition < payload.length + Device.chunkSize) := by
  refine ⟨fun reading reader fair opened => ?_, fun reading reader fair opened => ?_⟩
  · rcases Reading.cases_of_reader Memory.lawful_archive fair opened with ⟨nothing, -⟩ |
      ⟨payload, stored, read | ⟨-, beyond⟩⟩
    · cases nothing
    · exact ⟨payload, read, stored⟩
    · exact absurd trivial beyond
  · rcases Reading.cases_of_reader Directory.lawful_archive fair opened with ⟨nothing, unread⟩ |
      ⟨payload, stored, read | ⟨unread, beyond⟩⟩
    · refine .inl ⟨?_, unread⟩
      change reader.record.target.file? = none at nothing
      cases target : reader.record.target with
      | file ref => rw [target] at nothing; cases nothing
      | folder number => exact ⟨number, rfl⟩
    · exact .inr ⟨payload, stored, .inl read⟩
    · exact .inr ⟨payload, stored, .inr ⟨unread, Nat.lt_of_not_le beyond⟩⟩

/-- Two bytes are read, the payload is put with another ending, one more byte is read, and then the
shelf is wiped and another payload is put under the key. -/
def extended (start : σ) : Reading σ where
  start
  before := [.put ⟨1⟩ [1, 2, 3], .put ⟨2⟩ [4]]
  key := ⟨1⟩
  steps := [.read 2, .operation (.put ⟨1⟩ [1, 2, 5, 6]), .read 1, .operation .reset,
    .operation (.put ⟨1⟩ [7])]

theorem extended_payload_read :
    ((extended ({ quota := some 30 } : Memory)).payload? = some [1, 2, 5, 6] ∧
      (extended ({ quota := some 30 } : Memory)).Stored Memory.archive [1, 2, 5, 6]) ∧
    (extended ({} : Directory)).payload? = some [1, 2, 5, 6] ∧
      (extended ({} : Directory)).Stored Directory.archive [1, 2, 5, 6] := by
  have inMemory : (extended ({ quota := some 30 } : Memory)).Fair Memory.archive :=
    ⟨Cabinet.sound_empty, rfl, by decide +kernel⟩
  have inDirectory : (extended ({} : Directory)).Fair Directory.archive :=
    ⟨Cabinet.sound_empty, trivial, by decide +kernel⟩
  have fromMemory : (extended ({ quota := some 30 } : Memory)).payload? = some [1, 2, 5, 6] := by
    decide +kernel
  have fromDirectory : (extended ({} : Directory)).payload? = some [1, 2, 5, 6] := by
    decide +kernel
  obtain ⟨reader, opened⟩ : ∃ reader, (extended ({ quota := some 30 } : Memory)).reader? =
    some reader := Option.isSome_iff_exists.1 (by decide +kernel)
  obtain ⟨reader', opened'⟩ : ∃ reader, (extended ({} : Directory)).reader? = some reader :=
    Option.isSome_iff_exists.1 (by decide +kernel)
  obtain ⟨payload, read, stored⟩ := one_payload_read.1 _ reader inMemory opened
  refine ⟨⟨fromMemory, ?_⟩, fromDirectory, ?_⟩
  · obtain rfl := Option.some.inj (fromMemory.symm.trans read)
    exact stored
  · rcases one_payload_read.2 _ reader' inDirectory opened' with ⟨-, unread⟩ |
      ⟨payload', stored', read' | ⟨unread, -⟩⟩
    · cases fromDirectory.symm.trans unread
    · obtain rfl := Option.some.inj (fromDirectory.symm.trans read')
      exact stored'
    · cases fromDirectory.symm.trans unread

/-- What was stored was put, unless it was there before. -/
theorem Reading.Stored.was_put {reading : Reading σ} {payload : Bytes}
    (stored : reading.Stored archive payload) :
    .put reading.key payload ∈ reading.before ∨
      .operation (.put reading.key payload) ∈ reading.steps ∨
      archive.payload? reading.start reading.key = some payload := by
  cases stored with
  | before opened met stores => exact .inl (stores.1 ▸ (List.of_mem_zip met).2)
  | later opened met operates stores =>
    exact .inr (.inl (stores.1 ▸ operates ▸ (List.of_mem_zip met).2))
  | takenOver warm found => exact .inr (.inr found)

/-- Two bytes are read, and then another payload is put under the key. -/
def overwritten (start : σ) (later : Bytes) : Reading σ where
  start
  before := [.put ⟨1⟩ [1, 2, 3, 4, 5]]
  key := ⟨1⟩
  steps := [.read 2, .operation (.put ⟨1⟩ later)]

/-- If the other payload does not begin with the two bytes, the reader gets a mixture of both. If
the device has no room for it, the reader gets nothing more. -/
theorem mixed_payload_read :
    ((overwritten ({} : Memory) [6, 7, 8, 9, 10]).payload? = some [1, 2, 8, 9, 10] ∧
      ¬ (overwritten ({} : Memory) [6, 7, 8, 9, 10]).Stored Memory.archive [1, 2, 8, 9, 10]) ∧
    ((overwritten ({} : Directory) [6, 7, 8, 9, 10]).payload? = some [1, 2, 8, 9, 10] ∧
      ¬ (overwritten ({} : Directory) [6, 7, 8, 9, 10]).Stored Directory.archive [1, 2, 8, 9, 10]) ∧
    (overwritten ({ quota := some 17 } : Memory) [1, 2, 3, 4, 5, 6]).payload? = some [1, 2] ∧
      ¬ (overwritten ({ quota := some 17 } : Memory) [1, 2, 3, 4, 5, 6]).Stored Memory.archive
        [1, 2] := by
  refine ⟨⟨by decide +kernel, fun stored => ?_⟩, ⟨by decide +kernel, fun stored => ?_⟩,
    by decide +kernel, fun stored => ?_⟩
  · exact absurd stored.was_put (by decide +kernel)
  · exact absurd stored.was_put (by decide +kernel)
  · exact absurd stored.was_put (by decide +kernel)

end GlyphShelf.Shelf

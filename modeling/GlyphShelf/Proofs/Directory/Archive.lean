import GlyphShelf.Proofs.Archives
import GlyphShelf.Proofs.Directory.Places

/-!
# The cabinet of a directory

The files of all folders are one cabinet, and the place of a record is found by following its name.
Where a name leads to a folder the device opens that instead, and where it leads nowhere the device
fails; neither touches a file. Nothing limits a directory but the greatest position of a cursor.
-/

namespace GlyphShelf.Directory

variable {d d' : Directory} {access : Access} {name : RecordName} {text : String} {bytes : Bytes}
variable {handle handle' : Handle} {p : Place} {c : Cabinet Place}

/-- The file that is open, unless it is a folder. -/
def Target.file? : Target → Option (Cabinet.Ref Place)
  | .file ref => some ref
  | .folder _ => none

def archive : Archive Directory Handle Place where
  cabinet d := d.files
  place d := d.place
  target handle := handle.target.file?
  position handle := handle.pos
  Healthy _ := True
  Reaches pos := pos ≤ maxPosition

theorem becomes_with_files (d : Directory) (c : Cabinet Place) :
    archive.Becomes d { d with files := c } c :=
  ⟨rfl, place_with_files d c, id⟩

theorem becomes_self (d : Directory) : archive.Becomes d d d.files := becomes_with_files d d.files

theorem contains_iff : d.files.named.contains p = true ↔ ∃ ref, d.files.ref? p = some ref := by
  rw [Cabinet.ref?, ← Std.TreeMap.mem_iff_contains, Std.TreeMap.mem_iff_isSome_getElem?,
    Option.isSome_iff_exists]
  constructor
  · rintro ⟨stored, found⟩
    exact ⟨⟨p, stored.serial⟩, by rw [found, Option.map_some]⟩
  · rintro ⟨ref, found⟩
    obtain ⟨stored, found, -⟩ := Option.map_eq_some_iff.1 found
    exact ⟨stored, found⟩

/-- What a name leads to. -/
theorem reach_of_locate {found : Approach} (located : d.locate name.text = .ok found) :
    (∃ e, d.reach found = .error e) ∨ (∃ number, d.reach found = .ok (.folder number)) ∨
    (∃ p ref, d.reach found = .ok (.file p) ∧ d.place name = some p ∧ d.files.ref? p = some ref) ∨
    ∃ p, d.reach found = .ok (.vacant p) ∧ d.files.ref? p = none ∧
      (found.slashed = false → d.place name = some p) := by
  obtain ⟨named, -⟩ := locate_text located
  obtain ⟨folder, last, slashed⟩ := found
  obtain rfl : last = .ordinary name.text := named
  unfold reach
  dsimp only
  cases looked : d.lookUp folder name.text with
  | error e => exact .inl ⟨e, rfl⟩
  | ok spot =>
    cases spot with
    | folder number => exact .inr (.inl ⟨number, rfl⟩)
    | file p =>
      obtain ⟨rfl, admits⟩ := admits_of_lookUp (.inl looked)
      cases slashed with
      | true => exact .inl ⟨.notADirectory, rfl⟩
      | false =>
        have there := lookUp_of_admits admits
        rw [looked] at there
        have held : d.files.named.contains (⟨folder, name.text⟩ : Place) = true := by
          cases held : d.files.named.contains (⟨folder, name.text⟩ : Place) with
          | true => rfl
          | false => rw [held] at there; cases there
        obtain ⟨ref, found⟩ := contains_iff.1 held
        exact .inr (.inr (.inl ⟨_, ref, rfl, place_eq_some_iff.2 ⟨located, admits⟩, found⟩))
    | vacant p =>
      obtain ⟨rfl, admits⟩ := admits_of_lookUp (.inr looked)
      have there := lookUp_of_admits admits
      rw [looked] at there
      have missing : ¬ d.files.named.contains (⟨folder, name.text⟩ : Place) = true := by
        intro held
        rw [held] at there
        cases there
      refine .inr (.inr (.inr ⟨_, rfl, ?_, ?_⟩))
      · cases found : d.files.ref? ⟨folder, name.text⟩ with
        | none => rfl
        | some ref => exact absurd (contains_iff.2 ⟨ref, found⟩) missing
      · rintro rfl
        exact place_eq_some_iff.2 ⟨located, admits⟩

/-- Opening leaves the files alone, or it opens the file at the place of the record, or it creates
one there. -/
theorem cases_of_openRecord {result : Except Failure Handle}
    (run : Runs (openRecord name.text access) d result d') :
    (d' = d ∧ ((∃ e, result = .error e) ∨
      access.writes = false ∧ ∃ number, result = .ok ⟨.folder number, 0, false⟩)) ∨
    (∃ p ref, d.place name = some p ∧ d.files.ref? p = some ref ∧
      result = .ok ⟨.file ref, 0, access.writes⟩ ∧
      d' = if access = .truncate then { d with files := d.files.write ref .empty } else d) ∨
    ∃ p, d.place name = some p ∧ d.files.ref? p = none ∧ access.creates = true ∧
      result = .ok ⟨.file ⟨p, d.files.nextSerial⟩, 0, access.writes⟩ ∧
      d' = { d with files := d.files.create p .empty } := by
  unfold Runs openRecord at run
  cases located : d.locate name.text with
  | error e =>
    rw [located] at run
    cases result <;> cases run
    exact .inl ⟨rfl, .inl ⟨e, rfl⟩⟩
  | ok found =>
    rw [located] at run
    dsimp only at run
    split at run
    · cases result <;> cases run
      exact .inl ⟨rfl, .inl ⟨_, rfl⟩⟩
    · rename_i unrefused
      rcases reach_of_locate located with ⟨e, leads⟩ | ⟨number, leads⟩ |
        ⟨p, ref, leads, placed, held⟩ | ⟨p, leads, free, placed⟩
      · rw [leads] at run
        cases result <;> cases run
        exact .inl ⟨rfl, .inl ⟨_, rfl⟩⟩
      · rw [leads] at run
        dsimp only at run
        split at run
        · cases result <;> cases run
          exact .inl ⟨rfl, .inl ⟨_, rfl⟩⟩
        · rename_i unwritable
          cases result <;> cases run
          exact .inl ⟨rfl, .inr ⟨Bool.eq_false_iff.2 unwritable, number, rfl⟩⟩
      · rw [leads] at run
        dsimp only at run
        rw [held] at run
        cases result <;> cases run
        exact .inr (.inl ⟨p, ref, placed, held, rfl, rfl⟩)
      · rw [leads] at run
        dsimp only at run
        split at run
        · rename_i creates
          have unslashed : found.slashed = false := by
            simpa [creates] using unrefused
          cases result <;> cases run
          exact .inr (.inr ⟨p, placed unslashed, free, creates, rfl, rfl⟩)
        · cases result <;> cases run
          exact .inl ⟨rfl, .inl ⟨_, rfl⟩⟩

theorem finds_of_openRecord {result : Except Failure Handle} (existing : access.creates = false)
    (run : Runs (openRecord name.text access) d result d') :
    archive.Becomes d d' d.files ∧ ∀ handle ref, result = .ok handle →
      archive.target handle = some ref → archive.place d name = some ref.name ∧
        d.files.Holds ref ∧ archive.position handle = 0 := by
  rcases cases_of_openRecord run with ⟨rfl, unopened⟩ | ⟨p, ref, placed, found, rfl, rfl⟩ |
    ⟨p, -, -, creates, -, -⟩
  · refine ⟨becomes_self d', fun handle ref opened refers => ?_⟩
    subst opened
    rcases unopened with ⟨e, failed⟩ | ⟨-, number, folder⟩
    · cases failed
    · cases folder
      cases refers
  · have untruncated : access ≠ .truncate := by rintro rfl; cases existing
    rw [if_neg untruncated]
    refine ⟨becomes_self d, fun handle ref' opened refers => ?_⟩
    cases opened
    cases refers
    obtain ⟨rfl, held⟩ := Cabinet.holds_of_ref? found
    exact ⟨placed, held, rfl⟩
  · rw [existing] at creates
    cases creates

theorem empties_of_openRecord {result : Except Failure Handle}
    (run : Runs (openRecord name.text .truncate) d result d') :
    (∃ e, result = .error e) ∧ archive.Becomes d d' d.files ∨
    ∃ handle ref, result = .ok handle ∧ archive.target handle = some ref ∧
      archive.position handle = 0 ∧ archive.place d name = some ref.name ∧
      archive.Becomes d d' (d.files.put ref.name .empty) ∧
      (d.files.put ref.name .empty).Holds ref := by
  rcases cases_of_openRecord run with ⟨rfl, unopened⟩ | ⟨p, ref, placed, found, rfl, rfl⟩ |
    ⟨p, placed, free, -, rfl, rfl⟩
  · rcases unopened with failed | ⟨unwritable, -⟩
    · exact .inl ⟨failed, becomes_self d'⟩
    · cases unwritable
  · obtain ⟨rfl, held⟩ := Cabinet.holds_of_ref? found
    have written : d.files.put ref.name .empty = d.files.write ref .empty := by
      rw [Cabinet.put, found]
    refine .inr ⟨_, ref, rfl, rfl, rfl, placed, ?_⟩
    rw [written, if_pos rfl]
    exact ⟨becomes_with_files d _, (Cabinet.holds_write_iff _ _ _).2 held⟩
  · have created : d.files.put p .empty = d.files.create p .empty := by
      rw [Cabinet.put, free]
    refine .inr ⟨_, ⟨p, d.files.nextSerial⟩, rfl, rfl, rfl, placed, ?_⟩
    rw [created]
    refine ⟨becomes_with_files d _, ?_⟩
    rw [Cabinet.Holds, Cabinet.ref?_create, if_pos rfl]

theorem slices_of_read {count : Nat} {result : Except Failure Bytes}
    (run : Runs (read count) (d, handle) result (d', handle')) :
    archive.Becomes d d' d.files ∧ archive.target handle' = archive.target handle ∧
      (∀ bytes, result = .ok bytes → ∃ ref, archive.target handle = some ref ∧
        bytes = Bytes.slice (d.files.read ref).bytes (archive.position handle) count ∧
        archive.position handle' = archive.position handle + bytes.length) ∧
      ∀ e, result = .error e → archive.position handle' = archive.position handle ∧
        (archive.Healthy d → ∀ ref, archive.target handle = some ref →
          ¬ archive.Reaches (archive.position handle + count)) := by
  obtain ⟨target, pos, writable⟩ := handle
  unfold Runs read at run
  dsimp only at run
  split at run
  · rename_i beyond
    cases result <;> cases run
    exact ⟨becomes_self d, rfl, nofun, fun _ _ => ⟨rfl, fun _ _ _ => Nat.not_le.2 beyond⟩⟩
  · cases target with
    | folder number =>
      cases result <;> cases run
      exact ⟨becomes_self d, rfl, nofun, fun _ _ => ⟨rfl, fun _ _ refers => nomatch refers⟩⟩
    | file ref =>
      cases result <;> cases run
      refine ⟨becomes_self d, rfl, fun bytes ended => ?_, nofun⟩
      cases ended
      exact ⟨ref, rfl, Contents.slice_eq _ _ _, rfl⟩

theorem overlays_of_write {result : Except Failure Unit}
    (run : Runs (write bytes) (d, handle) result (d', handle')) :
    archive.Becomes d d' d.files ∧ (result = .ok () → bytes = []) ∨
    ∃ ref contents, archive.target handle = some ref ∧
      archive.Becomes d d' (d.files.write ref contents) ∧ (result = .ok () →
        contents = (d.files.read ref).overlay (archive.position handle) bytes) := by
  obtain ⟨target, pos, writable⟩ := handle
  unfold Runs write at run
  dsimp only at run
  split at run
  · rename_i empty
    cases result <;> cases run
    exact .inl ⟨becomes_self d, fun _ => List.isEmpty_iff.1 empty⟩
  · split at run
    · rename_i ref
      split at run
      · cases result <;> cases run
        exact .inl ⟨becomes_self d, nofun⟩
      · cases result <;> cases run
        exact .inr ⟨ref, _, rfl, becomes_with_files d _, fun _ => rfl⟩
    · cases result <;> cases run
      exact .inl ⟨becomes_self d, nofun⟩

theorem removes_of_delete {result : Except Failure Unit} (run : Runs (delete text) d result d') :
    archive.Becomes d d' d.files ∨ ∃ p, archive.Becomes d d' (d.files.remove p) := by
  unfold Runs delete at run
  cases result <;> (repeat' split at run) <;> cases run <;>
    first | exact .inl (becomes_self d) | exact .inr ⟨_, becomes_with_files d _⟩

/-- A file at the place of a record is deleted. -/
theorem runs_delete {ref : Cabinet.Ref Place} (placed : d.place name = some ref.name)
    (held : d.files.Holds ref) :
    Runs (delete name.text) d (.ok ()) { d with files := d.files.remove ref.name } := by
  obtain ⟨located, admits⟩ := place_eq_some_iff.1 placed
  have looked := lookUp_of_admits admits
  rw [if_pos (contains_iff.2 ⟨ref, held⟩)] at looked
  unfold Runs delete
  rw [located]
  dsimp only
  rw [looked]
  rfl

theorem mem_filesIn {stored : Stored} (found : d.files.named[p]? = some stored) :
    (p.name, stored) ∈ d.filesIn p.folder := by
  refine (newestFirst_perm _).mem_iff.2 (List.mem_map.2 ⟨(p, stored), ?_, rfl⟩)
  exact List.mem_filter.2 ⟨Std.TreeMap.mem_toList_iff_getElem?_eq_some.2 found, by simp⟩

/-- The folder that is listed is the one in which records are looked up. -/
theorem mem_of_list {names : List String} {ref : Cabinet.Ref Place}
    (listed : Runs list d (.ok names) d') (placed : d.place name = some ref.name)
    (held : d.files.Holds ref) : name.text ∈ names := by
  obtain ⟨named, walked⟩ := locate_text (place_eq_some_iff.1 placed).1
  obtain ⟨contents, found⟩ := Cabinet.holds_iff.1 held
  have member := mem_filesIn found
  rw [show ref.name.name = name.text from LastName.ordinary.inj named] at member
  unfold Runs list at listed
  split at listed
  · rename_i number resolved
    obtain rfl : ref.name.folder = number :=
      Except.ok.inj (walked.symm.trans (walk_of_resolve resolved))
    cases listed
    rw [Listing.mem_arrange]
    exact List.mem_map_of_mem member
  all_goals cases listed

theorem becomes_of_list {result : Except Failure (List String)} (run : Runs list d result d') :
    archive.Becomes d d' d.files := by
  unfold Runs list at run
  cases result <;> split at run <;> cases run <;> exact becomes_self d

theorem becomes_of_seek {pos : Nat} {result : Except Failure Unit}
    (run : Runs (seek pos) (d, handle) result (d', handle')) :
    archive.Becomes d d' d.files ∧ archive.target handle' = archive.target handle := by
  unfold Runs seek at run
  dsimp only at run
  split at run <;> cases result <;> cases run <;> exact ⟨becomes_self d, rfl⟩

/-- Deleting takes a file away, and never puts one in its place. -/
theorem not_holds_of_delete {result : Except Failure Unit} {ref : Cabinet.Ref Place}
    (placed : d.place name = some ref.name) (run : Runs (delete name.text) d result d') :
    ¬ d'.files.Holds ref := by
  intro held
  have there : d.files.Holds ref := by
    rcases removes_of_delete run with same | ⟨p, removed⟩
    · have files : d'.files = d.files := same.cabinet
      exact files ▸ held
    · have files : d'.files = d.files.remove p := removed.cabinet
      rw [files, Cabinet.holds_remove_iff] at held
      exact held.2
  obtain ⟨-, rfl⟩ := run.deterministic (runs_delete placed there)
  exact (Cabinet.holds_remove_iff.1 held).1 rfl

theorem lawful_archive : archive.Lawful where
  place_injective := place_injective
  reaches_mono := Nat.le_trans
  opening := finds_of_openRecord
  emptying := empties_of_openRecord
  reading := slices_of_read
  seeking := becomes_of_seek
  writing := overlays_of_write
  closing run := by
    obtain ⟨-, rfl⟩ := run.deterministic (.pure () _)
    exact becomes_self _
  listing run := by
    refine ⟨becomes_of_list run, fun names name ref listed placed held => ?_⟩
    subst listed
    exact mem_of_list run placed held
  deleting := removes_of_delete
  deleted _ run _ placed := not_holds_of_delete placed run
  size {_ handle ref} refers := by
    obtain ⟨target, pos, writable⟩ := handle
    cases target <;> cases refers
    rfl

end GlyphShelf.Directory

import GlyphShelf.Proofs.Directory.Archive
import GlyphShelf.Proofs.Wording

/-!
# A folder of files

As a rule a directory is given the path of a folder that is there, and in this folder there are
files and nothing else. Such a folder is `Plain`. Then every name that a file can have at all, an
`Ordinary` one, leads to its place in the folder and nowhere else, and what the directory does
depends on the cabinet alone: each operation is stated here by what it finds in the cabinet and by
the cabinet that it leaves.
-/

namespace GlyphShelf.Directory

variable {d : Directory} {folder : Nat} {name text : String} {access : Access}
variable {ref : Cabinet.Ref Place} {c : Cabinet Place}

/-! ## Ordinary names -/

/-- A name that a file in a folder can have. -/
structure Ordinary (name : String) : Prop where
  nonempty : name ≠ ""
  unslashed : '/' ∉ name.toList
  readable : '\x00' ∉ name.toList
  /-- It means neither the folder itself nor the one around. -/
  last : LastName.ofName name = .ordinary name
  short : name.utf8ByteSize ≤ maxNameLength

instance (name : String) : Decidable (Ordinary name) :=
  decidable_of_iff (name ≠ "" ∧ '/' ∉ name.toList ∧ '\x00' ∉ name.toList ∧
      LastName.ofName name = .ordinary name ∧ name.utf8ByteSize ≤ maxNameLength)
    ⟨fun ⟨nonempty, unslashed, readable, last, short⟩ =>
        ⟨nonempty, unslashed, readable, last, short⟩,
      fun ⟨nonempty, unslashed, readable, last, short⟩ =>
        ⟨nonempty, unslashed, readable, last, short⟩⟩

/-- Records have ordinary names. -/
theorem ordinary_text (name : RecordName) : Ordinary name.text where
  nonempty := name.text_ne_empty
  unslashed := name.slash_not_mem_text
  readable := by
    have digits (key : Key) : '\x00' ∉ Nat.toDigits 10 key.number := fun member =>
      absurd (Nat.isDigit_of_mem_toDigits (by decide) (by decide) member) (by decide)
    cases name with
    | payload key =>
      rw [RecordName.toList_payload]
      exact digits key
    | link key =>
      rw [RecordName.toList_link, List.mem_append, not_or]
      exact ⟨digits key, by decide⟩
  last := name.ofName_text
  short := by
    have few (key : Key) : (toString key.number).utf8ByteSize ≤ 80 := pieces_number key
    cases name with
    | payload key => exact Nat.le_trans (few key) (by decide)
    | link key =>
      rw [RecordName.text, String.utf8ByteSize_append]
      exact Nat.le_trans (Nat.add_le_add_right (few key) _) (by decide)

/-- A slash at the end belongs to the folder, not to an ordinary name in it. -/
theorem Ordinary.slashed_joinNames (ordinary : Ordinary name) (base : String) :
    (Route.ofText (joinNames base name)).slashed = false := by
  have kept : name.toList ≠ [] := mt String.toList_eq_nil_iff.1 ordinary.nonempty
  have last (before : List Char) : (before ++ name.toList).getLast? ≠ some '/' := by
    intro slash
    rw [List.getLast?_eq_some_getLast (List.append_ne_nil_of_right_ne_nil before kept),
      List.getLast_append_of_ne_nil _ kept] at slash
    exact ordinary.unslashed (Option.some.inj slash ▸ List.getLast_mem kept)
  rw [Route.ofText, decide_eq_false_iff_not, joinNames]
  split
  · exact last []
  · split
    · rw [String.toList_append]
      exact last _
    · rw [String.toList_append]
      exact last _

/-- The path of an ordinary name in a folder can be read if it is not too long. -/
theorem Ordinary.readable_joinNames (ordinary : Ordinary name) {base : String}
    (readable : ¬ Unreadable base) (short : base.utf8ByteSize + maxNameLength + 1 < pathLimit) :
    ¬ Unreadable (joinNames base name) := by
  have zero : '\x00' ∉ base.toList := fun member => readable (.inl (List.contains_iff_mem.2 member))
  have size := ordinary.short
  have parts : ∃ before, joinNames base name = before ++ name ∧ '\x00' ∉ before.toList ∧
      before.utf8ByteSize ≤ base.utf8ByteSize + 1 := by
    unfold joinNames
    split
    · exact ⟨"", (String.empty_append).symm, by simp, by simp⟩
    · split
      · exact ⟨base, rfl, zero, Nat.le_succ _⟩
      · refine ⟨base ++ "/", rfl, ?_, by rw [String.utf8ByteSize_append]; exact Nat.le_refl _⟩
        rw [String.toList_append, List.mem_append, not_or]
        exact ⟨zero, by decide⟩
  obtain ⟨before, joined, clean, fits⟩ := parts
  rw [joined]
  rintro (bad | bad | bad)
  · rw [String.toList_append, List.contains_iff_mem, List.mem_append] at bad
    exact bad.elim clean ordinary.readable
  · rw [String.isEmpty_iff, String.append_eq_empty_iff] at bad
    exact ordinary.nonempty bad.2
  · rw [String.utf8ByteSize_append] at bad
    omega

/-! ## Plain folders -/

theorem find_of_resolve {spot : Spot} (resolved : d.resolve text = .ok spot) :
    ∃ found, d.find text = .ok found ∧ d.reach found = .ok spot := by
  unfold resolve at resolved
  split at resolved
  · rename_i found located
    cases reached : d.reach found with
    | error e =>
      rw [reached] at resolved
      cases resolved
    | ok other =>
      rw [reached] at resolved
      cases resolved
      exact ⟨found, located, reached⟩
  · cases resolved

theorem resolve_eq_ok {found : Approach} {spot : Spot} (located : d.find text = .ok found)
    (reached : d.reach found = .ok spot) : d.resolve text = .ok spot := by
  rw [resolve, located]
  dsimp only
  rw [reached]
  rfl

theorem reach_folder_with_files {found : Approach}
    (reached : d.reach found = .ok (.folder folder)) :
    Directory.reach { d with files := c } found = .ok (.folder folder) := by
  obtain ⟨here, last, slashed⟩ := found
  cases last with
  | top | same | up => exact reached
  | ordinary name =>
    have looked : d.lookUp here name = .ok (.folder folder) := by
      unfold reach at reached
      dsimp only at reached
      split at reached
      · split at reached <;> cases reached
      · exact reached
    have still : Directory.lookUp { d with files := c } here name = .ok (.folder folder) :=
      lookUp_eq_folder_iff.2 (lookUp_eq_folder_iff (d := d).1 looked)
    unfold reach
    dsimp only
    rw [still]

/-- The directory was given a folder that is there, by a path that is not too long, and no folder
is in it. -/
structure Plain (d : Directory) (folder : Nat) : Prop where
  leads : d.resolve d.home = .ok (.folder folder)
  short : d.home.utf8ByteSize + maxNameLength + 1 < pathLimit
  bare : ∀ name, d.folders[(⟨folder, name⟩ : Place)]? = none

namespace Plain

variable (plain : d.Plain folder)

include plain

theorem with_files (c : Cabinet Place) : Plain { d with files := c } folder := by
  obtain ⟨found, located, reached⟩ := find_of_resolve plain.leads
  exact ⟨resolve_eq_ok (find_with_files located) (reach_folder_with_files reached), plain.short,
    plain.bare⟩

theorem locate (ordinary : Ordinary name) :
    d.locate name = .ok ⟨folder, .ordinary name, false⟩ := by
  obtain ⟨found, located, -⟩ := find_of_resolve plain.leads
  have readable := (find_eq_ok_iff.1 located).1
  refine find_eq_ok_iff.2 ⟨ordinary.readable_joinNames readable plain.short, ?_⟩
  have names := Route.names_joinNames d.home ordinary.unslashed ordinary.nonempty
  unfold approach
  rw [names, List.reverse_append, List.reverse_singleton, List.singleton_append]
  dsimp only
  rw [List.reverse_reverse, walk_of_resolve plain.leads, ordinary.last,
    ordinary.slashed_joinNames]

theorem admits (ordinary : Ordinary name) : d.Admits ⟨folder, name⟩ :=
  ⟨ordinary.short, plain.bare name⟩

theorem lookUp_of_present (ordinary : Ordinary name)
    (found : d.files.ref? ⟨folder, name⟩ = some ref) :
    d.lookUp folder name = .ok (.file ⟨folder, name⟩) := by
  have looked := lookUp_of_admits (plain.admits ordinary)
  rwa [if_pos (contains_iff.2 ⟨ref, found⟩)] at looked

theorem lookUp_of_absent (ordinary : Ordinary name)
    (free : d.files.ref? ⟨folder, name⟩ = none) :
    d.lookUp folder name = .ok (.vacant ⟨folder, name⟩) := by
  have looked := lookUp_of_admits (plain.admits ordinary)
  have absent : ¬ d.files.named.contains (⟨folder, name⟩ : Place) = true := by
    intro held
    obtain ⟨ref, found⟩ := contains_iff.1 held
    cases free.symm.trans found
  rwa [if_neg absent] at looked

theorem reach_of_present (ordinary : Ordinary name)
    (found : d.files.ref? ⟨folder, name⟩ = some ref) :
    d.reach ⟨folder, .ordinary name, false⟩ = .ok (.file ⟨folder, name⟩) := by
  unfold reach
  dsimp only
  rw [plain.lookUp_of_present ordinary found]
  rfl

theorem reach_of_absent (ordinary : Ordinary name)
    (free : d.files.ref? ⟨folder, name⟩ = none) :
    d.reach ⟨folder, .ordinary name, false⟩ = .ok (.vacant ⟨folder, name⟩) := by
  unfold reach
  dsimp only
  rw [plain.lookUp_of_absent ordinary free]

/-! ## Operations -/

theorem runs_openRecord_of_present (access : Access) (ordinary : Ordinary name)
    (found : d.files.ref? ⟨folder, name⟩ = some ref) :
    Runs (openRecord name access) d (.ok ⟨.file ref, 0, access.writes⟩)
      { d with files := if access = .truncate then d.files.write ref .empty else d.files } := by
  unfold Runs openRecord
  rw [plain.locate ordinary]
  dsimp only
  rw [Bool.and_false, if_neg Bool.false_ne_true, plain.reach_of_present ordinary found]
  dsimp only
  rw [found]
  dsimp only
  split <;> rfl

theorem runs_openRecord_of_absent (ordinary : Ordinary name)
    (free : d.files.ref? ⟨folder, name⟩ = none) (existing : access.creates = false) :
    Runs (openRecord name access) d (.error .notFound) d := by
  unfold Runs openRecord
  rw [plain.locate ordinary]
  dsimp only
  rw [Bool.and_false, if_neg Bool.false_ne_true, plain.reach_of_absent ordinary free]
  dsimp only
  rw [existing, if_neg Bool.false_ne_true]
  rfl

theorem runs_openRecord_of_created (ordinary : Ordinary name)
    (free : d.files.ref? ⟨folder, name⟩ = none) (creates : access.creates = true) :
    Runs (openRecord name access) d
      (.ok ⟨.file ⟨⟨folder, name⟩, d.files.nextSerial⟩, 0, access.writes⟩)
      { d with files := d.files.create ⟨folder, name⟩ .empty } := by
  unfold Runs openRecord
  rw [plain.locate ordinary]
  dsimp only
  rw [Bool.and_false, if_neg Bool.false_ne_true, plain.reach_of_absent ordinary free]
  dsimp only
  rw [creates, if_pos rfl]

theorem runs_delete_of_present (ordinary : Ordinary name)
    (found : d.files.ref? ⟨folder, name⟩ = some ref) :
    Runs (delete name) d (.ok ()) { d with files := d.files.remove ⟨folder, name⟩ } := by
  unfold Runs delete
  rw [plain.locate ordinary]
  dsimp only
  rw [plain.lookUp_of_present ordinary found]
  rfl

theorem runs_delete_of_absent (ordinary : Ordinary name)
    (free : d.files.ref? ⟨folder, name⟩ = none) :
    Runs (delete name) d (.error .notFound) d := by
  unfold Runs delete
  rw [plain.locate ordinary]
  dsimp only
  rw [plain.lookUp_of_absent ordinary free]
  rfl

/-- Whether or not there is a file to delete, none is there afterwards. -/
theorem runs_discard (ordinary : Ordinary name) :
    Runs (Action.allowAbsence (Device.delete name)) d (.ok ())
      { d with files := d.files.remove ⟨folder, name⟩ } := by
  cases found : d.files.ref? ⟨folder, name⟩ with
  | some ref => exact Action.runs_allowAbsence (plain.runs_delete_of_present ordinary found)
  | none =>
    rw [Cabinet.remove_of_absent found]
    exact Action.runs_allowAbsence_of_absent (plain.runs_delete_of_absent ordinary found)

omit plain in
theorem mem_filesIn_iff : name ∈ (d.filesIn folder).map Prod.fst ↔
    ∃ ref, d.files.ref? ⟨folder, name⟩ = some ref := by
  constructor
  · intro member
    obtain ⟨file, listed, rfl⟩ := List.mem_map.1 member
    obtain ⟨⟨place, stored⟩, kept, rfl⟩ := List.mem_map.1 ((newestFirst_perm _).mem_iff.1 listed)
    obtain ⟨there, here⟩ := List.mem_filter.1 kept
    obtain rfl : place.folder = folder := of_decide_eq_true here
    have found := Std.TreeMap.mem_toList_iff_getElem?_eq_some.1 there
    exact ⟨⟨place, stored.serial⟩, by rw [Cabinet.ref?, found, Option.map_some]⟩
  · rintro ⟨ref, found⟩
    obtain ⟨stored, found, -⟩ := Option.map_eq_some_iff.1 found
    exact List.mem_map_of_mem (mem_filesIn found)

/-- All files in the folder are listed, and nothing else. -/
theorem runs_list : ∃ names, Runs list d (.ok names) d ∧
    ∀ name, name ∈ names ↔ ∃ ref, d.files.ref? ⟨folder, name⟩ = some ref := by
  refine ⟨d.listing.arrange ((d.filesIn folder).map Prod.fst), ?_, fun name => ?_⟩
  · unfold Runs list
    rw [plain.leads]
  · rw [Listing.mem_arrange, mem_filesIn_iff]

/-- Deleting names one after the other takes all of them away. -/
theorem runs_deleteAll {names : List String} (ordinary : ∀ name ∈ names, Ordinary name) :
    ∃ c, Runs (Ring.deleteAll names) d (.ok ()) { d with files := c } ∧
      d.files.Loses (fun place => ∃ name ∈ names, place = ⟨folder, name⟩) c := by
  induction names generalizing d with
  | nil => exact ⟨d.files, .pure () d, (Cabinet.Loses.nothing _).congr (by simp)⟩
  | cons name names ih =>
    obtain ⟨first, rest⟩ := List.forall_mem_cons.1 ordinary
    obtain ⟨c, deleting, loses⟩ := ih (plain.with_files (d.files.remove ⟨folder, name⟩)) rest
    refine ⟨c, (plain.runs_discard first).bind deleting, ?_⟩
    refine ((Cabinet.loses_remove _ _).trans loses).congr fun place => ?_
    simp [eq_comm]

end Plain

/-! ## Open files -/

section

variable {pos count : Nat} {bytes : Bytes} {writable : Bool}

theorem runs_read (d : Directory) (ref : Cabinet.Ref Place) (writable : Bool)
    (reached : pos + count ≤ maxPosition) :
    Runs (read count) (d, ⟨.file ref, pos, writable⟩) (.ok ((d.files.read ref).slice pos count))
      (d, ⟨.file ref, pos + ((d.files.read ref).slice pos count).length, writable⟩) := by
  unfold Runs read
  exact if_neg (Nat.not_lt.2 reached)

theorem runs_read_of_beyond (d : Directory) (target : Target) (writable : Bool)
    (beyond : maxPosition < pos + count) :
    Runs (read count) (d, ⟨target, pos, writable⟩) (.error (.ofSystem .invalidArgument))
      (d, ⟨target, pos, writable⟩) :=
  if_pos beyond

theorem runs_seek (d : Directory) (handle : Handle) (reached : pos ≤ maxPosition) :
    Runs (seek pos) (d, handle) (.ok ()) (d, { handle with pos }) :=
  if_neg (Nat.not_lt.2 reached)

theorem runs_seek_of_beyond (d : Directory) (handle : Handle) (beyond : maxPosition < pos) :
    Runs (seek pos) (d, handle) (.error (.ofSystem .invalidArgument)) (d, handle) :=
  if_pos beyond

theorem runs_write_nothing (d : Directory) (handle : Handle) :
    Runs (write []) (d, handle) (.ok ()) (d, handle) := rfl

theorem write_of_some (some : bytes ≠ []) (d : Directory) (ref : Cabinet.Ref Place) :
    write bytes (d, ⟨.file ref, pos, writable⟩) =
      if writable = true then
        if maxPosition < pos + bytes.length then
          .error (.ofSystem .invalidArgument) (d, ⟨.file ref, pos, writable⟩)
        else
          .ok () ({ d with files := d.files.write ref ((d.files.read ref).overlay pos bytes) },
            ⟨.file ref, pos + bytes.length, writable⟩)
      else .error (.ofSystem .badDescriptor) (d, ⟨.file ref, pos, writable⟩) := by
  unfold write
  dsimp only
  rw [if_neg (mt List.isEmpty_iff.1 some)]
  cases writable <;> rfl

theorem runs_write (some : bytes ≠ []) (reached : pos + bytes.length ≤ maxPosition)
    (d : Directory) (ref : Cabinet.Ref Place) :
    Runs (write bytes) (d, ⟨.file ref, pos, true⟩) (.ok ())
      ({ d with files := d.files.write ref ((d.files.read ref).overlay pos bytes) },
        ⟨.file ref, pos + bytes.length, true⟩) := by
  unfold Runs
  rw [write_of_some some, if_pos rfl, if_neg (Nat.not_lt.2 reached)]

theorem runs_write_of_beyond (some : bytes ≠ []) (beyond : maxPosition < pos + bytes.length)
    (d : Directory) (ref : Cabinet.Ref Place) :
    Runs (write bytes) (d, ⟨.file ref, pos, true⟩) (.error (.ofSystem .invalidArgument))
      (d, ⟨.file ref, pos, true⟩) := by
  unfold Runs
  rw [write_of_some some, if_pos rfl, if_pos beyond]

theorem runs_write_of_readOnly (some : bytes ≠ []) (d : Directory) (ref : Cabinet.Ref Place)
    (pos : Nat) :
    Runs (write bytes) (d, ⟨.file ref, pos, false⟩) (.error (.ofSystem .badDescriptor))
      (d, ⟨.file ref, pos, false⟩) := by
  unfold Runs
  rw [write_of_some some, if_neg Bool.false_ne_true]

end

end GlyphShelf.Directory

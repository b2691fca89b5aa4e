import GlyphShelf.Device.Directory
import GlyphShelf.RecordName

/-!
# Where a directory keeps records

The name of a record is seen from the folder of the records, so following it is following the path
of that folder and then looking up one more name. Which folder this leads to depends on the folders
alone. So no change of files moves the place of a record, and different records have different
places, whatever path the directory was given.
-/

namespace GlyphShelf

/-! ## Names as paths -/

namespace RecordName

theorem slash_not_mem_text (name : RecordName) : '/' ∉ name.text.toList := by
  have digits (key : Key) : '/' ∉ Nat.toDigits 10 key.number := fun member =>
    absurd (Nat.isDigit_of_mem_toDigits (by decide) (by decide) member) (by decide)
  cases name with
  | payload key =>
    rw [toList_payload]
    exact digits key
  | link key =>
    rw [toList_link, List.mem_append, not_or]
    exact ⟨digits key, by decide⟩

/-- What is not read as the name of a record is not the name of one. -/
theorem text_ne_of_ofText? {text : String} (unread : ofText? text = none) (name : RecordName) :
    name.text ≠ text := by
  rintro rfl
  rw [ofText?_text] at unread
  cases unread

theorem text_ne_empty (name : RecordName) : name.text ≠ "" := text_ne_of_ofText? (by decide) name

theorem ofName_text (name : RecordName) :
    Directory.LastName.ofName name.text = .ordinary name.text := by
  rw [Directory.LastName.ofName, if_neg (text_ne_of_ofText? (by decide) name),
    if_neg (text_ne_of_ofText? (by decide) name)]

end RecordName

namespace Route

theorem names_of_pieces {text base name : String} (before : List (List Char))
    (nonempty : name ≠ "") (joined : pieces text.toList = before ++ [name.toList])
    (same : before.filter (!·.isEmpty) = (pieces base.toList).filter (!·.isEmpty)) :
    (ofText text).names = (ofText base).names ++ [name] := by
  have kept : (!name.toList.isEmpty) = true := by
    simpa [String.toList_eq_nil_iff] using nonempty
  simp [ofText, joined, same, kept]

/-- A name without slashes, seen from a folder, is one more name on the path of the folder. -/
theorem names_joinNames (base : String) {name : String} (unslashed : '/' ∉ name.toList)
    (nonempty : name ≠ "") :
    (ofText (joinNames base name)).names = (ofText base).names ++ [name] := by
  have relative : name.toList.head? ≠ some '/' := fun first =>
    unslashed (List.mem_of_mem_head? first)
  have single := pieces_of_no_slash unslashed
  rw [joinNames, if_neg relative]
  by_cases empty : base = ""
  · subst empty
    refine names_of_pieces [] nonempty ?_ rfl
    simpa using single
  by_cases slashed : base.toList.getLast? = some '/'
  · obtain ⟨before, ends⟩ := List.getLast?_eq_some_iff.1 slashed
    rw [if_pos (by simp [slashed])]
    refine names_of_pieces (pieces before) nonempty ?_ ?_
    · rw [String.toList_append, ends, List.append_assoc, List.singleton_append,
        pieces_append_slash, single]
    · rw [ends, pieces_append_slash]
      simp [pieces]
  · rw [if_neg (by simp [empty, slashed])]
    refine names_of_pieces (pieces base.toList) nonempty ?_ rfl
    rw [String.toList_append, String.toList_append, List.append_assoc]
    exact (pieces_append_slash _ _).trans (congrArg _ single)

end Route

/-! ## Folders -/

namespace Directory

variable {d : Directory} {c : Cabinet Place} {folder number : Nat} {name text : String}

theorem lookUp_eq_folder_iff : d.lookUp folder name = .ok (.folder number) ↔
    name.utf8ByteSize ≤ maxNameLength ∧
      d.folders[(⟨folder, name⟩ : Place)]? = some number := by
  unfold lookUp
  dsimp only
  split
  · rename_i long
    exact ⟨nofun, fun both => absurd both.1 (Nat.not_le_of_lt long)⟩
  · rename_i short
    cases d.folders[(⟨folder, name⟩ : Place)]? with
    | none => cases d.files.named.contains ⟨folder, name⟩ <;> simp
    | some other => simp [Nat.le_of_not_lt short]

/-- No folder depends on files. -/
theorem walk_with_files {names : List String} {here there : Nat}
    (walked : d.walk here names = .ok there) :
    Directory.walk { d with files := c } here names = .ok there := by
  induction names generalizing here with
  | nil => exact walked
  | cons name names ih =>
    unfold walk at walked ⊢
    split at walked
    · exact ih walked
    · exact ih walked
    · exact ih walked
    · rename_i ordinary last
      cases looked : d.lookUp here ordinary with
      | error e => simp only [looked] at walked; cases walked
      | ok spot =>
        cases spot with
        | folder number =>
          have still : Directory.lookUp { d with files := c } here ordinary =
              .ok (.folder number) :=
            lookUp_eq_folder_iff.2 (lookUp_eq_folder_iff (d := d).1 looked)
          simp only [looked] at walked
          simp only [still]
          exact ih walked
        | file place => simp only [looked] at walked; cases walked
        | vacant place => simp only [looked] at walked; cases walked

theorem approach_with_files {route : Route} {found : Approach}
    (reached : d.approach route = .ok found) :
    Directory.approach { d with files := c } route = .ok found := by
  unfold approach at reached ⊢
  split at reached
  · exact reached
  · split at reached
    · rename_i walked
      cases reached
      rw [walk_with_files walked]
    · cases reached

/-- Texts that no path is written as. -/
def Unreadable (text : String) : Prop :=
  text.toList.contains '\x00' = true ∨ text.isEmpty = true ∨ pathLimit ≤ text.utf8ByteSize

theorem find_eq_ok_iff {found : Approach} :
    d.find text = .ok found ↔ ¬ Unreadable text ∧ d.approach (.ofText text) = .ok found := by
  unfold find
  split
  · rename_i zero
    exact ⟨nofun, fun both => absurd (.inl zero) both.1⟩
  · rename_i zero
    split
    · rename_i empty
      exact ⟨nofun, fun both => absurd (.inr (.inl empty)) both.1⟩
    · rename_i empty
      split
      · rename_i long
        exact ⟨nofun, fun both => absurd (.inr (.inr long)) both.1⟩
      · rename_i short
        have readable : ¬ Unreadable text := fun bad => bad.elim zero (·.elim empty short)
        cases d.approach (.ofText text) with
        | error e => exact ⟨nofun, nofun⟩
        | ok other =>
          refine ⟨fun same => ⟨readable, ?_⟩, fun both => ?_⟩
          · cases same
            rfl
          · cases both.2
            rfl

theorem find_with_files {found : Approach} (reached : d.find text = .ok found) :
    Directory.find { d with files := c } text = .ok found := by
  rw [find_eq_ok_iff] at reached ⊢
  exact reached.imp_right approach_with_files

/-! ## Places -/

theorem walk_cons (here : Nat) (name : String) (later : List String) :
    d.walk here (name :: later) = (d.walk here [name]).bind fun there => d.walk there later := by
  rw [walk, walk]
  cases LastName.ofName name with
  | top => rfl
  | same => rfl
  | up => rfl
  | ordinary name =>
    dsimp only
    cases d.lookUp here name with
    | error e => rfl
    | ok spot => cases spot <;> rfl

theorem walk_append (here : Nat) (names later : List String) :
    d.walk here (names ++ later) =
      (d.walk here names).bind fun there => d.walk there later := by
  induction names generalizing here with
  | nil => rfl
  | cons name names ih =>
    rw [List.cons_append, walk_cons, walk_cons here name names]
    cases d.walk here [name] with
    | error e => rfl
    | ok there => exact ih there

/-- The name of a record is looked up in the folder that the path of the directory leads to. -/
theorem locate_text {name : RecordName} {found : Approach}
    (located : d.locate name.text = .ok found) :
    found.last = .ordinary name.text ∧
      d.walk top (Route.ofText d.home).names = .ok found.folder := by
  obtain ⟨-, approached⟩ := find_eq_ok_iff.1 located
  have names := Route.names_joinNames d.home name.slash_not_mem_text name.text_ne_empty
  unfold approach at approached
  rw [names, List.reverse_append, List.reverse_singleton, List.singleton_append] at approached
  dsimp only at approached
  rw [List.reverse_reverse] at approached
  split at approached
  · rename_i walked
    cases approached
    exact ⟨name.ofName_text, walked⟩
  · cases approached

theorem walk_of_reach {found : Approach} {last : String} (named : found.last = .ofName last)
    (reached : d.reach found = .ok (.folder number)) :
    d.walk found.folder [last] = .ok number := by
  unfold reach at reached
  unfold walk
  rw [named] at reached
  cases kind : LastName.ofName last with
  | top =>
    unfold LastName.ofName at kind
    split at kind
    · cases kind
    · split at kind <;> cases kind
  | same =>
    rw [kind] at reached
    cases reached
    rfl
  | up =>
    rw [kind] at reached
    cases reached
    rfl
  | ordinary name =>
    rw [kind] at reached
    dsimp only at reached ⊢
    cases looked : d.lookUp found.folder name with
    | error e =>
      rw [looked] at reached
      cases reached
    | ok spot =>
      rw [looked] at reached
      cases spot with
      | folder other =>
        cases reached
        rfl
      | file place =>
        dsimp only at reached
        split at reached <;> cases reached
      | vacant place => cases reached

/-- A path that leads to a folder is a walk that ends there. -/
theorem walk_of_resolve (resolved : d.resolve text = .ok (.folder number)) :
    d.walk top (Route.ofText text).names = .ok number := by
  unfold resolve at resolved
  split at resolved
  · rename_i found reached
    obtain ⟨-, approached⟩ := find_eq_ok_iff.1 reached
    have leads : d.reach found = .ok (.folder number) := by
      cases result : d.reach found with
      | error e =>
        rw [result] at resolved
        cases resolved
      | ok spot =>
        rw [result] at resolved
        cases resolved
        rfl
    unfold approach at approached
    split at approached
    · rename_i none
      rw [List.reverse_eq_nil_iff.1 none]
      cases approached
      cases leads
      rfl
    · rename_i last before ends
      rw [List.reverse_eq_cons_iff.1 ends, walk_append]
      split at approached
      · rename_i folder walked
        cases approached
        rw [walked]
        exact walk_of_reach rfl leads
      · cases approached
  · cases resolved

/-- There can be a file at a place: its name is not too long, and no folder has it. -/
structure Admits (d : Directory) (place : Place) : Prop where
  short : place.name.utf8ByteSize ≤ maxNameLength
  free : d.folders[place]? = none

theorem lookUp_of_admits {place : Place} (admits : d.Admits place) :
    d.lookUp place.folder place.name =
      .ok (if d.files.named.contains place then .file place else .vacant place) := by
  unfold lookUp
  dsimp only
  rw [if_neg (Nat.not_lt.2 admits.short), admits.free]

theorem admits_of_lookUp {place : Place} (found : d.lookUp folder name = .ok (.file place) ∨
    d.lookUp folder name = .ok (.vacant place)) : place = ⟨folder, name⟩ ∧ d.Admits place := by
  unfold lookUp at found
  dsimp only at found
  split at found
  · rcases found with found | found <;> cases found
  · rename_i short
    cases free : d.folders[(⟨folder, name⟩ : Place)]? with
    | some number =>
      rw [free] at found
      rcases found with found | found <;> cases found
    | none =>
      rw [free] at found
      obtain rfl : place = ⟨folder, name⟩ := by
        cases held : d.files.named.contains (⟨folder, name⟩ : Place) <;> rw [held] at found <;>
          rcases found with found | found <;> cases found <;> rfl
      exact ⟨rfl, Nat.not_lt.1 short, free⟩

/-- Where the file of a record is or would be. -/
def place (d : Directory) (name : RecordName) : Option Place :=
  match d.locate name.text with
  | .ok ⟨folder, .ordinary last, false⟩ =>
    if maxNameLength < last.utf8ByteSize then none
    else
      match d.folders[(⟨folder, last⟩ : Place)]? with
      | some _ => none
      | none => some ⟨folder, last⟩
  | _ => none

theorem place_eq_some_iff {name : RecordName} {p : Place} : d.place name = some p ↔
    d.locate name.text = .ok ⟨p.folder, .ordinary p.name, false⟩ ∧ d.Admits p := by
  constructor
  · intro placed
    unfold place at placed
    split at placed
    · rename_i folder last located
      split at placed
      · cases placed
      · rename_i short
        cases free : d.folders[(⟨folder, last⟩ : Place)]? with
        | some number =>
          rw [free] at placed
          cases placed
        | none =>
          rw [free] at placed
          cases placed
          exact ⟨located, Nat.not_lt.1 short, free⟩
    · cases placed
  · rintro ⟨located, short, free⟩
    unfold place
    rw [located]
    dsimp only
    rw [if_neg (Nat.not_lt.2 short), free]

theorem place_injective {a b : RecordName} {p : Place} (first : d.place a = some p)
    (second : d.place b = some p) : a = b := by
  obtain ⟨named, -⟩ := locate_text (place_eq_some_iff.1 first).1
  obtain ⟨named', -⟩ := locate_text (place_eq_some_iff.1 second).1
  exact RecordName.text_injective (LastName.ordinary.inj (named.symm.trans named'))

theorem place_of_changed_files {d' : Directory} {name : RecordName} {p : Place}
    (changed : d' = { d with files := c }) (placed : d.place name = some p) :
    d'.place name = some p := by
  subst changed
  rw [place_eq_some_iff] at placed ⊢
  exact ⟨find_with_files placed.1, placed.2.short, placed.2.free⟩

/-- No change of files moves a place. -/
theorem place_with_files (d : Directory) (c : Cabinet Place) :
    Directory.place { d with files := c } = d.place := by
  funext name
  cases placed : d.place name with
  | some p => exact place_of_changed_files rfl placed
  | none =>
    cases placed' : Directory.place { d with files := c } name with
    | none => rfl
    | some p =>
      have back : d.place name = some p :=
        place_of_changed_files (d := { d with files := c }) (c := d.files) rfl placed'
      cases placed.symm.trans back

end Directory

end GlyphShelf

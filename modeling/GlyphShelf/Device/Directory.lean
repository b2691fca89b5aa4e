import Std.Data.TreeMap
import GlyphShelf.Device
import GlyphShelf.Device.Cabinet
import GlyphShelf.Device.Listing
import GlyphShelf.Device.Path

/-!
# A directory of files

Records as files in one folder of a tree of folders, under the rules of a POSIX file system
that is kept in memory: an open file stays readable after it was deleted, emptying a file is
seen by all who have it open, writing behind the end fills the gap with zeros, and the files
of a folder are listed the newest first.

The folder of the records is known by its path alone, and the path is followed anew for each
record. So the folder can vanish and come back, and a name of a record, being a path from
that folder on, can also lead elsewhere, to a folder, or nowhere.

Files and folders are all there is: no links, no permissions, no limit of space.
-/

namespace GlyphShelf

/-- A tree of folders and files, and where in it the records are. -/
structure Directory where
  files : Cabinet Place := {}
  /-- The numbers of the folders below the top. No later folder gets the same number again. -/
  folders : Std.TreeMap Place Nat := ∅
  /-- The number of the folder around each folder below the top. -/
  surrounding : Std.TreeMap Nat Nat := ∅
  /-- The number of the next folder. -/
  nextFolder : Nat := 1
  /-- The path of the folder that holds the records. -/
  home : String := "/"
  listing : Listing := .asStored

namespace Directory

/-- What a handle was opened on. -/
inductive Target
  | file (ref : Cabinet.Ref Place)
  /-- A folder, which can be neither read nor written. -/
  | folder (number : Nat)

structure Handle where
  target : Target
  pos : Nat
  writable : Bool

/-! ## Finding the way -/

def maxNameLength : Nat := 255

/-- The length in UTF-8 bytes from which on a path is refused as a whole. -/
def pathLimit : Nat := 4096

def top : Nat := 0

inductive Spot
  | folder (number : Nat)
  | file (place : Place)
  /-- Nothing yet, in a folder that exists. -/
  | vacant (place : Place)
deriving DecidableEq

inductive LastName
  /-- There is none, and the path is the top. -/
  | top
  /-- The same folder, `.`. -/
  | same
  /-- The folder around, `..`. -/
  | up
  /-- The name of something in the folder. -/
  | ordinary (name : String)
deriving DecidableEq

def LastName.ofName (name : String) : LastName :=
  if name = "." then same else if name = ".." then up else ordinary name

/-- A path followed up to its last name, which is still to be looked up. -/
structure Approach where
  /-- The folder in which the last name is looked up. -/
  folder : Nat
  last : LastName
  /-- Whether a slash follows the last name. -/
  slashed : Bool
deriving DecidableEq

/-- The folder around a folder; around the top there is the top. -/
def outOf (d : Directory) (folder : Nat) : Nat := (d.surrounding[folder]?).getD top

def lookUp (d : Directory) (folder : Nat) (name : String) : Except SystemError Spot :=
  let place : Place := ⟨folder, name⟩
  if maxNameLength < name.utf8ByteSize then .error .nameTooLong
  else
    match d.folders[place]? with
    | some number => .ok (.folder number)
    | none => .ok (if d.files.named.contains place then .file place else .vacant place)

/-- Follows names from a folder on; all of them have to lead to folders. -/
def walk (d : Directory) (here : Nat) : List String → Except SystemError Nat
  | [] => .ok here
  | name :: rest =>
    match LastName.ofName name with
    | .top | .same => d.walk here rest
    | .up => d.walk (d.outOf here) rest
    | .ordinary name =>
      match d.lookUp here name with
      | .ok (.folder number) => d.walk number rest
      | .ok (.file _) => .error .notADirectory
      | .ok (.vacant _) => .error .noSuchRecord
      | .error e => .error e

def approach (d : Directory) (route : Route) : Except SystemError Approach :=
  match route.names.reverse with
  | [] => .ok ⟨top, .top, route.slashed⟩
  | last :: before =>
    match d.walk top before.reverse with
    | .ok folder => .ok ⟨folder, .ofName last, route.slashed⟩
    | .error e => .error e

/-- Follows the text of a path up to its last name. -/
def find (d : Directory) (text : String) : Except Failure Approach :=
  if text.toList.contains '\x00' then .error (.device .zeroInName)
  else if text.isEmpty then .error .notFound
  else if pathLimit ≤ text.utf8ByteSize then .error (.ofSystem .nameTooLong)
  else (d.approach (.ofText text)).mapError .ofSystem

/-- Follows the name of a record up to its last name. -/
def locate (d : Directory) (name : String) : Except Failure Approach :=
  d.find (joinNames d.home name)

/-- Looks up the last name. A slash behind the name of a file makes no sense. -/
def reach (d : Directory) (approach : Approach) : Except SystemError Spot :=
  match approach.last with
  | .top => .ok (.folder top)
  | .same => .ok (.folder approach.folder)
  | .up => .ok (.folder (d.outOf approach.folder))
  | .ordinary name =>
    match d.lookUp approach.folder name with
    | .ok (.file place) => if approach.slashed then .error .notADirectory else .ok (.file place)
    | found => found

def resolve (d : Directory) (text : String) : Except Failure Spot :=
  match d.find text with
  | .ok approach => (d.reach approach).mapError .ofSystem
  | .error e => .error e

/-! ## Open records -/

/-- The greatest position a cursor can be moved to; reading and writing end there too. -/
def maxPosition : Nat := UInt64.size / 2 - 1

def entryCount (d : Directory) (folder : Nat) : Nat :=
  (d.files.names.filter fun place => place.folder = folder).length +
    (d.folders.keys.filter fun place => place.folder = folder).length

/-- The size shown for a folder: a little for itself, and a little for each entry. -/
def folderSize (entries : Nat) : Nat := 40 + 20 * entries

/-- Opens what a name leads to. A folder can be opened too, but only for reading; a name that
leads nowhere is created where the access says so, unless it can only mean a folder. -/
def openRecord (name : String) (access : Access) : Action Directory Handle := fun d =>
  match d.locate name with
  | .error e => .error e d
  | .ok approach =>
    if access.creates && approach.slashed then .error (.ofSystem .isADirectory) d
    else
      match d.reach approach with
      | .error e => .error (.ofSystem e) d
      | .ok (.folder number) =>
        if access.writes then .error (.ofSystem .isADirectory) d
        else .ok ⟨.folder number, 0, false⟩ d
      | .ok (.file place) =>
        match d.files.ref? place with
        | none => .error .notFound d
        | some ref =>
          .ok ⟨.file ref, 0, access.writes⟩
            (if access = .truncate then { d with files := d.files.write ref .empty } else d)
      | .ok (.vacant place) =>
        if access.creates then
          .ok ⟨.file ⟨place, d.files.nextSerial⟩, 0, access.writes⟩
            { d with files := d.files.create place .empty }
        else .error (.ofSystem .noSuchRecord) d

/-- Reads at the cursor, which moves past the bytes read. What would pass the greatest
position is refused, whatever there is to be read; then a folder is. -/
def read (count : Nat) : Action (Directory × Handle) Bytes := fun (d, handle) =>
  if maxPosition < handle.pos + count then .error (.ofSystem .invalidArgument) (d, handle)
  else
    match handle.target with
    | .folder _ => .error (.ofSystem .isADirectory) (d, handle)
    | .file ref =>
      let bytes := (d.files.read ref).slice handle.pos count
      .ok bytes (d, { handle with pos := handle.pos + bytes.length })

/-- Moves the cursor, behind the end as well, up to the greatest position. -/
def seek (pos : Nat) : Action (Directory × Handle) Unit := fun (d, handle) =>
  if maxPosition < pos then .error (.ofSystem .invalidArgument) (d, handle)
  else .ok () (d, { handle with pos })

/-- Writing no bytes asks nothing of the file, so it neither grows it nor can be refused. -/
def write (bytes : Bytes) : Action (Directory × Handle) Unit := fun (d, handle) =>
  if bytes.isEmpty then .ok () (d, handle)
  else
    match handle.target, handle.writable with
    | .file ref, true =>
      let stop := handle.pos + bytes.length
      if maxPosition < stop then .error (.ofSystem .invalidArgument) (d, handle)
      else
        .ok ()
          ({ d with
              files := d.files.write ref ((d.files.read ref).overlay handle.pos bytes) },
            { handle with pos := stop })
    | _, _ => .error (.ofSystem .badDescriptor) (d, handle)

/-- The size of what is open. A folder that was removed has no entries. -/
def size (d : Directory) (handle : Handle) : Nat :=
  match handle.target with
  | .file ref => (d.files.read ref).size
  | .folder number => folderSize (d.entryCount number)

/-! ## The folder of the records -/

/-- Deletes a file. Who has it open keeps it. -/
def delete (name : String) : Action Directory Unit := fun d =>
  match d.locate name with
  | .error e => .error e d
  | .ok approach =>
    match approach.last with
    | .ordinary name =>
      match d.lookUp approach.folder name with
      | .error e => .error (.ofSystem e) d
      | .ok (.folder _) => .error (.ofSystem .isADirectory) d
      | .ok (.file place) =>
        if approach.slashed then .error (.ofSystem .notADirectory) d
        else .ok () { d with files := d.files.remove place }
      | .ok (.vacant _) => .error (.ofSystem .noSuchRecord) d
    | _ => .error (.ofSystem .isADirectory) d

/-- Puts a file before all that are older, in files of which the newest comes first. -/
def insertByAge (file : String × Stored) : List (String × Stored) → List (String × Stored)
  | [] => [file]
  | next :: older =>
    if next.2.serial ≤ file.2.serial then file :: next :: older
    else next :: insertByAge file older

def newestFirst (files : List (String × Stored)) : List (String × Stored) :=
  files.foldr insertByAge []

theorem insertByAge_perm (file : String × Stored) (files : List (String × Stored)) :
    (insertByAge file files).Perm (file :: files) := by
  induction files with
  | nil => exact .refl _
  | cons next older ih =>
    unfold insertByAge
    split
    · exact .refl _
    · exact (ih.cons next).trans (.swap file next older)

/-- Ordering by age neither loses nor repeats a file. -/
theorem newestFirst_perm (files : List (String × Stored)) : (newestFirst files).Perm files := by
  induction files with
  | nil => exact .refl _
  | cons file files ih => exact (insertByAge_perm file _).trans (ih.cons file)

def filesIn (d : Directory) (folder : Nat) : List (String × Stored) :=
  newestFirst
    ((d.files.named.toList.filter fun (place, _) => place.folder = folder).map
      fun (place, stored) => (place.name, stored))

/-- The names of all files in the folder of the records; folders are not listed. -/
def list : Action Directory (List String) := fun d =>
  match d.resolve d.home with
  | .ok (.folder number) => .ok (d.listing.arrange ((d.filesIn number).map Prod.fst)) d
  | .ok (.file _) => .error (.ofSystem .notADirectory) d
  | .ok (.vacant _) => .error (.ofSystem .noSuchRecord) d
  | .error e => .error e d

instance : Device Directory Directory.Handle where
  openRecord := openRecord
  read := read
  seek := seek
  write := write
  size := size
  close _ := pure ()
  delete := delete
  list := list

/-! ## Making and removing folders -/

def makeAt (approach : Approach) : Action Directory Unit := fun d =>
  match approach.last with
  | .ordinary name =>
    match d.lookUp approach.folder name with
    | .error e => .error (.ofSystem e) d
    | .ok (.vacant place) =>
      .ok ()
        { d with
          folders := d.folders.insert place d.nextFolder
          surrounding := d.surrounding.insert d.nextFolder place.folder
          nextFolder := d.nextFolder + 1 }
    | .ok _ => .error (.ofSystem .alreadyExists) d
  | _ => .error (.ofSystem .alreadyExists) d

/-- Makes the folder that names lead to, given last first; the folder around it has to exist. -/
def makeAlong (names : List String) : Action Directory Unit := fun d =>
  match d.approach ⟨names.reverse, false⟩ with
  | .ok approach => makeAt approach d
  | .error e => .error (.ofSystem e) d

def leadsToFolder (d : Directory) (names : List String) : Bool :=
  match d.approach ⟨names.reverse, false⟩ with
  | .ok approach =>
    match d.reach approach with
    | .ok (.folder _) => true
    | _ => false
  | .error _ => false

/-- A folder that cannot be made is no failure if it is there. -/
def orPresent (names : List String) (act : Action Directory Unit) : Action Directory Unit :=
  fun d =>
  match act d with
  | .ok () d => .ok () d
  | .error e d => if d.leadsToFolder names then .ok () d else .error e d

/-- Makes the folder that the first of some ways leads to, and before it, as far as they are
missing, those that the other ways lead to. A way is taken at its word each time: after the
folders around it were made, `.` still names nothing that could be made. -/
def makeFolders : List (List String) → Action Directory Unit
  | [] => pure ()
  | names :: outer => fun d =>
    match makeAlong names d with
    | .error .notFound d =>
      match makeFolders outer d with
      | .ok () d => orPresent names (makeAlong names) d
      | .error e d => .error e d
    | .error e d => orPresent names (throw e) d
    | .ok () d => .ok () d

/-- Takes the folder at a path for the folder of the records, and makes it if it is missing. -/
def openAt (path : String) : Action Directory Unit := fun d =>
  if path.toList.contains '\x00' then .error (.device .zeroInName) d
  else if pathLimit ≤ path.utf8ByteSize then .error (.ofSystem .nameTooLong) d
  else
    match makeFolders (Route.outward (Route.ofText path).names.reverse) d with
    | .ok () d => .ok () { d with home := path }
    | .error e d => .error e d

def makeFolder (name : String) : Action Directory Unit := fun d =>
  match d.locate name with
  | .ok approach => makeAt approach d
  | .error e => .error e d

def removeFolder (name : String) : Action Directory Unit := fun d =>
  match d.locate name with
  | .error e => .error e d
  | .ok approach =>
    match approach.last with
    | .top => .error (.ofSystem .busy) d
    | .same => .error (.ofSystem .invalidArgument) d
    | .up => .error (.ofSystem .notEmpty) d
    | .ordinary name =>
      match d.lookUp approach.folder name with
      | .error e => .error (.ofSystem e) d
      | .ok (.folder number) =>
        if d.entryCount number = 0 then
          .ok ()
            { d with
              folders := d.folders.erase ⟨approach.folder, name⟩
              surrounding := d.surrounding.erase number }
        else .error (.ofSystem .notEmpty) d
      | .ok (.file _) => .error (.ofSystem .notADirectory) d
      | .ok (.vacant _) => .error (.ofSystem .noSuchRecord) d

/-! ## From outside -/

/-- Replaces the contents of a file, which is made if it is missing. -/
def poke (name : String) (bytes : Bytes) : Action Directory Unit := fun d =>
  match openRecord name .truncate d with
  | .error e d => .error e d
  | .ok handle d =>
    match write bytes (d, handle) with
    | .ok () (d, _) => .ok () d
    | .error e (d, _) => .error e d

def contents? (d : Directory) (name : String) : Option Contents :=
  match d.resolve (joinNames d.home name) with
  | .ok (.file place) => d.files.contents? place
  | _ => none

def get? (d : Directory) (name : String) : Option Bytes := (d.contents? name).map Contents.bytes

/-- The files and, without contents, the folders in the folder of the records; nothing if
that folder does not exist. -/
def entries (d : Directory) : List (String × Option Contents) :=
  match d.resolve d.home with
  | .ok (.folder home) =>
    (d.filesIn home).map (fun (name, stored) => (name, some stored.contents)) ++
      (d.folders.keys.filter fun place => place.folder = home).map fun place => (place.name, none)
  | _ => []

end Directory

end GlyphShelf

import GlyphShelf.Proofs.Memory.Records
import GlyphShelf.Proofs.Ring.Guards
import GlyphShelf.Proofs.Ring.Table

/-!
# Stored links

A device shows a table of links when each key has, under the name of its link, exactly the
bytes of the link that the table gives it. Reading, storing and patching one stored link are
then single steps on the table. `withLinks records table` are the records with the links of
the table in place of their own; that a change of the ring leaves every other record alone is
part of that expression and needs no statement of its own.
-/

namespace GlyphShelf.Ring

variable {m m₁ m₂ : Memory} {table table' : Table} {key : Key} {link : Link} {count more : Nat}
variable {records : String → Option Bytes} {name : String}

/-! ## Names -/

def linkKey? (name : String) : Option Key :=
  match RecordName.ofText? name with
  | some (.link key) => if linkName key = name then some key else none
  | _ => none

@[simp] theorem linkKey?_linkName (key : Key) : linkKey? (linkName key) = some key := by
  simp [linkKey?, linkName]

theorem linkKey?_eq_some_iff : linkKey? name = some key ↔ linkName key = name := by
  constructor
  · intro h
    unfold linkKey? at h
    split at h
    · split at h
      · rename_i canonical
        cases h
        exact canonical
      · cases h
    · cases h
  · rintro rfl
    exact linkKey?_linkName key

theorem linkKey?_eq_none_iff : linkKey? name = none ↔ ∀ key, name ≠ linkName key := by
  constructor
  · rintro other key rfl
    rw [linkKey?_linkName] at other
    cases other
  · intro other
    cases h : linkKey? name with
    | none => rfl
    | some key => exact absurd (linkKey?_eq_some_iff.1 h).symm (other key)

theorem linkName_injective {key other : Key} (h : linkName key = linkName other) : key = other :=
  RecordName.link.inj (RecordName.text_injective h)

theorem linkName_ne {key other : Key} (differs : key ≠ other) : linkName key ≠ linkName other :=
  fun same => differs (linkName_injective same)

theorem isLink_linkName (key : Key) : RecordName.isLink (linkName key) = true := by
  simp [RecordName.isLink, linkName]

theorem linkKey?_eq_none (other : RecordName.isLink name = false) : linkKey? name = none := by
  rw [linkKey?_eq_none_iff]
  rintro key rfl
  rw [isLink_linkName] at other
  cases other

/-! ## Tables on a device -/

/-- The links stored in the records are those of the table. -/
def Shows (records : String → Option Bytes) (table : Table) : Prop :=
  ∀ key, records (linkName key) = (table key).map Link.encode

/-- Whether a key has a link, legible or not. -/
def hasLink (records : String → Option Bytes) (key : Key) : Bool :=
  (records (linkName key)).isSome

/-- The links of the table can be read: each stands at the start of the record of its key. -/
def Reads (records : String → Option Bytes) (table : Table) : Prop :=
  ∀ key link, table key = some link → ∃ rest, records (linkName key) = some (link.encode ++ rest)

theorem Shows.reads (shows : Shows records table) : Reads records table := by
  intro key link found
  refine ⟨[], ?_⟩
  rw [shows key, found, Option.map_some, List.append_nil]

/-- The records with the links of the table in place of their own. -/
def withLinks (records : String → Option Bytes) (table : Table) : String → Option Bytes :=
  fun name =>
    match linkKey? name with
    | some key => (table key).map Link.encode
    | none => records name

@[simp] theorem withLinks_linkName (records : String → Option Bytes) (table : Table) (key : Key) :
    withLinks records table (linkName key) = (table key).map Link.encode := by
  simp [withLinks]

theorem withLinks_of_other (other : linkKey? name = none) (table : Table) :
    withLinks records table name = records name := by
  simp [withLinks, other]

theorem shows_withLinks (records : String → Option Bytes) (table : Table) :
    Shows (withLinks records table) table :=
  withLinks_linkName records table

@[simp] theorem withLinks_withLinks (records : String → Option Bytes) (table table' : Table) :
    withLinks (withLinks records table) table' = withLinks records table' := by
  funext name
  unfold withLinks
  split <;> rfl

theorem Shows.withLinks_eq (shows : Shows records table) : withLinks records table = records := by
  funext name
  cases h : linkKey? name with
  | none => exact withLinks_of_other h table
  | some key =>
    obtain rfl := linkKey?_eq_some_iff.1 h
    rw [withLinks_linkName, shows key]

/-- Setting the record of one link is updating the table. -/
theorem Shows.update_eq (shows : Shows records table) (key : Key) (entry : Option Link) :
    Function.update records (linkName key) (entry.map Link.encode) =
      withLinks records (Function.update table key entry) := by
  funext name
  by_cases same : name = linkName key
  · subst same
    simp
  · rw [Function.update_of_ne same]
    cases h : linkKey? name with
    | none => rw [withLinks_of_other h]
    | some other =>
      obtain rfl := linkKey?_eq_some_iff.1 h
      have differs : other ≠ key := fun same' => same (by rw [same'])
      rw [withLinks_linkName, Function.update_of_ne differs, shows other]

theorem Shows.update (shows : Shows records table) (key : Key) (entry : Option Link) :
    Shows (Function.update records (linkName key) (entry.map Link.encode))
      (Function.update table key entry) := by
  rw [shows.update_eq]
  exact shows_withLinks records _

/-- So many operations, none of which failed, change nothing but links, to those of the
table. -/
structure Relinks (m : Memory) (count : Nat) (table : Table) (m' : Memory) : Prop
    extends m.Spends count m' where
  get? : m'.get? = withLinks m.get? table
  ref? : ∀ name, linkKey? name = none → m'.cabinet.ref? name = m.cabinet.ref? name

theorem Relinks.shows (h : Relinks m count table m₁) : Shows m₁.get? table := by
  rw [h.get?]
  exact shows_withLinks m.get? table

theorem Relinks.trans (first : Relinks m count table m₁) (second : Relinks m₁ more table' m₂) :
    Relinks m (count + more) table' m₂ where
  toSpends := first.toSpends.trans second.toSpends
  get? := by rw [second.get?, first.get?, withLinks_withLinks]
  ref? name other := (second.ref? name other).trans (first.ref? name other)

theorem relinks_spend (shows : Shows m.get? table) (count : Nat) :
    Relinks m count table (m.spend count) where
  toSpends := Memory.spends_spend m count
  get? := shows.withLinks_eq.symm
  ref? _ _ := rfl

theorem relinks_of_sets {entry : Option Link} (shows : Shows m.get? table)
    (sets : m.Sets count (linkName key) (entry.map Link.encode) m₁) :
    Relinks m count (Function.update table key entry) m₁ where
  toSpends := sets.toSpends
  get? := by rw [sets.get?, shows.update_eq]
  ref? name other := sets.ref? name fun same => by
    rw [same, linkKey?_linkName] at other
    cases other

/-! ## Steps on stored links -/

theorem runs_readLink_of_absent (allowed : m.Allows 1) (absent : m.get? (linkName key) = none) :
    Runs (readLink key) m (.error .notFound) (m.spend 1) :=
  (Memory.runs_readHead_of_absent allowed absent).bind_error

theorem runs_readLink_of_stored {rest : Bytes} (allowed : m.Allows 3)
    (stored : m.get? (linkName key) = some (link.encode ++ rest)) :
    Runs (readLink key) m (.ok link) (m.spend 3) := by
  have enough : Link.size ≤ (link.encode ++ rest).length := by
    rw [List.length_append, Link.length_encode]
    exact Nat.le_add_right _ _
  refine (Memory.runs_readHead allowed stored (by decide) enough).bind ?_
  rw [← Link.length_encode link, List.take_left, Link.decode_encode]
  exact Action.runs_ofExcept _ _

section

variable (reads : Reads m.get? table)
include reads

theorem runs_readLink_of_reads (allowed : m.Allows 3) (found : table key = some link) :
    Runs (readLink key) m (.ok link) (m.spend 3) := by
  obtain ⟨rest, stored⟩ := reads key link found
  exact runs_readLink_of_stored allowed stored

theorem runs_neighbours_of_reads (allowed : m.Allows 3) (found : table key = some link) :
    Runs (neighbours key) m (.ok link) (m.spend 3) :=
  runs_orDangling_mapError (runs_readLink_of_reads reads allowed found)

end

section

variable (shows : Shows m.get? table)
include shows

theorem get?_of_linked (found : table key = some link) :
    m.get? (linkName key) = some link.encode := by
  rw [shows key, found, Option.map_some]

theorem get?_of_unlinked (absent : table key = none) : m.get? (linkName key) = none := by
  rw [shows key, absent, Option.map_none]

theorem runs_readLink (allowed : m.Allows 3) (found : table key = some link) :
    Runs (readLink key) m (.ok link) (m.spend 3) :=
  runs_readLink_of_reads shows.reads allowed found

theorem runs_readLink_of_unlinked (allowed : m.Allows 1) (absent : table key = none) :
    Runs (readLink key) m (.error .notFound) (m.spend 1) :=
  runs_readLink_of_absent allowed (get?_of_unlinked shows absent)

theorem runs_neighbours (allowed : m.Allows 3) (found : table key = some link) :
    Runs (neighbours key) m (.ok link) (m.spend 3) :=
  runs_neighbours_of_reads shows.reads allowed found

theorem runs_contains_of_linked (allowed : m.Allows 2) (found : table key = some link) :
    Runs (contains key) m (.ok true) (m.spend 2) :=
  Memory.runs_hasRecord allowed (get?_of_linked shows found)

theorem runs_contains_of_unlinked (allowed : m.Allows 1) (absent : table key = none) :
    Runs (contains key) m (.ok false) (m.spend 1) :=
  Memory.runs_hasRecord_of_absent allowed (get?_of_unlinked shows absent)

theorem runs_writeLink (unlimited : m.quota = none) (allowed : m.Allows 3) (key : Key)
    (link : Link) :
    ∃ m', Runs (writeLink key link) m (.ok ()) m' ∧
      Relinks m 3 (Function.update table key (some link)) m' := by
  obtain ⟨m', run, sets⟩ := Memory.runs_replace unlimited allowed (linkName key) link.encode
  exact ⟨m', run, relinks_of_sets shows sets⟩

theorem runs_deleteLink (allowed : m.Allows 1) (found : table key = some link) :
    ∃ m', Runs (Device.delete (linkName key)) m (.ok ()) m' ∧
      Relinks m 1 (Function.update table key none) m' := by
  obtain ⟨m', run, sets⟩ := Memory.runs_delete allowed
    (by rw [get?_of_linked shows found]; exact Option.some_ne_none _)
  exact ⟨m', run, relinks_of_sets shows sets⟩

end

/-- Overwriting a field of a stored link stores the link with that field replaced. What follows the
link stays. -/
theorem overlay_encode_append (link : Link) (field : Link.Field) (value : Key) (rest : Bytes) :
    Bytes.overlay (link.encode ++ rest) field.offset value.encode =
      (link.set field value).encode ++ rest := by
  cases field <;> simp [Bytes.overlay, Link.encode, Key.encode, Link.Field.offset, Link.set]

theorem overlay_encode (link : Link) (field : Link.Field) (value : Key) :
    Bytes.overlay link.encode field.offset value.encode = (link.set field value).encode := by
  simpa using overlay_encode_append link field value []

theorem offset_add_length_le (field : Link.Field) (value : Key) :
    field.offset + value.encode.length ≤ Memory.maxExtent := by
  rw [Key.length_encode]
  exact field.offset_add_two_le.trans (by decide)

/-- A patch overwrites two bytes of the record, whatever its bytes are. -/
theorem runs_patch_of_stored {bytes : Bytes} (unlimited : m.quota = none) (allowed : m.Allows 4)
    (stored : m.get? (linkName key) = some bytes) (field : Link.Field) (value : Key) :
    ∃ m', Runs (patch key field value) m (.ok ()) m' ∧
      m.Sets 4 (linkName key) (some (Bytes.overlay bytes field.offset value.encode)) m' := by
  obtain ⟨m', run, sets⟩ :=
    Memory.runs_overwrite unlimited allowed stored (offset_add_length_le field value)
  exact ⟨m', runs_orDangling_mapError run, sets⟩

theorem runs_patch (shows : Shows m.get? table) (unlimited : m.quota = none)
    (allowed : m.Allows 4) (found : table key = some link) (field : Link.Field) (value : Key) :
    ∃ m', Runs (patch key field value) m (.ok ()) m' ∧
      Relinks m 4 (setField table key field value) m' := by
  obtain ⟨m', run, sets⟩ :=
    runs_patch_of_stored unlimited allowed (get?_of_linked shows found) field value
  rw [overlay_encode] at sets
  refine ⟨m', run, ?_⟩
  rw [setField, found]
  exact relinks_of_sets shows sets

/-- Joining the neighbours of a link. -/
theorem runs_detach (shows : Shows m.get? table) (unlimited : m.quota = none)
    (allowed : m.Allows 8) (before : (table link.prev).isSome) (after : (table link.next).isSome) :
    ∃ m', Runs (detach link) m (.ok ()) m' ∧
      Relinks m 8 (setField (setField table link.prev .next link.next) link.next .prev link.prev)
        m' := by
  obtain ⟨before, beforeFound⟩ := Option.isSome_iff_exists.1 before
  obtain ⟨m₁, first, relinks₁⟩ := runs_patch shows unlimited (allowed.mono (by omega)) beforeFound
    .next link.next
  rw [← isSome_setField table link.prev .next link.next] at after
  obtain ⟨after, afterFound⟩ := Option.isSome_iff_exists.1 after
  obtain ⟨m₂, second, relinks₂⟩ := runs_patch relinks₁.shows (relinks₁.quota.trans unlimited)
    (relinks₁.allows allowed 4 (by omega)) afterFound .prev link.prev
  exact ⟨m₂, first.bind second, relinks₁.trans relinks₂⟩

end GlyphShelf.Ring

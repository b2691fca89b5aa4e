import Mathlib.Data.List.Nodup
import Mathlib.Logic.Function.Basic
import GlyphShelf.Breach
import GlyphShelf.Bytes

/-!
# Shelves as lists

What a shelf is thought of as: the list of its glyphs, each a key with its payload, the most
recently used first. `Call.onEntries` says what each call answers and what it does to the list.
Nothing here knows of devices, records or links.
-/

namespace GlyphShelf.Shelf

/-- The glyphs on a shelf, the most recently used first. -/
abbrev Entries := List (Key × Bytes)

variable {entries front : Entries} {key other : Key} {bytes : Bytes}

def keysOf (entries : Entries) : List Key := entries.map Prod.fst

def payloadOf (entries : Entries) (key : Key) : Option Bytes := entries.lookup key

def without (key : Key) (entries : Entries) : Entries := entries.filter (·.1 != key)

/-- The glyph in front of all others, in place of one with the same key. -/
def toFront (key : Key) (bytes : Bytes) (entries : Entries) : Entries :=
  (key, bytes) :: without key entries

@[simp] theorem keysOf_cons (entry : Key × Bytes) (entries : Entries) :
    keysOf (entry :: entries) = entry.1 :: keysOf entries := rfl

@[simp] theorem keysOf_append (front back : Entries) :
    keysOf (front ++ back) = keysOf front ++ keysOf back :=
  List.map_append

@[simp] theorem length_keysOf (entries : Entries) : (keysOf entries).length = entries.length :=
  List.length_map Prod.fst

theorem keysOf_take (count : Nat) (entries : Entries) :
    keysOf (entries.take count) = (keysOf entries).take count :=
  List.map_take

theorem keysOf_without (nodup : (keysOf entries).Nodup) (key : Key) :
    keysOf (without key entries) = (keysOf entries).erase key := by
  rw [nodup.erase_eq_filter, keysOf, keysOf, without, List.filter_map]
  rfl

theorem keysOf_toFront (nodup : (keysOf entries).Nodup) (key : Key) (bytes : Bytes) :
    keysOf (toFront key bytes entries) = key :: (keysOf entries).erase key := by
  rw [toFront, keysOf_cons, keysOf_without nodup]

theorem payloadOf_cons (entries : Entries) :
    payloadOf ((key, bytes) :: entries) = Function.update (payloadOf entries) key (some bytes) := by
  funext other
  by_cases same : other = key
  · subst same
    simp [payloadOf]
  · rw [Function.update_of_ne same, payloadOf, List.lookup_cons, beq_false_of_ne same]
    rfl

theorem payloadOf_without (key : Key) (entries : Entries) :
    payloadOf (without key entries) = Function.update (payloadOf entries) key none := by
  induction entries with
  | nil =>
    funext other
    simp [payloadOf, without, Function.update_apply]
  | cons entry entries ih =>
    obtain ⟨first, bytes⟩ := entry
    by_cases same : first = key
    · subst same
      have skipped : without first ((first, bytes) :: entries) = without first entries := by
        simp [without]
      rw [skipped, ih, payloadOf_cons, Function.update_idem]
    · have kept : without key ((first, bytes) :: entries) =
          (first, bytes) :: without key entries := by
        simp [without, same]
      rw [kept, payloadOf_cons, payloadOf_cons, ih, Function.update_comm (Ne.symm same)]

theorem payloadOf_toFront (key : Key) (bytes : Bytes) (entries : Entries) :
    payloadOf (toFront key bytes entries) =
      Function.update (payloadOf entries) key (some bytes) := by
  rw [toFront, payloadOf_cons, payloadOf_without, Function.update_idem]

theorem payloadOf_eq_none_iff : payloadOf entries key = none ↔ key ∉ keysOf entries := by
  rw [payloadOf, List.lookup_eq_none_iff, keysOf, List.mem_map]
  constructor
  · rintro absent ⟨entry, member, rfl⟩
    simpa using absent entry member
  · intro absent entry member
    simpa using fun same : key = entry.1 => absent ⟨entry, member, same.symm⟩

theorem exists_payload (member : key ∈ keysOf entries) :
    ∃ bytes, payloadOf entries key = some bytes := by
  rw [← Option.ne_none_iff_exists']
  exact fun absent => payloadOf_eq_none_iff.1 absent member

theorem mem_keysOf_of_payload (found : payloadOf entries key = some bytes) :
    key ∈ keysOf entries := by
  by_contra fresh
  rw [payloadOf_eq_none_iff.2 fresh] at found
  cases found

theorem payloadOf_of_mem (nodup : (keysOf entries).Nodup) (member : (key, bytes) ∈ entries) :
    payloadOf entries key = some bytes := by
  induction entries with
  | nil => cases member
  | cons entry entries ih =>
    obtain ⟨fresh, nodup⟩ := List.nodup_cons.1 nodup
    rw [payloadOf_cons]
    rcases List.mem_cons.1 member with rfl | member
    · rw [Function.update_self]
    · have differs : key ≠ entry.1 := fun same => fresh (same ▸ List.mem_map_of_mem member)
      rw [Function.update_of_ne differs, ih nodup member]

theorem payloadOf_take {count : Nat} (member : key ∈ keysOf (entries.take count)) :
    payloadOf (entries.take count) key = payloadOf entries key := by
  obtain ⟨bytes, found⟩ := exists_payload member
  have split := List.take_append_drop count entries
  conv_rhs => rw [← split, payloadOf, List.lookup_append, ← payloadOf, found]
  rw [found, Option.some_or]

/-- Dropping the last glyph is forgetting its payload. -/
theorem payloadOf_front (fresh : key ∉ keysOf front) :
    payloadOf front = Function.update (payloadOf (front ++ [(key, bytes)])) key none := by
  funext other
  by_cases same : other = key
  · subst same
    rw [Function.update_self, payloadOf_eq_none_iff.2 fresh]
  · have skipped : List.lookup other [(key, bytes)] = none := by
      rw [List.lookup_cons, beq_false_of_ne same, List.lookup_nil]
    rw [Function.update_of_ne same, payloadOf, payloadOf, List.lookup_append, skipped,
      Option.or_none]

/-! ## Calls -/

/-- What can be asked of a shelf once it is open. -/
inductive Call
  | put (key : Key) (bytes : Bytes)
  | get (key : Key)
  /-- Opens the payload as a record, which is read to its end at once. -/
  | openEntry (key : Key)
  | contains (key : Key)
  | keys
  | size
  | check
  | reconcile
  | reset
deriving DecidableEq

/-- What a call answers when it succeeds. -/
inductive Reply
  | done
  | number (n : Nat)
  | payload (bytes : Bytes)
  | answer (yes : Bool)
  | keys (keys : List Key)
  /-- What an examination found to be wrong, if anything. -/
  | examined (breach : Option Breach)
deriving DecidableEq

/-- A use of a glyph, which reads its payload and brings it to the front. -/
def useOnEntries (entries : Entries) (key : Key) : Except Failure Reply × Entries :=
  if key.IsAnchor then (.error (.reservedKey key), entries)
  else
    match payloadOf entries key with
    | some bytes => (.ok (.payload bytes), toFront key bytes entries)
    | none => (.error .notFound, entries)

theorem useOnEntries_of_anchor (anchor : key.IsAnchor) (entries : Entries) :
    useOnEntries entries key = (.error (.reservedKey key), entries) :=
  if_pos anchor

theorem useOnEntries_of_present (glyph : ¬ key.IsAnchor)
    (found : payloadOf entries key = some bytes) :
    useOnEntries entries key = (.ok (.payload bytes), toFront key bytes entries) := by
  rw [useOnEntries, if_neg glyph, found]

theorem useOnEntries_of_absent (glyph : ¬ key.IsAnchor) (absent : payloadOf entries key = none) :
    useOnEntries entries key = (.error .notFound, entries) := by
  rw [useOnEntries, if_neg glyph, absent]

/-- The glyph in front, and as many behind it as there is room for. -/
def putOnEntries (capacity : Nat) (key : Key) (bytes : Bytes) (entries : Entries) :
    Except Failure Reply × Entries :=
  if key.IsAnchor then (.error (.reservedKey key), entries)
  else
    (.ok (.number ((toFront key bytes entries).take capacity).length),
      (toFront key bytes entries).take capacity)

theorem putOnEntries_of_anchor (anchor : key.IsAnchor) (capacity : Nat) (bytes : Bytes)
    (entries : Entries) :
    putOnEntries capacity key bytes entries = (.error (.reservedKey key), entries) :=
  if_pos anchor

theorem putOnEntries_of_glyph (glyph : ¬ key.IsAnchor) (capacity : Nat) (bytes : Bytes)
    (entries : Entries) :
    putOnEntries capacity key bytes entries =
      (.ok (.number ((toFront key bytes entries).take capacity).length),
        (toFront key bytes entries).take capacity) :=
  if_neg glyph

/-- The answer of a call and the list after it. Only a glyph that is put can push others off
the end. -/
def Call.onEntries (capacity : Nat) (call : Call) (entries : Entries) :
    Except Failure Reply × Entries :=
  match call with
  | .put key bytes => putOnEntries capacity key bytes entries
  | .get key => useOnEntries entries key
  | .openEntry key => useOnEntries entries key
  | .contains key => (.ok (.answer (decide (¬ key.IsAnchor ∧ key ∈ keysOf entries))), entries)
  | .keys => (.ok (.keys (keysOf entries)), entries)
  | .size => (.ok (.number entries.length), entries)
  | .check => (.ok (.examined none), entries)
  | .reconcile => (.ok (.number entries.length), entries)
  | .reset => (.ok .done, [])

end GlyphShelf.Shelf

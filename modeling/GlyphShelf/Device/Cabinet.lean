import Std.Data.TreeMap
import GlyphShelf.Contents

/-!
# Cabinets

Named contents that outlive their names. A record that is deleted, or deleted and
created again, while somebody has it open stays readable and writable for them. So every
record has a serial number of its own, and a reference holds a name and a serial: it means
the record under that name as long as the serials agree, and the record laid aside under
the serial afterwards.

`Cabinet.get?` is the view in which the operations are described: what is under a name.
-/

namespace GlyphShelf

structure Stored where
  serial : Nat
  contents : Contents

/-- Contents by name, and those whose name is gone by serial. -/
structure Cabinet (ν : Type) [Ord ν] where
  named : Std.TreeMap ν Stored := ∅
  nameless : Std.TreeMap Nat Contents := ∅
  /-- The serial of the next record to be created. -/
  nextSerial : Nat := 0

namespace Cabinet

variable {ν : Type} [Ord ν]

structure Ref (ν : Type) where
  name : ν
  serial : Nat

def contents? (cabinet : Cabinet ν) (name : ν) : Option Contents :=
  (cabinet.named[name]?).map Stored.contents

def get? (cabinet : Cabinet ν) (name : ν) : Option Bytes :=
  (cabinet.contents? name).map Contents.bytes

def ref? (cabinet : Cabinet ν) (name : ν) : Option (Ref ν) :=
  (cabinet.named[name]?).map fun stored => ⟨name, stored.serial⟩

def read (cabinet : Cabinet ν) (ref : Ref ν) : Contents :=
  match cabinet.named[ref.name]? with
  | some stored =>
    if stored.serial = ref.serial then stored.contents
    else (cabinet.nameless[ref.serial]?).getD .empty
  | none => (cabinet.nameless[ref.serial]?).getD .empty

def write (cabinet : Cabinet ν) (ref : Ref ν) (contents : Contents) : Cabinet ν :=
  match cabinet.named[ref.name]? with
  | some stored =>
    if stored.serial = ref.serial then
      { cabinet with named := cabinet.named.insert ref.name ⟨ref.serial, contents⟩ }
    else { cabinet with nameless := cabinet.nameless.insert ref.serial contents }
  | none => { cabinet with nameless := cabinet.nameless.insert ref.serial contents }

def create (cabinet : Cabinet ν) (name : ν) (contents : Contents) : Cabinet ν :=
  { cabinet with
    named := cabinet.named.insert name ⟨cabinet.nextSerial, contents⟩
    nextSerial := cabinet.nextSerial + 1 }

/-- Takes a name away; the record is laid aside for those who have it open. -/
def remove (cabinet : Cabinet ν) (name : ν) : Cabinet ν :=
  match cabinet.named[name]? with
  | some stored =>
    { cabinet with
      named := cabinet.named.erase name
      nameless := cabinet.nameless.insert stored.serial stored.contents }
  | none => cabinet

/-- Puts contents under a name: into the record there, or into a new one. -/
def put (cabinet : Cabinet ν) (name : ν) (contents : Contents) : Cabinet ν :=
  match cabinet.ref? name with
  | some ref => cabinet.write ref contents
  | none => cabinet.create name contents

def names (cabinet : Cabinet ν) : List ν := cabinet.named.keys

variable [Std.TransOrd ν] [Std.LawfulEqOrd ν] [DecidableEq ν]

theorem get?_create (cabinet : Cabinet ν) (name : ν) (contents : Contents) (other : ν) :
    (cabinet.create name contents).get? other =
      if name = other then some contents.bytes else cabinet.get? other := by
  simp only [get?, contents?, create, Std.TreeMap.getElem?_insert,
    Std.LawfulEqCmp.compare_eq_iff_eq]
  split <;> simp

theorem get?_remove (cabinet : Cabinet ν) (name other : ν) :
    (cabinet.remove name).get? other = if name = other then none else cabinet.get? other := by
  unfold remove
  split
  · simp only [get?, contents?, Std.TreeMap.getElem?_erase, Std.LawfulEqCmp.compare_eq_iff_eq]
    split <;> simp
  · rename_i h
    split
    · rename_i same
      subst same
      simp [get?, contents?, h]
    · rfl

/-- Writing through a reference changes the name it was obtained under and no other. -/
theorem get?_write_of_ref? {cabinet : Cabinet ν} {name : ν} {ref : Ref ν}
    (h : cabinet.ref? name = some ref) (contents : Contents) (other : ν) :
    (cabinet.write ref contents).get? other =
      if name = other then some contents.bytes else cabinet.get? other := by
  obtain ⟨stored, found, rfl⟩ := Option.map_eq_some_iff.1 h
  simp only [write, found, if_true, get?, contents?, Std.TreeMap.getElem?_insert,
    Std.LawfulEqCmp.compare_eq_iff_eq]
  split <;> simp

theorem get?_put (cabinet : Cabinet ν) (name : ν) (contents : Contents) (other : ν) :
    (cabinet.put name contents).get? other =
      if name = other then some contents.bytes else cabinet.get? other := by
  unfold put
  split
  · rename_i ref h
    exact get?_write_of_ref? h contents other
  · exact get?_create cabinet name contents other

omit [DecidableEq ν] [Std.TransOrd ν] [Std.LawfulEqOrd ν] in
theorem contents?_of_ref? {cabinet : Cabinet ν} {name : ν} {ref : Ref ν}
    (h : cabinet.ref? name = some ref) : cabinet.contents? name = some (cabinet.read ref) := by
  obtain ⟨stored, found, rfl⟩ := Option.map_eq_some_iff.1 h
  simp [contents?, read, found]

omit [DecidableEq ν] [Std.TransOrd ν] [Std.LawfulEqOrd ν] in
theorem get?_of_ref? {cabinet : Cabinet ν} {name : ν} {ref : Ref ν}
    (h : cabinet.ref? name = some ref) : cabinet.get? name = some (cabinet.read ref).bytes := by
  rw [get?, contents?_of_ref? h, Option.map_some]

omit [DecidableEq ν] [Std.TransOrd ν] [Std.LawfulEqOrd ν] in
theorem ref?_eq_none_iff {cabinet : Cabinet ν} {name : ν} :
    cabinet.ref? name = none ↔ cabinet.get? name = none := by
  simp [ref?, get?, contents?]

/-- Writing through a reference leaves every record where it is. -/
theorem ref?_write_of_ref? {cabinet : Cabinet ν} {name : ν} {ref : Ref ν}
    (h : cabinet.ref? name = some ref) (contents : Contents) (other : ν) :
    (cabinet.write ref contents).ref? other = cabinet.ref? other := by
  obtain ⟨stored, found, rfl⟩ := Option.map_eq_some_iff.1 h
  simp only [write, found, if_true, ref?, Std.TreeMap.getElem?_insert,
    Std.LawfulEqCmp.compare_eq_iff_eq]
  split
  · rename_i same
    subst same
    simp [found]
  · rfl

theorem ref?_create (cabinet : Cabinet ν) (name : ν) (contents : Contents) (other : ν) :
    (cabinet.create name contents).ref? other =
      if name = other then some ⟨name, cabinet.nextSerial⟩ else cabinet.ref? other := by
  simp only [ref?, create, Std.TreeMap.getElem?_insert, Std.LawfulEqCmp.compare_eq_iff_eq]
  split
  · rename_i same
    subst same
    simp
  · rfl

omit [DecidableEq ν] in
theorem ref?_remove_of_ne (cabinet : Cabinet ν) {name other : ν} (h : name ≠ other) :
    (cabinet.remove name).ref? other = cabinet.ref? other := by
  unfold remove
  split
  · simp [ref?, Std.TreeMap.getElem?_erase, h]
  · rfl

omit [DecidableEq ν] in
theorem mem_names (cabinet : Cabinet ν) (name : ν) :
    name ∈ cabinet.names ↔ (cabinet.get? name).isSome := by
  rw [names, Std.TreeMap.mem_keys, get?, contents?, Option.isSome_map, Option.isSome_map,
    Std.TreeMap.mem_iff_isSome_getElem?]

end Cabinet

end GlyphShelf

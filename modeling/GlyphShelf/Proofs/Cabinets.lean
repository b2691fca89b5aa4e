import GlyphShelf.Device.Cabinet

/-!
# References that outlive names

Whoever has a record open goes on reading it when its name is taken away or given to a new
record. So a reference has two lives. As long as it holds its name, whatever is written under
that name is written to its record; once it does not, nothing done under names reaches it again,
because no later record gets the same serial.

`Spares kept` is what a cabinet may become while one name is looked after: the record under that
name may go, but no other one comes in its place, and it is not written to. `Loses gone` is what it
becomes when the records under some names go and all others stay.
-/

namespace GlyphShelf.Cabinet

variable {ν : Type} [Ord ν] {c c₁ c₂ : Cabinet ν} {ref r : Ref ν} {name : ν} {kept : Option ν}
variable {contents : Contents} {gone more : ν → Prop} {bytes : Bytes}

deriving instance DecidableEq for Ref

/-- The record of a reference is the one under its name. -/
def Holds (c : Cabinet ν) (ref : Ref ν) : Prop := c.ref? ref.name = some ref

/-- The serial of a reference was given out, and no record under another name has it. -/
structure Issued (c : Cabinet ν) (ref : Ref ν) : Prop where
  earlier : ref.serial < c.nextSerial
  own : ∀ other, c.Holds other → other.serial = ref.serial → other.name = ref.name

/-- Every record under a name has a serial of its own, given out before. -/
def Sound (c : Cabinet ν) : Prop := ∀ ref, c.Holds ref → c.Issued ref

theorem holds_of_ref? (found : c.ref? name = some ref) : ref.name = name ∧ c.Holds ref := by
  obtain ⟨stored, -, rfl⟩ := Option.map_eq_some_iff.1 found
  exact ⟨rfl, found⟩

theorem holds_iff : c.Holds ref ↔ ∃ contents, c.named[ref.name]? = some ⟨ref.serial, contents⟩ := by
  constructor
  · intro held
    obtain ⟨⟨serial, contents⟩, found, same⟩ := Option.map_eq_some_iff.1 held
    obtain rfl : serial = ref.serial := congrArg Ref.serial same
    exact ⟨contents, found⟩
  · rintro ⟨contents, found⟩
    rw [Holds, ref?, found, Option.map_some]

theorem read_of_named (found : c.named[ref.name]? = some ⟨ref.serial, contents⟩) :
    c.read ref = contents := by
  rw [read, found]
  exact if_pos rfl

theorem read_of_not_holds (away : ¬ c.Holds ref) :
    c.read ref = (c.nameless[ref.serial]?).getD .empty := by
  unfold read
  split
  · rename_i stored found
    refine if_neg fun same => away (holds_iff.2 ⟨stored.contents, ?_⟩)
    rw [found, ← same]
  · rfl

theorem get?_of_holds (held : c.Holds ref) : c.get? ref.name = some (c.read ref).bytes :=
  get?_of_ref? held

theorem get?_eq_some_iff : c.get? name = some bytes ↔
    ∃ ref, ref.name = name ∧ c.Holds ref ∧ (c.read ref).bytes = bytes := by
  constructor
  · intro present
    cases found : c.ref? name with
    | none =>
      rw [ref?_eq_none_iff.1 found] at present
      cases present
    | some ref =>
      obtain ⟨named, held⟩ := holds_of_ref? found
      exact ⟨ref, named, held, Option.some.inj ((get?_of_ref? found).symm.trans present)⟩
  · rintro ⟨ref, rfl, held, rfl⟩
    exact get?_of_holds held

theorem Holds.unique (held : c.Holds r) (other : c.Holds ref) (same : r.name = ref.name) :
    r = ref := by
  rw [Holds, same] at held
  exact Option.some.inj (held.symm.trans other)

theorem remove_of_absent (absent : c.ref? name = none) : c.remove name = c := by
  have unnamed : c.named[name]? = none := Option.map_eq_none_iff.1 absent
  rw [remove, unnamed]

/-! ## What is spared -/

/-- What a cabinet may become while the record under one name is looked after. -/
structure Spares (kept : Option ν) (c c' : Cabinet ν) : Prop where
  sound : c.Sound → c'.Sound
  issued : ∀ r, c.Issued r → c'.Issued r
  /-- A reference that lost its name never gets it back. -/
  held : ∀ r, c.Issued r → c'.Holds r → c.Holds r
  /-- No other record comes under the name. -/
  stays : ∀ r, kept = some r.name → c'.Holds r → c.Holds r
  /-- Neither the record under the name nor one that lost its name is written to. -/
  read : ∀ r, c.Issued r → kept = some r.name ∨ ¬ c.Holds r → c'.read r = c.read r

theorem Spares.refl (kept : Option ν) (c : Cabinet ν) : Spares kept c c where
  sound := id
  issued _ := id
  held _ _ := id
  stays _ _ := id
  read _ _ _ := rfl

theorem Spares.trans (first : Spares kept c c₁) (second : Spares kept c₁ c₂) :
    Spares kept c c₂ where
  sound := second.sound ∘ first.sound
  issued r := second.issued r ∘ first.issued r
  held r issued := first.held r issued ∘ second.held r (first.issued r issued)
  stays r named := first.stays r named ∘ second.stays r named
  read r issued free := by
    have free' : kept = some r.name ∨ ¬ c₁.Holds r := free.imp_right (mt (first.held r issued))
    rw [second.read r (first.issued r issued) free', first.read r issued free]

theorem Issued.of_fewer (issued : c.Issued r) (later : c.nextSerial ≤ c₁.nextSerial)
    (fewer : ∀ ref, c₁.Holds ref → c.Holds ref) : c₁.Issued r where
  earlier := Nat.lt_of_lt_of_le issued.earlier later
  own other holds := issued.own other (fewer other holds)

/-- Where no name is given, nothing but reading is left to be looked at. -/
theorem spares_of_fewer (later : c.nextSerial ≤ c₁.nextSerial)
    (fewer : ∀ ref, c₁.Holds ref → c.Holds ref)
    (read : ∀ r, c.Issued r → kept = some r.name ∨ ¬ c.Holds r → c₁.read r = c.read r) :
    Spares kept c c₁ where
  sound sound r holds := (sound r (fewer r holds)).of_fewer later fewer
  issued _ issued := issued.of_fewer later fewer
  held r _ := fewer r
  stays r _ := fewer r
  read := read

/-! ## What is lost -/

/-- The records under some names go, and nothing else is seen to change. -/
structure Loses (gone : ν → Prop) (c c' : Cabinet ν) : Prop where
  sound : c.Sound → c'.Sound
  issued : ∀ r, c.Issued r → c'.Issued r
  holds : ∀ r, c'.Holds r ↔ ¬ gone r.name ∧ c.Holds r
  read : ∀ r, c.Issued r → (c'.read r).bytes = (c.read r).bytes

theorem Loses.nothing (c : Cabinet ν) : Loses (fun _ => False) c c where
  sound := id
  issued _ := id
  holds r := by simp
  read _ _ := rfl

theorem Loses.trans (first : Loses gone c c₁) (second : Loses more c₁ c₂) :
    Loses (fun name => gone name ∨ more name) c c₂ where
  sound := second.sound ∘ first.sound
  issued r := second.issued r ∘ first.issued r
  holds r := by
    rw [second.holds, first.holds, not_or]
    constructor
    · rintro ⟨left, still, held⟩
      exact ⟨⟨still, left⟩, held⟩
    · rintro ⟨⟨still, left⟩, held⟩
      exact ⟨left, still, held⟩
  read r issued := (second.read r (first.issued r issued)).trans (first.read r issued)

theorem Loses.congr (loses : Loses gone c c₁) (same : ∀ name, gone name ↔ more name) :
    Loses more c c₁ where
  sound := loses.sound
  issued := loses.issued
  holds r := by rw [loses.holds, same]
  read := loses.read

theorem Loses.get?_eq_some_iff (loses : Loses gone c c₁) (sound : c.Sound) :
    c₁.get? name = some bytes ↔ ¬ gone name ∧ c.get? name = some bytes := by
  rw [Cabinet.get?_eq_some_iff, Cabinet.get?_eq_some_iff]
  constructor
  · rintro ⟨ref, rfl, held, rfl⟩
    obtain ⟨left, before⟩ := (loses.holds ref).1 held
    exact ⟨left, ref, rfl, before, (loses.read ref (sound ref before)).symm⟩
  · rintro ⟨left, ref, rfl, held, rfl⟩
    exact ⟨ref, rfl, (loses.holds ref).2 ⟨left, held⟩, loses.read ref (sound ref held)⟩

/-! ## What single changes do -/

variable [Std.TransOrd ν] [Std.LawfulEqOrd ν] [DecidableEq ν]

omit [DecidableEq ν] [Std.LawfulEqOrd ν] in
theorem sound_empty : Sound ({} : Cabinet ν) := by
  intro ref held
  simp [Holds, ref?] at held

omit [Std.TransOrd ν] [Std.LawfulEqOrd ν] [DecidableEq ν] in
theorem write_of_holds (held : c.Holds ref) (contents : Contents) :
    c.write ref contents =
      { c with named := c.named.insert ref.name ⟨ref.serial, contents⟩ } := by
  obtain ⟨old, found⟩ := holds_iff.1 held
  rw [write, found]
  exact if_pos rfl

omit [Std.TransOrd ν] [Std.LawfulEqOrd ν] [DecidableEq ν] in
/-- What is written through a reference that lost its name goes to the record laid aside. -/
theorem write_of_not_holds (away : ¬ c.Holds ref) (contents : Contents) :
    c.write ref contents = { c with nameless := c.nameless.insert ref.serial contents } := by
  unfold write
  split
  · rename_i stored found
    refine if_neg fun same => away (holds_iff.2 ⟨stored.contents, ?_⟩)
    rw [found, ← same]
  · rfl

omit [Std.TransOrd ν] [Std.LawfulEqOrd ν] [DecidableEq ν] in
theorem nextSerial_write (c : Cabinet ν) (ref : Ref ν) (contents : Contents) :
    (c.write ref contents).nextSerial = c.nextSerial := by
  by_cases held : c.Holds ref
  · rw [write_of_holds held]
  · rw [write_of_not_holds held]

/-- Writing neither gives a name nor takes one away. -/
theorem holds_write_iff (c : Cabinet ν) (ref : Ref ν) (contents : Contents) :
    (c.write ref contents).Holds r ↔ c.Holds r := by
  by_cases held : c.Holds ref
  · rw [Holds, Holds, ref?_write_of_ref? held]
  · rw [write_of_not_holds held]
    exact .rfl

omit [DecidableEq ν] in
theorem read_write (held : c.Holds ref) (contents : Contents) :
    (c.write ref contents).read ref = contents := by
  rw [write_of_holds held]
  exact read_of_named (by simp)

omit [DecidableEq ν] in
/-- What is written through a reference is what it reads, with its name or without. -/
theorem read_write_self (c : Cabinet ν) (ref : Ref ν) (contents : Contents) :
    (c.write ref contents).read ref = contents := by
  by_cases held : c.Holds ref
  · exact read_write held contents
  · have away : ¬ (c.write ref contents).Holds ref := by
      rw [write_of_not_holds held]
      exact held
    rw [read_of_not_holds away, write_of_not_holds held]
    simp

theorem read_write_of_ne (held : c.Holds ref) (contents : Contents) (differs : r ≠ ref) :
    (c.write ref contents).read r = c.read r := by
  by_cases holds : c.Holds r
  · obtain ⟨old, found⟩ := holds_iff.1 holds
    have apart : ref.name ≠ r.name := by
      intro same
      rw [Holds, same] at held
      exact differs (Option.some.inj (holds.symm.trans held))
    rw [read_of_named found, write_of_holds held]
    exact read_of_named (by simp [Std.TreeMap.getElem?_insert, apart, found])
  · rw [read_of_not_holds holds, read_of_not_holds (mt (holds_write_iff c ref contents).1 holds),
      write_of_holds held]

omit [Std.TransOrd ν] [Std.LawfulEqOrd ν] [DecidableEq ν] in
/-- References with one serial are the same, unless both have lost their name. -/
theorem Issued.eq_of_serial (issued : c.Issued r) (other : c.Issued ref)
    (held : c.Holds r ∨ c.Holds ref) (serial : r.serial = ref.serial) : r = ref := by
  have named : r.name = ref.name := by
    obtain held | held := held
    · exact other.own r held serial
    · exact (issued.own ref held serial.symm).symm
  cases r
  cases ref
  cases named
  cases serial
  rfl

omit [Std.TransOrd ν] [Std.LawfulEqOrd ν] [DecidableEq ν] in
/-- They read the same in any case. -/
theorem Issued.read_eq (issued : c.Issued r) (other : c.Issued ref)
    (serial : r.serial = ref.serial) : c.read r = c.read ref := by
  by_cases held : c.Holds r ∨ c.Holds ref
  · rw [issued.eq_of_serial other held serial]
  · rw [not_or] at held
    rw [read_of_not_holds held.1, read_of_not_holds held.2, serial]

/-- Who refers to the record that is written to reads it, and nobody else does. -/
theorem read_write_of_issued (writer : c.Issued ref) (reader : c.Issued r) (contents : Contents) :
    (c.write ref contents).read r = if r.serial = ref.serial then contents else c.read r := by
  by_cases held : c.Holds ref
  · by_cases same : r = ref
    · rw [if_pos (congrArg Ref.serial same), same, read_write held]
    · rw [if_neg (mt (reader.eq_of_serial writer (.inr held)) same),
        read_write_of_ne held contents same]
  · by_cases holds : c.Holds r
    · have apart : r.serial ≠ ref.serial := fun serial =>
        held (reader.eq_of_serial writer (.inl holds) serial ▸ holds)
      obtain ⟨old, found⟩ := holds_iff.1 holds
      rw [if_neg apart, read_of_named found, write_of_not_holds held]
      exact read_of_named found
    · have away : ¬ (c.write ref contents).Holds r := mt (holds_write_iff c ref contents).1 holds
      rw [read_of_not_holds away, read_of_not_holds holds, write_of_not_holds held]
      by_cases serial : r.serial = ref.serial
      · simp [serial]
      · simp [Std.TreeMap.getElem?_insert, serial, Ne.symm serial]

theorem holds_create_iff (contents : Contents) :
    (c.create name contents).Holds r ↔
      if name = r.name then r = ⟨name, c.nextSerial⟩ else c.Holds r := by
  rw [Holds, ref?_create]
  split
  · exact ⟨fun same => (Option.some.inj same).symm, fun same => by rw [same]⟩
  · exact .rfl

omit [DecidableEq ν] in
theorem read_create (contents : Contents) :
    (c.create name contents).read ⟨name, c.nextSerial⟩ = contents :=
  read_of_named (by simp [create])

theorem read_create_of_issued (free : c.ref? name = none) (contents : Contents)
    (issued : c.Issued r) : (c.create name contents).read r = c.read r := by
  have older : r ≠ ⟨name, c.nextSerial⟩ := by
    rintro rfl
    exact Nat.lt_irrefl _ issued.earlier
  by_cases holds : c.Holds r
  · obtain ⟨old, found⟩ := holds_iff.1 holds
    have apart : name ≠ r.name := by
      rintro rfl
      rw [Holds, free] at holds
      cases holds
    rw [read_of_named found]
    exact read_of_named (by simp [create, Std.TreeMap.getElem?_insert, apart, found])
  · have away : ¬ (c.create name contents).Holds r := by
      rw [holds_create_iff]
      split
      · exact older
      · exact holds
    rw [read_of_not_holds holds, read_of_not_holds away]
    rfl

theorem holds_remove_iff : (c.remove name).Holds r ↔ name ≠ r.name ∧ c.Holds r := by
  by_cases same : name = r.name
  · subst same
    have gone : (c.remove r.name).ref? r.name = none := by
      rw [ref?_eq_none_iff, get?_remove, if_pos rfl]
    rw [Holds, gone]
    simp
  · rw [Holds, ref?_remove_of_ne c same, Holds]
    simp [same]

theorem read_remove_of_issued (issued : c.Issued r) : (c.remove name).read r = c.read r := by
  by_cases taken : ∃ stored, c.named[name]? = some stored
  · obtain ⟨⟨serial, contents⟩, found⟩ := taken
    have removed : c.remove name =
        { c with
          named := c.named.erase name
          nameless := c.nameless.insert serial contents } := by
      rw [remove, found]
    have named : c.Holds ⟨name, serial⟩ := holds_iff.2 ⟨contents, found⟩
    by_cases same : name = r.name
    · -- The record is laid aside under its serial, where its reference goes on reading it.
      subst same
      rw [read_of_not_holds (mt holds_remove_iff.1 fun both => both.1 rfl), removed]
      by_cases holds : serial = r.serial
      · subst holds
        rw [read_of_named found]
        simp
      · have away : ¬ c.Holds r := by
          intro held
          rw [Holds] at named held
          exact holds (congrArg Ref.serial (Option.some.inj (named.symm.trans held)))
        rw [read_of_not_holds away]
        simp [Std.TreeMap.getElem?_insert, holds]
    · by_cases holds : c.Holds r
      · obtain ⟨old, found'⟩ := holds_iff.1 holds
        rw [read_of_named found', removed]
        exact read_of_named (by simp [Std.TreeMap.getElem?_erase, same, found'])
      · have other : serial ≠ r.serial := fun equal => same (issued.own _ named equal)
        have fewer : ¬ (c.remove name).Holds r := fun held => holds (holds_remove_iff.1 held).2
        rw [read_of_not_holds holds, read_of_not_holds fewer, removed]
        simp [Std.TreeMap.getElem?_insert, other]
  · have free : c.named[name]? = none := by
      cases found : c.named[name]? with
      | none => rfl
      | some stored => exact absurd ⟨stored, found⟩ taken
    rw [remove, free]

/-- What is put under a name is read by the reference to what is there afterwards. -/
theorem exists_holds_put (name : ν) (contents : Contents) :
    ∃ ref, ref.name = name ∧ (c.put name contents).ref? name = some ref ∧
      (c.put name contents).read ref = contents := by
  unfold put
  cases found : c.ref? name with
  | some ref =>
    obtain ⟨rfl, held⟩ := holds_of_ref? found
    exact ⟨ref, rfl, (holds_write_iff c ref contents).2 held, read_write held contents⟩
  | none =>
    refine ⟨⟨name, c.nextSerial⟩, rfl, ?_, read_create contents⟩
    rw [ref?_create, if_pos rfl]

theorem spares_write (held : c.Holds ref) (away : kept ≠ some ref.name) (contents : Contents) :
    Spares kept c (c.write ref contents) := by
  have later := Nat.le_of_eq (nextSerial_write c ref contents).symm
  refine spares_of_fewer later (fun r => (holds_write_iff c ref contents).1) fun r _ free => ?_
  refine read_write_of_ne held contents ?_
  rintro rfl
  exact free.elim away fun lost => lost held

theorem spares_remove (kept : Option ν) (c : Cabinet ν) (name : ν) :
    Spares kept c (c.remove name) := by
  have later : c.nextSerial ≤ (c.remove name).nextSerial := by
    unfold remove
    split <;> exact Nat.le_refl _
  exact spares_of_fewer later (fun r holds => (holds_remove_iff.1 holds).2) fun r issued _ =>
    read_remove_of_issued issued

theorem spares_create (free : c.ref? name = none) (away : kept ≠ some name)
    (contents : Contents) : Spares kept c (c.create name contents) := by
  have cases {r : Ref ν} (holds : (c.create name contents).Holds r) :
      r = ⟨name, c.nextSerial⟩ ∨ name ≠ r.name ∧ c.Holds r := by
    rw [holds_create_iff] at holds
    split at holds
    · exact .inl holds
    · exact .inr ⟨‹_›, holds⟩
  have issuing {r : Ref ν} (issued : c.Issued r) : (c.create name contents).Issued r := by
    refine ⟨Nat.lt_succ_of_lt issued.earlier, fun other holds same => ?_⟩
    rcases cases holds with rfl | ⟨-, before⟩
    · exact absurd issued.earlier (same ▸ Nat.lt_irrefl _)
    · exact issued.own other before same
  refine ⟨fun sound r holds => ?_, fun r => issuing, fun r issued holds => ?_,
    fun r named holds => ?_, fun r issued _ => read_create_of_issued free contents issued⟩
  · rcases cases holds with rfl | ⟨-, before⟩
    · refine ⟨Nat.lt_succ_self _, fun other holds same => ?_⟩
      rcases cases holds with rfl | ⟨-, before⟩
      · rfl
      · exact absurd (sound other before).earlier (same ▸ Nat.lt_irrefl _)
    · exact issuing (sound r before)
  · rcases cases holds with rfl | ⟨-, before⟩
    · exact absurd issued.earlier (Nat.lt_irrefl _)
    · exact before
  · rcases cases holds with rfl | ⟨-, before⟩
    · exact absurd named away
    · exact before

theorem spares_put (away : kept ≠ some name) (contents : Contents) :
    Spares kept c (c.put name contents) := by
  unfold put
  cases found : c.ref? name with
  | some ref =>
    obtain ⟨rfl, held⟩ := holds_of_ref? found
    exact spares_write held away contents
  | none => exact spares_create found away contents

theorem holds_create_of_issued (free : c.ref? name = none) {contents : Contents}
    (issued : c.Issued r) : (c.create name contents).Holds r ↔ c.Holds r := by
  rw [holds_create_iff]
  split
  · rename_i named
    constructor
    · rintro rfl
      exact absurd issued.earlier (Nat.lt_irrefl _)
    · intro held
      rw [Holds, ← named, free] at held
      cases held
  · exact .rfl

theorem loses_remove (c : Cabinet ν) (name : ν) : Loses (name = ·) c (c.remove name) := by
  have spares : Spares none c (c.remove name) :=
    spares_remove none c name
  exact ⟨spares.sound, spares.issued, fun r => holds_remove_iff, fun r issued =>
    congrArg Contents.bytes (read_remove_of_issued issued)⟩

/-- Writing the bytes that are there already is not seen. -/
theorem loses_write (issued : c.Issued ref) {contents : Contents}
    (same : contents.bytes = (c.read ref).bytes) :
    Loses (fun _ => False) c (c.write ref contents) := by
  have later : c.nextSerial ≤ (c.write ref contents).nextSerial :=
    Nat.le_of_eq (nextSerial_write c ref contents).symm
  have holds (r : Ref ν) : (c.write ref contents).Holds r → c.Holds r :=
    (holds_write_iff c ref contents).1
  refine ⟨fun sound r held => (sound r (holds r held)).of_fewer later holds,
    fun r issued => issued.of_fewer later holds, fun r => ?_, fun r reader => ?_⟩
  · rw [holds_write_iff, not_false_eq_true, true_and]
  · rw [read_write_of_issued issued reader]
    split
    · rename_i serial
      rw [same, reader.read_eq issued serial]
    · rfl

/-! ## What is filled -/

/-- What a cabinet becomes when the record under one name is given new contents, or a record with
these contents is created there. -/
structure Fills (name : ν) (contents : Contents) (c c' : Cabinet ν) : Prop where
  spares : ∀ kept, kept ≠ some name → Spares kept c c'
  keeps : ∀ r, c.ref? name = some r → c'.ref? name = some r
  there : ∀ r, c'.ref? name = some r → c'.read r = contents

omit [Std.TransOrd ν] [Std.LawfulEqOrd ν] [DecidableEq ν] in
theorem Fills.refl (reads : ∀ r, c.ref? name = some r → c.read r = contents) :
    Fills name contents c c where
  spares kept _ := .refl kept c
  keeps _ := id
  there := reads

omit [Std.TransOrd ν] [Std.LawfulEqOrd ν] [DecidableEq ν] in
theorem Fills.trans {later : Contents} (first : Fills name contents c c₁)
    (second : Fills name later c₁ c₂) : Fills name later c c₂ where
  spares kept away := (first.spares kept away).trans (second.spares kept away)
  keeps r := second.keeps r ∘ first.keeps r
  there := second.there

theorem fills_put (c : Cabinet ν) (name : ν) (contents : Contents) :
    Fills name contents c (c.put name contents) := by
  obtain ⟨ref, rfl, named, reads⟩ := exists_holds_put (c := c) name contents
  refine ⟨fun kept away => spares_put away contents, fun r found => ?_, fun r found => ?_⟩
  · rw [put, found]
    obtain ⟨-, held⟩ := holds_of_ref? found
    rw [ref?_write_of_ref? held]
    exact found
  · obtain rfl := Option.some.inj (named.symm.trans found)
    exact reads

theorem fills_write (held : c.Holds ref) (contents : Contents) :
    Fills ref.name contents c (c.write ref contents) := by
  have same : c.put ref.name contents = c.write ref contents := by
    rw [Holds] at held
    rw [put, held]
  exact same ▸ fills_put c ref.name contents

end GlyphShelf.Cabinet

import GlyphShelf.Proofs.Cabinets
import GlyphShelf.Device.Path

/-!
# References in pairs

A cabinet and one folder of another cabinet are worked on side by side. To whatever record there is
in the one belongs one in the other, and it still does when its name is gone; so the references that
belong together are kept in mind as `pairs`. What is written through the one reference of a pair and
through the other is read by whoever refers to the same record, and by nobody else, whether or not
the record still has a name.
-/

namespace GlyphShelf.Cabinet

variable {folder : Nat} {c c₁ : Cabinet String} {d d₁ : Cabinet Place} {name : String}
variable {ref r : Ref String} {ref' r' : Ref Place} {contents contents' : Contents}
variable {pairs : Ref String → Ref Place → Prop}

/-- Two references hold the same name, or have lost it both, and they read the same. -/
structure Coupled (folder : Nat) (ref : Ref String) (ref' : Ref Place) (c : Cabinet String)
    (d : Cabinet Place) : Prop where
  name : ref'.name = ⟨folder, ref.name⟩
  issued : c.Issued ref
  issued' : d.Issued ref'
  holds : c.Holds ref ↔ d.Holds ref'
  reads : (c.read ref).bytes = (d.read ref').bytes

/-- Two references hold the same name. -/
def Namesakes (folder : Nat) (c : Cabinet String) (d : Cabinet Place) (ref : Ref String)
    (ref' : Ref Place) : Prop :=
  c.Holds ref ∧ d.Holds ref' ∧ ref'.name = ⟨folder, ref.name⟩

/-- The records of a cabinet and of a folder in another one belong together, as the pairs say. -/
structure Couples (folder : Nat) (pairs : Ref String → Ref Place → Prop) (c : Cabinet String)
    (d : Cabinet Place) : Prop where
  sound : c.Sound
  sound' : d.Sound
  coupled : ∀ {ref ref'}, pairs ref ref' → Coupled folder ref ref' c d
  /-- References to one record are paired with references to one record. -/
  apart : ∀ {ref ref' r r'}, pairs ref ref' → pairs r r' →
    (r.serial = ref.serial ↔ r'.serial = ref'.serial)
  found : ∀ {ref}, c.Holds ref → ∃ ref', pairs ref ref'
  found' : ∀ {ref'}, d.Holds ref' → ref'.name.folder = folder → ∃ ref, pairs ref ref'

namespace Coupled

section

variable (coupled : Coupled folder ref ref' c d)

include coupled

theorem size_eq : (c.read ref).size = (d.read ref').size := by
  rw [← Contents.length_bytes, ← Contents.length_bytes, coupled.reads]

theorem slice_eq (pos count : Nat) :
    (d.read ref').slice pos count = (c.read ref).slice pos count := by
  rw [Contents.slice_eq, Contents.slice_eq, coupled.reads]

theorem overlay_eq (pos : Nat) (bytes : Bytes) :
    ((c.read ref).overlay pos bytes).bytes = ((d.read ref').overlay pos bytes).bytes := by
  rw [Contents.bytes_overlay, Contents.bytes_overlay, coupled.reads]

end

/-- References that were issued before a record is created stay coupled. -/
theorem create (coupled : Coupled folder r r' c d) (free : c.ref? name = none)
    (free' : d.ref? ⟨folder, name⟩ = none) :
    Coupled folder r r' (c.create name contents) (d.create ⟨folder, name⟩ contents') where
  name := coupled.name
  issued := (spares_create free (Option.some_ne_none _).symm contents).issued r coupled.issued
  issued' := (spares_create free' (Option.some_ne_none _).symm contents').issued r' coupled.issued'
  holds := by
    rw [holds_create_of_issued free coupled.issued, holds_create_of_issued free' coupled.issued',
      coupled.holds]
  reads := by
    rw [read_create_of_issued free contents coupled.issued,
      read_create_of_issued free' contents' coupled.issued', coupled.reads]

/-- References to records that were created just now, alike and under the same name. -/
theorem created (sound : (c.create name contents).Sound)
    (sound' : (d.create ⟨folder, name⟩ contents').Sound)
    (same : contents.bytes = contents'.bytes) :
    Coupled folder ⟨name, c.nextSerial⟩ ⟨⟨folder, name⟩, d.nextSerial⟩ (c.create name contents)
      (d.create ⟨folder, name⟩ contents') := by
  have there : (c.create name contents).Holds ⟨name, c.nextSerial⟩ := by
    rw [holds_create_iff, if_pos rfl]
  have there' : (d.create ⟨folder, name⟩ contents').Holds ⟨⟨folder, name⟩, d.nextSerial⟩ := by
    rw [holds_create_iff, if_pos rfl]
  refine ⟨rfl, sound _ there, sound' _ there', iff_of_true there there', ?_⟩
  rw [read_create, read_create, same]

/-- The same names go in both. -/
theorem loses {gone : String → Prop} {gone' : Place → Prop} (coupled : Coupled folder r r' c d)
    (loses : Loses gone c c₁) (loses' : Loses gone' d d₁)
    (same : ∀ name, gone name ↔ gone' ⟨folder, name⟩) : Coupled folder r r' c₁ d₁ where
  name := coupled.name
  issued := loses.issued r coupled.issued
  issued' := loses'.issued r' coupled.issued'
  holds := by rw [loses.holds, loses'.holds, same, coupled.name, coupled.holds]
  reads := by rw [loses.read r coupled.issued, loses'.read r' coupled.issued', coupled.reads]

end Coupled

namespace Couples

section

variable (couples : Couples folder pairs c d)

include couples

/-- What is under a name in the one is under it in the other. -/
theorem same (name : String) : c.get? name = d.get? ⟨folder, name⟩ := by
  apply Option.ext
  intro bytes
  rw [get?_eq_some_iff, get?_eq_some_iff]
  constructor
  · rintro ⟨ref, rfl, held, rfl⟩
    obtain ⟨ref', pair⟩ := couples.found held
    have coupled := couples.coupled pair
    exact ⟨ref', coupled.name, coupled.holds.1 held, coupled.reads.symm⟩
  · rintro ⟨ref', named, held', rfl⟩
    obtain ⟨ref, pair⟩ := couples.found' held' (congrArg Place.folder named)
    have coupled := couples.coupled pair
    refine ⟨ref, ?_, coupled.holds.2 held', coupled.reads⟩
    exact congrArg Place.name (coupled.name.symm.trans named)

theorem free_iff : c.ref? name = none ↔ d.ref? ⟨folder, name⟩ = none := by
  rw [ref?_eq_none_iff, ref?_eq_none_iff, couples.same]

/-- Whoever opens a record in both cabinets gets a pair. -/
theorem exists_pair (found : c.ref? name = some ref) :
    ∃ ref', d.ref? ⟨folder, name⟩ = some ref' ∧ pairs ref ref' := by
  obtain ⟨rfl, held⟩ := holds_of_ref? found
  obtain ⟨ref', pair⟩ := couples.found held
  have coupled := couples.coupled pair
  have held' := coupled.holds.1 held
  rw [Holds, coupled.name] at held'
  exact ⟨ref', held', pair⟩

/-- The references that hold a name in both are a pair. -/
theorem pair_of_holds (held : c.Holds ref) (held' : d.Holds ref')
    (named : ref'.name = ⟨folder, ref.name⟩) : pairs ref ref' := by
  obtain ⟨r', pair⟩ := couples.found held
  have coupled := couples.coupled pair
  rwa [(coupled.holds.1 held).unique held' (coupled.name.trans named.symm)] at pair

/-- The same is written through both references of a pair. -/
theorem write (pair : pairs ref ref') (same : contents.bytes = contents'.bytes) :
    Couples folder pairs (c.write ref contents) (d.write ref' contents') := by
  have writing := couples.coupled pair
  have later := Nat.le_of_eq (nextSerial_write c ref contents).symm
  have later' := Nat.le_of_eq (nextSerial_write d ref' contents').symm
  have holds (r : Ref String) : (c.write ref contents).Holds r ↔ c.Holds r :=
    holds_write_iff c ref contents
  have holds' (r' : Ref Place) : (d.write ref' contents').Holds r' ↔ d.Holds r' :=
    holds_write_iff d ref' contents'
  refine ⟨fun r held => (couples.sound r ((holds r).1 held)).of_fewer later fun r => (holds r).1,
    fun r' held => (couples.sound' r' ((holds' r').1 held)).of_fewer later' fun r' => (holds' r').1,
    fun {r r'} other => ?_, couples.apart, fun held => couples.found ((holds _).1 held),
    fun held => couples.found' ((holds' _).1 held)⟩
  have coupled := couples.coupled other
  refine ⟨coupled.name, coupled.issued.of_fewer later fun r => (holds r).1,
    coupled.issued'.of_fewer later' fun r' => (holds' r').1, ?_, ?_⟩
  · rw [holds, holds', coupled.holds]
  · rw [read_write_of_issued writing.issued coupled.issued,
      read_write_of_issued writing.issued' coupled.issued']
    by_cases written : r.serial = ref.serial
    · rw [if_pos written, if_pos ((couples.apart pair other).1 written), same]
    · rw [if_neg written, if_neg (mt (couples.apart pair other).2 written), coupled.reads]

/-- The same names go in both. -/
theorem loses {gone : String → Prop} {gone' : Place → Prop} (loses : Loses gone c c₁)
    (loses' : Loses gone' d d₁) (same : ∀ name, gone name ↔ gone' ⟨folder, name⟩) :
    Couples folder pairs c₁ d₁ where
  sound := loses.sound couples.sound
  sound' := loses'.sound couples.sound'
  coupled pair := (couples.coupled pair).loses loses loses' same
  apart := couples.apart
  found held := couples.found ((loses.holds _).1 held).2
  found' held := couples.found' ((loses'.holds _).1 held).2

/-- What is written through one reference alone is what could be read there. -/
theorem rewrite (pair : pairs ref ref') (same : contents.bytes = (c.read ref).bytes) :
    Couples folder pairs (c.write ref contents) d :=
  couples.loses (loses_write (couples.coupled pair).issued same) (.nothing d) fun _ => .rfl

theorem remove (name : String) :
    Couples folder pairs (c.remove name) (d.remove ⟨folder, name⟩) :=
  couples.loses (loses_remove c name) (loses_remove d ⟨folder, name⟩) fun other => by simp

/-- A record is created under a name that is free in both, and a pair comes into being. -/
theorem create (free : c.ref? name = none) (same : contents.bytes = contents'.bytes) :
    Couples folder
      (fun r r' => pairs r r' ∨ r = ⟨name, c.nextSerial⟩ ∧ r' = ⟨⟨folder, name⟩, d.nextSerial⟩)
      (c.create name contents) (d.create ⟨folder, name⟩ contents') := by
  have free' := couples.free_iff.1 free
  have sound := (spares_create free (Option.some_ne_none _).symm contents).sound couples.sound
  have sound' := (spares_create free' (Option.some_ne_none _).symm contents').sound couples.sound'
  have older {r : Ref String} {r' : Ref Place} (pair : pairs r r') :
      r.serial ≠ c.nextSerial ∧ r'.serial ≠ d.nextSerial :=
    ⟨Nat.ne_of_lt (couples.coupled pair).issued.earlier,
      Nat.ne_of_lt (couples.coupled pair).issued'.earlier⟩
  refine ⟨sound, sound', ?_, ?_, ?_, ?_⟩
  · rintro r r' (pair | ⟨rfl, rfl⟩)
    · exact (couples.coupled pair).create free free'
    · exact .created sound sound' same
  · rintro r r' s s' (pair | ⟨rfl, rfl⟩) (other | ⟨rfl, rfl⟩)
    · exact couples.apart pair other
    · exact iff_of_false (older pair).1.symm (older pair).2.symm
    · exact iff_of_false (older other).1 (older other).2
    · exact iff_of_true rfl rfl
  · intro r held
    rw [holds_create_iff] at held
    split at held
    · exact ⟨_, .inr ⟨held, rfl⟩⟩
    · obtain ⟨r', pair⟩ := couples.found held
      exact ⟨r', .inl pair⟩
  · intro r' held inFolder
    rw [holds_create_iff] at held
    split at held
    · exact ⟨_, .inr ⟨rfl, held⟩⟩
    · obtain ⟨r, pair⟩ := couples.found' held inFolder
      exact ⟨r, .inl pair⟩

end

/-- Where the same bytes are under the same names, the references that hold them are pairs. -/
theorem of_same (sound : c.Sound) (sound' : d.Sound)
    (same : ∀ name, c.get? name = d.get? ⟨folder, name⟩) :
    Couples folder (Namesakes folder c d) c d := by
  refine ⟨sound, sound', ?_, ?_, ?_, ?_⟩
  · rintro ref ref' ⟨held, held', named⟩
    refine ⟨named, sound ref held, sound' ref' held', iff_of_true held held', ?_⟩
    have present := get?_of_holds held
    rw [same, ← named, get?_of_holds held'] at present
    exact (Option.some.inj present).symm
  · rintro ref ref' r r' ⟨held, held', named⟩ ⟨holds, holds', named'⟩
    constructor
    · intro serial
      have name := (sound ref held).own r holds serial
      rw [holds'.unique held' (by rw [named, named', name])]
    · intro serial
      have place := (sound' ref' held').own r' holds' serial
      rw [named, named', Place.mk.injEq] at place
      rw [holds.unique held place.2]
  · intro ref held
    have present := get?_of_holds held
    rw [same] at present
    obtain ⟨ref', named, held', -⟩ := get?_eq_some_iff.1 present
    exact ⟨ref', held, held', named⟩
  · intro ref' held' inFolder
    have place : ref'.name = ⟨folder, ref'.name.name⟩ := by rw [← inFolder]
    have present := get?_of_holds held'
    rw [place, ← same] at present
    obtain ⟨ref, named, held, -⟩ := get?_eq_some_iff.1 present
    exact ⟨ref, held, held', place.trans (by rw [named])⟩

/-- Two references more are a pair beside those that hold a name, whether or not they do. -/
theorem including (couples : Couples folder (Namesakes folder c d) c d)
    (coupled : Coupled folder r r' c d) :
    Couples folder (fun a a' => Namesakes folder c d a a' ∨ a = r ∧ a' = r') c d := by
  have apart {a : Ref String} {a' : Ref Place} (pair : Namesakes folder c d a a') :
      r.serial = a.serial ↔ r'.serial = a'.serial := by
    obtain ⟨held, held', named⟩ := pair
    constructor
    · intro serial
      obtain rfl := coupled.issued.eq_of_serial (couples.sound a held) (.inr held) serial
      rw [(coupled.holds.1 held).unique held' (coupled.name.trans named.symm)]
    · intro serial
      obtain rfl := coupled.issued'.eq_of_serial (couples.sound' a' held') (.inr held') serial
      have name := congrArg Place.name (coupled.name.symm.trans named)
      rw [(coupled.holds.2 held').unique held name]
  refine ⟨couples.sound, couples.sound', ?_, ?_, ?_, ?_⟩
  · rintro a a' (pair | ⟨rfl, rfl⟩)
    · exact couples.coupled pair
    · exact coupled
  · rintro a a' b b' (pair | ⟨rfl, rfl⟩) (other | ⟨rfl, rfl⟩)
    · exact couples.apart pair other
    · exact apart pair
    · rw [eq_comm, apart other, eq_comm]
    · exact iff_of_true rfl rfl
  · intro a held
    obtain ⟨a', pair⟩ := couples.found held
    exact ⟨a', .inl pair⟩
  · intro a' held' inFolder
    obtain ⟨a, pair⟩ := couples.found' held' inFolder
    exact ⟨a, .inl pair⟩

end Couples

end GlyphShelf.Cabinet

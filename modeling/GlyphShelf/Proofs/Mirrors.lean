import GlyphShelf.Proofs.Couples
import GlyphShelf.Proofs.Directory.Folders

/-!
# A cabinet that mirrors a folder

The device in memory keeps its records in a cabinet of its own, the directory of files keeps them
in one folder of a larger cabinet. The two mirror each other when the same bytes are under the same
names, the names are ordinary, and no record is too large.

That much is asked of the one cabinet alone, and a change that respects it is `Modest`. All else
about references that were handed out comes from keeping them in pairs.
-/

namespace GlyphShelf

/-- A record up to this size is read far from the greatest position of a cursor. -/
def Directory.safeSize : Nat := maxPosition / 2

namespace Cabinet

open Directory (Ordinary safeSize)

/-! ## Mirrors -/

variable {c c₁ : Cabinet String} {name : String} {ref : Ref String} {contents : Contents}

/-- In a folder of one cabinet is what the other cabinet holds: records of ordinary names, none of
them too large. -/
structure Mirrors (folder : Nat) (c : Cabinet String) (d : Cabinet Place) : Prop where
  sound : c.Sound
  sound' : d.Sound
  same : ∀ name, c.get? name = d.get? ⟨folder, name⟩
  usable : ∀ name bytes, c.get? name = some bytes → Ordinary name ∧ bytes.length ≤ safeSize

/-- Coupled references to a record that is not too large. -/
structure Paired (folder : Nat) (ref : Ref String) (ref' : Ref Place) (c : Cabinet String)
    (d : Cabinet Place) : Prop extends Coupled folder ref ref' c d where
  small : (c.read ref).bytes.length ≤ safeSize

/-- Names are ordinary and records small if they were before. -/
structure Modest (c c₁ : Cabinet String) : Prop where
  usable : (∀ name bytes, c.get? name = some bytes → Ordinary name ∧ bytes.length ≤ safeSize) →
    ∀ name bytes, c₁.get? name = some bytes → Ordinary name ∧ bytes.length ≤ safeSize
  small : ∀ ref, c.Issued ref → (c.read ref).bytes.length ≤ safeSize →
    (c₁.read ref).bytes.length ≤ safeSize

theorem modest_refl (c : Cabinet String) : Modest c c := ⟨id, fun _ _ => id⟩

theorem modest_loses {gone : String → Prop} (sound : c.Sound) (loses : Loses gone c c₁) :
    Modest c c₁ where
  usable usable name bytes present := usable name bytes ((loses.get?_eq_some_iff sound).1 present).2
  small ref issued small := by rwa [loses.read ref issued]

/-- A record that is still under its name is written to. -/
theorem modest_write (held : c.Holds ref) (small : contents.bytes.length ≤ safeSize) :
    Modest c (c.write ref contents) where
  usable usable name bytes present := by
    rw [get?_write_of_ref? held] at present
    split at present
    · rename_i same
      subst same
      cases present
      exact ⟨(usable _ _ (get?_of_holds held)).1, small⟩
    · exact usable name bytes present
  small r _ within := by
    by_cases written : r = ref
    · rwa [written, read_write held]
    · rwa [read_write_of_ne held contents written]

theorem modest_create (ordinary : Ordinary name) (free : c.ref? name = none)
    (small : contents.bytes.length ≤ safeSize) : Modest c (c.create name contents) where
  usable usable other bytes present := by
    rw [get?_create] at present
    split at present
    · rename_i same
      subst same
      cases present
      exact ⟨ordinary, small⟩
    · exact usable other bytes present
  small r issued within := by rwa [read_create_of_issued free contents issued]

end Cabinet

end GlyphShelf

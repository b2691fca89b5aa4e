/-!
# Listings

A device lists its records in an order of its own. Nothing but the set of names may be
relied on, so the order is a parameter of every device: any rearrangement will do.
-/

namespace GlyphShelf

structure Listing where
  arrange : List String → List String
  perm : ∀ names, (arrange names).Perm names

namespace Listing

def asStored : Listing := ⟨id, fun _ => .refl _⟩

instance : Inhabited Listing := ⟨asStored⟩

@[simp] theorem mem_arrange (listing : Listing) (names : List String) (name : String) :
    name ∈ listing.arrange names ↔ name ∈ names :=
  (listing.perm names).mem_iff

end Listing

end GlyphShelf

/-!
# Keys

A glyph is filed under a 16-bit key. The least and the greatest key never name a
glyph: they anchor the two ends of the recency ring.
-/

namespace GlyphShelf

/-- A 16-bit key, anchors included. -/
structure Key where
  code : UInt16
deriving DecidableEq, Inhabited

namespace Key

/-- The anchor in front of the most recent key. -/
def head : Key := ⟨0⟩

/-- The anchor behind the least recent key. -/
def tail : Key := ⟨0xFFFF⟩

/-- Anchors close the ring and name no glyph. -/
def IsAnchor (key : Key) : Prop := key = head ∨ key = tail

instance (key : Key) : Decidable key.IsAnchor :=
  inferInstanceAs (Decidable (key = head ∨ key = tail))

def number (key : Key) : Nat := key.code.toNat

def ofNumber? (n : Nat) : Option Key := if n < 65536 then some ⟨UInt16.ofNat n⟩ else none

/-- A key as it is shown: anchors by name, every other key by number. -/
def text (key : Key) : String :=
  if key = head then "HEAD" else if key = tail then "TAIL" else toString key.number

theorem number_lt (key : Key) : key.number < 65536 := key.code.toNat_lt

@[simp] theorem ofNumber?_number (key : Key) : ofNumber? key.number = some key := by
  have := key.number_lt
  simp [ofNumber?, number] at *
  omega

theorem number_injective {a b : Key} (h : a.number = b.number) : a = b := by
  cases a
  cases b
  simpa [number, UInt16.toNat_inj] using h

theorem ofNumber?_eq_some_iff {n : Nat} {key : Key} :
    ofNumber? n = some key ↔ key.number = n := by
  constructor
  · intro h
    unfold ofNumber? at h
    split at h
    · cases h
      simp [number]
      omega
    · simp at h
  · rintro rfl
    simp

/-- Keys are ordered by number, so the anchors are the least and the greatest. -/
instance : Ord Key := ⟨compareOn code⟩

instance : Std.TransOrd Key := inferInstanceAs (Std.TransCmp (compareOn code))

instance : Std.LawfulEqOrd Key where
  eq_of_compare {a b} h := by
    have codes : a.code = b.code :=
      Std.LawfulEqOrd.eq_of_compare (show compare a.code b.code = .eq from h)
    cases a
    cases b
    exact congrArg Key.mk codes

@[simp] theorem head_ne_tail : head ≠ tail := by decide

end Key

end GlyphShelf

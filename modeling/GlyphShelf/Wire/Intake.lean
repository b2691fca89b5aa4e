import GlyphShelf.Wire.Frame

/-!
# Intake

Bytes arrive in portions of any size. An intake keeps those that do not make a whole frame
yet, and puts the portions together only when they are enough for one. So the work does not
depend on how small the portions are, and neither does what is read: `Intake.add_eq` says
that the frames are those of all bytes put together.
-/

namespace GlyphShelf

/-- Portions that do not make a whole frame yet. -/
structure Intake where
  /-- The portions, the last one first. -/
  portions : List Bytes := []
  /-- The number of bytes in them. -/
  size : Nat := 0
  /-- How many bytes have to be there before a frame can be cut off. -/
  wanted : Nat := 3
  size_eq : size = portions.reverse.flatten.length := by rfl
  wanted_eq : wanted = Frame.wanted portions.reverse.flatten := by rfl

namespace Intake

/-- The view: the bytes in the order in which they arrived. -/
def bytes (intake : Intake) : Bytes := intake.portions.reverse.flatten

/-- Bytes of which nothing has been put together yet. -/
def ofBytes (bytes : Bytes) : Intake where
  portions := [bytes]
  size := bytes.length
  wanted := Frame.wanted bytes
  size_eq := by simp
  wanted_eq := by simp

/-- Keeps a portion with which there is still no whole frame. -/
def keep (intake : Intake) (portion : Bytes)
    (short : intake.size + portion.length < intake.wanted) : Intake where
  portions := portion :: intake.portions
  size := intake.size + portion.length
  wanted := intake.wanted
  size_eq := by simp [intake.size_eq]
  wanted_eq := by
    have size := intake.size_eq
    have wanted := intake.wanted_eq
    rw [List.reverse_cons, List.flatten_append, List.flatten_singleton]
    by_cases header : 3 ≤ intake.portions.reverse.flatten.length
    · rw [Frame.wanted_append header, wanted]
    · have three := Frame.wanted_of_short (Nat.lt_of_not_le header)
      rw [wanted, three, Frame.wanted_of_short]
      rw [List.length_append, ← size]
      omega

/-- Takes in a portion and cuts off the frames that it completes. -/
def add (intake : Intake) (portion : Bytes) : List (Except Frame.Problem Frame) × Intake :=
  if short : intake.size + portion.length < intake.wanted then ([], intake.keep portion short)
  else
    let (results, left) := Frame.takeAll (intake.bytes ++ portion)
    (results, ofBytes left)

@[simp] theorem bytes_empty : ({} : Intake).bytes = [] := rfl

@[simp] theorem bytes_ofBytes (bytes : Bytes) : (ofBytes bytes).bytes = bytes := by
  simp [Intake.bytes, ofBytes]

theorem bytes_keep (intake : Intake) (portion : Bytes)
    (short : intake.size + portion.length < intake.wanted) :
    (intake.keep portion short).bytes = intake.bytes ++ portion := by
  simp [bytes, keep]

/-- What is cut off, and what is left, is what all bytes together say. -/
theorem add_eq (intake : Intake) (portion : Bytes) :
    ((intake.add portion).1, (intake.add portion).2.bytes) =
      Frame.takeAll (intake.bytes ++ portion) := by
  unfold add
  split
  · rename_i short
    have wanted := (intake.keep portion short).wanted_eq
    have none : Frame.take (intake.bytes ++ portion) = none := by
      rw [Frame.take_eq_none_iff, ← bytes_keep intake portion short, bytes, ← wanted,
        ← (intake.keep portion short).size_eq]
      exact short
    rw [Frame.takeAll_eq, none, bytes_keep]
  · simp

end Intake

end GlyphShelf

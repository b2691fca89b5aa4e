/-!
# Bytes

Contents are lists of bytes. Besides reading a slice and overlaying a patch, this
module splits 16-bit words into bytes in both orders; the splits go through `Nat`,
so that their laws are facts about division by 256.
-/

namespace GlyphShelf

/-- Contents of a record or of a stream. -/
abbrev Bytes := List UInt8

namespace Bytes

/-- At most `count` bytes from position `pos`; none past the end. -/
def slice (data : Bytes) (pos count : Nat) : Bytes := (data.drop pos).take count

/-- `data` with `patch` written at `pos`. A gap between the end of `data` and `pos` is filled
with zeros, also when `patch` is empty. -/
def overlay (data : Bytes) (pos : Nat) (patch : Bytes) : Bytes :=
  data.take pos ++ List.replicate (pos - data.length) 0 ++ patch ++ data.drop (pos + patch.length)

def lowByte (word : UInt16) : UInt8 := UInt8.ofNat (word.toNat % 256)

def highByte (word : UInt16) : UInt8 := UInt8.ofNat (word.toNat / 256)

def word (high low : UInt8) : UInt16 := UInt16.ofNat (256 * high.toNat + low.toNat)

theorem length_slice (data : Bytes) (pos count : Nat) :
    (slice data pos count).length = min count (data.length - pos) := by
  simp [slice]

@[simp] theorem length_overlay (data : Bytes) (pos : Nat) (patch : Bytes) :
    (overlay data pos patch).length = max data.length (pos + patch.length) := by
  simp [overlay]
  omega

/-- Where nothing is written, the bytes stay as they are. -/
theorem getElem?_overlay_of_outside {data patch : Bytes} {pos i : Nat} (inside : pos ≤ data.length)
    (outside : i < pos ∨ pos + patch.length ≤ i) : (overlay data pos patch)[i]? = data[i]? := by
  have front : (data.take pos).length = pos := List.length_take_of_le inside
  rw [overlay, Nat.sub_eq_zero_of_le inside, List.replicate_zero, List.append_nil]
  rcases outside with before | behind
  · rw [List.append_assoc, List.getElem?_append_left (by omega), List.getElem?_take_of_lt before]
  · have stop : (data.take pos ++ patch).length = pos + patch.length := by
      rw [List.length_append, front]
    rw [List.getElem?_append_right (by omega), stop, List.getElem?_drop,
      Nat.add_sub_cancel' behind]

@[simp] theorem word_highByte_lowByte (w : UInt16) : word (highByte w) (lowByte w) = w := by
  apply UInt16.toNat_inj.mp
  have := w.toNat_lt
  simp [word, highByte, lowByte]
  omega

@[simp] theorem highByte_word (high low : UInt8) : highByte (word high low) = high := by
  apply UInt8.toNat_inj.mp
  have := high.toNat_lt
  have := low.toNat_lt
  simp [word, highByte]
  omega

@[simp] theorem lowByte_word (high low : UInt8) : lowByte (word high low) = low := by
  apply UInt8.toNat_inj.mp
  simp [word, lowByte]

end Bytes

end GlyphShelf

import GlyphShelf.Proofs.Wire.Codec
import GlyphShelf.Proofs.Runs
import GlyphShelf.Service.Answer

/-!
# Answers of a shelf that does not fail

What a frame is answered with if what the shelf does for it is known: a delivery that was stored, a
glyph that was read, a glyph that is missing, a reset. Frames that name an anchor or go the other
way are turned away before the shelf is asked. The reasons that are given for this, and for what is
no frame, begin differently from the reason that a glyph is too large.
-/

namespace GlyphShelf.Answer

variable {σ η : Type} [Device σ η] {site site' : σ × Shelf} {queue : RequestQueue} {key : Key}
variable {payload : Bytes}

/-! ## What the shelf was asked for -/

theorem toNat_countWord {count : Nat} (small : count < 65536) :
    (countWord count).toNat = count := by
  rw [countWord, if_pos small]
  exact UInt16.toNat_ofNat_of_lt small

theorem toDownload_of_anchor (anchor : key.IsAnchor) (payload : Bytes) (site : σ × Shelf)
    (queue : RequestQueue) : toDownload key payload site queue =
      (Refusal.frame (.failed (.reservedKey key)), site, queue) :=
  if_pos anchor

theorem toDownload_of_stored {size : Nat} (glyph : ¬ key.IsAnchor)
    (run : Runs (Shelf.put key payload) site (.ok size) site') (queue : RequestQueue) :
    toDownload key payload site queue = (.stored (countWord size), site', queue.arrived key) := by
  rw [toDownload, if_neg glyph, run.ok_eq]

theorem toLookup_of_anchor (anchor : key.IsAnchor) (site : σ × Shelf) (queue : RequestQueue) :
    toLookup key site queue = (Refusal.frame (.failed (.reservedKey key)), site, queue) :=
  if_pos anchor

theorem toLookup_of_present {record : η} {s s' : σ} {shelf : Shelf} (glyph : ¬ key.IsAnchor)
    (opening : Runs (Shelf.openEntry key) site (.ok record) (s, shelf))
    (reading : Runs (Device.takeAll record) s (.ok payload) s')
    (fits : payload.length + 2 ≤ Frame.maxBody) (queue : RequestQueue) :
    toLookup key site queue = (.glyph key payload, (s', shelf), queue) := by
  have frame : glyphFrame key payload = .glyph key payload := if_neg (Nat.not_lt_of_le fits)
  rw [toLookup, if_neg glyph, opening.ok_eq]
  dsimp only
  rw [reading.ok_eq]
  dsimp only
  rw [frame]

theorem toLookup_of_missing (glyph : ¬ key.IsAnchor)
    (opening : Runs (Shelf.openEntry key : Action (σ × Shelf) η) site (.error .notFound) site')
    (queue : RequestQueue) :
    toLookup key site queue = (.missing key, site', (queue.ask key).2) := by
  rw [toLookup, if_neg glyph, opening.error_eq]

theorem toReset_of_done (run : Runs Shelf.reset site (.ok ()) site') :
    toReset site = (.done, site') := by
  rw [toReset, run.ok_eq]

/-! ## What the shelf is not asked for -/

/-- A frame that is turned away: it names an anchor, or it is one that goes the other way. -/
def Unserved : Frame → Prop
  | .download key _ => key.IsAnchor
  | .lookup key => key.IsAnchor
  | .stats => False
  | .reset => False
  | _ => True

def refusalOf : Frame → Refusal
  | .download key _ => .failed (.reservedKey key)
  | .lookup key => .failed (.reservedKey key)
  | frame => .unexpected frame.kind

theorem toFrame_of_unserved {frame : Frame} (unserved : Unserved frame) (site : σ × Shelf)
    (queue : RequestQueue) :
    toFrame frame site queue = ((refusalOf frame).frame, site, queue) := by
  cases frame with
  | download key payload => exact toDownload_of_anchor unserved payload site queue
  | lookup key => exact toLookup_of_anchor unserved site queue
  | stats => exact unserved.elim
  | reset => exact unserved.elim
  | _ => rfl

/-! ## How reasons begin -/

def Begins (first : Char) (text : String) : Prop := text.toList.head? = some first

instance (first : Char) (text : String) : Decidable (Begins first text) :=
  inferInstanceAs (Decidable (text.toList.head? = some first))

theorem Begins.append {first : Char} {text : String} (begins : Begins first text)
    (more : String) : Begins first (text ++ more) := by
  rw [Begins, String.toList_append, List.head?_append, begins]
  rfl

theorem begins_tooLarge (key : Key) (size : Nat) : Begins 'g' (Refusal.tooLarge key size).text :=
  ((((show Begins 'g' "glyph " by decide).append _).append _).append _).append _

/-- A reason that begins otherwise does not say that a glyph is too large. -/
theorem Begins.ne_tooLarge {first : Char} {reason : String} (begins : Begins first reason)
    (other : first ≠ 'g') (key : Key) (size : Nat) :
    .refused reason ≠ Refusal.frame (.tooLarge key size) := by
  intro same
  have large := begins_tooLarge key size
  rw [← Frame.refused.inj same, Begins, begins] at large
  exact other (Option.some.inj large)

theorem refusalOf_ne_tooLarge (frame : Frame) (key : Key) (size : Nat) :
    (refusalOf frame).frame ≠ Refusal.frame (.tooLarge key size) := by
  have reserved (key : Key) : Begins 'K' (Failure.text (.reservedKey key)) :=
    ((show Begins 'K' "Key 0x" by decide).append _).append _
  have unexpected (kind : Frame.Kind) : Begins 'u' (Refusal.unexpected kind).text :=
    (show Begins 'u' "unexpected frame from peer: " by decide).append _
  cases frame with
  | download key payload => exact (reserved key).ne_tooLarge (by decide) _ _
  | lookup key => exact (reserved key).ne_tooLarge (by decide) _ _
  | _ => exact (unexpected _).ne_tooLarge (by decide) _ _

theorem problem_ne_tooLarge (problem : Frame.Problem) (key : Key) (size : Nat) :
    .refused problem.text ≠ Refusal.frame (.tooLarge key size) := by
  have begins : ∃ first, first ≠ 'g' ∧ Begins first problem.text := by
    cases problem with
    | bodyTooLarge size =>
      exact ⟨'f', by decide, ((((show Begins 'f' "frame body too large: " by decide).append
        _).append _).append _).append _⟩
    | unknownKind opcode =>
      exact ⟨'U', by decide, (show Begins 'U' "Unknown frame op: 0x" by decide).append _⟩
    | notAWord size =>
      exact ⟨'E', by decide,
        ((show Begins 'E' "Expected 2-byte body, got " by decide).append _).append _⟩
    | noKey => exact ⟨'B', by decide, show Begins 'B' "Body too short for a key" by decide⟩
    | notEmpty size =>
      exact ⟨'E', by decide,
        ((show Begins 'E' "Expected empty body, got " by decide).append _).append _⟩
    | notText problem =>
      refine ⟨'i', by decide, ?_⟩
      cases problem with
      | invalid length index =>
        exact (((show Begins 'i' "invalid utf-8 sequence of " by decide).append _).append
          _).append _
      | incomplete index =>
        exact (show Begins 'i' "incomplete utf-8 byte sequence from index " by decide).append _
  obtain ⟨first, other, begins⟩ := begins
  exact begins.ne_tooLarge other key size

end GlyphShelf.Answer

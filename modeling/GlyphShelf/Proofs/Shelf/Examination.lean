import GlyphShelf.Proofs.Ring.Closing
import GlyphShelf.Proofs.Shelf.Operations

/-!
# What the examination decides

An examination looks at a walk, at the links of the keys it passed and at the walk back, each in its
own way. All this amounts to one statement on the records: between the anchors there is one list of
glyphs, along which the links lead in both directions. What the head anchor names before it and the
tail anchor behind it plays no part, nor do links beside the list.

The walk back is not needed for this. Once the links of all keys have been compared, the way back is
known, and a walk along it finds the same keys; so the last of the ways in which a ring could be
found broken is never reported.
-/

namespace GlyphShelf.Shelf

variable {m : Memory} {shelf : Shelf}

/-- The examination of a shelf includes that of its ring. -/
theorem examined_of_check {s' : Memory × Shelf} (run : Runs check (m, shelf) (.ok ()) s') :
    ∃ m', Runs Ring.check m (.ok ()) m' := by
  unfold Runs check at run
  dsimp only at run
  split at run
  · rename_i examining
    obtain ⟨_, m₁, checking, -⟩ := Runs.bind_ok examining
    exact ⟨m₁, checking⟩
  · cases run

/-- A shelf passes its examination if its ring does and it counts the keys. -/
theorem check_iff_counted (quiet : m.fault = none) (shelf : Shelf) :
    (∃ s', Runs check (m, shelf) (.ok ()) s') ↔
      ∃ keys, Ring.Passes (Ring.linksOf m.get?) keys ∧ shelf.size = keys.length := by
  constructor
  · rintro ⟨s', run⟩
    obtain ⟨m', checking⟩ := examined_of_check run
    obtain ⟨keys, passes⟩ := Ring.passes_of_check quiet checking
    refine ⟨keys, passes, ?_⟩
    obtain ⟨count, outcome⟩ :=
      runs_check_of_passes (Ring.reads_linksOf m.get?) quiet passes shelf
    have answer := (run.deterministic outcome).1
    by_cases counted : keys.length = shelf.size
    · exact counted.symm
    · rw [if_neg counted] at answer
      cases answer
  · rintro ⟨keys, passes, counted⟩
    obtain ⟨_, run⟩ :=
      runs_check_of_counted (Ring.reads_linksOf m.get?) quiet passes counted.symm
    exact ⟨_, run⟩

/-- Whatever the records are, the examination of the ring finds nothing exactly if the links lead
through one list of glyphs from the head anchor to the tail anchor, and back through the same list.
After the links of the keys were compared the walk back returns the keys of the walk in reverse, so
that directions disagree is never found. And the examination of a shelf finds nothing exactly if the
shelf counts as many keys, besides. -/
theorem examination_decides (quiet : m.fault = none) :
    ((∃ m', Runs Ring.check m (.ok ()) m') ↔ ∃ keys, Ring.Passes (Ring.linksOf m.get?) keys) ∧
    (∀ keys m₁ m₂, Runs Ring.walk m (.ok keys) m₁ →
      Runs (Ring.checkBackLinks .head (keys ++ [.tail])) m₁ (.ok ()) m₂ →
      ∃ m₃, Runs Ring.walkBack m₂ (.ok keys.reverse) m₃) ∧
    (∀ forward backward m', ¬ Runs Ring.check m (.error (.directions forward backward)) m') ∧
    ∀ shelf, (∃ s', Runs check (m, shelf) (.ok ()) s') ↔
      ∃ keys, Ring.Passes (Ring.linksOf m.get?) keys ∧ shelf.size = keys.length := by
  refine ⟨?_, ?_, ?_, ?_⟩
  · constructor
    · exact fun ⟨_, run⟩ => Ring.passes_of_check quiet run
    · rintro ⟨keys, passes⟩
      obtain ⟨_, run⟩ := Ring.runs_check (Ring.reads_linksOf m.get?) quiet passes
      exact ⟨_, run⟩
  · intro keys m₁ m₂ walking checking
    exact (Ring.walkBack_of_checkBackLinks quiet walking checking).2
  · exact fun forward backward _ => Ring.check_never_directions quiet forward backward
  · exact check_iff_counted quiet

def deviceOf (records : List (String × Bytes)) : Memory :=
  records.foldl (fun m record => m.poke record.1 record.2) {}

/-- Two keys between the anchors. On their outer sides the anchors name keys that have no links. -/
def encircled : Memory := deviceOf
  [("0.lnk", [8, 0, 4, 0]), ("4.lnk", [0, 0, 3, 0, 1]), ("3.lnk", [4, 0, 255, 255]),
    ("65535.lnk", [3, 0, 9, 0])]

/-- The examination accepts them for a shelf that counts two keys, and for no other. -/
theorem encircled_accepted :
    encircled.fault = none ∧ (∃ m', Runs Ring.check encircled (.ok ()) m') ∧
      ∀ shelf, (∃ s', Runs check (encircled, shelf) (.ok ()) s') ↔ shelf.size = 2 := by
  obtain ⟨decides, -, -, counted⟩ := examination_decides (m := encircled) rfl
  have passes : Ring.Passes (Ring.linksOf encircled.get?) [⟨4⟩, ⟨3⟩] := by
    refine ⟨by decide, by decide, ?_, ?_⟩
    · unfold Ring.IsPath
      decide +kernel
    · unfold Ring.IsPath
      decide +kernel
  refine ⟨rfl, decides.2 ⟨_, passes⟩, ?_⟩
  intro shelf
  rw [counted shelf]
  constructor
  · rintro ⟨keys, passes', size⟩
    have walking := Ring.runs_walk (Ring.reads_linksOf encircled.get?) rfl passes
    cases (walking.deterministic (Ring.runs_walk (Ring.reads_linksOf _) rfl passes')).1
    exact size
  · exact fun size => ⟨_, passes, size⟩

end GlyphShelf.Shelf

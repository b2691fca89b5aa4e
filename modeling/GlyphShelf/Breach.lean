import GlyphShelf.Action

/-!
# Breaches

What an examination of the ring, or of the ring and the shelf, can find: a storage failure
on the way, or one of three ways in which what is stored disagrees with itself.
-/

namespace GlyphShelf

inductive Breach
  /-- The examination could not be carried through. -/
  | failed (failure : Failure)
  /-- The link of a key names another more recent neighbour than the one it was reached from. -/
  | backLink (key found expected : Key)
  /-- The two directions of the ring show different keys. -/
  | directions (forward backward : List Key)
  /-- The ring holds another number of keys than the shelf counts. -/
  | count (size linked : Nat)
deriving DecidableEq

namespace Breach

/-- A list of keys as it is shown; no anchor is among them. -/
private def keysText (keys : List Key) : String :=
  "[" ++ ", ".intercalate (keys.map fun key => "Key(" ++ toString key.number ++ ")") ++ "]"

def text : Breach → String
  | failed failure => failure.text
  | backLink key found expected =>
    key.text ++ ".prev is " ++ found.text ++ ", expected " ++ expected.text
  | directions forward backward =>
    "forward walk " ++ keysText forward ++ " disagrees with backward walk " ++ keysText backward
  | count size linked =>
    "size is " ++ toString size ++ " but the ring holds " ++ toString linked ++ " keys"

end Breach

/-- An examination of states `σ`: reads, and ends with a value or a finding. -/
abbrev Examination (σ α : Type) := EStateM Breach σ α

@[inline] def Examination.ofAction {σ α : Type} (act : Action σ α) : Examination σ α :=
  fun s =>
  match act s with
  | .ok a s => .ok a s
  | .error e s => .error (.failed e) s

end GlyphShelf

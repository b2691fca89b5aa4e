import GlyphShelf.Failure

/-!
# Actions

An action works on a state and either succeeds or fails. What it did to the state
before failing stays done: nothing here rolls back, because devices do not.
-/

namespace GlyphShelf

/-- A step on states `σ` that may fail; a failure leaves the state as far as it got. -/
abbrev Action (σ α : Type) := EStateM Failure σ α

namespace Action

variable {σ τ α : Type}

@[inline] def ofExcept : Except Failure α → Action σ α
  | .ok a => pure a
  | .error e => throw e

@[inline] def onFirst (act : Action σ α) : Action (σ × τ) α := fun (s, t) =>
  match act s with
  | .ok a s => .ok a (s, t)
  | .error e s => .error e (s, t)

/-- A missing record is as good as one that was deleted. -/
@[inline] def allowAbsence (act : Action σ Unit) : Action σ Unit := fun s =>
  match act s with
  | .ok () s => .ok () s
  | .error .notFound s => .ok () s
  | .error e s => .error e s

/-- Runs `cleanUp` after a failure of `act`, which stays the failure reported. -/
@[inline] def orCleanUp (act : Action σ α) (cleanUp : Action σ Unit) : Action σ α := fun s =>
  match act s with
  | .ok a s => .ok a s
  | .error e s =>
    match cleanUp s with
    | .ok () s => .error e s
    | .error _ s => .error e s

end Action

end GlyphShelf

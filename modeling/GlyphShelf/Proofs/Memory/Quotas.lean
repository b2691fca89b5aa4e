import GlyphShelf.Proofs.Memory.Charges

/-!
# Why the count of bytes can be trusted, and how far

The device keeps one count of bytes for all records. It is taken down by what a record holds that
is emptied, deleted or replaced, whoever wrote these bytes and through whatever handle. A count
that were taken below zero would be worthless from then on, since it limits what may be written.

As long as the program runs that does not happen. At least the bytes of all records that have a name
are charged at any time, so what is given back for one of them is always there, and nothing is given
back for any other record. Unless somebody replaces records from outside, only writes make the count
grow, and these ask for room first; so it stays within the quota, and with it all records. A write
that is refused changes nothing.

What stops the program is a write so far behind the end of its record that no record can have the
gap. It asks for room like any other, but the sum of the count and the gap may be beyond all words,
and then what is left of the sum in a word is taken for the count. `Move.Wraps` says when this
happens, and it is all that can go wrong.
-/

namespace GlyphShelf.Memory

variable {m m' : Memory} {handle handle' : Handle} {name : String} {access : Access}
variable {bytes : Bytes} {quota : Nat} {e : Failure}

/-! ## What leaves the count alone -/

def limited : FrameCondition Memory where
  allows m m' := m'.quota = m.quota
  refl _ := rfl
  trans first second := second.trans first

section

variable (fits : handle.pos + bytes.length < UInt64.size) (beyond : m.overruns handle bytes = true)

include fits beyond

end

namespace Move

/-! ## What a move gives back and what it charges -/

/-- The bytes of a record, if what was done to it succeeded. -/
def givenBack (m : Memory) (name : String) : Except Failure Report → Nat
  | .ok _ => extent (m.get? name)
  | .error _ => 0

/-- The bytes that a move takes off the count: those of the record that it empties, deletes or
replaces. -/
def releases (move : Move) (bench : Bench Memory Handle) : Nat :=
  match move with
  | work (.openAs _ name .truncate) => givenBack bench.1 name (move.take bench).1
  | work (.delete name) => givenBack bench.1 name (move.take bench).1
  | poke name _ => extent (bench.1.get? name)
  | _ => 0

/-- The bytes that a move adds to the count: those by which a write makes a record grow, or is to
make it grow when that stops the program, and those that are put there from outside. -/
def charges (move : Move) (bench : Bench Memory Handle) : Nat :=
  match move with
  | work (.write number bytes) =>
    match bench.2 number, (move.take bench).1 with
    | some handle, .ok _ => bench.1.growth handle bytes
    | some handle, .error .halted => bench.1.growth handle bytes
    | _, _ => 0
  | poke _ bytes => bytes.length
  | _ => 0

/-- The count is at least what a move takes off it, and only what the move takes off and adds makes
a difference. -/
def Settles (move : Move) (bench : Bench Memory Handle) : Prop :=
  move.releases bench ≤ bench.1.count ∧
    (move.take bench).2.1.count + move.releases bench = bench.1.count + move.charges bench

/-- Where a write ends is a word. -/
def Fits (move : Move) (bench : Bench Memory Handle) : Prop :=
  ∀ number bytes handle, move = work (.write number bytes) → bench.2 number = some handle →
    handle.pos + bytes.length < UInt64.size

variable {move : Move} {bench : Bench Memory Handle}

end Move

end GlyphShelf.Memory

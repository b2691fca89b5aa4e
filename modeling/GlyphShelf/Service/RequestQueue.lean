import Std.Data.TreeSet
import GlyphShelf.Wire.Frame

/-!
# Requests to a peer

A glyph that a peer looks up in vain is asked for from that peer, once: until it arrives,
further look-ups of the same key do not repeat the request, whether or not it has been
sent already.
-/

namespace GlyphShelf

/-- The requests to one peer. -/
structure RequestQueue where
  /-- Requests to be sent, the newest first. -/
  pending : List Key := []
  /-- Keys asked for that have not arrived. -/
  awaited : Std.TreeSet Key := ∅

namespace RequestQueue

/-- Asks for a key unless it is awaited; tells whether it was asked for now. -/
def ask (queue : RequestQueue) (key : Key) : Bool × RequestQueue :=
  if key ∈ queue.awaited then (false, queue)
  else (true, { pending := key :: queue.pending, awaited := queue.awaited.insert key })

/-- Notes that a key arrived, so that it may be asked for again. -/
def arrived (queue : RequestQueue) (key : Key) : RequestQueue :=
  { queue with awaited := queue.awaited.erase key }

/-- Takes out the requests to be sent, the oldest first. -/
def flush (queue : RequestQueue) : List Frame × RequestQueue :=
  (queue.pending.reverse.map .request, { queue with pending := [] })

/-- A key is asked for exactly when it is not awaited. -/
@[simp] theorem ask_fst (queue : RequestQueue) (key : Key) :
    (queue.ask key).1 = !decide (key ∈ queue.awaited) := by
  unfold ask
  split <;> simp_all

theorem mem_awaited_ask (queue : RequestQueue) (key other : Key) :
    other ∈ (queue.ask key).2.awaited ↔ other = key ∨ other ∈ queue.awaited := by
  unfold ask
  split
  · rename_i awaited
    constructor
    · exact .inr
    · rintro (rfl | h)
      · exact awaited
      · exact h
  · simp only [Std.TreeSet.mem_insert, Std.LawfulEqCmp.compare_eq_iff_eq]
    constructor <;> rintro (rfl | h) <;> simp_all

theorem mem_awaited_arrived (queue : RequestQueue) (key other : Key) :
    other ∈ (queue.arrived key).awaited ↔ other ≠ key ∧ other ∈ queue.awaited := by
  simp only [arrived, Std.TreeSet.mem_erase, ne_eq, Std.LawfulEqCmp.compare_eq_iff_eq]
  constructor <;> rintro ⟨different, h⟩ <;> exact ⟨fun e => different e.symm, h⟩

@[simp] theorem awaited_flush (queue : RequestQueue) : queue.flush.2.awaited = queue.awaited := rfl

end RequestQueue

end GlyphShelf

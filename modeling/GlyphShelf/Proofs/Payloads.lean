import GlyphShelf.Payloads
import GlyphShelf.Proofs.Memory.Frames
import GlyphShelf.Proofs.Memory.Records
import GlyphShelf.Proofs.Ring.Links

/-!
# Stored payloads

Where the payload of a glyph is stored, and what storing, reading and deleting it does. No
payload has the name of a link, so none of this touches a ring, and no change of a ring touches
a payload.
-/

namespace GlyphShelf.Payloads

variable {m : Memory} {key other : Key} {bytes : Bytes} {α : Type}

def payloadName (key : Key) : String := (RecordName.payload key).text

theorem payloadName_injective {key other : Key} (h : payloadName key = payloadName other) :
    key = other :=
  RecordName.payload.inj (RecordName.text_injective h)

theorem payloadName_ne {key other : Key} (differs : key ≠ other) :
    payloadName key ≠ payloadName other :=
  fun same => differs (payloadName_injective same)

theorem linkName_ne_payloadName (key other : Key) : Ring.linkName key ≠ payloadName other :=
  fun same => RecordName.noConfusion (RecordName.text_injective same)

@[simp] theorem linkKey?_payloadName (key : Key) : Ring.linkKey? (payloadName key) = none := by
  simp [Ring.linkKey?, payloadName]

/-- A change of one payload leaves all links as they are. -/
theorem shows_of_sets {m' : Memory} {table : Ring.Table} {value : Option Bytes} {count : Nat}
    (shows : Ring.Shows m.get? table) (sets : m.Sets count (payloadName key) value m') :
    Ring.Shows m'.get? table := by
  intro other
  rw [sets.get?, Function.update_of_ne (linkName_ne_payloadName other key), shows other]

theorem runs_write (unlimited : m.quota = none) (allowed : m.Allows 3) (glyph : ¬ key.IsAnchor)
    (bytes : Bytes) :
    ∃ m', Runs (write key bytes) m (.ok ()) m' ∧
      m.Sets 3 (payloadName key) (some bytes) m' := by
  rw [write, Action.requireGlyph_bind glyph]
  exact Memory.runs_replace unlimited allowed (payloadName key) bytes

theorem runs_openPayload (allowed : m.Allows 1) (glyph : ¬ key.IsAnchor)
    (holds : m.get? (payloadName key) = some bytes) :
    ∃ handle, Runs (openPayload key) m (.ok handle) (m.spend 1) ∧
      m.Attached handle (payloadName key) ∧ handle.pos = 0 := by
  obtain ⟨handle, opening, attached, start, -⟩ :=
    Memory.runs_openRecord_of_present .readOnly allowed holds (by decide)
  refine ⟨handle, ?_, attached, start⟩
  rwa [openPayload, Action.requireGlyph_bind glyph]

theorem runs_openPayload_of_absent (allowed : m.Allows 1) (glyph : ¬ key.IsAnchor)
    (absent : m.get? (payloadName key) = none) :
    Runs (openPayload key) m (.error .notFound) (m.spend 1) := by
  rw [openPayload, Action.requireGlyph_bind glyph]
  exact Memory.runs_openRecord_of_absent _ allowed absent rfl

/-- Opening, reading to the end and closing. -/
theorem runs_read (allowed : m.Allows (Memory.chunkReads bytes.length + 2))
    (glyph : ¬ key.IsAnchor) (holds : m.get? (payloadName key) = some bytes) :
    Runs (read key) m (.ok bytes) (m.spend (Memory.chunkReads bytes.length + 2)) := by
  obtain ⟨handle, opening, attached, start⟩ :=
    runs_openPayload (allowed.mono (by omega)) glyph holds
  have attached₁ : (m.spend 1).Attached handle (payloadName key) := attached
  have taking := Memory.runs_takeAll (allowed.spend 1 _ (by omega)) attached₁ start holds
  rw [Memory.spend_spend, Nat.add_comm, Nat.add_assoc] at taking
  exact opening.bind taking

theorem runs_discard (allowed : m.Allows 1) (glyph : ¬ key.IsAnchor) :
    ∃ m', Runs (Action.allowAbsence (delete key)) m (.ok ()) m' ∧
      m.Sets 1 (payloadName key) none m' := by
  rw [delete, Action.requireGlyph_bind glyph]
  exact Memory.runs_discard allowed (payloadName key)

theorem runs_discard_of_due (due : m.fault = some 0) (glyph : ¬ key.IsAnchor) :
    Runs (Action.allowAbsence (delete key)) m (.error (.device .injected)) m.trip := by
  apply Action.runs_allowAbsence_of_error Failure.noConfusion
  rw [delete, Action.requireGlyph_bind glyph]
  exact Memory.runs_delete_of_due due (payloadName key)

theorem runs_contains (quiet : m.fault = none) (glyph : ¬ key.IsAnchor) :
    ∃ count, Runs (contains key) m (.ok (m.get? (payloadName key)).isSome) (m.spend count) := by
  rw [contains, Action.requireGlyph_bind glyph]
  exact Memory.runs_hasRecord_of_quiet quiet (payloadName key)

theorem runs_enumerate (allowed : m.Allows 1) :
    Runs enumerate m
      (.ok ((m.listing.arrange m.cabinet.names).filterMap RecordName.glyph?)) (m.spend 1) :=
  (Memory.runs_list allowed).bind (.pure _ _)

/-! ## What is left alone -/

open Memory (within)

variable {names : Set String}

theorem isLink_payloadName (key : Key) : RecordName.isLink (payloadName key) = false := by
  simp [RecordName.isLink, payloadName]

theorem respects_write (key : Key) (bytes : Bytes) :
    Respects (within {payloadName key}) (write key bytes : Action Memory Unit) := by
  refine (respects_ofExcept _).bind fun _ => ?_
  exact Memory.respects_mono (Memory.respects_withRecord _ _ (Memory.respects_write bytes))
    (Memory.changed_subset .truncate (payloadName key))

theorem respects_openPayload (key : Key) :
    Respects (within names) (openPayload key : Action Memory Memory.Handle) := by
  have opening := Memory.respects_openRecord (payloadName key) .readOnly
  rw [Memory.changed_readOnly] at opening
  exact (respects_ofExcept _).bind fun _ =>
    Memory.respects_mono opening (Set.empty_subset names)

theorem respects_read (key : Key) : Respects (within names) (read key : Action Memory Bytes) :=
  (respects_openPayload key).bind fun _ => Memory.respects_takeAll _

theorem respects_delete (key : Key) :
    Respects (within {payloadName key}) (delete key : Action Memory Unit) :=
  (respects_ofExcept _).bind fun _ => Memory.respects_delete (payloadName key)

theorem respects_delete_shedding (key : Key) :
    Respects (Memory.shedding names) (delete key : Action Memory Unit) :=
  (respects_ofExcept _).bind fun _ => Memory.respects_delete_shedding (payloadName key)

theorem respects_contains (key : Key) :
    Respects (within names) (contains key : Action Memory Bool) :=
  (respects_ofExcept _).bind fun _ => Memory.respects_hasRecord _

theorem respects_enumerate : Respects (within names) (enumerate : Action Memory (List Key)) :=
  Memory.respects_list.bind fun _ => .pure _

inductive Request
  | write (key : Key) (bytes : Bytes)
  | read (key : Key)
  | openPayload (key : Key)
  | delete (key : Key)
  | contains (key : Key)
  | enumerate

def Request.after : Request → Memory → Memory
  | .write key bytes => stateAfter (Payloads.write key bytes : Action Memory Unit)
  | .read key => stateAfter (Payloads.read key : Action Memory Bytes)
  | .openPayload key => stateAfter (Payloads.openPayload key : Action Memory Memory.Handle)
  | .delete key => stateAfter (Payloads.delete key : Action Memory Unit)
  | .contains key => stateAfter (Payloads.contains key : Action Memory Bool)
  | .enumerate => stateAfter (Payloads.enumerate : Action Memory (List Key))

/-- The records that a request may change: the payload that is written or deleted. -/
def Request.changed : Request → Set String
  | .write key _ | .delete key => {payloadName key}
  | _ => ∅

theorem Request.exists_of_changed {request : Request} {name : String}
    (changed : name ∈ request.changed) : ∃ key, name = payloadName key := by
  cases request with
  | write key bytes => exact ⟨key, changed⟩
  | delete key => exact ⟨key, changed⟩
  | read => exact absurd changed (Set.notMem_empty name)
  | openPayload => exact absurd changed (Set.notMem_empty name)
  | contains => exact absurd changed (Set.notMem_empty name)
  | enumerate => exact absurd changed (Set.notMem_empty name)

theorem Request.within_changed (request : Request) (m : Memory) :
    m.Within request.changed (request.after m) := by
  cases request with
  | write key bytes => exact respects_write key bytes m
  | read key => exact respects_read key m
  | openPayload key => exact respects_openPayload key m
  | delete key => exact respects_delete key m
  | contains key => exact respects_contains key m
  | enumerate => exact respects_enumerate m

end GlyphShelf.Payloads

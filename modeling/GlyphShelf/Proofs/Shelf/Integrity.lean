import GlyphShelf.Proofs.Memory.Limits
import GlyphShelf.Proofs.Shelf.Frames
import GlyphShelf.Proofs.Shelf.Refinement

/-!
# Payloads when the device fails

A shelf is called and opened anew in any order, and before each of these steps a failure may be
armed for any operation of the device. The ring may be damaged by that, but no payload is: what
is stored under a key is always all of what the key was put with last. Two facts carry this
invariant. Only storing a glyph writes payloads, and a payload that could not be written whole
is deleted again: the one failure was spent on the writing, so the deletion succeeds.
-/

namespace GlyphShelf.Shelf

open Memory (within shedding)
open Payloads GlyphShelf.Ring

variable {m m' : Memory} {shelf : Shelf} {s : Memory × Shelf} {key : Key} {bytes : Bytes}
variable {last : Key → Option Bytes}

/-! ## Histories -/

/-- Opens the shelf anew on its device; a failure leaves the shelf as it was. -/
def reopen (settings : Settings) : Action (Memory × Shelf) Reply := fun (m, shelf) =>
  match openOn settings m with
  | .ok shelf' m' => .ok .done (m', shelf')
  | .error e m' => .error e (m', shelf)

inductive Deed
  | call (call : Call)
  | reopen (settings : Settings)

def Deed.act : Deed → Action (Memory × Shelf) Reply
  | .call asked => asked.act
  | .reopen settings => Shelf.reopen settings

/-- Something done with a shelf, and the failure that is armed before, if any. -/
structure Event where
  /-- How many operations succeed before the one that fails. -/
  armed : Option Nat := none
  deed : Deed

def arm (armed : Option Nat) (m : Memory) : Memory :=
  match armed with
  | none => m
  | some left => m.failAfter left

def Event.step (event : Event) (s : Memory × Shelf) : Except Failure Reply × (Memory × Shelf) :=
  event.deed.act.step (arm event.armed s.1, s.2)

/-- The payload that each key was put with last, whether or not putting it succeeded. -/
def Event.note (last : Key → Option Bytes) (event : Event) : Key → Option Bytes :=
  match event.deed with
  | .call (.put key bytes) => Function.update last key (some bytes)
  | _ => last

def lastPut (events : List Event) : Key → Option Bytes := events.foldl Event.note fun _ => none

/-! ## What may become of payloads -/

theorem respects_wipe : Respects (shedding links) (wipe : Action Memory Unit) :=
  guards_shedding.respects_wipe

theorem respects_openOn (settings : Settings) :
    Respects (shedding links) (openOn settings : Action Memory Shelf) :=
  guards_shedding.respects_openOn settings

theorem respects_reopen (settings : Settings) :
    Respects (shedding links).onFirst (reopen settings) := by
  rintro ⟨m, shelf⟩
  have opening := respects_openOn settings m
  unfold stateAfter reopen at *
  dsimp only
  cases result : (openOn settings : Action Memory Shelf) m with
  | ok shelf' m' =>
    rw [result] at opening
    exact opening
  | error e m' =>
    rw [result] at opening
    exact opening

theorem sheds_of_within {act : EStateM Failure (Memory × Shelf) Reply}
    (respects : Respects (within links).onFirst act) : Respects (shedding links).onFirst act :=
  respects.mono fun _ _ within => within.sheds

/-- No call but storing a glyph writes payloads. -/
theorem respects_call (call : Call) (other : ∀ key bytes, call ≠ .put key bytes) :
    Respects (shedding links).onFirst call.act := by
  cases call with
  | put key bytes => exact absurd rfl (other key bytes)
  | get key => exact sheds_of_within ((respects_get key).bind fun _ => .pure _)
  | openEntry key =>
    refine sheds_of_within ((respects_openEntry key).bind fun record => ?_)
    exact (respects_onFirst (Memory.respects_takeAll record)).bind fun _ => .pure _
  | contains key => exact sheds_of_within ((respects_contains key).bind fun _ => .pure _)
  | keys => exact sheds_of_within (respects_keys.bind fun _ => .pure _)
  | size => exact .bind (fun s => (shedding links).refl s.1) fun _ => .pure _
  | check => exact sheds_of_within ((respects_examined respects_check).bind fun _ => .pure _)
  | reconcile => exact respects_reconcile.bind fun _ => .pure _
  | reset =>
    refine .bind ((respects_onFirst respects_wipe).bind fun _ s => ?_) fun _ => .pure _
    exact (shedding links).refl s.1

/-! ## Storing -/

/-- A payload whose writing fails is deleted: the failure that was armed is spent by then. -/
theorem storePayload_of_failed {left : Nat} (unlimited : m.quota = none) (glyph : ¬ key.IsAnchor)
    (armed : m.fault = some left) (soon : left < 3) (bytes : Bytes) :
    (stateAfter (storePayload key bytes) m).get? (payloadName key) = none := by
  obtain ⟨value, m₁, writing, trips, -, -⟩ :=
    Memory.runs_replace_of_armed unlimited armed soon (payloadName key) bytes
  obtain ⟨result, m₂, deleting, sets⟩ :=
    Memory.exists_runs_delete (Memory.allows_of_none trips.fault 1) (payloadName key)
  have cleaning : Runs (Payloads.delete key) m₁ result m₂ := by
    rwa [Payloads.delete, Action.requireGlyph_bind glyph]
  have writing' : Runs (Payloads.write key bytes) m (.error (.device .injected)) m₁ := by
    rwa [Payloads.write, Action.requireGlyph_bind glyph]
  have run : Runs (storePayload key bytes) m _ m₂ :=
    Action.runs_orCleanUp_of_error writing'.bind_error cleaning
  rw [run.stateAfter_eq]
  exact sets.get?_same

/-- A payload that was written whole stays whole, unless the question whether its key is linked
fails: then it is deleted. -/
theorem storePayload_of_written (unlimited : m.quota = none) (glyph : ¬ key.IsAnchor)
    (allowed : m.Allows 3) (bytes : Bytes) :
    (stateAfter (storePayload key bytes) m).get? (payloadName key) = some bytes ∨
      (stateAfter (storePayload key bytes) m).get? (payloadName key) = none := by
  obtain ⟨m₁, writing, sets⟩ := Payloads.runs_write unlimited allowed glyph bytes
  obtain ⟨result, looking⟩ := exists_runs (Ring.contains key : Action Memory Bool) m₁
  have still : Respects (within ∅) (Ring.contains key : Action Memory Bool) :=
    Ring.respects_contains key
  have written : (stateAfter (Ring.contains key : Action Memory Bool) m₁).get? (payloadName key) =
      some bytes := by
    rw [(still m₁).get? _ (Set.notMem_empty _), sets.get?_same]
  cases result with
  | ok linked =>
    have run : Runs (storePayload key bytes) m _ _ := Action.runs_orCleanUp (writing.bind looking)
    rw [run.stateAfter_eq]
    exact .inl written
  | error e =>
    obtain ⟨cleaned, cleaning⟩ := exists_runs (Payloads.delete key : Action Memory Unit)
      (stateAfter (Ring.contains key) m₁)
    have run : Runs (storePayload key bytes) m _ _ :=
      Action.runs_orCleanUp_of_error (writing.bind looking) cleaning
    have shedding : Respects (shedding ∅) (Payloads.delete key : Action Memory Unit) :=
      Payloads.respects_delete_shedding key
    rw [run.stateAfter_eq, ← written]
    exact (shedding _).get? _ (Set.notMem_empty _)

/-- Storing a payload leaves all of it or none. -/
theorem storePayload_whole (unlimited : m.quota = none) (glyph : ¬ key.IsAnchor) (bytes : Bytes) :
    (stateAfter (storePayload key bytes) m).get? (payloadName key) = some bytes ∨
      (stateAfter (storePayload key bytes) m).get? (payloadName key) = none := by
  by_cases armed : ∃ left, m.fault = some left ∧ left < 3
  · obtain ⟨left, armed, soon⟩ := armed
    exact .inr (storePayload_of_failed unlimited glyph armed soon bytes)
  · have allowed : m.Allows 3 := fun left due =>
      Nat.le_of_not_lt fun soon => armed ⟨left, due, soon⟩
    exact storePayload_of_written unlimited glyph allowed bytes

/-- The same holds of a glyph, since what comes after storing the payload can only delete it. -/
theorem put_whole (unlimited : m.quota = none) (glyph : ¬ key.IsAnchor) (bytes : Bytes)
    (shelf : Shelf) :
    (stateAfter (put key bytes) (m, shelf)).1.get? (payloadName key) = some bytes ∨
      (stateAfter (put key bytes) (m, shelf)).1.get? (payloadName key) = none := by
  -- The payload's own name is among those that may only go, not in the set of links.
  have entering (linked : Bool) :
      Respects (shedding links).onFirst (do enter key linked; reconcile) := by
    refine .bind ?_ fun _ => respects_reconcile
    exact respects_enter linked (Memory.respects_shedding (Ring.respects_promote key))
      (Memory.respects_shedding (Ring.respects_insert key)) (Payloads.respects_delete_shedding key)
  have whole := storePayload_whole unlimited glyph bytes
  rw [put_eq, bringIn, Action.requireGlyph_bind glyph, bind_assoc]
  rcases stateAfter_bind (Action.onFirst (storePayload key bytes))
    (fun linked => do enter key linked; reconcile) (m, shelf) with failed | ⟨linked, s₁, run, ended⟩
  · rwa [failed, stateAfter_onFirst]
  · rw [run.of_onFirst.1.stateAfter_eq] at whole
    rw [ended]
    rcases (entering linked s₁).get? _ (payloadName_not_mem_links key) with same | gone
    · rwa [same]
    · exact .inr gone

/-! ## Reading -/

theorem carries_read (key : Key) :
    Carries Memory.unbound (Payloads.read key : Action Memory Bytes) := by
  refine .bind ((Carries.ofExcept _).bind fun _ => ?_) Memory.carries_takeAll
  exact Memory.carries_openRecord (payloadName key) .readOnly

/-- Whatever fails meanwhile, a payload that is answered is the one that was stored. -/
theorem get?_of_read (run : Runs (Payloads.read key) m (.ok bytes) m') :
    m.get? (payloadName key) = some bytes := by
  -- Without limits the same read ends the same way, and there nothing but absence can stop it.
  have quiet (count : Nat) : m.unbound.Allows count := Memory.allows_of_none rfl count
  have free := carries_read key m bytes m' run
  by_cases anchor : key.IsAnchor
  · have refused : Runs (Payloads.read key) m.unbound (.error (.reservedKey key)) m.unbound :=
      (Action.refuses_anchor anchor _ _).bind_error
    cases (free.deterministic refused).1
  · cases stored : m.get? (payloadName key) with
    | none =>
      have missing := Payloads.runs_openPayload_of_absent (m := m.unbound) (quiet 1) anchor stored
      cases (free.deterministic missing.bind_error).1
    | some bytes' =>
      have reading := Payloads.runs_read (m := m.unbound) (quiet _) anchor stored
      cases (free.deterministic reading).1
      rfl

theorem use_cases {α : Type} {act : Action Memory α} {a : α} {s' : Memory × Shelf}
    (run : Runs (use key act) (m, shelf) (.ok a) s') : ∃ m₁, Runs act m (.ok a) m₁ := by
  obtain ⟨a', s₁, reading, rest⟩ := run.bind_ok
  obtain ⟨moved, s₂, -, rest⟩ := rest.bind_ok
  cases rest
  exact ⟨_, (orMiss_cases reading).1⟩

theorem stored_of_get {s s' : Memory × Shelf}
    (run : Runs (Call.get key).act s (.ok (.payload bytes)) s') :
    s.1.get? (payloadName key) = some bytes := by
  obtain ⟨bytes', s₁, getting, rest⟩ := run.bind_ok
  cases rest
  obtain ⟨m₁, reading⟩ := use_cases getting
  exact get?_of_read reading

/-! ## The invariant -/

/-- Every payload on the device is all of what its key was put with last. -/
structure Faithful (m : Memory) (last : Key → Option Bytes) : Prop where
  unlimited : m.quota = none
  payload : ∀ key bytes, ¬ key.IsAnchor → m.get? (payloadName key) = some bytes →
    last key = some bytes

theorem Faithful.sheds (faithful : Faithful m last) (sheds : m.Sheds links m') :
    Faithful m' last where
  unlimited := sheds.quota.trans faithful.unlimited
  payload key bytes glyph stored := by
    rcases sheds.get? _ (payloadName_not_mem_links key) with same | gone
    · exact faithful.payload key bytes glyph (same ▸ stored)
    · rw [gone] at stored
      cases stored

theorem Faithful.put (faithful : Faithful m last) (key : Key) (bytes : Bytes) (shelf : Shelf) :
    Faithful (stateAfter (put key bytes) (m, shelf)).1
      (Function.update last key (some bytes)) where
  unlimited := (respects_put key bytes (m, shelf)).quota.trans faithful.unlimited
  payload other bytes' glyph stored := by
    by_cases same : other = key
    · subst same
      rw [Function.update_self]
      rcases put_whole faithful.unlimited glyph bytes shelf with whole | gone
      · exact whole.symm.trans stored
      · rw [gone] at stored
        cases stored
    · rw [Function.update_of_ne same]
      rcases (respects_put key bytes (m, shelf)).get? _ (payloadName_not_mem same) with kept | gone
      · exact faithful.payload other bytes' glyph (kept.symm.trans stored)
      · rw [gone] at stored
        cases stored

theorem Faithful.armed (faithful : Faithful m last) (armed : Option Nat) :
    Faithful (arm armed m) last := by
  cases armed with
  | none => exact faithful
  | some left => exact ⟨faithful.unlimited, faithful.payload⟩

theorem Faithful.step (event : Event) (s : Memory × Shelf) (last : Key → Option Bytes)
    (faithful : Faithful s.1 last) : Faithful (event.step s).2.1 (event.note last) := by
  obtain ⟨armed, deed⟩ := event
  have start := faithful.armed armed
  rw [Event.step, step_snd]
  cases deed with
  | reopen settings => exact start.sheds (respects_reopen settings (arm armed s.1, s.2))
  | call asked =>
    by_cases storing : ∃ key bytes, asked = .put key bytes
    · obtain ⟨key, bytes, rfl⟩ := storing
      have same : stateAfter (Call.put key bytes).act (arm armed s.1, s.2) =
          stateAfter (Shelf.put key bytes) (arm armed s.1, s.2) := stateAfter_bind_pure _ _ _
      rw [Deed.act, same]
      exact start.put key bytes s.2
    · have other (key : Key) (bytes : Bytes) : asked ≠ .put key bytes :=
        fun same => storing ⟨key, bytes, same⟩
      have sheds := respects_call asked other (arm armed s.1, s.2)
      have same : Event.note last ⟨armed, .call asked⟩ = last := by
        unfold Event.note
        split
        · rename_i key bytes named
          cases named
          exact absurd rfl (other key bytes)
        · rfl
      rw [same]
      exact start.sheds sheds

/-! ## The main statement -/

/-- Starting from an empty device without a quota, and with any failures on the way: a payload
that is there is all of what its key was put with last, and so is every payload answered. -/
theorem payloads_are_last_put (empty : ∀ name, m.get? name = none) (unlimited : m.quota = none)
    (shelf : Shelf) (events : List Event) (glyph : ¬ key.IsAnchor) :
    (∀ bytes, (outcomes Event.step events (m, shelf)).2.1.get? (payloadName key) = some bytes →
      lastPut events key = some bytes) ∧
    ∀ armed bytes, (Event.step ⟨armed, .call (.get key)⟩
        (outcomes Event.step events (m, shelf)).2).1 = .ok (.payload bytes) →
      lastPut events key = some bytes := by
  have start : Faithful m fun _ => none := by
    refine ⟨unlimited, fun key bytes _ stored => ?_⟩
    rw [empty] at stored
    cases stored
  have faithful : Faithful (outcomes Event.step events (m, shelf)).2.1 (lastPut events) :=
    outcomes_keep Faithful.step events (s := (m, shelf)) start
  refine ⟨fun bytes stored => faithful.payload key bytes glyph stored, ?_⟩
  intro armed bytes answered
  generalize (outcomes Event.step events (m, shelf)).2 = s at faithful answered
  obtain ⟨result, run⟩ := exists_runs (Call.get key).act (arm armed s.1, s.2)
  have answer : (Event.step ⟨armed, .call (.get key)⟩ s).1 = result := congrArg Prod.fst run.step_eq
  rw [answered] at answer
  subst answer
  exact (faithful.armed armed).payload key bytes glyph (stored_of_get run)

/-- Storing the first key again fails in the middle of promoting it, with the new payload already
in place of the old one. -/
theorem replaced_before_failure :
    (({} : Memory).quota = none ∧ ¬ (⟨1⟩ : Key).IsAnchor) ∧
      (outcomes Event.step [⟨none, .reopen { capacity := 2 }⟩, ⟨none, .call (.put ⟨1⟩ [7])⟩,
        ⟨none, .call (.put ⟨2⟩ [])⟩, ⟨some 12, .call (.put ⟨1⟩ [8, 9])⟩]
        (({} : Memory), ({ capacity := 1 } : Shelf))).1 =
        [.ok .done, .ok (.number 1), .ok (.number 2), .error (.device .injected)] ∧
      lastPut [⟨none, .reopen { capacity := 2 }⟩, ⟨none, .call (.put ⟨1⟩ [7])⟩,
        ⟨none, .call (.put ⟨2⟩ [])⟩, ⟨some 12, .call (.put ⟨1⟩ [8, 9])⟩] ⟨1⟩ = some [8, 9] := by
  refine ⟨⟨rfl, by decide⟩, by decide +kernel, ?_⟩
  have glyph : ¬ (⟨1⟩ : Key).IsAnchor := by decide
  refine (payloads_are_last_put (m := {}) (fun _ => rfl) rfl { capacity := 1 } _ glyph).1 [8, 9] ?_
  decide +kernel

end GlyphShelf.Shelf

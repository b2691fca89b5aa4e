import Mathlib.Data.Set.Insert
import GlyphShelf.Proofs.Memory.Frames
import GlyphShelf.Proofs.Ring.Guards
import GlyphShelf.Proofs.Ring.Links

/-!
# What the ring leaves alone

A damaged ring makes its operations follow whatever keys the stored bytes decode to. Still they
write and delete under names of links only: every name they form is that of the link of some
key, and what `clear` deletes was read as such a name before. So records that are not links are
as before after every operation, whatever the device holds and wherever it fails.
-/

namespace GlyphShelf.Ring

open Memory (within)

variable {names : Set String} {key : Key} {α : Type}

/-- The names that are read as those of links, canonical or not. -/
def links : Set String := {name | RecordName.isLink name = true}

theorem not_mem_links {name : String} (other : RecordName.isLink name = false) : name ∉ links := by
  rw [links, Set.mem_ofPred_eq, other]
  exact Bool.false_ne_true

theorem linkName_subset (key : Key) : {linkName key} ⊆ links :=
  Set.singleton_subset_iff.2 (isLink_linkName key)

/-! ## Single operations -/

/-- Looking changes nothing at all. -/
theorem looks_within (names : Set String) : Looks (within names) where
  opening name := by
    have opening := Memory.respects_openRecord name.text .readOnly
    rw [Memory.changed_readOnly] at opening
    exact Memory.respects_mono opening (Set.empty_subset names)
  reading _ := .bind (respects_onFirst Memory.respects_tick) fun _ s => .refl names s.1
  closing := Memory.respects_close

theorem changes_within : Changes (within links) where
  toLooks := looks_within links
  replacing key bytes :=
    Memory.respects_mono (Memory.respects_withRecord _ _ (Memory.respects_write bytes))
      ((Memory.changed_subset _ _).trans (linkName_subset key))
  overwriting key pos bytes :=
    Memory.respects_mono (Memory.respects_withRecord _ _
      ((Memory.respects_seek pos).bind fun _ => Memory.respects_write bytes))
      ((Memory.changed_subset _ _).trans (linkName_subset key))
  deleting name isLink :=
    Memory.respects_mono (Memory.respects_delete name) (Set.singleton_subset_iff.2 isLink)
  listing := Memory.respects_list

theorem respects_setUp : Respects (within links) (setUp : Action Memory Unit) :=
  changes_within.respects_setUp

theorem respects_clear : Respects (within links) (clear : Action Memory Unit) :=
  changes_within.respects_clear

theorem respects_contains (key : Key) :
    Respects (within names) (contains key : Action Memory Bool) :=
  (looks_within names).respects_contains key

theorem respects_insert (key : Key) :
    Respects (within links) (insert key : Action Memory Unit) :=
  changes_within.respects_insert key

theorem respects_promote (key : Key) :
    Respects (within links) (promote key : Action Memory Bool) :=
  changes_within.respects_promote key

theorem respects_evict : Respects (within links) (evict : Action Memory Key) :=
  changes_within.respects_evict

theorem respects_walk : Respects (within names) (walk : Action Memory (List Key)) :=
  (looks_within names).respects_walk

theorem respects_check : Respects (within names) (check : Examination Memory Unit) :=
  (looks_within names).respects_check

/-! ## All operations -/

inductive Request
  | setUp
  | clear
  | insert (key : Key)
  | remove (key : Key)
  | promote (key : Key)
  | evict
  | contains (key : Key)
  | mostRecent
  | leastRecent
  | walk
  | walkBack
  | check

def Request.after : Request → Memory → Memory
  | .setUp => stateAfter (Ring.setUp : Action Memory Unit)
  | .clear => stateAfter (Ring.clear : Action Memory Unit)
  | .insert key => stateAfter (Ring.insert key : Action Memory Unit)
  | .remove key => stateAfter (Ring.remove key : Action Memory Unit)
  | .promote key => stateAfter (Ring.promote key : Action Memory Bool)
  | .evict => stateAfter (Ring.evict : Action Memory Key)
  | .contains key => stateAfter (Ring.contains key : Action Memory Bool)
  | .mostRecent => stateAfter (Ring.mostRecent : Action Memory (Option Key))
  | .leastRecent => stateAfter (Ring.leastRecent : Action Memory (Option Key))
  | .walk => stateAfter (Ring.walk : Action Memory (List Key))
  | .walkBack => stateAfter (Ring.walkBack : Action Memory (List Key))
  | .check => stateAfter (Ring.check : Examination Memory Unit)

theorem Request.within_links (request : Request) (m : Memory) :
    m.Within links (request.after m) := by
  cases request with
  | setUp => exact respects_setUp m
  | clear => exact respects_clear m
  | insert key => exact respects_insert key m
  | remove key => exact changes_within.respects_remove key m
  | promote key => exact respects_promote key m
  | evict => exact respects_evict m
  | contains key => exact respects_contains key m
  | mostRecent => exact (looks_within links).respects_mostRecent m
  | leastRecent => exact (looks_within links).respects_leastRecent m
  | walk => exact respects_walk m
  | walkBack => exact (looks_within links).respects_walkBack m
  | check => exact respects_check m

end GlyphShelf.Ring

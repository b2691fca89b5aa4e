import GlyphShelf.Proofs.Memory.Injection
import GlyphShelf.Proofs.Payloads
import GlyphShelf.Proofs.Ring.Guards

/-!
# Payloads and rings report failures

Whatever the device holds, no operation on a payload or on the ring succeeds if one of its steps
ran into the armed failure. Reading a payload and deleting one even tell of it: there is nothing
to clean up on the way. The other operations close a record after a failure, and the failure of
the closing is not what they report.
-/

namespace GlyphShelf

open Memory (injection injected)

variable {α : Type} {key : Key}

namespace Payloads

theorem tells_openPayload (key : Key) :
    injection.Tells injected (openPayload key : Action Memory Memory.Handle) :=
  (tells_ofExcept _).bind fun _ => Memory.tells_openRecord _ _

theorem reports_write (key : Key) (bytes : Bytes) :
    injection.Reports injected (write key bytes : Action Memory Unit) :=
  (tells_ofExcept _).reports.bind fun _ =>
    Memory.reports_withRecord _ _ (Memory.tells_write bytes).reports

theorem tells_read (key : Key) : injection.Tells injected (read key : Action Memory Bytes) :=
  (tells_openPayload key).bind fun record => Memory.tells_takeAll record

theorem tells_delete (key : Key) : injection.Tells injected (delete key : Action Memory Unit) :=
  (tells_ofExcept _).bind fun _ => Memory.tells_delete _

theorem tells_discard (key : Key) :
    injection.Tells injected (Action.allowAbsence (delete key) : Action Memory Unit) :=
  tells_allowAbsence Memory.injected_ne_notFound (tells_delete key)

theorem tells_enumerate : injection.Tells injected (enumerate : Action Memory (List Key)) :=
  Memory.tells_list.bind fun _ => .pure _

end Payloads

namespace Ring

/-! ## Single links -/

theorem reports_orDangling {act : Action Memory α} (reports : injection.Reports injected act) :
    injection.Reports injected (orDangling key act) := by
  intro m armed result m' run
  obtain ⟨result', acting⟩ := exists_runs act m
  obtain ⟨rfl, rfl⟩ := run.deterministic (runs_orDangling_mapError acting)
  rcases reports m armed _ _ acting with ⟨armed', free⟩ | rfl | ⟨e, t, rfl, free⟩
  · exact .inl ⟨armed', runs_orDangling_mapError free⟩
  · exact .inr (.inl rfl)
  · exact .inr (.inr ⟨dangling key e, t, rfl, runs_orDangling_mapError free⟩)

theorem reports_readLink (key : Key) :
    injection.Reports injected (readLink key : Action Memory Link) :=
  (Memory.reports_withRecord _ _ (Device.tells_readUpTo Memory.tells_read _ _ _).reports).bind
    fun _ => (tells_ofExcept _).reports

theorem reports_neighbours (key : Key) :
    injection.Reports injected (neighbours key : Action Memory Link) :=
  reports_orDangling (reports_readLink key)

theorem reports_writeLink (key : Key) (link : Link) :
    injection.Reports injected (writeLink key link : Action Memory Unit) :=
  Memory.reports_withRecord _ _ (Memory.tells_write _).reports

theorem reports_patch (key : Key) (field : Link.Field) (value : Key) :
    injection.Reports injected (patch key field value : Action Memory Unit) :=
  reports_orDangling (Memory.reports_withRecord _ _
    ((Memory.tells_seek _).bind fun _ => Memory.tells_write _).reports)

theorem reports_detach (link : Link) :
    injection.Reports injected (detach link : Action Memory Unit) :=
  (reports_patch _ _ _).bind fun _ => reports_patch _ _ _

/-! ## Setting up -/

theorem reports_writeAnchors : injection.Reports injected (writeAnchors : Action Memory Unit) :=
  (reports_writeLink _ _).bind fun _ => reports_writeLink _ _

theorem reports_setUp : injection.Reports injected (setUp : Action Memory Unit) := by
  refine (Memory.tells_hasRecord _).reports.bind fun _ =>
    (Memory.tells_hasRecord _).reports.bind fun _ => ?_
  exact .ite (.pure ()) reports_writeAnchors

theorem tells_deleteAll (names : List String) :
    injection.Tells injected (deleteAll names : Action Memory Unit) := by
  induction names with
  | nil => exact .pure ()
  | cons name names ih => exact (Memory.tells_discard name).bind fun _ => ih

theorem reports_clear : injection.Reports injected (clear : Action Memory Unit) :=
  Memory.tells_list.reports.bind fun _ => (tells_deleteAll _).reports.bind fun _ =>
    reports_writeAnchors

/-! ## Changing the order -/

theorem tells_contains (key : Key) :
    injection.Tells injected (contains key : Action Memory Bool) :=
  Memory.tells_hasRecord _

theorem reports_linkInFront (key first : Key) :
    injection.Reports injected (linkInFront key first : Action Memory Unit) :=
  (reports_writeLink _ _).bind fun _ => reports_patch _ _ _

theorem reports_insert (key : Key) :
    injection.Reports injected (insert key : Action Memory Unit) := by
  refine (tells_ofExcept _).reports.bind fun _ => (tells_contains key).reports.bind fun _ => ?_
  refine .ite (.throw_bind _ _) ((reports_neighbours .head).bind fun _ => ?_)
  refine (reports_orCleanUp (reports_linkInFront _ _) (Memory.tells_delete _).reports).bind
    fun _ => ?_
  exact reports_patch _ _ _

theorem reports_promote (key : Key) :
    injection.Reports injected (promote key : Action Memory Bool) := by
  refine (tells_ofExcept _).reports.bind fun _ => (reports_readLink key).bind fun link => ?_
  refine .ite (.pure false) ((reports_detach link).bind fun _ => ?_)
  refine (reports_neighbours .head).bind fun _ => (reports_linkInFront _ _).bind fun _ => ?_
  exact (reports_patch _ _ _).bind fun _ => .pure true

theorem reports_evict : injection.Reports injected (evict : Action Memory Key) := by
  refine (reports_neighbours .tail).bind fun tail => ?_
  refine .ite (.throw_bind _ _) (.ite (.throw_bind _ _) ?_)
  refine (reports_neighbours tail.prev).bind fun link => (reports_detach link).bind fun _ => ?_
  exact (Memory.tells_delete _).reports.bind fun _ => .pure tail.prev

/-! ## Looking at the order -/

theorem reports_follow (start goal : Key) (field : Link.Field) (steps : Nat) (passed : List Key)
    (key : Key) : injection.Reports injected
      (follow start goal field steps passed key : Action Memory (List Key)) := by
  induction steps generalizing passed key with
  | zero =>
    unfold follow
    exact .ite (.pure _) (.throw _)
  | succ steps ih =>
    unfold follow
    exact .ite (.pure _) (.ite (.throw _) ((reports_neighbours key).bind fun _ => ih _ _))

theorem reports_walk : injection.Reports injected (walk : Action Memory (List Key)) :=
  (reports_neighbours .head).bind fun _ => reports_follow _ _ _ _ _ _

theorem reports_walkBack : injection.Reports injected (walkBack : Action Memory (List Key)) :=
  (reports_neighbours .tail).bind fun _ => reports_follow _ _ _ _ _ _

theorem reports_checkBackLinks (before : Key) (keys : List Key) :
    injection.Reports (.failed injected) (checkBackLinks before keys : Examination Memory Unit) := by
  induction keys generalizing before with
  | nil => exact .pure ()
  | cons key keys ih =>
    exact (reports_ofAction (reports_neighbours key)).bind fun _ => .ite (ih key) (.throw _)

theorem reports_check :
    injection.Reports (.failed injected) (check : Examination Memory Unit) := by
  refine (reports_ofAction reports_walk).bind fun _ => (reports_checkBackLinks _ _).bind fun _ => ?_
  exact (reports_ofAction reports_walkBack).bind fun _ => .ite (.pure ()) (.throw _)

end Ring

end GlyphShelf

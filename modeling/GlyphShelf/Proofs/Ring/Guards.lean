import GlyphShelf.Proofs.Frames
import GlyphShelf.Ring

/-!
# What keeps a ring within a frame

A ring reads, writes and deletes links and does nothing else with its device, however damaged it
is. So on any device, and for any frame, it is enough to know what becomes of single links:
`Looks` says that opening and reading them respects the frame, and `Changes` says so of replacing,
overwriting and deleting them as well. All operations of the ring follow, whichever links they
touch and wherever they fail.
-/

namespace GlyphShelf.Ring

variable {σ η α : Type} [Device σ η] {frame other : FrameCondition σ} {key : Key}

/-- Opening records for reading, reading them and closing them respects the frame. -/
structure Looks (frame : FrameCondition σ) : Prop where
  opening : ∀ name : RecordName, Respects frame (Device.openRecord name.text .readOnly)
  reading : ∀ count, Respects frame.onFirst (Device.read count : Action (σ × η) Bytes)
  closing : ∀ record : η, Respects frame (Device.close record : Action σ Unit)

/-- So does every change of a single link. -/
structure Changes (frame : FrameCondition σ) : Prop extends Looks frame where
  replacing : ∀ key bytes,
    Respects frame (Device.withRecord (linkName key) .truncate (Device.write bytes))
  overwriting : ∀ key pos bytes,
    Respects frame (Device.withRecord (linkName key) .readWrite do
      Device.seek pos
      Device.write bytes)
  deleting : ∀ name, RecordName.isLink name = true →
    Respects frame (Device.delete name : Action σ Unit)
  listing : Respects frame (Device.list : Action σ (List String))

/-! ## Single links -/

/-- What a failure to find a link amounts to where the ring says that it must be there. -/
def dangling (key : Key) : Failure → Failure
  | .notFound => .corrupt (.missingLink key)
  | e => e

theorem dangling_of_present {e : Failure} (present : e ≠ .notFound) : dangling key e = e := by
  cases e with
  | notFound => exact absurd rfl present
  | _ => rfl

theorem runs_orDangling_mapError {act : Action σ α} {s s' : σ} {result : Except Failure α}
    (run : Runs act s result s') :
    Runs (orDangling key act) s (result.mapError (dangling key)) s' := by
  unfold Runs at *
  rw [orDangling, run]
  cases result with
  | ok a => rfl
  | error e => cases e <;> rfl

theorem respects_orDangling_of {act : Action σ α} (respects : Respects frame act) :
    Respects frame (orDangling key act) := by
  intro s
  obtain ⟨result, run⟩ := exists_runs act s
  rw [(runs_orDangling_mapError run).stateAfter_eq]
  exact respects s

theorem respects_deleteAll_of {given : List String}
    (deleting : ∀ name ∈ given, Respects frame (Device.delete name : Action σ Unit)) :
    Respects frame (deleteAll given : Action σ Unit) := by
  induction given with
  | nil => exact .pure ()
  | cons name given ih =>
    obtain ⟨first, rest⟩ := List.forall_mem_cons.1 deleting
    exact (respects_allowAbsence first).bind fun _ => ih rest

/-! ## Looking at the order -/

namespace Looks

variable (looks : Looks frame)

include looks

theorem respects_readLink (key : Key) : Respects frame (readLink key : Action σ Link) := by
  refine .bind (Device.respects_withRecord (looks.opening (.link key)) ?_ looks.closing) fun _ =>
    respects_ofExcept _
  intro s record s₁ _
  exact Device.respects_readExact looks.reading Link.size (s₁, record)

theorem respects_neighbours (key : Key) : Respects frame (neighbours key : Action σ Link) :=
  respects_orDangling_of (looks.respects_readLink key)

theorem respects_contains (key : Key) : Respects frame (contains key : Action σ Bool) :=
  Device.respects_hasRecord (looks.opening (.link key)) looks.closing

theorem respects_mostRecent : Respects frame (mostRecent : Action σ (Option Key)) :=
  (looks.respects_neighbours .head).bind fun _ => .pure _

theorem respects_leastRecent : Respects frame (leastRecent : Action σ (Option Key)) :=
  (looks.respects_neighbours .tail).bind fun _ => .pure _

theorem respects_follow (start goal : Key) (field : Link.Field) (steps : Nat)
    (passed : List Key) (key : Key) :
    Respects frame (follow start goal field steps passed key : Action σ (List Key)) := by
  induction steps generalizing passed key with
  | zero =>
    unfold follow
    exact .ite (fun _ => .pure _) fun _ => .throw _
  | succ steps ih =>
    unfold follow
    refine .ite (fun _ => .pure _) fun _ => .ite (fun _ => .throw _) fun _ => ?_
    exact (looks.respects_neighbours key).bind fun _ => ih _ _

theorem respects_walk : Respects frame (walk : Action σ (List Key)) :=
  (looks.respects_neighbours .head).bind fun _ => looks.respects_follow _ _ _ _ _ _

theorem respects_walkBack : Respects frame (walkBack : Action σ (List Key)) :=
  (looks.respects_neighbours .tail).bind fun _ => looks.respects_follow _ _ _ _ _ _

theorem respects_checkBackLinks (before : Key) (keys : List Key) :
    Respects frame (checkBackLinks before keys : Examination σ Unit) := by
  induction keys generalizing before with
  | nil => exact .pure ()
  | cons key keys ih =>
    refine (respects_ofAction (looks.respects_neighbours key)).bind fun _ => ?_
    exact .ite (fun _ => ih key) fun _ => .throw _

theorem respects_check : Respects frame (check : Examination σ Unit) := by
  refine (respects_ofAction looks.respects_walk).bind fun _ => ?_
  refine (looks.respects_checkBackLinks _ _).bind fun _ => ?_
  refine (respects_ofAction looks.respects_walkBack).bind fun _ => ?_
  exact .ite (fun _ => .pure ()) fun _ => .throw _

end Looks

/-! ## Changing the order -/

namespace Changes

variable (changes : Changes frame)

include changes

theorem mono (weaker : ∀ s s', frame.allows s s' → other.allows s s') : Changes other where
  opening name := (changes.opening name).mono weaker
  reading count := (changes.reading count).mono fun s s' => weaker s.1 s'.1
  closing record := (changes.closing record).mono weaker
  replacing key bytes := (changes.replacing key bytes).mono weaker
  overwriting key pos bytes := (changes.overwriting key pos bytes).mono weaker
  deleting name isLink := (changes.deleting name isLink).mono weaker
  listing := changes.listing.mono weaker

theorem respects_writeLink (key : Key) (link : Link) :
    Respects frame (writeLink key link : Action σ Unit) :=
  changes.replacing key _

theorem respects_patch (key : Key) (field : Link.Field) (value : Key) :
    Respects frame (patch key field value : Action σ Unit) :=
  respects_orDangling_of (changes.overwriting key _ _)

theorem respects_deleteLink (key : Key) :
    Respects frame (Device.delete (linkName key) : Action σ Unit) := by
  refine changes.deleting _ ?_
  simp [RecordName.isLink, linkName]

theorem respects_detach (link : Link) : Respects frame (detach link : Action σ Unit) :=
  (changes.respects_patch _ _ _).bind fun _ => changes.respects_patch _ _ _

theorem respects_writeAnchors : Respects frame (writeAnchors : Action σ Unit) :=
  (changes.respects_writeLink _ _).bind fun _ => changes.respects_writeLink _ _

theorem respects_setUp : Respects frame (setUp : Action σ Unit) := by
  have asking (key : Key) := changes.respects_contains key
  refine (asking .head).bind fun _ => (asking .tail).bind fun _ => ?_
  exact .ite (fun _ => .pure ()) fun _ => changes.respects_writeAnchors

theorem respects_clear : Respects frame (clear : Action σ Unit) := by
  refine changes.listing.bind fun listed => ?_
  refine (respects_deleteAll_of fun name member => ?_).bind fun _ => changes.respects_writeAnchors
  exact changes.deleting name (List.mem_filter.1 member).2

theorem respects_linkInFront (key first : Key) :
    Respects frame (linkInFront key first : Action σ Unit) :=
  (changes.respects_writeLink _ _).bind fun _ => changes.respects_patch _ _ _

theorem respects_insert (key : Key) : Respects frame (insert key : Action σ Unit) := by
  refine (respects_ofExcept _).bind fun _ => (changes.respects_contains key).bind fun _ => ?_
  refine .ite (fun _ => .throw_bind _ _) fun _ => ?_
  refine (changes.respects_neighbours .head).bind fun _ => ?_
  refine (respects_orCleanUp (changes.respects_linkInFront _ _)
    (changes.respects_deleteLink key)).bind fun _ => ?_
  exact changes.respects_patch _ _ _

theorem respects_remove (key : Key) : Respects frame (remove key : Action σ Unit) := by
  refine (respects_ofExcept _).bind fun _ => (changes.respects_readLink key).bind fun link => ?_
  exact (changes.respects_detach link).bind fun _ => changes.respects_deleteLink key

theorem respects_promote (key : Key) : Respects frame (promote key : Action σ Bool) := by
  refine (respects_ofExcept _).bind fun _ => (changes.respects_readLink key).bind fun link => ?_
  refine .ite (fun _ => .pure false) fun _ => (changes.respects_detach link).bind fun _ => ?_
  refine (changes.respects_neighbours .head).bind fun _ => ?_
  refine (changes.respects_linkInFront _ _).bind fun _ => ?_
  exact (changes.respects_patch _ _ _).bind fun _ => .pure true

theorem respects_evict : Respects frame (evict : Action σ Key) := by
  refine (changes.respects_neighbours .tail).bind fun tail => ?_
  refine .ite (fun _ => .throw_bind _ _) fun _ => .ite (fun _ => .throw_bind _ _) fun _ => ?_
  refine (changes.respects_neighbours tail.prev).bind fun link => ?_
  refine (changes.respects_detach link).bind fun _ => ?_
  exact (changes.respects_deleteLink tail.prev).bind fun _ => .pure tail.prev

end Changes

end GlyphShelf.Ring

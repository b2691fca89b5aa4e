import GlyphShelf.Proofs.Agreement
import GlyphShelf.Proofs.Ring.Guards
import GlyphShelf.Shelf

/-!
# Rings and payloads on devices that agree

What payloads and a ring ask of a device are few kinds of requests, each about the record of one
key, and sweeps through a listing. `Alike` says that two devices answer all of them alike. Then
so do all operations of payloads and of the ring, damaged or not: each reads the same links on
both devices and so takes the same way. Sweeps are requests of their own, because the two devices
may list their records in different orders.

Of the failures that can be told, some come from the device and some from the ring; the latter
are listed by `Raised`.
-/

namespace GlyphShelf

/-- Failures that do not come from a device. -/
inductive Failure.Raised : Failure → Prop
  | reservedKey (key : Key) : Raised (.reservedKey key)
  | alreadyLinked (key : Key) : Raised (.alreadyLinked key)
  | nothingToEvict : Raised .nothingToEvict
  | endOfLink {filled : Nat} (short : filled < Link.size) :
    Raised (.corrupt (.endOfRecord filled Link.size))
  | shortLink {size : Nat} (short : size < Link.size) : Raised (.corrupt (.shortLink size))
  | missingLink (key : Key) : Raised (.corrupt (.missingLink key))
  | unclosedRing (start goal : Key) : Raised (.corrupt (.unclosedRing start goal))
  | lastIsAnchor (key : Key) : Raised (.corrupt (.lastIsAnchor key))

theorem Failure.Raised.of_requireGlyph {key : Key} {e : Failure}
    (refused : key.requireGlyph = .error e) : e.Raised := by
  unfold Key.requireGlyph at refused
  split at refused
  · cases refused
    exact .reservedKey key
  · cases refused

variable {σ η τ θ : Type} [Device σ η] [Device τ θ] {l : Likeness σ η τ θ} {room : Nat}

open Comparison

/-- Two devices answer alike whatever payloads of limited size, links and a ring ask of them. -/
structure Alike (l : Likeness σ η τ θ) (room : Nat) : Prop where
  opening : ∀ name : RecordName, l.Agrees l.told l.records
    (Device.openRecord name.text .readOnly : Action σ η)
    (Device.openRecord name.text .readOnly : Action τ θ)
  reading : ∀ count ≤ Device.chunkSize, l.opened.Agrees l.told Same
    (Device.read count : Action (σ × η) Bytes) (Device.read count : Action (τ × θ) Bytes)
  sizing : ∀ {h : η} {k : θ} {s t}, l.agree s t → l.records h k s t →
    Device.size s h = Device.size t k
  closing : l.Closing
  replacing : ∀ (name : RecordName) bytes, bytes.length ≤ room → l.Agrees l.told Same
    (Device.withRecord name.text .truncate (Device.write bytes) : Action σ Unit)
    (Device.withRecord name.text .truncate (Device.write bytes) : Action τ Unit)
  overwriting : ∀ (key : Key) (field : Link.Field) (value : Key), l.Agrees l.told Same
    (Device.withRecord (Ring.linkName key) .readWrite do
      Device.seek field.offset
      Device.write value.encode : Action σ Unit)
    (Device.withRecord (Ring.linkName key) .readWrite do
      Device.seek field.offset
      Device.write value.encode : Action τ Unit)
  deleting : ∀ name : RecordName, l.Agrees l.told Same
    (Device.delete name.text : Action σ Unit) (Device.delete name.text : Action τ Unit)
  listing : l.Agrees l.told (fun names names' _ _ => l.listings names names')
    (Device.list : Action σ (List String)) (Device.list : Action τ (List String))
  /-- Payloads are swept key by key. -/
  sweepingPayloads : ∀ names names', l.listings names names' → l.Agrees l.told Same
    (Shelf.deletePayloads (names.filterMap RecordName.glyph?) : Action σ Unit)
    (Shelf.deletePayloads (names'.filterMap RecordName.glyph?) : Action τ Unit)
  /-- Links are swept name by name. -/
  sweepingLinks : ∀ names names', l.listings names names' → l.Agrees l.told Same
    (Ring.deleteAll (names.filter RecordName.isLink) : Action σ Unit)
    (Ring.deleteAll (names'.filter RecordName.isLink) : Action τ Unit)
  raising : ∀ e, e.Raised → l.told e e
  /-- The records of a ring are not larger than payloads may be. -/
  roomy : Link.size ≤ room

namespace Alike

variable (alike : Alike l room)

include alike

/-! ## Payloads -/

theorem agrees_requireGlyph (key : Key) : l.Agrees l.told Same
    (Action.ofExcept key.requireGlyph : Action σ Unit)
    (Action.ofExcept key.requireGlyph : Action τ Unit) :=
  agrees_ofExcept fun _ refused => alike.raising _ (.of_requireGlyph refused)

theorem agrees_openPayload (key : Key) : l.Agrees l.told l.records
    (Payloads.openPayload key : Action σ η) (Payloads.openPayload key : Action τ θ) :=
  (alike.agrees_requireGlyph key).bind fun _ => alike.opening (.payload key)

theorem agrees_write (key : Key) {bytes : Bytes} (fits : bytes.length ≤ room) :
    l.Agrees l.told Same (Payloads.write key bytes : Action σ Unit)
      (Payloads.write key bytes : Action τ Unit) :=
  (alike.agrees_requireGlyph key).bind fun _ => alike.replacing (.payload key) bytes fits

theorem agreesFrom_takeAll {h : η} {k : θ} {s : σ} {t : τ} (agree : l.agree s t)
    (related : l.records h k s t) :
    l.AgreesFrom l.told Same (Device.takeAll h : Action σ Bytes)
      (Device.takeAll k : Action τ Bytes) s t :=
  Likeness.agrees_takeAll
    (Likeness.agrees_readToEnd (alike.reading _ (Nat.le_refl _)) alike.sizing) alike.closing agree
    related

theorem agrees_read (key : Key) : l.Agrees l.told Same
    (Payloads.read key : Action σ Bytes) (Payloads.read key : Action τ Bytes) :=
  (alike.agrees_openPayload key).bindRelated fun _ _ _ _ => alike.agreesFrom_takeAll

theorem agrees_delete (key : Key) : l.Agrees l.told Same
    (Payloads.delete key : Action σ Unit) (Payloads.delete key : Action τ Unit) :=
  (alike.agrees_requireGlyph key).bind fun _ => alike.deleting (.payload key)

/-! ## Single links -/

theorem agrees_hasLink (key : Key) : l.Agrees l.told Same
    (Ring.contains key : Action σ Bool) (Ring.contains key : Action τ Bool) :=
  Likeness.agrees_hasRecord (alike.opening (.link key)) alike.closing

theorem agrees_readLink (key : Key) : l.Agrees l.told Same
    (Ring.readLink key : Action σ Link) (Ring.readLink key : Action τ Link) := by
  have reading : ∀ count ≤ Link.size, l.opened.Agrees l.told Same
      (Device.read count : Action (σ × η) Bytes) (Device.read count : Action (τ × θ) Bytes) :=
    fun count small => alike.reading count (Nat.le_trans small (by decide))
  have exact : l.opened.Agrees l.told Same (Device.readExact Link.size : Action (σ × η) Bytes)
      (Device.readExact Link.size : Action (τ × θ) Bytes) :=
    Likeness.agrees_readUpTo reading (fun _ short => alike.raising _ (.endOfLink short)) _ _
  refine .bind (Likeness.agrees_withRecord (alike.opening (.link key)) ?_ alike.closing) ?_
  · intro h k s t agree related
    exact exact (s, h) (t, k) ⟨agree, related⟩
  · intro bytes
    refine agrees_ofExcept fun e failed => ?_
    match bytes, failed with
    | [], failed | [_], failed | [_, _], failed | [_, _, _], failed =>
      cases failed
      exact alike.raising _ (.shortLink (by simp [Link.size]))

theorem agrees_writeLink (key : Key) (link : Link) : l.Agrees l.told Same
    (Ring.writeLink key link : Action σ Unit) (Ring.writeLink key link : Action τ Unit) :=
  alike.replacing (.link key) link.encode alike.roomy

omit [Device σ η] [Device τ θ] alike in
theorem agrees_orDangling {α β : Type} {key : Key} {values : α → β → σ → τ → Prop}
    {act : Action σ α} {act' : Action τ β}
    (raising : l.told (.corrupt (.missingLink key)) (.corrupt (.missingLink key)))
    (agrees : l.Agrees l.told values act act') :
    l.Agrees l.told values (Ring.orDangling key act) (Ring.orDangling key act') := by
  intro s t agree
  obtain ⟨_, _, s', t', run, run', agree', lasted, matched⟩ := agrees s t agree
  refine ⟨_, _, s', t', Ring.runs_orDangling_mapError run, Ring.runs_orDangling_mapError run',
    agree', lasted, ?_⟩
  cases matched with
  | ok related => exact .ok related
  | @error e e' related =>
    by_cases absent : e = .notFound
    · obtain rfl := (l.absence related).1 absent
      subst absent
      exact .error raising
    · have present' : e' ≠ .notFound := fun absent' => absent ((l.absence related).2 absent')
      show Matched l.told _ (.error (Ring.dangling key e)) (.error (Ring.dangling key e'))
      rw [Ring.dangling_of_present absent, Ring.dangling_of_present present']
      exact .error related

theorem agrees_neighbours (key : Key) : l.Agrees l.told Same
    (Ring.neighbours key : Action σ Link) (Ring.neighbours key : Action τ Link) :=
  agrees_orDangling (alike.raising _ (.missingLink key)) (alike.agrees_readLink key)

theorem agrees_patch (key : Key) (field : Link.Field) (value : Key) : l.Agrees l.told Same
    (Ring.patch key field value : Action σ Unit) (Ring.patch key field value : Action τ Unit) :=
  agrees_orDangling (alike.raising _ (.missingLink key)) (alike.overwriting key field value)

theorem agrees_detach (link : Link) : l.Agrees l.told Same
    (Ring.detach link : Action σ Unit) (Ring.detach link : Action τ Unit) :=
  (alike.agrees_patch _ _ _).bind fun _ => alike.agrees_patch _ _ _

theorem agrees_deleteLink (key : Key) : l.Agrees l.told Same
    (Device.delete (Ring.linkName key) : Action σ Unit)
    (Device.delete (Ring.linkName key) : Action τ Unit) :=
  alike.deleting (.link key)

/-! ## Setting up -/

theorem agrees_writeAnchors : l.Agrees l.told Same
    (Ring.writeAnchors : Action σ Unit) (Ring.writeAnchors : Action τ Unit) :=
  (alike.agrees_writeLink _ _).bind fun _ => alike.agrees_writeLink _ _

theorem agrees_setUp : l.Agrees l.told Same
    (Ring.setUp : Action σ Unit) (Ring.setUp : Action τ Unit) := by
  refine (alike.agrees_hasLink .head).bind fun _ => (alike.agrees_hasLink .tail).bind fun _ => ?_
  exact .ite (fun _ => .pure ()) fun _ => alike.agrees_writeAnchors

theorem agrees_clear : l.Agrees l.told Same
    (Ring.clear : Action σ Unit) (Ring.clear : Action τ Unit) := by
  refine alike.listing.bindRelated fun names names' s t agree same => ?_
  refine Agrees.bind (alike.sweepingLinks names names' same) (fun _ => ?_) s t agree
  exact alike.agrees_writeAnchors

/-! ## Changing the order -/

theorem agrees_linkInFront (key first : Key) : l.Agrees l.told Same
    (Ring.linkInFront key first : Action σ Unit) (Ring.linkInFront key first : Action τ Unit) :=
  (alike.agrees_writeLink _ _).bind fun _ => alike.agrees_patch _ _ _

theorem agrees_insert (key : Key) : l.Agrees l.told Same
    (Ring.insert key : Action σ Unit) (Ring.insert key : Action τ Unit) := by
  refine (alike.agrees_requireGlyph key).bind fun _ => (alike.agrees_hasLink key).bind fun _ => ?_
  refine .ite (fun _ => .throw_bind (alike.raising _ (.alreadyLinked key))) fun _ => ?_
  refine (alike.agrees_neighbours .head).bind fun _ => ?_
  refine Agrees.bind (agrees_orCleanUp (alike.agrees_linkInFront _ _) (alike.agrees_deleteLink key))
    fun _ => ?_
  exact alike.agrees_patch _ _ _

theorem agrees_promote (key : Key) : l.Agrees l.told Same
    (Ring.promote key : Action σ Bool) (Ring.promote key : Action τ Bool) := by
  refine (alike.agrees_requireGlyph key).bind fun _ => ?_
  refine (alike.agrees_readLink key).bind fun link => ?_
  refine .ite (fun _ => .pure false) fun _ => (alike.agrees_detach link).bind fun _ => ?_
  refine (alike.agrees_neighbours .head).bind fun _ => ?_
  refine (alike.agrees_linkInFront _ _).bind fun _ => ?_
  exact (alike.agrees_patch _ _ _).bind fun _ => .pure true

theorem agrees_evict : l.Agrees l.told Same
    (Ring.evict : Action σ Key) (Ring.evict : Action τ Key) := by
  refine (alike.agrees_neighbours .tail).bind fun tail => ?_
  refine .ite (fun _ => .throw_bind (alike.raising _ .nothingToEvict)) fun _ => ?_
  refine .ite (fun _ => .throw_bind (alike.raising _ (.lastIsAnchor tail.prev))) fun _ => ?_
  refine (alike.agrees_neighbours tail.prev).bind fun link => (alike.agrees_detach link).bind
    fun _ => ?_
  exact (alike.agrees_deleteLink tail.prev).bind fun _ => .pure tail.prev

/-! ## Looking at the order -/

theorem agrees_follow (start goal : Key) (field : Link.Field) (steps : Nat) (passed : List Key)
    (key : Key) : l.Agrees l.told Same
      (Ring.follow start goal field steps passed key : Action σ (List Key))
      (Ring.follow start goal field steps passed key : Action τ (List Key)) := by
  have raised := alike.raising _ (.unclosedRing start goal)
  induction steps generalizing passed key with
  | zero =>
    unfold Ring.follow
    exact .ite (fun _ => .pure _) fun _ => .throw raised
  | succ steps ih =>
    unfold Ring.follow
    refine .ite (fun _ => .pure _) fun _ => .ite (fun _ => .throw raised) fun _ => ?_
    exact (alike.agrees_neighbours key).bind fun _ => ih _ _

theorem agrees_walk : l.Agrees l.told Same
    (Ring.walk : Action σ (List Key)) (Ring.walk : Action τ (List Key)) :=
  (alike.agrees_neighbours .head).bind fun _ => alike.agrees_follow _ _ _ _ _ _

theorem agrees_walkBack : l.Agrees l.told Same
    (Ring.walkBack : Action σ (List Key)) (Ring.walkBack : Action τ (List Key)) :=
  (alike.agrees_neighbours .tail).bind fun _ => alike.agrees_follow _ _ _ _ _ _

section

variable {found : Breach → Breach → Prop}
variable (failing : ∀ e e', l.told e e' → found (.failed e) (.failed e'))
variable (finding : ∀ breach, found breach breach)

include failing finding

theorem agrees_checkBackLinks (before : Key) (keys : List Key) : l.Agrees found Same
    (Ring.checkBackLinks before keys : Examination σ Unit)
    (Ring.checkBackLinks before keys : Examination τ Unit) := by
  induction keys generalizing before with
  | nil => exact .pure ()
  | cons key keys ih =>
    refine Agrees.bind (agrees_ofAction failing (alike.agrees_neighbours key)) fun _ => ?_
    exact .ite (fun _ => ih key) fun _ => .throw (finding _)

theorem agrees_check : l.Agrees found Same
    (Ring.check : Examination σ Unit) (Ring.check : Examination τ Unit) := by
  refine Agrees.bind (agrees_ofAction failing alike.agrees_walk) fun _ => ?_
  refine (alike.agrees_checkBackLinks failing finding _ _).bind fun _ => ?_
  refine Agrees.bind (agrees_ofAction failing alike.agrees_walkBack) fun _ => ?_
  exact .ite (fun _ => .pure ()) fun _ => .throw (finding _)

end

end Alike

end GlyphShelf

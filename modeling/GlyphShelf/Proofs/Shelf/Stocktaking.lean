import GlyphShelf.Proofs.Ring.Quota
import GlyphShelf.Proofs.Shelf.Integrity
import GlyphShelf.Proofs.Shelf.Inventory
import GlyphShelf.Proofs.Shelf.Recovery

/-!
# Inventories on a device

What the steps of a shelf do to a solvent device that holds an inventory, beside whatever else.
Promoting, dropping and wiping succeed however full the device is, because they never take more
space than was charged before. Storing a glyph may find no room: then the glyph has no payload
any more, and nothing else has changed.
-/

namespace GlyphShelf.Shelf

open Payloads

variable {m m' m₁ : Memory} {s : Memory × Shelf} {shelf : Shelf} {inventory : Inventory}
variable {key victim : Key} {bytes : Bytes} {linked front : List Key} {count capacity : Nat}
variable {table : Ring.Table} {value : Option Bytes} {payload : Key → Option Bytes} {α : Type}

/-! ## Devices with an inventory -/

/-- The device is solvent and holds the ring of the inventory and the payloads of its glyphs. It
may hold other records. -/
structure Holds (m : Memory) (inventory : Inventory) : Prop where
  ring : Ring.Holds m.get? inventory.linked
  payload : ∀ key, ¬ key.IsAnchor → m.get? (payloadName key) = inventory.payload key
  solvent : m.Solvent

namespace Holds

variable (holds : Holds m inventory)
include holds

theorem shows : Ring.Shows m.get? (Ring.linksOf m.get?) := holds.ring.shows

theorem isRing : Ring.IsRing (Ring.linksOf m.get?) inventory.linked := holds.ring.isRing

theorem spend (count : Nat) : Holds (m.spend count) inventory where
  ring := holds.ring
  payload := holds.payload
  solvent := holds.solvent.spend count

/-- A change of the order leaves the payloads. -/
theorem relinked (relinks : Ring.Relinks m count table m')
    (ring : Ring.IsRing table linked) (solvent : m'.Solvent) :
    Holds m' { inventory with linked } where
  ring := Ring.holds_of_shows relinks.shows ring
  payload other glyph := by
    rw [relinks.get?, Ring.withLinks_of_other (linkKey?_payloadName other)]
    exact holds.payload other glyph
  solvent := solvent

/-- A change of a payload leaves the ring. -/
theorem setPayload (get : m'.get? = Function.update m.get? (payloadName key) value)
    (solvent : m'.Solvent) : Holds m' (inventory.setPayload key value) where
  ring := by
    apply holds.ring.congr
    intro other
    rw [get, Function.update_of_ne (linkName_ne_payloadName other key)]
  payload other glyph := by
    rw [get, Inventory.payload_setPayload]
    by_cases same : other = key
    · rw [same, Function.update_self, Function.update_self]
    · rw [Function.update_of_ne (payloadName_ne same), Function.update_of_ne same]
      exact holds.payload other glyph
  solvent := solvent

/-- Promotion changes the ring alone; who has a payload open keeps it. -/
theorem runs_promote (member : key ∈ inventory.linked) :
    ∃ moved m', Runs (Ring.promote key) m (.ok moved) m' ∧ Holds m' (inventory.toFront key) ∧
      ∀ other, m'.cabinet.ref? (payloadName other) = m.cabinet.ref? (payloadName other) := by
  obtain ⟨moved, m', table, run, relinks, ring, solvent⟩ :=
    Ring.runs_promote_of_solvent holds.shows holds.solvent holds.isRing member
  refine ⟨moved, m', run, holds.relinked relinks ring solvent, ?_⟩
  intro other
  exact relinks.ref? _ (linkKey?_payloadName other)

/-- If the payload fits it is stored whole. -/
theorem runs_storePayload (glyph : ¬ key.IsAnchor)
    (fits : m.Fits (Function.update m.get? (payloadName key) (some bytes))) :
    ∃ m' count, Runs (storePayload key bytes) m (.ok (decide (key ∈ inventory.linked))) m' ∧
      m.Sets count (payloadName key) (some bytes) m' ∧ m'.Solvent := by
  obtain ⟨m₁, replacing, sets, solvent⟩ :=
    Memory.runs_replace_of_fits holds.solvent (payloadName key) bytes fits
  have writing : Runs (Payloads.write key bytes) m (.ok ()) m₁ := by
    rwa [Payloads.write, Action.requireGlyph_bind glyph]
  have shows := shows_of_sets holds.shows sets
  by_cases member : key ∈ inventory.linked
  · obtain ⟨link, found⟩ := holds.isRing.exists_link key (.inr member)
    have looking := Ring.runs_contains_of_linked shows (solvent.allows 2) found
    rw [decide_eq_true member]
    exact ⟨_, _, Action.runs_orCleanUp (writing.bind looking), sets.spend 2, solvent.spend 2⟩
  · have absent := holds.isRing.eq_none glyph member
    have looking := Ring.runs_contains_of_unlinked shows (solvent.allows 1) absent
    rw [decide_eq_false member]
    exact ⟨_, _, Action.runs_orCleanUp (writing.bind looking), sets.spend 1, solvent.spend 1⟩

end Holds

/-- If it does not, the glyph has no payload any more. -/
theorem runs_storePayload_of_unfit (solvent : m.Solvent) (glyph : ¬ key.IsAnchor)
    (unfit : ¬ m.Fits (Function.update m.get? (payloadName key) (some bytes))) :
    ∃ m', Runs (storePayload key bytes) m (.error .outOfSpace) m' ∧
      m.Sets 4 (payloadName key) none m' ∧ m'.Solvent := by
  obtain ⟨m₁, replacing, emptied, solvent₁⟩ :=
    Memory.runs_replace_of_unfit solvent (payloadName key) bytes unfit
  obtain ⟨deleted, m₂, deleting, gone, solvent₂⟩ :=
    Memory.runs_delete_solvent solvent₁ (payloadName key)
  have writing : Runs (Payloads.write key bytes) m (.error .outOfSpace) m₁ := by
    rwa [Payloads.write, Action.requireGlyph_bind glyph]
  have cleaning : Runs (Payloads.delete key) m₁ deleted m₂ := by
    rwa [Payloads.delete, Action.requireGlyph_bind glyph]
  exact ⟨m₂, Action.runs_orCleanUp_of_error writing.bind_error cleaning, emptied.trans gone,
    solvent₂⟩

/-! ## Wiping -/

theorem affords_deletePayloads {limit : Option Nat} {most : String → Option Bytes}
    (keys : List Key) :
    Affords (Ring.Under limit most) (deletePayloads keys : Action Memory Unit) := by
  induction keys with
  | nil => exact .pure ()
  | cons key keys ih =>
    refine .bind ?_ fun _ => ih
    by_cases anchor : key.IsAnchor
    · intro m a free under run
      rcases Action.allowAbsence_cases run with deleted | absent
      · cases (deleted.deterministic (Action.refuses_anchor anchor _ _)).1
      · cases (absent.deterministic (Action.refuses_anchor anchor _ _)).1
    · rw [Payloads.delete, Action.requireGlyph_bind anchor]
      exact Ring.affords_discard (payloadName key)

/-- Wiping deletes the anchors before it stores them anew. -/
theorem affords_wipe {limit : Option Nat} {most : String → Option Bytes}
    (finite : (Function.support fun name => Memory.extent (most name)).Finite)
    (fits : ∀ quota, limit = some quota → Memory.load most ≤ quota)
    (head : Link.size ≤ Memory.extent (most (Ring.linkName .head)))
    (tail : Link.size ≤ Memory.extent (most (Ring.linkName .tail))) :
    Affords (Ring.Under limit most) (wipe : Action Memory Unit) := by
  refine (Ring.affords_list.bind fun names => .pure _).bind fun keys => ?_
  exact (affords_deletePayloads keys).bind fun _ => Ring.affords_clear finite fits head tail

/-- What a wipe leaves is nothing but the ring without keys, as far as the inventory goes. -/
theorem holds_of_wiped (get : m'.get? = wiped m.get?) (solvent : m'.Solvent) :
    Holds m' .empty where
  ring := by
    rw [get]
    exact holds_wiped m.get?
  payload key glyph := by
    rw [get, wiped, Ring.withLinks_of_other (linkKey?_payloadName key),
      isPayload_iff.2 ⟨key, glyph, rfl⟩, Bool.or_true, if_pos rfl]
    rfl
  solvent := solvent

theorem Holds.runs_wipe (holds : Holds m inventory) :
    ∃ m', Runs wipe m (.ok ()) m' ∧ Holds m' .empty := by
  have anchored (anchor : Key) (isAnchor : anchor.IsAnchor) :
      Link.size ≤ Memory.extent (m.get? (Ring.linkName anchor)) := by
    obtain ⟨link, found⟩ := holds.isRing.exists_link anchor (.inl isAnchor)
    rw [Ring.get?_of_linked holds.shows found]
    exact Nat.le_refl _
  obtain ⟨free, count, run, -, -⟩ := Shelf.runs_wipe (m := m.unbound) rfl rfl
  obtain ⟨m', run', -, under⟩ := affords_wipe (Memory.finite_support m) holds.solvent.fits
    (anchored .head (.inl rfl)) (anchored .tail (.inr rfl)) m () free
    (Ring.under_of_shows holds.shows holds.solvent) run
  exact ⟨m', run', holds_of_wiped (get?_of_wipe run') under.solvent⟩

/-! ## Shelves with an inventory -/

/-- The device holds the inventory, and the shelf counts its keys. -/
structure Serves (s : Memory × Shelf) (inventory : Inventory) : Prop where
  holds : Holds s.1 inventory
  counted : s.2.size = inventory.linked.length

theorem Serves.spend (serves : Serves (m, shelf) inventory) (count : Nat) :
    Serves (m.spend count, shelf) inventory where
  holds := serves.holds.spend count
  counted := serves.counted

theorem Serves.record (serves : Serves (m, shelf) inventory) (event : Tally.Event) :
    Serves (m, shelf.record event) inventory where
  holds := serves.holds
  counted := serves.counted

/-! ## Dropping -/

theorem runs_dropOldest_of_serves (serves : Serves (m, shelf) ⟨front ++ [victim], payload⟩) :
    ∃ m', Runs dropOldest (m, shelf) (.ok ()) (m', shelf.afterDrop) ∧
      Serves (m', shelf.afterDrop) ⟨front, Function.update payload victim none⟩ := by
  have holds := serves.holds
  have glyph : ¬ victim.IsAnchor := holds.ring.glyphs victim (by simp)
  obtain ⟨m₁, table, evicting, relinks, ring, solvent₁⟩ :=
    Ring.runs_evict_of_solvent holds.shows holds.solvent holds.isRing
  have holds₁ := holds.relinked relinks ring solvent₁
  obtain ⟨m', deleting, sets, solvent'⟩ :=
    Memory.runs_discard_solvent solvent₁ (payloadName victim)
  have dropping : Runs (Action.allowAbsence (Payloads.delete victim)) m₁ (.ok ()) m' := by
    rwa [Payloads.delete, Action.requireGlyph_bind glyph]
  refine ⟨m', runs_dropOldest_of_deleting evicting dropping shelf,
    holds₁.setPayload sets.get? solvent', ?_⟩
  change shelf.size - 1 = front.length
  rw [show shelf.size = _ from serves.counted, List.length_append, List.length_singleton,
    Nat.add_sub_cancel]

/-- Some of the keys of an inventory are left. What is dropped from them is what is dropped from the
inventory. -/
def ServesFirst (inventory : Inventory) (s : Memory × Shelf) (kept : List Key) : Prop :=
  ∃ payload, Serves s ⟨kept, payload⟩ ∧
    Inventory.keep s.2.capacity ⟨kept, payload⟩ = inventory.keep s.2.capacity

theorem runs_dropOldest_of_servesFirst (beyond : s.2.capacity ≤ front.length)
    (first : ServesFirst inventory s (front ++ [victim])) :
    ∃ s', Runs dropOldest s (.ok ()) s' ∧ ServesFirst inventory s' front ∧
      s'.2.capacity = s.2.capacity := by
  obtain ⟨payload, serves, same⟩ := first
  obtain ⟨m₁, dropping, serves₁⟩ := runs_dropOldest_of_serves serves
  exact ⟨_, dropping, ⟨_, serves₁, (Inventory.keep_front beyond).trans same⟩, rfl⟩

theorem runs_reconcile_of_serves (serves : Serves (m, shelf) inventory) :
    ∃ m' shelf', Runs reconcile (m, shelf)
        (.ok (inventory.keep shelf.capacity).linked.length) (m', shelf') ∧
      Serves (m', shelf') (inventory.keep shelf.capacity) ∧ shelf'.capacity = shelf.capacity := by
  obtain ⟨⟨m', shelf'⟩, reconciling, ⟨payload, serves', kept⟩, same⟩ :=
    runs_reconcile_of_steps (ServesFirst inventory) (fun _ _ ⟨_, serves, _⟩ => serves.counted)
      (fun _ _ _ beyond first => runs_dropOldest_of_servesFirst beyond first)
      ⟨inventory.payload, serves, rfl⟩
  refine ⟨m', shelf', reconciling, ?_, same⟩
  have fits : (inventory.linked.take shelf.capacity).length ≤ shelf'.capacity := by
    rw [show shelf'.capacity = shelf.capacity from same, List.length_take]
    exact Nat.min_le_left _ _
  rw [← show shelf'.capacity = shelf.capacity from same, ← kept, Inventory.keep_of_fits fits]
  exact serves'

/-! ## Storing -/

/-- An action that finds no room finds none because of a quota. -/
theorem limited_of_unfit {records : String → Option Bytes} (unfit : ¬ m.Fits records) :
    m.quota ≠ none := by
  intro unlimited
  exact unfit (Memory.fits_of_unlimited unlimited records)

/-- The glyph is not stored: it has no payload any more, and nothing else has changed. -/
def Declined (key : Key) (bytes : Bytes) (m : Memory) (shelf : Shelf) : Prop :=
  m.quota ≠ none ∧ ∃ m', Runs (bringIn key bytes) (m, shelf) (.error .outOfSpace) (m', shelf) ∧
    m'.get? = Function.update m.get? (payloadName key) none ∧ m'.Solvent

section

variable (serves : Serves (m, shelf) inventory) (glyph : ¬ key.IsAnchor)
include serves glyph

theorem runs_bringIn_of_member (member : key ∈ inventory.linked)
    (fits : m.Fits (Function.update m.get? (payloadName key) (some bytes))) :
    ∃ m', Runs (bringIn key bytes) (m, shelf) (.ok ()) (m', shelf.record .update) ∧
      Serves (m', shelf.record .update)
        ((inventory.setPayload key (some bytes)).toFront key) := by
  obtain ⟨m₁, count, storing, sets, solvent₁⟩ := serves.holds.runs_storePayload glyph fits
  rw [decide_eq_true member] at storing
  have holds₁ := serves.holds.setPayload sets.get? solvent₁
  obtain ⟨moved, m₂, promoting, holds₂, -⟩ := holds₁.runs_promote member
  have length := Inventory.length_toFront_of_member member
  exact ⟨m₂, runs_bringIn_of_stored glyph storing (runs_enter_of_promoted promoting shelf),
    holds₂, serves.counted.trans length.symm⟩

/-- A new glyph needs room for its link too; without it the payload is taken back. -/
theorem runs_bringIn_of_unlinked (fresh : key ∉ inventory.linked)
    (fits : m.Fits (Function.update m.get? (payloadName key) (some bytes))) :
    (∃ m', Runs (bringIn key bytes) (m, shelf) (.ok ()) (m', shelf.afterInsert) ∧
      Serves (m', shelf.afterInsert)
        ((inventory.setPayload key (some bytes)).toFront key)) ∨
    Declined key bytes m shelf := by
  have holds := serves.holds
  obtain ⟨m₁, count, storing, sets, solvent₁⟩ := holds.runs_storePayload glyph fits
  rw [decide_eq_false fresh] at storing
  have holds₁ := holds.setPayload sets.get? solvent₁
  by_cases room : m₁.Fits (Function.update m₁.get? (Ring.linkName key)
      (some (Link.encode ⟨.head, .tail⟩)))
  · obtain ⟨m₂, table, inserting, relinks, ring, solvent₂⟩ :=
      Ring.runs_insert_of_fits holds₁.shows solvent₁ holds₁.isRing glyph fresh room
    have holds₂ := holds₁.relinked relinks ring solvent₂
    rw [Inventory.linked_setPayload, ← List.erase_of_not_mem fresh] at holds₂
    refine .inl ⟨m₂, runs_bringIn_of_stored glyph storing
      (runs_enter_of_inserted inserting shelf), holds₂, ?_⟩
    rw [Inventory.linked_toFront, List.length_cons, Inventory.linked_setPayload,
      List.erase_of_not_mem fresh]
    exact congrArg (· + 1) serves.counted
  · obtain ⟨m₂, inserting, unlinked, solvent₂⟩ :=
      Ring.runs_insert_of_unfit holds₁.shows solvent₁ holds₁.isRing glyph fresh room
    obtain ⟨deleted, m₃, deleting, gone, solvent₃⟩ :=
      Memory.runs_delete_solvent solvent₂ (payloadName key)
    have cleaning : Runs (Payloads.delete key) m₂ deleted m₃ := by
      rwa [Payloads.delete, Action.requireGlyph_bind glyph]
    have apart := linkName_ne_payloadName key key
    have absent : Function.update m.get? (payloadName key) none (Ring.linkName key) = none := by
      rw [Function.update_of_ne apart]
      exact Ring.get?_of_unlinked holds.shows (holds.isRing.eq_none glyph fresh)
    refine .inr ⟨sets.quota ▸ limited_of_unfit room, m₃, runs_bringIn_of_stored glyph storing
      (runs_enter_of_failed inserting cleaning shelf), ?_, solvent₃⟩
    rw [gone.get?, unlinked.get?, sets.get?, Function.update_comm apart, Function.update_idem]
    exact Function.update_eq_self_iff.2 absent.symm

theorem runs_bringIn (bytes : Bytes) :
    (∃ s', Runs (bringIn key bytes) (m, shelf) (.ok ()) s' ∧
      Serves s' ((inventory.setPayload key (some bytes)).toFront key) ∧
      s'.2.capacity = shelf.capacity) ∨ Declined key bytes m shelf := by
  by_cases fits : m.Fits (Function.update m.get? (payloadName key) (some bytes))
  · by_cases member : key ∈ inventory.linked
    · obtain ⟨m', run, serves'⟩ := runs_bringIn_of_member serves glyph member fits
      exact .inl ⟨_, run, serves', rfl⟩
    · rcases runs_bringIn_of_unlinked serves glyph member fits with ⟨m', run, serves'⟩ | declined
      · exact .inl ⟨_, run, serves', rfl⟩
      · exact .inr declined
  · obtain ⟨m₁, storing, sets, solvent₁⟩ :=
      runs_storePayload_of_unfit serves.holds.solvent glyph fits
    refine .inr ⟨limited_of_unfit fits, m₁, ?_, sets.get?, solvent₁⟩
    rw [bringIn, Action.requireGlyph_bind glyph]
    exact (Action.runs_onFirst storing shelf).bind_error

end

end GlyphShelf.Shelf

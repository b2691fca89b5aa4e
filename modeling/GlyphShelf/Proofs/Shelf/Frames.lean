import Mathlib.Order.BooleanAlgebra.Set
import GlyphShelf.Proofs.Payloads
import GlyphShelf.Proofs.Ring.Frames
import GlyphShelf.Proofs.Shelf.Guards

/-!
# What a shelf leaves alone

Links and payloads lie side by side, and a damaged ring may name any key. The main statement is
that neither can harm the other: operations of the ring change links only, an operation on a
payload changes that payload only, and storing a glyph takes away the payloads of those keys
alone that it evicted. It holds on every device, whatever it holds and wherever it fails.
-/

namespace GlyphShelf.Shelf

open Memory (within shedding)
open Payloads GlyphShelf.Ring

variable {frame : FrameCondition Memory} {names : Set String} {key other : Key} {bytes : Bytes}
variable {s : Memory × Shelf} {α : Type}

/-! ## Reading and looking -/

theorem respects_get (key : Key) :
    Respects (within links).onFirst (get key : Action (Memory × Shelf) Bytes) :=
  respects_use (Payloads.respects_read key) (Ring.respects_promote key)

theorem respects_openEntry (key : Key) :
    Respects (within links).onFirst (openEntry key : Action (Memory × Shelf) Memory.Handle) :=
  respects_use (Payloads.respects_openPayload key) (Ring.respects_promote key)

theorem respects_contains (key : Key) :
    Respects (within names).onFirst (contains key : Action (Memory × Shelf) Bool) :=
  respects_contains_of_looks (looks_within names) key

theorem respects_keys :
    Respects (within names).onFirst (keys : Action (Memory × Shelf) (List Key)) :=
  respects_keys_of_looks (looks_within names)

theorem respects_check :
    Respects (within names).onFirst (check : Examination (Memory × Shelf) Unit) :=
  respects_check_of_looks (looks_within names)

/-! ## Storing -/

theorem respects_storePayload (key : Key) (bytes : Bytes) :
    Respects (within {payloadName key}) (storePayload key bytes : Action Memory Bool) :=
  respects_orCleanUp
    ((Payloads.respects_write key bytes).bind fun _ => Ring.respects_contains key)
    (Payloads.respects_delete key)

def afterInsert (shelf : Shelf) : Shelf := { shelf with size := shelf.size + 1 }.record .insert

/-- Brings the key of a stored payload to the front of the ring. -/
def enter (key : Key) (linked : Bool) : Action (Memory × Shelf) Unit :=
  if linked then do
    let _ ← Action.onFirst (Ring.promote key)
    tell .update
  else do
    Action.onFirst (Action.orCleanUp (Ring.insert key) (Payloads.delete key))
    fun (m, shelf) => .ok () (m, shelf.afterInsert)

theorem runs_enter_of_promoted {m m' : Memory} {moved : Bool}
    (promoting : Runs (Ring.promote key) m (.ok moved) m') (shelf : Shelf) :
    Runs (enter key true) (m, shelf) (.ok ()) (m', shelf.record .update) :=
  (Action.runs_onFirst promoting shelf).bind rfl

theorem runs_enter_of_inserted {m m' : Memory} (inserting : Runs (Ring.insert key) m (.ok ()) m')
    (shelf : Shelf) : Runs (enter key false) (m, shelf) (.ok ()) (m', shelf.afterInsert) :=
  (Action.runs_onFirst (Action.runs_orCleanUp inserting) shelf).bind rfl

theorem runs_enter_of_failed {m m₁ m' : Memory} {e : Failure} {deleted : Except Failure Unit}
    (inserting : Runs (Ring.insert key) m (.error e) m₁)
    (deleting : Runs (Payloads.delete key) m₁ deleted m') (shelf : Shelf) :
    Runs (enter key false) (m, shelf) (.error e) (m', shelf) :=
  (Action.runs_onFirst (Action.runs_orCleanUp_of_error inserting deleting) shelf).bind_error

/-- The part of storing a glyph that comes before making room. -/
def bringIn (key : Key) (bytes : Bytes) : Action (Memory × Shelf) Unit := do
  Action.ofExcept key.requireGlyph
  let linked ← Action.onFirst (storePayload key bytes)
  enter key linked

theorem runs_bringIn_of_stored {m m' : Memory} {linked : Bool} {shelf : Shelf}
    {result : Except Failure Unit} (glyph : ¬ key.IsAnchor)
    (storing : Runs (storePayload key bytes) m (.ok linked) m')
    (entering : Runs (enter key linked) (m', shelf) result s) :
    Runs (bringIn key bytes) (m, shelf) result s := by
  rw [bringIn, Action.requireGlyph_bind glyph]
  exact (Action.runs_onFirst storing shelf).bind entering

theorem put_eq (key : Key) (bytes : Bytes) :
    (put key bytes : Action (Memory × Shelf) Nat) = (do bringIn key bytes; reconcile) := by
  unfold put bringIn
  rw [bind_assoc]
  congr 1
  funext _
  rw [bind_assoc]
  congr 1
  funext linked
  cases linked with
  | true => exact (bind_assoc _ _ _).symm
  | false => exact (bind_assoc _ _ _).symm

theorem respects_enter (linked : Bool)
    (promoting : Respects frame (Ring.promote key : Action Memory Bool))
    (inserting : Respects frame (Ring.insert key : Action Memory Unit))
    (deleting : Respects frame (Payloads.delete key : Action Memory Unit)) :
    Respects frame.onFirst (enter key linked) := by
  refine .ite (fun _ => ?_) fun _ => ?_
  · exact (respects_onFirst promoting).bind fun _ => respects_tell _
  · exact (respects_onFirst (respects_orCleanUp inserting deleting)).bind
      fun _ s => frame.refl s.1

theorem respects_bringIn (key : Key) (bytes : Bytes) :
    Respects (within (links ∪ {payloadName key})).onFirst
      (bringIn key bytes : Action (Memory × Shelf) Unit) := by
  have paying {β : Type} {act : Action Memory β}
      (respects : Respects (within {payloadName key}) act) :
      Respects (within (links ∪ {payloadName key})) act :=
    Memory.respects_mono respects Set.subset_union_right
  have linking {β : Type} {act : Action Memory β}
      (respects : Respects (within links) act) :
      Respects (within (links ∪ {payloadName key})) act :=
    Memory.respects_mono respects Set.subset_union_left
  refine (respects_ofExcept _).bind fun _ => ?_
  refine (respects_onFirst (paying (respects_storePayload key bytes))).bind fun linked => ?_
  exact respects_enter linked (linking (Ring.respects_promote key))
    (linking (Ring.respects_insert key)) (paying (Payloads.respects_delete key))

/-! ## Making room -/

/-- Apart from links, all but storing can only take records away. -/
theorem guards_shedding : Guards (shedding links) where
  toChanges := changes_within.mono fun _ _ within => within.sheds
  discarding := Payloads.respects_delete_shedding

/-- Making room takes payloads away, and that is all it does to them. -/
theorem respects_reconcile :
    Respects (shedding links).onFirst (reconcile : Action (Memory × Shelf) Nat) :=
  guards_shedding.respects_reconcile

/-- The keys that dropping takes out of the ring, in this order. -/
def victims : (drops : Nat) → Memory × Shelf → List Key
  | 0, _ => []
  | drops + 1, s =>
    if s.2.size ≤ s.2.capacity then []
    else
      match Ring.evict s.1 with
      | .error _ _ => []
      | .ok victim _ => victim ::
        match dropOldest s with
        | .error _ _ => []
        | .ok () s' => victims drops s'

theorem victims_of_evicted {victim : Key} {m₁ : Memory} (drops : Nat)
    (excess : ¬ s.2.size ≤ s.2.capacity) (evicting : Runs Ring.evict s.1 (.ok victim) m₁) :
    victims (drops + 1) s = victim ::
      match dropOldest s with
      | .error _ _ => []
      | .ok () s' => victims drops s' := by
  unfold Runs at evicting
  rw [victims, if_neg excess, evicting]

/-- The frame in which the payload of one key is the only record that stays. -/
def sparing (key : Key) : FrameCondition Memory := within (Set.compl {payloadName key})

theorem sparing_of {act : Action Memory α} (respects : Respects (within names) act)
    (spared : payloadName key ∉ names) : Respects (sparing key) act :=
  Memory.respects_mono respects (Set.subset_compl_singleton_iff.2 spared)

theorem payloadName_not_mem_links (key : Key) : payloadName key ∉ links :=
  not_mem_links (isLink_payloadName key)

theorem payloadName_not_mem (differs : other ≠ key) :
    payloadName other ∉ links ∪ {payloadName key} := by
  rintro (link | named)
  · exact payloadName_not_mem_links other link
  · exact payloadName_ne differs named

theorem dropOldest_spares (spared : ∀ m₁, ¬ Runs Ring.evict s.1 (.ok key) m₁) :
    (sparing key).onFirst.allows s (stateAfter dropOldest s) := by
  have evicting : Respects (sparing key).onFirst (Action.onFirst (τ := Shelf) Ring.evict) :=
    respects_onFirst (sparing_of respects_evict (payloadName_not_mem_links key))
  -- What is deleted next depends on the key that was evicted, so the rule for all keys is too weak.
  refine FrameCondition.allows_bind _ (evicting s) fun victim s₁ run => ?_
  have differs : victim ≠ key := by
    rintro rfl
    exact spared _ run.of_onFirst.1
  have deleting : Respects (sparing key) (Action.allowAbsence (Payloads.delete victim)) :=
    respects_allowAbsence (sparing_of (Payloads.respects_delete victim)
      (payloadName_ne differs.symm))
  exact Respects.bind (fun s => (sparing key).refl s.1) (fun _ => respects_onFirst deleting) s₁

/-- A key that is not evicted keeps its payload. -/
theorem dropExcess_spares (drops : Nat) (spared : key ∉ victims drops s) :
    (sparing key).onFirst.allows s (stateAfter (dropExcess drops) s) := by
  induction drops generalizing s with
  | zero => exact (sparing key).refl s.1
  | succ drops ih =>
    by_cases fits : s.2.size ≤ s.2.capacity
    · have still : Runs (dropExcess (drops + 1)) s (.ok ()) s := dropExcess_of_within _ fits
      rw [still.stateAfter_eq]
      exact (sparing key).refl s.1
    · rw [stateAfter_congr (dropExcess_of_beyond drops fits)]
      refine FrameCondition.allows_bind _ (dropOldest_spares fun m₁ run => ?_) fun _ s₁ run => ?_
      · rw [victims_of_evicted drops fits run] at spared
        exact spared List.mem_cons_self
      · obtain ⟨victim, s₂, evicting, -⟩ := run.bind_ok
        rw [victims_of_evicted drops fits evicting.of_onFirst.1] at spared
        unfold Runs at run
        rw [run] at spared
        exact ih fun member => spared (List.mem_cons_of_mem victim member)

def victimsOfPut (key : Key) (bytes : Bytes) (s : Memory × Shelf) : List Key :=
  match bringIn key bytes s with
  | .error _ _ => []
  | .ok () s' => victims s'.2.size s'

theorem respects_put (key : Key) (bytes : Bytes) :
    Respects (shedding (links ∪ {payloadName key})).onFirst
      (put key bytes : Action (Memory × Shelf) Nat) := by
  have bringing : Respects (shedding (links ∪ {payloadName key})).onFirst (bringIn key bytes) :=
    (respects_bringIn key bytes).mono fun _ _ within => within.sheds
  have reconciling : Respects (shedding (links ∪ {payloadName key})).onFirst
      (reconcile : Action (Memory × Shelf) Nat) :=
    respects_reconcile.mono fun _ _ sheds => sheds.mono Set.subset_union_left
  rw [put_eq]
  exact bringing.bind fun _ => reconciling

theorem put_spares (differs : other ≠ key) (spared : other ∉ victimsOfPut key bytes s) :
    (sparing other).onFirst.allows s (stateAfter (put key bytes) s) := by
  have bringing : (sparing other).onFirst.allows s (stateAfter (bringIn key bytes) s) :=
    (respects_bringIn key bytes s).mono
      (Set.subset_compl_singleton_iff.2 (payloadName_not_mem differs))
  rw [put_eq]
  refine FrameCondition.allows_bind _ bringing fun _ s₁ run => ?_
  unfold victimsOfPut at spared
  unfold Runs at run
  rw [run] at spared
  have keeping : (sparing other).onFirst.allows s₁ (stateAfter keepWithin s₁) :=
    dropExcess_spares s₁.2.size spared
  exact FrameCondition.allows_bind _ keeping fun _ s₂ _ => (sparing other).refl s₂.1

/-- Storing a glyph touches the payload of another key only to delete it, and only if it evicts
that key. -/
theorem payload_put (differs : other ≠ key) :
    (stateAfter (put key bytes) s).1.get? (payloadName other) = s.1.get? (payloadName other) ∨
      other ∈ victimsOfPut key bytes s ∧
        (stateAfter (put key bytes) s).1.get? (payloadName other) = none := by
  by_cases evicted : other ∈ victimsOfPut key bytes s
  · rcases (respects_put key bytes s).get? _ (payloadName_not_mem differs) with same | gone
    · exact .inl same
    · exact .inr ⟨evicted, gone⟩
  · exact .inl ((put_spares differs evicted).get? _ fun away => away rfl)

/-! ## The main statement -/

/-- What can be asked of a shelf without storing or making room. -/
inductive Look
  | get (key : Key)
  | openEntry (key : Key)
  | contains (key : Key)
  | keys
  | check

def Look.after : Look → Memory × Shelf → Memory × Shelf
  | .get key => stateAfter (Shelf.get key : Action (Memory × Shelf) Bytes)
  | .openEntry key => stateAfter (Shelf.openEntry key : Action (Memory × Shelf) Memory.Handle)
  | .contains key => stateAfter (Shelf.contains key : Action (Memory × Shelf) Bool)
  | .keys => stateAfter (Shelf.keys : Action (Memory × Shelf) (List Key))
  | .check => stateAfter (Shelf.check : Examination (Memory × Shelf) Unit)

theorem Look.within_links (look : Look) (s : Memory × Shelf) :
    s.1.Within links (look.after s).1 := by
  cases look with
  | get key => exact respects_get key s
  | openEntry key => exact respects_openEntry key s
  | contains key => exact respects_contains key s
  | keys => exact respects_keys s
  | check => exact respects_check s

/-- The ring and the payloads leave each other's records alone, on whatever device. -/
theorem links_and_payloads_apart (m : Memory) :
    (∀ (request : Ring.Request) (name : String), RecordName.isLink name = false →
      (request.after m).get? name = m.get? name) ∧
    (∀ (request : Payloads.Request) (name : String), name ∉ request.changed →
      (request.after m).get? name = m.get? name) ∧
    (∀ (request : Payloads.Request) (name : String), name ∈ request.changed →
      RecordName.isLink name = false) ∧
    (∀ (shelf : Shelf) (key other : Key) (bytes : Bytes), other ≠ key →
      (stateAfter (put key bytes) (m, shelf)).1.get? (payloadName other) =
          m.get? (payloadName other) ∨
        other ∈ victimsOfPut key bytes (m, shelf) ∧
          (stateAfter (put key bytes) (m, shelf)).1.get? (payloadName other) = none) ∧
    ∀ (shelf : Shelf) (look : Look) (name : String), RecordName.isLink name = false →
      (look.after (m, shelf)).1.get? name = m.get? name := by
  refine ⟨?_, ?_, ?_, fun shelf key other bytes differs => payload_put differs, ?_⟩
  · intro request name other
    exact (request.within_links m).get? name (not_mem_links other)
  · intro request name other
    exact (request.within_changed m).get? name other
  · intro request name changed
    obtain ⟨key, rfl⟩ := Payloads.Request.exists_of_changed changed
    exact isLink_payloadName key
  · intro shelf look name other
    exact (look.within_links (m, shelf)).get? name (not_mem_links other)

/-- A ring in which the least recent key names another one on both sides. -/
def damaged : Memory :=
  let table : List (Key × Link) :=
    [(.head, ⟨.tail, ⟨7⟩⟩), (.tail, ⟨⟨7⟩, .head⟩), (⟨7⟩, ⟨⟨9⟩, ⟨9⟩⟩), (⟨9⟩, ⟨⟨9⟩, ⟨9⟩⟩)]
  let linked : Memory := table.foldl (fun m entry => m.poke (linkName entry.1) entry.2.encode) {}
  (linked.poke (payloadName ⟨7⟩) [7]).poke (payloadName ⟨9⟩) [9]

/-- Only the key that is evicted loses its payload; the one beside it is relinked and no more. -/
theorem seven_goes_and_nine_stays :
    (⟨9⟩ : Key) ≠ ⟨3⟩ ∧
      victimsOfPut ⟨3⟩ [1] (damaged, { capacity := 1, size := 1 }) = [⟨7⟩] ∧
      (stateAfter (put ⟨3⟩ [1]) (damaged, { capacity := 1, size := 1 })).1.get?
        (payloadName ⟨7⟩) = none ∧
      (stateAfter (put ⟨3⟩ [1]) (damaged, { capacity := 1, size := 1 })).1.get?
        (payloadName ⟨9⟩) = some [9] := by
  have evicted : victimsOfPut ⟨3⟩ [1] (damaged, { capacity := 1, size := 1 }) = [⟨7⟩] := by
    decide +kernel
  obtain ⟨-, -, -, storing, -⟩ := links_and_payloads_apart damaged
  refine ⟨by decide, evicted, by decide +kernel, ?_⟩
  rcases storing { capacity := 1, size := 1 } ⟨3⟩ ⟨9⟩ [1] (by decide) with same | ⟨member, -⟩
  · rw [same]
    decide +kernel
  · rw [evicted] at member
    exact absurd member (by decide)

end GlyphShelf.Shelf

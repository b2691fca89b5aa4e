import GlyphShelf.Proofs.Shelf.Calls

/-!
# Shelves on full devices

What a quota can do to a shelf. The ring survives: only glyphs that are put are refused, and a
refusal changes nothing unless the glyph was on the shelf before. In that case its earlier payload
is lost, while its key stays in the ring and is counted as before. So the keys of a shelf are not
always those that can be read: a key is read exactly if it is in the ring and the last glyph that
was put under it was not refused.
-/

namespace GlyphShelf.Shelf

open Payloads

variable {m m₀ : Memory} {s : Memory × Shelf} {shelf : Shelf} {inventory : Inventory}
variable {key : Key} {bytes : Bytes} {capacity quota : Nat} {settings : Settings} {call : Call}
variable {refused : Key → Bool} {linked : List Key}

/-! ## The ring -/

/-- The shelf has a sound ring of the given keys and counts them, and its device is within the
quota. -/
structure Afloat (quota : Nat) (s : Memory × Shelf) (linked : List Key) : Prop where
  ring : Ring.Holds s.1.get? linked
  counted : s.2.size = linked.length
  keys : ∃ s', Runs Shelf.keys s (.ok linked) s'
  examined : ∃ s', Runs check s (.ok ()) s'
  used : s.1.count ≤ quota

/-- The shelf and all records are as before, and so are what is charged and the order. -/
structure Untouched (s s' : Memory × Shelf) (linked : List Key) : Prop where
  records : s'.1.get? = s.1.get?
  used : s'.1.count = s.1.count
  shelf : s'.2 = s.2
  keys : ∃ s'', Runs Shelf.keys s' (.ok linked) s''

theorem InUse.afloat (inUse : InUse capacity s inventory) (limited : s.1.quota = some quota) :
    Afloat quota s inventory.linked where
  ring := inUse.serves.holds.ring
  counted := inUse.serves.counted
  keys := by
    obtain ⟨count, run⟩ := runs_keys_of_inUse inUse
    exact ⟨_, run⟩
  examined := by
    obtain ⟨count, run⟩ := runs_check_of_inUse inUse
    exact ⟨_, run⟩
  used := inUse.serves.holds.solvent.count_le limited

/-- An inventory has room for everything. -/
theorem onInventory_ne_outOfSpace (capacity : Nat) (call : Call) (inventory : Inventory) :
    (call.onInventory capacity inventory).1 ≠ .error .outOfSpace := by
  have reading (key : Key) : (useOnInventory key inventory).1 ≠ .error .outOfSpace := by
    intro full
    unfold useOnInventory at full
    split at full
    · cases full
    · split at full <;> cases full
  cases call with
  | get key => exact reading key
  | openEntry key => exact reading key
  | put key bytes =>
    intro full
    dsimp only [Call.onInventory] at full
    split at full <;> cases full
  | _ =>
    intro full
    cases full

/-- What is answered with want of room is a glyph that was put and refused. -/
theorem refuses_of_outOfSpace (inUse : InUse capacity s inventory)
    (answer : (call.act.step s).1 = .error .outOfSpace) :
    ∃ key bytes m', call = .put key bytes ∧ Refuses capacity s inventory key bytes m' := by
  rcases call_answers_or_refuses inUse call with ⟨s', run, -⟩ | refused
  · rw [run.step_eq] at answer
    exact absurd answer (onInventory_ne_outOfSpace capacity call inventory)
  · exact refused

theorem Refuses.untouched {m' : Memory} (refuses : Refuses capacity s inventory key bytes m')
    (inUse : InUse capacity s inventory) (limited : s.1.quota = some quota)
    (fresh : key ∉ inventory.linked) : Untouched s (m', s.2) inventory.linked := by
  have absent : s.1.get? (payloadName key) = none := by
    rw [inUse.serves.holds.payload key refuses.glyph]
    by_contra stored
    exact fresh (inUse.paid key stored)
  have records : m'.get? = s.1.get? := by
    rw [refuses.get?]
    exact Function.update_eq_self_iff.2 absent.symm
  have sameQuota : m'.quota = s.1.quota := by
    have same := quota_step (.put key bytes) s
    rwa [refuses.run.step_eq] at same
  obtain ⟨count, run⟩ := runs_keys_of_inUse refuses.inUse
  exact ⟨records, inUse.serves.holds.solvent.count_eq refuses.inUse.serves.holds.solvent limited
    sameQuota records, rfl, _, run⟩

/-- However full the device is, after any calls of a shelf that was opened cold its ring is sound.
Only storing a glyph is ever refused for want of room, and if its key was not in the ring, then
everything is as before. -/
theorem ring_survives_full_device (limited : m.quota = some quota) (solvent : m.Solvent)
    (cold : settings.cold = true) (opened : Runs (openOn settings) m (.ok shelf) m₀)
    (calls : List Call) :
    let s := (answers calls (m₀, shelf)).2
    ∃ linked, Afloat quota s linked ∧
      ∀ call : Call, (call.act.step s).1 = .error .outOfSpace →
        ∃ key bytes, call = .put key bytes ∧
          (key ∉ linked → Untouched s (call.act.step s).2 linked) := by
  obtain ⟨inUse₀, -, sameQuota⟩ := inUse_of_openOn solvent cold opened
  obtain ⟨sameQuota', inventory, inUse⟩ := inUse_answers inUse₀ calls
  have limited' := sameQuota'.trans (sameQuota.trans limited)
  refine ⟨inventory.linked, inUse.afloat limited', ?_⟩
  intro call answer
  obtain ⟨key, bytes, m', rfl, refuses⟩ := refuses_of_outOfSpace inUse answer
  refine ⟨key, bytes, rfl, ?_⟩
  intro fresh
  rw [refuses.run.step_eq]
  exact refuses.untouched inUse limited' fresh

/-- The empty device on which a glyph of two bytes and its link leave two bytes. -/
def narrow : Memory := { quota := some 16 }

theorem solvent_narrow : narrow.Solvent := Memory.solvent_of_empty (fun _ => rfl) rfl rfl rfl

theorem runs_openOn_narrow : Runs (openOn { capacity := 4 }) narrow (.ok { capacity := 4 })
    (stateAfter (openOn { capacity := 4 }) narrow) :=
  runs_of_step (by decide +kernel)

/-- The second glyph would fit, but not its link. -/
theorem second_link_refused :
    ∃ m₀, (narrow.quota = some 16 ∧ narrow.Solvent) ∧
      Runs (openOn { capacity := 4 }) narrow (.ok { capacity := 4 }) m₀ ∧
      let s := (answers [.put ⟨7⟩ [1, 1]] (m₀, { capacity := 4 })).2
      ((Call.put ⟨8⟩ [1]).act.step s).1 = .error .outOfSpace ∧
        Untouched s ((Call.put ⟨8⟩ [1]).act.step s).2 [⟨7⟩] := by
  obtain ⟨linked, afloat, refused⟩ := ring_survives_full_device rfl solvent_narrow rfl
    runs_openOn_narrow [.put ⟨7⟩ [1, 1]]
  have walked : Runs Shelf.keys (answers [.put ⟨7⟩ [1, 1]]
      (stateAfter (openOn { capacity := 4 }) narrow, { capacity := 4 })).2 (.ok [⟨7⟩]) _ :=
    runs_of_step (by decide +kernel)
  obtain ⟨s', walking⟩ := afloat.keys
  obtain rfl : linked = [⟨7⟩] := Except.ok.inj (walking.deterministic walked).1
  have full : ((Call.put ⟨8⟩ [1]).act.step (answers [.put ⟨7⟩ [1, 1]]
      (stateAfter (openOn { capacity := 4 }) narrow, { capacity := 4 })).2).1 =
      .error .outOfSpace := by decide +kernel
  obtain ⟨key, bytes, same, untouched⟩ := refused (.put ⟨8⟩ [1]) full
  cases same
  exact ⟨_, ⟨rfl, solvent_narrow⟩, runs_openOn_narrow, full, untouched (by decide)⟩

/-! ## Readable glyphs -/

/-- Keeps track of the keys whose last glyph was refused for want of room. -/
def noteRefusal (refused : Key → Bool) : Call × Except Failure Reply → Key → Bool
  | (.put key _, .error .outOfSpace) => Function.update refused key true
  | (.put key _, _) => Function.update refused key false
  | _ => refused

def refusals (calls : List Call) (given : List (Except Failure Reply)) : Key → Bool :=
  (calls.zip given).foldl noteRefusal fun _ => false

/-- The keys in the ring that have no payload are those whose last glyph was refused. -/
def Inventory.LacksRefused (inventory : Inventory) (refused : Key → Bool) : Prop :=
  ∀ key ∈ inventory.linked, inventory.payload key = none ↔ refused key = true

namespace Inventory.LacksRefused

variable (lacks : inventory.LacksRefused refused)
include lacks

theorem toFront (member : key ∈ inventory.linked) :
    (inventory.toFront key).LacksRefused refused := by
  intro other member'
  rw [payload_toFront]
  apply lacks other
  rcases List.mem_cons.1 member' with rfl | later
  · exact member
  · exact List.mem_of_mem_erase later

/-- What is no key of the ring may be noted in any way. -/
theorem note (unlinked : key ∉ inventory.linked) (value : Bool) :
    inventory.LacksRefused (Function.update refused key value) := by
  intro other member
  rw [Function.update_of_ne (ne_of_mem_of_not_mem member unlinked)]
  exact lacks other member

theorem discarded (key : Key) :
    (inventory.setPayload key none).LacksRefused (Function.update refused key true) := by
  intro other member
  rw [payload_setPayload]
  by_cases same : other = key
  · rw [same, Function.update_self, Function.update_self]
    exact iff_of_true rfl rfl
  · rw [Function.update_of_ne same, Function.update_of_ne same]
    exact lacks other member

theorem stored (key : Key) (bytes : Bytes) :
    ((inventory.setPayload key (some bytes)).toFront key).LacksRefused
      (Function.update refused key false) := by
  intro other member
  rw [payload_toFront, payload_setPayload]
  by_cases same : other = key
  · rw [same, Function.update_self, Function.update_self]
    exact iff_of_false (Option.some_ne_none bytes) Bool.false_ne_true
  · rw [Function.update_of_ne same, Function.update_of_ne same]
    exact lacks other (List.mem_of_mem_erase (List.mem_of_ne_of_mem same member))

/-- A key that is kept keeps its payload. -/
theorem keep (nodup : inventory.linked.Nodup) (capacity : Nat) :
    (inventory.keep capacity).LacksRefused refused := by
  intro other kept
  rw [linked_keep] at kept
  rw [payload_keep_of_kept nodup kept]
  exact lacks other (List.mem_of_mem_take kept)

/-- Reading stores nothing. -/
theorem used (paid : inventory.Paid) (key : Key) :
    (useOnInventory key inventory).2.LacksRefused refused := by
  by_cases anchor : key.IsAnchor
  · rwa [useOnInventory_of_anchor anchor]
  cases found : inventory.payload key with
  | some bytes =>
    rw [useOnInventory_of_present anchor found]
    exact lacks.toFront (paid key (by rw [found]; exact Option.some_ne_none bytes))
  | none => rwa [useOnInventory_of_absent anchor found]

/-- What was answered as by the inventory found room. -/
theorem answered (nodup : inventory.linked.Nodup)
    (glyphs : ∀ key ∈ inventory.linked, ¬ key.IsAnchor) (paid : inventory.Paid)
    (capacity : Nat) (call : Call) :
    (call.onInventory capacity inventory).2.LacksRefused
      (noteRefusal refused (call, (call.onInventory capacity inventory).1)) := by
  cases call with
  | put key bytes =>
    by_cases anchor : key.IsAnchor
    · simp only [Call.onInventory, if_pos anchor]
      exact lacks.note (fun member => glyphs key member anchor) false
    · simp only [Call.onInventory, if_neg anchor]
      refine (lacks.stored key bytes).keep ?_ capacity
      rw [linked_toFront, linked_setPayload]
      exact List.nodup_cons.2 ⟨nodup.not_mem_erase, nodup.erase key⟩
  | get key => exact lacks.used paid key
  | openEntry key => exact lacks.used paid key
  | contains key => exact lacks
  | keys => exact lacks
  | size => exact lacks
  | check => exact lacks
  | reconcile => exact lacks
  | reset => exact fun key member => absurd member List.not_mem_nil

end Inventory.LacksRefused

theorem lacksRefused_step (inUse : InUse capacity s inventory)
    (lacks : inventory.LacksRefused refused) (call : Call) :
    ∃ inventory', InUse capacity (call.act.step s).2 inventory' ∧
      inventory'.LacksRefused (noteRefusal refused (call, (call.act.step s).1)) := by
  have ring := inUse.serves.holds.isRing
  rcases call_answers_or_refuses inUse call with ⟨s', run, next⟩ | ⟨key, bytes, m', rfl, refuses⟩
  · rw [run.step_eq]
    exact ⟨_, next, lacks.answered ring.nodup ring.glyphs inUse.paid capacity call⟩
  · rw [refuses.run.step_eq]
    exact ⟨_, refuses.inUse, lacks.discarded key⟩

theorem lacksRefused_answers (inUse : InUse capacity s inventory)
    (lacks : inventory.LacksRefused refused) (calls : List Call) :
    ∃ inventory', InUse capacity (answers calls s).2 inventory' ∧
      inventory'.LacksRefused ((calls.zip (answers calls s).1).foldl noteRefusal refused) := by
  induction calls generalizing s inventory refused with
  | nil => exact ⟨inventory, inUse, lacks⟩
  | cons call calls ih =>
    obtain ⟨inventory₁, inUse₁, lacks₁⟩ := lacksRefused_step inUse lacks call
    exact ih inUse₁ lacks₁

theorem InUse.stored_iff (inUse : InUse capacity s inventory)
    (lacks : inventory.LacksRefused refused) (glyph : ¬ key.IsAnchor) :
    s.1.get? (payloadName key) ≠ none ↔ key ∈ inventory.linked ∧ refused key = false := by
  rw [inUse.serves.holds.payload key glyph]
  constructor
  · intro stored
    have member := inUse.paid key stored
    rw [ne_eq, lacks key member, Bool.not_eq_true] at stored
    exact ⟨member, stored⟩
  · rintro ⟨member, kept⟩
    rw [ne_eq, lacks key member, Bool.not_eq_true]
    exact kept

/-- A glyph is read exactly if its payload is stored. -/
theorem InUse.read_iff (inUse : InUse capacity s inventory) (glyph : ¬ key.IsAnchor) :
    (∃ bytes, ((Call.get key).act.step s).1 = .ok (.payload bytes)) ↔
      s.1.get? (payloadName key) ≠ none := by
  rw [inUse.serves.holds.payload key glyph, Option.ne_none_iff_exists']
  exact exists_congr fun _ => get_eq_payload_iff inUse glyph

/-- The keys that are listed, counted and found are not all readable: those whose last glyph was
refused have no payload. -/
theorem readable_iff_not_refused (solvent : m.Solvent) (cold : settings.cold = true)
    (opened : Runs (openOn settings) m (.ok shelf) m₀) (calls : List Call) :
    let s := (answers calls (m₀, shelf)).2
    let refused := refusals calls (answers calls (m₀, shelf)).1
    ∃ linked, (∃ s', Runs Shelf.keys s (.ok linked) s') ∧ s.2.size = linked.length ∧
      ∀ key, ¬ key.IsAnchor →
        (∃ s', Runs (contains key) s (.ok (decide (key ∈ linked))) s') ∧
        (s.1.get? (payloadName key) ≠ none ↔ key ∈ linked ∧ refused key = false) ∧
        ((∃ bytes, ((Call.get key).act.step s).1 = .ok (.payload bytes)) ↔
          key ∈ linked ∧ refused key = false) := by
  obtain ⟨inUse₀, -, -⟩ := inUse_of_openOn solvent cold opened
  have lacks₀ : Inventory.empty.LacksRefused fun _ => false :=
    fun key member => absurd member List.not_mem_nil
  obtain ⟨inventory, inUse, lacks⟩ := lacksRefused_answers inUse₀ lacks₀ calls
  obtain ⟨count, walking⟩ := runs_keys_of_inUse inUse
  refine ⟨inventory.linked, ⟨_, walking⟩, inUse.serves.counted, ?_⟩
  intro key glyph
  have stored := inUse.stored_iff lacks glyph
  obtain ⟨count', looking⟩ := runs_contains_of_inUse inUse key
  refine ⟨?_, stored, (inUse.read_iff glyph).trans stored⟩
  rw [decide_eq_decide.2 (and_iff_right glyph)] at looking
  exact ⟨_, looking⟩

/-- A glyph outgrows the device: it is counted and found, but cannot be read. -/
theorem outgrown_glyph_unreadable :
    ∃ m₀, narrow.Solvent ∧
      Runs (openOn { capacity := 4 }) narrow (.ok { capacity := 4 }) m₀ ∧
      let s := (answers [.put ⟨7⟩ [1, 1], .put ⟨7⟩ [2, 2, 2, 2, 2]] (m₀, { capacity := 4 })).2
      s.2.size = 1 ∧ (∃ s', Runs (contains ⟨7⟩) s (.ok true) s') ∧
        ¬ ∃ bytes, ((Call.get ⟨7⟩).act.step s).1 = .ok (.payload bytes) := by
  obtain ⟨linked, ⟨s', walking⟩, counted, found⟩ := readable_iff_not_refused solvent_narrow rfl
    runs_openOn_narrow [.put ⟨7⟩ [1, 1], .put ⟨7⟩ [2, 2, 2, 2, 2]]
  have walked : Runs Shelf.keys (answers [.put ⟨7⟩ [1, 1], .put ⟨7⟩ [2, 2, 2, 2, 2]]
      (stateAfter (openOn { capacity := 4 }) narrow, { capacity := 4 })).2 (.ok [⟨7⟩]) _ :=
    runs_of_step (by decide +kernel)
  obtain rfl : linked = [⟨7⟩] := Except.ok.inj (walking.deterministic walked).1
  have last : refusals [.put ⟨7⟩ [1, 1], .put ⟨7⟩ [2, 2, 2, 2, 2]]
      (answers [.put ⟨7⟩ [1, 1], .put ⟨7⟩ [2, 2, 2, 2, 2]]
        (stateAfter (openOn { capacity := 4 }) narrow, { capacity := 4 })).1 ⟨7⟩ = true := by
    decide +kernel
  obtain ⟨looking, -, read⟩ := found ⟨7⟩ (by decide)
  refine ⟨_, solvent_narrow, runs_openOn_narrow, counted, looking, ?_⟩
  rw [read, last]
  exact fun readable => Bool.false_ne_true readable.2.symm

end GlyphShelf.Shelf

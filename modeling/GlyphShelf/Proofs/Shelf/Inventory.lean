import GlyphShelf.Proofs.Shelf.Entries

/-!
# Inventories

A list of entries gives every key a payload. On a device that can be full this is too much to
ask: a key may stay in the ring although its payload is gone. An inventory therefore keeps the
order of the keys and the payloads apart. `Call.onInventory` says what each call answers and does
when everything finds room; the one thing that may happen instead is that a glyph that is put
loses the payload it had. On the inventory of a list of entries each call does what it does to
the list.
-/

namespace GlyphShelf.Shelf

/-- The keys in the ring, the most recently used first, and the payloads that are stored. -/
@[ext] structure Inventory where
  linked : List Key
  payload : Key → Option Bytes

variable {inventory : Inventory} {front : List Key} {payload : Key → Option Bytes}
variable {key other victim : Key} {bytes : Bytes} {capacity : Nat} {entries : Entries}

namespace Inventory

def empty : Inventory := ⟨[], fun _ => none⟩

def toFront (key : Key) (inventory : Inventory) : Inventory :=
  { inventory with linked := key :: inventory.linked.erase key }

def setPayload (key : Key) (value : Option Bytes) (inventory : Inventory) : Inventory :=
  { inventory with payload := Function.update inventory.payload key value }

/-- As many keys from the front as fit, and no payload of the others. -/
def keep (capacity : Nat) (inventory : Inventory) : Inventory where
  linked := inventory.linked.take capacity
  payload key := if key ∈ inventory.linked.drop capacity then none else inventory.payload key

@[simp] theorem linked_toFront (key : Key) (inventory : Inventory) :
    (inventory.toFront key).linked = key :: inventory.linked.erase key := rfl

@[simp] theorem payload_toFront (key : Key) (inventory : Inventory) :
    (inventory.toFront key).payload = inventory.payload := rfl

@[simp] theorem linked_setPayload (key : Key) (value : Option Bytes) (inventory : Inventory) :
    (inventory.setPayload key value).linked = inventory.linked := rfl

@[simp] theorem payload_setPayload (key : Key) (value : Option Bytes) (inventory : Inventory) :
    (inventory.setPayload key value).payload = Function.update inventory.payload key value := rfl

@[simp] theorem linked_keep (capacity : Nat) (inventory : Inventory) :
    (inventory.keep capacity).linked = inventory.linked.take capacity := rfl

theorem payload_keep (capacity : Nat) (inventory : Inventory) (key : Key) :
    (inventory.keep capacity).payload key =
      if key ∈ inventory.linked.drop capacity then none else inventory.payload key := rfl

theorem payload_keep_of_kept (nodup : inventory.linked.Nodup)
    (kept : key ∈ inventory.linked.take capacity) :
    (inventory.keep capacity).payload key = inventory.payload key := by
  rw [← List.take_append_drop capacity inventory.linked] at nodup
  exact if_neg fun dropped => (List.disjoint_of_nodup_append nodup) kept dropped

theorem payload_keep_of_dropped (dropped : key ∈ inventory.linked.drop capacity) :
    (inventory.keep capacity).payload key = none :=
  if_pos dropped

/-- Every payload that is stored is that of a key in the ring. -/
def Paid (inventory : Inventory) : Prop :=
  ∀ key, inventory.payload key ≠ none → key ∈ inventory.linked

theorem paid_empty : empty.Paid := fun _ stored => absurd rfl stored

theorem Paid.toFront (paid : inventory.Paid) (key : Key) : (inventory.toFront key).Paid := by
  intro other stored
  rw [linked_toFront]
  by_cases same : other = key
  · rw [same]
    exact List.mem_cons_self
  · exact List.mem_cons_of_mem key ((List.mem_erase_of_ne same).2 (paid other stored))

/-- A payload may be stored with its key at the front. -/
theorem Paid.stored (paid : inventory.Paid) (key : Key) (value : Option Bytes) :
    ((inventory.setPayload key value).toFront key).Paid := by
  intro other stored
  rw [linked_toFront, linked_setPayload]
  by_cases same : other = key
  · rw [same]
    exact List.mem_cons_self
  · rw [payload_toFront, payload_setPayload, Function.update_of_ne same] at stored
    exact List.mem_cons_of_mem key ((List.mem_erase_of_ne same).2 (paid other stored))

theorem Paid.discarded (paid : inventory.Paid) (key : Key) :
    (inventory.setPayload key none).Paid := by
  intro other stored
  by_cases same : other = key
  · rw [same, payload_setPayload, Function.update_self] at stored
    exact absurd rfl stored
  · rw [payload_setPayload, Function.update_of_ne same] at stored
    exact paid other stored

theorem Paid.keep (paid : inventory.Paid) (capacity : Nat) : (inventory.keep capacity).Paid := by
  intro key stored
  rw [payload_keep] at stored
  by_cases dropped : key ∈ inventory.linked.drop capacity
  · rw [if_pos dropped] at stored
    exact absurd rfl stored
  · rw [if_neg dropped] at stored
    have member := paid key stored
    rw [← List.take_append_drop capacity inventory.linked, List.mem_append] at member
    exact member.resolve_right dropped

/-- Nothing happens to keys that fit. -/
theorem keep_of_fits (fits : inventory.linked.length ≤ capacity) :
    inventory.keep capacity = inventory := by
  have whole : inventory.linked.drop capacity = [] := List.drop_eq_nil_of_le fits
  apply Inventory.ext
  · exact List.take_of_length_le fits
  · funext key
    rw [payload_keep, whole, if_neg List.not_mem_nil]

/-- The last key may be dropped first. -/
theorem keep_front (beyond : capacity ≤ front.length) :
    keep capacity ⟨front, Function.update payload victim none⟩ =
      keep capacity ⟨front ++ [victim], payload⟩ := by
  apply Inventory.ext
  · exact (List.take_append_of_le_length beyond).symm
  · funext key
    have later : (front ++ [victim]).drop capacity = front.drop capacity ++ [victim] :=
      List.drop_append_of_le_length beyond
    simp only [payload_keep, later, List.mem_append, List.mem_singleton]
    by_cases same : key = victim
    · rw [same, Function.update_self, ite_self, if_pos (.inr rfl)]
    · rw [Function.update_of_ne same]
      simp only [same, or_false]

theorem length_keep_le (capacity : Nat) (inventory : Inventory) :
    (inventory.keep capacity).linked.length ≤ capacity := by
  rw [linked_keep, List.length_take]
  exact Nat.min_le_left _ _

theorem length_toFront_of_member (member : key ∈ inventory.linked) :
    (inventory.toFront key).linked.length = inventory.linked.length := by
  have := List.length_pos_of_mem member
  rw [linked_toFront, List.length_cons, List.length_erase_of_mem member]
  omega

end Inventory

/-! ## Calls -/

def useOnInventory (key : Key) (inventory : Inventory) : Except Failure Reply × Inventory :=
  if key.IsAnchor then (.error (.reservedKey key), inventory)
  else
    match inventory.payload key with
    | some bytes => (.ok (.payload bytes), inventory.toFront key)
    | none => (.error .notFound, inventory)

theorem useOnInventory_of_anchor (anchor : key.IsAnchor) (inventory : Inventory) :
    useOnInventory key inventory = (.error (.reservedKey key), inventory) :=
  if_pos anchor

theorem useOnInventory_of_present (glyph : ¬ key.IsAnchor)
    (found : inventory.payload key = some bytes) :
    useOnInventory key inventory = (.ok (.payload bytes), inventory.toFront key) := by
  rw [useOnInventory, if_neg glyph, found]

theorem useOnInventory_of_absent (glyph : ¬ key.IsAnchor) (absent : inventory.payload key = none) :
    useOnInventory key inventory = (.error .notFound, inventory) := by
  rw [useOnInventory, if_neg glyph, absent]

def Inventory.put (capacity : Nat) (key : Key) (bytes : Bytes) (inventory : Inventory) :
    Inventory :=
  ((inventory.setPayload key (some bytes)).toFront key).keep capacity

/-- The answer of a call and the inventory after it, as long as everything finds room. -/
def Call.onInventory (capacity : Nat) (call : Call) (inventory : Inventory) :
    Except Failure Reply × Inventory :=
  match call with
  | .put key bytes =>
    if key.IsAnchor then (.error (.reservedKey key), inventory)
    else
      (.ok (.number (inventory.put capacity key bytes).linked.length),
        inventory.put capacity key bytes)
  | .get key => useOnInventory key inventory
  | .openEntry key => useOnInventory key inventory
  | .contains key => (.ok (.answer (decide (¬ key.IsAnchor ∧ key ∈ inventory.linked))), inventory)
  | .keys => (.ok (.keys inventory.linked), inventory)
  | .size => (.ok (.number inventory.linked.length), inventory)
  | .check => (.ok (.examined none), inventory)
  | .reconcile => (.ok (.number inventory.linked.length), inventory)
  | .reset => (.ok .done, .empty)

/-! ## Lists of entries -/

/-- Every key of a list is in the ring, and no other key has a payload. -/
def inventoryOf (entries : Entries) : Inventory := ⟨keysOf entries, payloadOf entries⟩

theorem inventoryOf_nil : inventoryOf [] = .empty := rfl

section

variable (nodup : (keysOf entries).Nodup)
include nodup

theorem inventoryOf_toFront (key : Key) (bytes : Bytes) :
    inventoryOf (toFront key bytes entries) =
      ((inventoryOf entries).setPayload key (some bytes)).toFront key := by
  apply Inventory.ext
  · exact keysOf_toFront nodup key bytes
  · exact payloadOf_toFront key bytes entries

theorem inventoryOf_take (capacity : Nat) :
    inventoryOf (entries.take capacity) = (inventoryOf entries).keep capacity := by
  apply Inventory.ext
  · exact keysOf_take capacity entries
  · funext key
    change payloadOf (entries.take capacity) key = _
    by_cases kept : key ∈ keysOf (entries.take capacity)
    · have same : ((inventoryOf entries).keep capacity).payload key = payloadOf entries key :=
        Inventory.payload_keep_of_kept nodup (keysOf_take capacity entries ▸ kept)
      rw [payloadOf_take kept, same]
    rw [payloadOf_eq_none_iff.2 kept, Inventory.payload_keep]
    by_cases dropped : key ∈ (keysOf entries).drop capacity
    · exact (if_pos dropped).symm
    · rw [keysOf_take] at kept
      have absent : key ∉ keysOf entries := by
        rw [← List.take_append_drop capacity (keysOf entries), List.mem_append]
        exact not_or.2 ⟨kept, dropped⟩
      exact ((if_neg dropped).trans (payloadOf_eq_none_iff.2 absent)).symm

theorem useOnInventory_inventoryOf (key : Key) :
    useOnInventory key (inventoryOf entries) =
      ((useOnEntries entries key).1, inventoryOf (useOnEntries entries key).2) := by
  by_cases anchor : key.IsAnchor
  · rw [useOnEntries_of_anchor anchor, useOnInventory_of_anchor anchor]
  cases found : payloadOf entries key with
  | none => rw [useOnEntries_of_absent anchor found, useOnInventory_of_absent anchor found]
  | some bytes =>
    have same : (inventoryOf entries).setPayload key (some bytes) = inventoryOf entries := by
      rw [← found]
      exact Inventory.ext rfl (Function.update_eq_self key _)
    rw [useOnEntries_of_present anchor found, useOnInventory_of_present anchor found,
      inventoryOf_toFront nodup, same]

theorem onInventory_inventoryOf (call : Call) :
    call.onInventory capacity (inventoryOf entries) =
      ((call.onEntries capacity entries).1, inventoryOf (call.onEntries capacity entries).2) := by
  cases call with
  | put key bytes =>
    by_cases anchor : key.IsAnchor
    · rw [Call.onEntries, putOnEntries_of_anchor anchor]
      exact if_pos anchor
    · have nodup' : (keysOf (toFront key bytes entries)).Nodup := by
        rw [keysOf_toFront nodup]
        exact List.nodup_cons.2 ⟨nodup.not_mem_erase, nodup.erase key⟩
      have same : inventoryOf ((toFront key bytes entries).take capacity) =
          (inventoryOf entries).put capacity key bytes := by
        rw [inventoryOf_take nodup', inventoryOf_toFront nodup, Inventory.put]
      rw [Call.onEntries, putOnEntries_of_glyph anchor, same, Call.onInventory, if_neg anchor,
        ← same, ← length_keysOf]
      rfl
  | get key => exact useOnInventory_inventoryOf nodup key
  | openEntry key => exact useOnInventory_inventoryOf nodup key
  | contains key => rfl
  | keys => rfl
  | size => rw [Call.onEntries, ← length_keysOf, Call.onInventory, inventoryOf]
  | check => rfl
  | reconcile => rw [Call.onEntries, ← length_keysOf, Call.onInventory, inventoryOf]
  | reset => rfl

end

end GlyphShelf.Shelf

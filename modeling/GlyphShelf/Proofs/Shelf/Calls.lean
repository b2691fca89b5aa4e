import GlyphShelf.Proofs.Shelf.Reached
import GlyphShelf.Proofs.Shelf.Stocktaking

/-!
# A shelf follows its inventory

A shelf on a solvent device answers each call as its inventory does, whatever else the device
holds. The only exception is a glyph that is put and finds no room. So every shelf that was opened
cold on a solvent device is in use for some inventory, however it was called since.
-/

namespace GlyphShelf.Shelf

open Payloads

variable {m m' m₀ : Memory} {s : Memory × Shelf} {shelf : Shelf} {inventory : Inventory}
variable {key : Key} {bytes : Bytes} {count capacity : Nat} {settings : Settings} {α : Type}

/-! ## Reading -/

/-- What was read is brought to the front, and who has a payload open keeps it. -/
theorem runs_use_of_serves {act : Action Memory α} {a : α} (serves : Serves (m, shelf) inventory)
    (member : key ∈ inventory.linked) (acting : Runs act m (.ok a) (m.spend count)) :
    ∃ m', Runs (use key act) (m, shelf) (.ok a) (m', shelf.record .hit) ∧
      Serves (m', shelf.record .hit) (inventory.toFront key) ∧
      ∀ other, m'.cabinet.ref? (payloadName other) = m.cabinet.ref? (payloadName other) := by
  obtain ⟨moved, m', promoting, holds, attached⟩ := (serves.holds.spend count).runs_promote member
  have length := Inventory.length_toFront_of_member member
  refine ⟨m', ?_, ⟨holds, serves.counted.trans length.symm⟩, attached⟩
  exact (runs_orMiss acting nofun shelf).bind ((Action.runs_onFirst promoting shelf).bind
    ((runs_tell .hit m' shelf).bind (.pure a _)))

/-! ## Calls -/

/-- A shelf of the given capacity that serves an inventory within it, with payloads of linked
keys only. -/
structure InUse (capacity : Nat) (s : Memory × Shelf) (inventory : Inventory) : Prop where
  serves : Serves s inventory
  sized : s.2.capacity = capacity
  within : inventory.linked.length ≤ capacity
  paid : inventory.Paid

/-- The call answers as the inventory does, and leaves the shelf with the inventory after it. -/
def Answers (capacity : Nat) (s : Memory × Shelf) (inventory : Inventory) (call : Call) : Prop :=
  ∃ s', Runs call.act s (call.onInventory capacity inventory).1 s' ∧
    InUse capacity s' (call.onInventory capacity inventory).2

theorem answers_of_run {call : Call} {answer : Except Failure Reply} {inventory' : Inventory}
    {s' : Memory × Shelf} (outcome : call.onInventory capacity inventory = (answer, inventory'))
    (run : Runs call.act s answer s') (inUse : InUse capacity s' inventory') :
    Answers capacity s inventory call :=
  ⟨s', by rwa [outcome], by rwa [outcome]⟩

section

variable (inUse : InUse capacity s inventory)
include inUse

theorem InUse.spend (count : Nat) : InUse capacity (s.1.spend count, s.2) inventory where
  serves := inUse.serves.spend count
  sized := inUse.sized
  within := inUse.within
  paid := inUse.paid

theorem InUse.missed : InUse capacity (s.1.spend count, s.2.record .miss) inventory where
  serves := (inUse.serves.spend count).record .miss
  sized := inUse.sized
  within := inUse.within
  paid := inUse.paid

theorem InUse.used {m' : Memory} (member : key ∈ inventory.linked)
    (serves : Serves (m', s.2.record .hit) (inventory.toFront key)) :
    InUse capacity (m', s.2.record .hit) (inventory.toFront key) where
  serves := serves
  sized := inUse.sized
  within := by
    rw [Inventory.length_toFront_of_member member]
    exact inUse.within
  paid := inUse.paid.toFront key

/-- A payload that is stored is that of a linked glyph. -/
theorem InUse.member (found : inventory.payload key = some bytes) : key ∈ inventory.linked :=
  inUse.paid key (by rw [found]; exact Option.some_ne_none bytes)

theorem get_answers (key : Key) : Answers capacity s inventory (.get key) := by
  by_cases anchor : key.IsAnchor
  · exact answers_of_run (useOnInventory_of_anchor anchor inventory)
      (runs_get_of_anchor anchor s).bind_error inUse
  have stored := inUse.serves.holds.payload key anchor
  have quiet := inUse.serves.holds.solvent.allows
  cases found : inventory.payload key with
  | some bytes =>
    rw [found] at stored
    obtain ⟨m', run, serves', -⟩ := runs_use_of_serves inUse.serves (inUse.member found)
      (Payloads.runs_read (quiet _) anchor stored)
    exact answers_of_run (useOnInventory_of_present anchor found) (run.bind (.pure _ _))
      (inUse.used (inUse.member found) serves')
  | none =>
    rw [found] at stored
    have missing := Payloads.runs_openPayload_of_absent (quiet 1) anchor stored
    exact answers_of_run (useOnInventory_of_absent anchor found)
      (runs_use_of_absent missing.bind_error s.2).bind_error inUse.missed

theorem openEntry_answers (key : Key) : Answers capacity s inventory (.openEntry key) := by
  by_cases anchor : key.IsAnchor
  · exact answers_of_run (useOnInventory_of_anchor anchor inventory)
      (runs_openEntry_of_anchor anchor s).bind_error inUse
  have stored := inUse.serves.holds.payload key anchor
  have quiet := inUse.serves.holds.solvent.allows
  cases found : inventory.payload key with
  | some bytes =>
    rw [found] at stored
    obtain ⟨handle, opening, attached, start⟩ :=
      Payloads.runs_openPayload (quiet 1) anchor stored
    obtain ⟨m', run, serves', refs⟩ :=
      runs_use_of_serves inUse.serves (inUse.member found) opening
    have attached' : m'.Attached handle (payloadName key) := (refs key).trans attached
    have stored' : m'.get? (payloadName key) = some bytes :=
      (serves'.holds.payload key anchor).trans found
    have reading := Memory.runs_takeAll (serves'.holds.solvent.allows _) attached' start stored'
    exact answers_of_run (useOnInventory_of_present anchor found)
      (run.bind ((Action.runs_onFirst reading _).bind (.pure _ _)))
      ((inUse.used (inUse.member found) serves').spend _)
  | none =>
    rw [found] at stored
    have missing := Payloads.runs_openPayload_of_absent (quiet 1) anchor stored
    exact answers_of_run (useOnInventory_of_absent anchor found)
      (runs_use_of_absent missing s.2).bind_error inUse.missed

/-- A glyph can be read exactly if its payload is stored. -/
theorem get_eq_payload_iff (glyph : ¬ key.IsAnchor) :
    ((Call.get key).act.step s).1 = .ok (.payload bytes) ↔ inventory.payload key = some bytes := by
  obtain ⟨s', run, -⟩ := get_answers inUse key
  rw [run.step_eq, Call.onInventory]
  cases found : inventory.payload key with
  | some stored =>
    rw [useOnInventory_of_present glyph found]
    simp
  | none =>
    rw [useOnInventory_of_absent glyph found]
    simp

theorem runs_get_iff_of_inUse (glyph : ¬ key.IsAnchor) :
    (∃ s', Runs (get key) s (.ok bytes) s') ↔ inventory.payload key = some bytes := by
  rw [← get_eq_payload_iff inUse glyph]
  constructor
  · rintro ⟨s', reading⟩
    have replying : Runs (Call.get key).act s (.ok (.payload bytes)) s' := reading.bind (.pure _ _)
    rw [replying.step_eq]
  · intro answer
    obtain ⟨_, s', reading, replying⟩ := (runs_of_step answer).bind_ok
    cases replying
    exact ⟨_, reading⟩

theorem runs_contains_of_inUse (key : Key) :
    ∃ count, Runs (contains key) s (.ok (decide (¬ key.IsAnchor ∧ key ∈ inventory.linked)))
      (s.1.spend count, s.2) :=
  runs_contains_of_ring inUse.serves.holds.shows inUse.serves.holds.solvent.quiet
    inUse.serves.holds.isRing s.2 key

theorem runs_keys_of_inUse :
    ∃ count, Runs keys s (.ok inventory.linked) (s.1.spend count, s.2) :=
  runs_keys_of_passes inUse.serves.holds.shows.reads inUse.serves.holds.solvent.quiet
    inUse.serves.holds.isRing.passes s.2

theorem runs_check_of_inUse : ∃ count, Runs check s (.ok ()) (s.1.spend count, s.2) :=
  runs_check_of_counted inUse.serves.holds.shows.reads inUse.serves.holds.solvent.quiet
    inUse.serves.holds.isRing.passes inUse.serves.counted.symm

theorem contains_answers (key : Key) : Answers capacity s inventory (.contains key) := by
  obtain ⟨count, run⟩ := runs_contains_of_inUse inUse key
  exact ⟨_, run.bind (.pure _ _), inUse.spend count⟩

theorem keys_answers : Answers capacity s inventory .keys := by
  obtain ⟨count, run⟩ := runs_keys_of_inUse inUse
  exact ⟨_, run.bind (.pure _ _), inUse.spend count⟩

theorem size_answers : Answers capacity s inventory .size := by
  have run : Runs getSize s (.ok inventory.linked.length) s := by
    rw [← inUse.serves.counted]
    rfl
  exact ⟨s, run.bind (.pure _ _), inUse⟩

theorem check_answers : Answers capacity s inventory .check := by
  obtain ⟨count, run⟩ := runs_check_of_inUse inUse
  exact ⟨_, (runs_examined run).bind (.pure _ _), inUse.spend count⟩

theorem reconcile_answers : Answers capacity s inventory .reconcile := by
  obtain ⟨m', shelf', run, serves', same⟩ := runs_reconcile_of_serves inUse.serves
  rw [inUse.sized, Inventory.keep_of_fits inUse.within] at run serves'
  exact ⟨(m', shelf'), run.bind (.pure _ _), serves', same.trans inUse.sized, inUse.within,
    inUse.paid⟩

theorem reset_answers : Answers capacity s inventory .reset := by
  obtain ⟨m', wiping, holds'⟩ := inUse.serves.holds.runs_wipe
  have run : Runs reset s (.ok ()) (m', { capacity := s.2.capacity }) :=
    (Action.runs_onFirst wiping s.2).bind rfl
  exact ⟨_, run.bind (.pure _ _), ⟨holds', rfl⟩, inUse.sized, Nat.zero_le _,
    Inventory.paid_empty⟩

end

/-! ## Storing -/

/-- The glyph is refused for want of room: it has no payload any more, and nothing else has
changed. -/
structure Refuses (capacity : Nat) (s : Memory × Shelf) (inventory : Inventory) (key : Key)
    (bytes : Bytes) (m' : Memory) : Prop where
  glyph : ¬ key.IsAnchor
  limited : s.1.quota ≠ none
  run : Runs (Call.put key bytes).act s (.error .outOfSpace) (m', s.2)
  get? : m'.get? = Function.update s.1.get? (payloadName key) none
  inUse : InUse capacity (m', s.2) (inventory.setPayload key none)

section

variable (inUse : InUse capacity s inventory)
include inUse

theorem put_answers_or_refuses (key : Key) (bytes : Bytes) :
    Answers capacity s inventory (.put key bytes) ∨
      ∃ m', Refuses capacity s inventory key bytes m' := by
  by_cases anchor : key.IsAnchor
  · exact .inl (answers_of_run (if_pos anchor) (runs_put_of_anchor anchor bytes s).bind_error inUse)
  rcases runs_bringIn inUse.serves anchor bytes with
    ⟨⟨m₁, shelf₁⟩, bringing, serves₁, same⟩ | ⟨limited, m', declining, get, solvent⟩
  · left
    obtain ⟨m', shelf', reconciling, serves', same'⟩ := runs_reconcile_of_serves serves₁
    rw [show shelf₁.capacity = capacity from same.trans inUse.sized] at reconciling serves' same'
    have putting : Runs (put key bytes) s
        (.ok (inventory.put capacity key bytes).linked.length) (m', shelf') := by
      rw [put_eq]
      exact bringing.bind reconciling
    exact answers_of_run (if_neg anchor) (putting.bind (.pure _ _))
      ⟨serves', same', Inventory.length_keep_le _ _, (inUse.paid.stored key _).keep capacity⟩
  · right
    have refusing : Runs (put key bytes) s (.error .outOfSpace) (m', s.2) := by
      rw [put_eq]
      exact declining.bind_error
    exact ⟨m', anchor, limited, refusing.bind_error, get,
      ⟨inUse.serves.holds.setPayload get solvent, inUse.serves.counted⟩, inUse.sized,
      inUse.within, inUse.paid.discarded key⟩

/-- Whatever is called: it is answered as by the inventory, or it was a glyph that found no
room. -/
theorem call_answers_or_refuses (call : Call) :
    Answers capacity s inventory call ∨
      ∃ key bytes m', call = .put key bytes ∧ Refuses capacity s inventory key bytes m' := by
  cases call with
  | put key bytes =>
    rcases put_answers_or_refuses inUse key bytes with answers | ⟨m', refuses⟩
    · exact .inl answers
    · exact .inr ⟨key, bytes, m', rfl, refuses⟩
  | get key => exact .inl (get_answers inUse key)
  | openEntry key => exact .inl (openEntry_answers inUse key)
  | contains key => exact .inl (contains_answers inUse key)
  | keys => exact .inl (keys_answers inUse)
  | size => exact .inl (size_answers inUse)
  | check => exact .inl (check_answers inUse)
  | reconcile => exact .inl (reconcile_answers inUse)
  | reset => exact .inl (reset_answers inUse)

end

/-! ## Sequences of calls -/

theorem quota_step (call : Call) (s : Memory × Shelf) :
    (call.act.step s).2.1.quota = s.1.quota := by
  rw [step_snd]
  by_cases storing : ∃ key bytes, call = .put key bytes
  · obtain ⟨key, bytes, rfl⟩ := storing
    have same : stateAfter (Call.put key bytes).act s = stateAfter (Shelf.put key bytes) s :=
      stateAfter_bind_pure _ _ _
    rw [same]
    exact (respects_put key bytes s).quota
  · exact (respects_call call (fun key bytes same => storing ⟨key, bytes, same⟩) s).quota

/-- Whether or not there is room, the shelf stays in use. -/
theorem inUse_step (inUse : InUse capacity s inventory) (call : Call) :
    ∃ inventory', InUse capacity (call.act.step s).2 inventory' := by
  rcases call_answers_or_refuses inUse call with ⟨s', run, next⟩ | ⟨key, bytes, m', rfl, refuses⟩
  · rw [run.step_eq]
    exact ⟨_, next⟩
  · rw [refuses.run.step_eq]
    exact ⟨_, refuses.inUse⟩

theorem inUse_answers (inUse : InUse capacity s inventory) (calls : List Call) :
    (answers calls s).2.1.quota = s.1.quota ∧
      ∃ inventory', InUse capacity (answers calls s).2 inventory' := by
  refine outcomes_preserve
    (fun t => t.1.quota = s.1.quota ∧ ∃ inventory', InUse capacity t inventory')
    (fun call t kept => ?_) calls ⟨rfl, inventory, inUse⟩
  obtain ⟨same, inventory₁, inUse₁⟩ := kept
  exact ⟨(quota_step call t).trans same, inUse_step inUse₁ call⟩

/-- Without a quota there is nothing to refuse: the answer is that of the inventory. -/
theorem call_answers_of_unlimited (inUse : InUse capacity s inventory)
    (unlimited : s.1.quota = none) (call : Call) :
    (call.act.step s).1 = (call.onInventory capacity inventory).1 ∧
      InUse capacity (call.act.step s).2 (call.onInventory capacity inventory).2 ∧
      (call.act.step s).2.1.quota = none := by
  have same := quota_step call s
  rcases call_answers_or_refuses inUse call with ⟨t, run, next⟩ | ⟨key, bytes, m', rfl, refuses⟩
  · rw [run.step_eq] at same ⊢
    exact ⟨rfl, next, same.trans unlimited⟩
  · exact absurd unlimited refuses.limited

theorem answers_of_unlimited (inUse : InUse capacity s inventory) (unlimited : s.1.quota = none)
    (calls : List Call) :
    (answers calls s).1 = (outcomes (Call.onInventory capacity) calls inventory).1 ∧
      InUse capacity (answers calls s).2 (outcomes (Call.onInventory capacity) calls inventory).2 ∧
      (answers calls s).2.1.quota = none := by
  have agree (call : Call) (s : Memory × Shelf) (inventory : Inventory)
      (related : InUse capacity s inventory ∧ s.1.quota = none) :=
    call_answers_of_unlimited related.1 related.2 call
  exact outcomes_agree agree calls ⟨inUse, unlimited⟩

/-- If every linked key has its payload, the answers are those of a list of entries. -/
theorem answers_of_entries {entries : Entries} (inUse : InUse capacity s (inventoryOf entries))
    (unlimited : s.1.quota = none) (calls : List Call) :
    (answers calls s).1 = (listAnswers capacity calls entries).1 ∧
      InUse capacity (answers calls s).2 (inventoryOf (listAnswers capacity calls entries).2) := by
  have agree (call : Call) (s : Memory × Shelf) (entries : Entries)
      (related : InUse capacity s (inventoryOf entries) ∧ s.1.quota = none) :
      (call.act.step s).1 = (call.onEntries capacity entries).1 ∧
        InUse capacity (call.act.step s).2 (inventoryOf (call.onEntries capacity entries).2) ∧
        (call.act.step s).2.1.quota = none := by
    have single := call_answers_of_unlimited related.1 related.2 call
    rwa [onInventory_inventoryOf related.1.serves.holds.isRing.nodup] at single
  obtain ⟨same, inUse', -⟩ := outcomes_agree agree calls ⟨inUse, unlimited⟩
  exact ⟨same, inUse'⟩

/-! ## Opening cold -/

def solvently : FrameCondition Memory := preserving Memory.Solvent

theorem respects_solvently {act : Action Memory α}
    (runs : ∀ m, m.Solvent → ∃ result m', Runs act m result m' ∧ m'.Solvent) :
    Respects solvently act := by
  intro m solvent
  obtain ⟨result, m', run, solvent'⟩ := runs m solvent
  rwa [run.stateAfter_eq]

theorem solvently_contains (key : Key) :
    Respects solvently (Ring.contains key : Action Memory Bool) := by
  apply respects_solvently
  intro m solvent
  obtain ⟨count, run⟩ := Ring.runs_contains_of_quiet solvent.quiet key
  exact ⟨_, _, run, solvent.spend count⟩

theorem solvently_list : Respects solvently (Device.list : Action Memory (List String)) := by
  apply respects_solvently
  intro m solvent
  exact ⟨_, _, Memory.runs_list (solvent.allows 1), solvent.spend 1⟩

theorem solvently_delete (name : String) :
    Respects solvently (Device.delete name : Action Memory Unit) := by
  apply respects_solvently
  intro m solvent
  obtain ⟨result, m', run, -, solvent'⟩ := Memory.runs_delete_solvent solvent name
  exact ⟨result, m', run, solvent'⟩

theorem solvently_writeAnchors : Respects solvently (Ring.writeAnchors : Action Memory Unit) := by
  have writing (key : Key) (link : Link) :
      Respects solvently (Ring.writeLink key link : Action Memory Unit) := by
    apply respects_solvently
    intro m solvent
    obtain ⟨result, value, m', run, -, solvent'⟩ :=
      Memory.runs_replace_solvent solvent (Ring.linkName key) link.encode
    exact ⟨result, m', run, solvent'⟩
  exact (writing _ _).bind fun _ => writing _ _

theorem solvently_wipe : Respects solvently (wipe : Action Memory Unit) := by
  have deletingAll (names : List String) :
      Respects solvently (Ring.deleteAll names : Action Memory Unit) := by
    induction names with
    | nil => exact .pure ()
    | cons name names ih => exact (respects_allowAbsence (solvently_delete name)).bind fun _ => ih
  have deleting (keys : List Key) :
      Respects solvently (deletePayloads keys : Action Memory Unit) := by
    induction keys with
    | nil => exact .pure ()
    | cons key keys ih =>
      exact (respects_allowAbsence ((respects_ofExcept _).bind
        fun _ => solvently_delete _)).bind fun _ => ih
  refine (solvently_list.bind fun names => .pure _).bind fun keys =>
    (deleting keys).bind fun _ => ?_
  exact solvently_list.bind fun names => (deletingAll _).bind fun _ => solvently_writeAnchors

/-- A shelf that was opened cold on a solvent device is in use, and empty. -/
theorem inUse_of_openOn (solvent : m.Solvent) (cold : settings.cold = true)
    (opened : Runs (openOn settings) m (.ok shelf) m₀) :
    InUse settings.capacity (m₀, shelf) .empty ∧ 1 ≤ settings.capacity ∧ m₀.quota = m.quota := by
  obtain ⟨size, m₁, recovering, rest⟩ := opened.bind_ok
  obtain ⟨get, rfl⟩ := get?_of_recover cold recovering
  cases rest
  obtain ⟨_, m₂, validating, going⟩ := recovering.bind_ok
  obtain ⟨valid, rfl⟩ := validating.deterministic (Action.runs_ofExcept settings.validate m)
  rw [cold, if_pos rfl] at going
  have solvently_going : Respects solvently (do Ring.setUp; wipe; pure 0 : Action Memory Nat) := by
    refine .bind ?_ fun _ => solvently_wipe.bind fun _ => .pure 0
    refine (solvently_contains .head).bind fun head =>
      (solvently_contains .tail).bind fun tail => ?_
    exact .ite (fun _ => .pure ()) fun _ => solvently_writeAnchors
  have holds := holds_of_wiped get (solvently_going.run going solvent)
  refine ⟨⟨⟨holds, rfl⟩, rfl, Nat.zero_le _, Inventory.paid_empty⟩,
    capacity_of_validate valid.symm, ?_⟩
  exact (respects_openOn settings).run opened |>.quota

/-- Without a quota opening cold succeeds, whatever the device holds. -/
theorem opened_inUse (unlimited : m.quota = none) (quiet : m.fault = none)
    (cold : settings.cold = true) (positive : 1 ≤ settings.capacity)
    (most : settings.capacity ≤ maxCapacity) :
    ∃ m₀, Runs (openOn settings) m (.ok { capacity := settings.capacity }) m₀ ∧
      InUse settings.capacity (m₀, { capacity := settings.capacity }) .empty ∧
      m₀.quota = none := by
  obtain ⟨m₀, _, opened, -, -⟩ :=
    runs_openOn_cold (validate_of_bounds positive most) cold unlimited quiet
  obtain ⟨inUse, -, same⟩ :=
    inUse_of_openOn (Memory.solvent_of_unlimited unlimited quiet) cold opened
  exact ⟨m₀, opened, inUse, same.trans unlimited⟩

end GlyphShelf.Shelf

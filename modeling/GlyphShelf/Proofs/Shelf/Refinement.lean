import GlyphShelf.Proofs.Shelf.Operations

/-!
# A shelf follows a list of entries

A shelf that is opened cold on an empty device and then called again and again answers every
call as a plain list of entries does. One relation carries the proof: the shelf is stocked with
the entries, has the capacity it was opened with, and they fit. Opening establishes it and each
call keeps it, so it holds after any number of calls; what can be seen of the shelf and of its
device between the calls follows from it.
-/

namespace GlyphShelf.Shelf

open Payloads

variable {m : Memory} {shelf : Shelf} {s : Memory × Shelf} {entries : Entries} {capacity : Nat}
variable {key : Key} {bytes : Bytes} {settings : Settings}

/-- Examines the shelf and answers what was found. -/
def examined : Action (Memory × Shelf) (Option Breach) := fun s =>
  match (Shelf.check : Examination (Memory × Shelf) Unit) s with
  | .ok () s => .ok none s
  | .error breach s => .ok (some breach) s

theorem runs_examined {s' : Memory × Shelf} (run : Runs Shelf.check s (.ok ()) s') :
    Runs examined s (.ok none) s' := by
  unfold Runs at run ⊢
  rw [examined, run]

theorem respects_examined {frame : FrameCondition (Memory × Shelf)}
    (respects : Respects frame (Shelf.check : Examination (Memory × Shelf) Unit)) :
    Respects frame examined := by
  intro s
  have same : stateAfter examined s = stateAfter Shelf.check s := by
    unfold stateAfter examined
    cases Shelf.check s <;> rfl
  rw [same]
  exact respects s

def Call.act : Call → Action (Memory × Shelf) Reply
  | .put key bytes => do
    let size ← Shelf.put key bytes
    pure (.number size)
  | .get key => do
    let bytes ← Shelf.get key
    pure (.payload bytes)
  | .openEntry key => do
    let record ← Shelf.openEntry key
    let bytes ← Action.onFirst (Device.takeAll record)
    pure (.payload bytes)
  | .contains key => do
    let yes ← Shelf.contains key
    pure (.answer yes)
  | .keys => do
    let keys ← Shelf.keys
    pure (.keys keys)
  | .size => do
    let size ← Shelf.getSize
    pure (.number size)
  | .check => do
    let breach ← examined
    pure (.examined breach)
  | .reconcile => do
    let size ← Shelf.reconcile
    pure (.number size)
  | .reset => do
    Shelf.reset
    pure .done

/-- The shelf is stocked with entries that fit into the capacity it was opened with. -/
structure Keeps (capacity : Nat) (s : Memory × Shelf) (entries : Entries) : Prop where
  stocked : Stocked s.1 s.2 entries
  sized : s.2.capacity = capacity
  within : entries.length ≤ capacity

/-! ## Single calls -/

/-- A call answers as on the list, and leaves the shelf with the entries of the list. -/
def Refined (capacity : Nat) (s : Memory × Shelf) (entries : Entries) (call : Call) : Prop :=
  ∃ s', Runs call.act s (call.onEntries capacity entries).1 s' ∧
    Keeps capacity s' (call.onEntries capacity entries).2

theorem refined_of_run {call : Call} {answer : Except Failure Reply} {entries' : Entries}
    {s' : Memory × Shelf} (outcome : call.onEntries capacity entries = (answer, entries'))
    (run : Runs call.act s answer s') (keeps : Keeps capacity s' entries') :
    Refined capacity s entries call :=
  ⟨s', by rwa [outcome], by rwa [outcome]⟩

section

variable (keeps : Keeps capacity s entries)
include keeps

theorem put_refined (key : Key) (bytes : Bytes) : Refined capacity s entries (.put key bytes) := by
  by_cases anchor : key.IsAnchor
  · exact refined_of_run (putOnEntries_of_anchor anchor capacity bytes entries)
      (runs_put_of_anchor anchor bytes s).bind_error keeps
  obtain ⟨m', shelf', run, stocked', same⟩ := runs_put keeps.stocked anchor bytes
  rw [keeps.sized] at run stocked' same
  have within : ((toFront key bytes entries).take capacity).length ≤ capacity := by
    rw [List.length_take]
    exact Nat.min_le_left _ _
  exact refined_of_run (putOnEntries_of_glyph anchor capacity bytes entries)
    (run.bind (.pure _ _)) ⟨stocked', same, within⟩

/-- A use keeps the number of entries. -/
theorem keeps_use {s' : Memory × Shelf} (found : payloadOf entries key = some bytes)
    (same : s'.2.capacity = s.2.capacity)
    (stocked' : Stocked s'.1 s'.2 (toFront key bytes entries)) :
    Keeps capacity s' (toFront key bytes entries) where
  stocked := stocked'
  sized := same.trans keeps.sized
  within := by
    rw [keeps.stocked.length_toFront_of_member (mem_keysOf_of_payload found)]
    exact keeps.within

theorem keeps_missed (m' : Memory) (stocked' : Stocked m' s.2 entries) :
    Keeps capacity (m', s.2.record .miss) entries where
  stocked := stocked'.record .miss
  sized := keeps.sized
  within := keeps.within

theorem get_refined (key : Key) : Refined capacity s entries (.get key) := by
  by_cases anchor : key.IsAnchor
  · exact refined_of_run (useOnEntries_of_anchor anchor entries)
      (runs_get_of_anchor anchor s).bind_error keeps
  cases found : payloadOf entries key with
  | some bytes =>
    obtain ⟨m', run, -, stocked'⟩ := runs_get keeps.stocked found
    exact refined_of_run (useOnEntries_of_present anchor found) (run.bind (.pure _ _))
      (keeps_use keeps found rfl stocked')
  | none =>
    have run := runs_get_of_absent keeps.stocked anchor found
    exact refined_of_run (useOnEntries_of_absent anchor found) run.bind_error
      (keeps_missed keeps _ (keeps.stocked.spend 1))

theorem openEntry_refined (key : Key) : Refined capacity s entries (.openEntry key) := by
  by_cases anchor : key.IsAnchor
  · exact refined_of_run (useOnEntries_of_anchor anchor entries)
      (runs_openEntry_of_anchor anchor s).bind_error keeps
  cases found : payloadOf entries key with
  | some bytes =>
    obtain ⟨handle, m', opening, -, stocked', attached, start⟩ := runs_openEntry keeps.stocked found
    have stored : m'.get? (payloadName key) = some bytes := by
      rw [stocked'.stores.payload, payloadOf_toFront, Function.update_self]
    have reading := Memory.runs_takeAll (Memory.allows_of_none stocked'.quiet _) attached start
      stored
    exact refined_of_run (useOnEntries_of_present anchor found)
      (opening.bind ((Action.runs_onFirst reading _).bind (.pure _ _)))
      (keeps_use keeps found rfl (stocked'.spend _))
  | none =>
    have run := runs_openEntry_of_absent keeps.stocked anchor found
    exact refined_of_run (useOnEntries_of_absent anchor found) run.bind_error
      (keeps_missed keeps _ (keeps.stocked.spend 1))

theorem contains_refined (key : Key) : Refined capacity s entries (.contains key) := by
  obtain ⟨count, run⟩ := runs_contains keeps.stocked key
  exact ⟨_, run.bind (.pure _ _), keeps.stocked.spend count, keeps.sized, keeps.within⟩

theorem keys_refined : Refined capacity s entries .keys := by
  obtain ⟨count, run⟩ := runs_keys keeps.stocked
  exact ⟨_, run.bind (.pure _ _), keeps.stocked.spend count, keeps.sized, keeps.within⟩

theorem size_refined : Refined capacity s entries .size := by
  have run : Runs getSize s (.ok entries.length) s := by
    rw [← keeps.stocked.size]
    rfl
  exact ⟨s, run.bind (.pure _ _), keeps⟩

theorem check_refined : Refined capacity s entries .check := by
  obtain ⟨count, run⟩ := runs_check keeps.stocked
  exact ⟨_, (runs_examined run).bind (.pure _ _), keeps.stocked.spend count, keeps.sized,
    keeps.within⟩

theorem reconcile_refined : Refined capacity s entries .reconcile := by
  obtain ⟨m', shelf', run, -, stocked', same⟩ := runs_reconcile keeps.stocked
  rw [keeps.sized] at run stocked' same
  rw [List.take_of_length_le keeps.within] at run stocked'
  exact ⟨(m', shelf'), run.bind (.pure _ _), stocked', same, keeps.within⟩

theorem reset_refined : Refined capacity s entries .reset := by
  obtain ⟨m', run, stocked'⟩ := runs_reset keeps.stocked
  exact ⟨_, run.bind (.pure _ _), stocked', keeps.sized, Nat.zero_le capacity⟩

theorem call_refined (call : Call) : Refined capacity s entries call := by
  cases call with
  | put key bytes => exact put_refined keeps key bytes
  | get key => exact get_refined keeps key
  | openEntry key => exact openEntry_refined keeps key
  | contains key => exact contains_refined keeps key
  | keys => exact keys_refined keeps
  | size => exact size_refined keeps
  | check => exact check_refined keeps
  | reconcile => exact reconcile_refined keeps
  | reset => exact reset_refined keeps

end

/-! ## Sequences of calls -/

/-- The answers of calls to a shelf on a device, and the state after the last of them. -/
def answers (calls : List Call) (s : Memory × Shelf) :
    List (Except Failure Reply) × (Memory × Shelf) :=
  outcomes (fun call => call.act.step) calls s

def listAnswers (capacity : Nat) (calls : List Call) (entries : Entries) :
    List (Except Failure Reply) × Entries :=
  outcomes (fun call => call.onEntries capacity) calls entries

theorem answers_eq (keeps : Keeps capacity s entries) (calls : List Call) :
    (answers calls s).1 = (listAnswers capacity calls entries).1 ∧
      Keeps capacity (answers calls s).2 (listAnswers capacity calls entries).2 := by
  refine outcomes_agree (fun call s entries keeps => ?_) calls keeps
  obtain ⟨s', run, keeps'⟩ := call_refined keeps call
  rw [run.step_eq]
  exact ⟨rfl, keeps'⟩

theorem validate_of_bounds (positive : 1 ≤ settings.capacity)
    (most : settings.capacity ≤ maxCapacity) : settings.validate = .ok () := by
  rw [Settings.validate, if_neg (by omega), if_neg (by omega)]

/-- Opening cold on an empty device starts with no entries. -/
theorem opened_keeps (empty : ∀ name, m.get? name = none) (unlimited : m.quota = none)
    (quiet : m.fault = none) (cold : settings.cold = true) (positive : 1 ≤ settings.capacity)
    (most : settings.capacity ≤ maxCapacity) :
    ∃ m₀, Runs (openOn settings) m (.ok { capacity := settings.capacity }) m₀ ∧
      Keeps settings.capacity (m₀, { capacity := settings.capacity }) [] := by
  obtain ⟨m₀, count, run, spends, get⟩ :=
    runs_openOn_cold (validate_of_bounds positive most) cold unlimited quiet
  have stores := stores_wiped fun name _ _ => empty name
  rw [← get] at stores
  exact ⟨m₀, run, ⟨stores, rfl, spends.quota.trans unlimited, spends.fault_eq_none quiet⟩, rfl,
    Nat.zero_le _⟩

/-! ## What is seen between calls -/

/-- A shelf and its device, looked at from outside, are those of the entries. -/
structure Presents (s : Memory × Shelf) (entries : Entries) : Prop where
  examined : ∃ s', Runs check s (.ok ()) s'
  size : s.2.size = entries.length
  present : ∀ name, s.1.get? name ≠ none ↔
    name = Ring.linkName .head ∨ name = Ring.linkName .tail ∨
      ∃ key ∈ keysOf entries, name = Ring.linkName key ∨ name = payloadName key
  ring : Ring.Holds s.1.get? (keysOf entries)
  payloads : ∀ key bytes, (key, bytes) ∈ entries → s.1.get? (payloadName key) = some bytes

theorem Stocked.present_iff (stocked : Stocked m shelf entries) (name : String) :
    m.get? name ≠ none ↔ name = Ring.linkName .head ∨ name = Ring.linkName .tail ∨
      ∃ key ∈ keysOf entries, name = Ring.linkName key ∨ name = payloadName key := by
  have links := stocked.stores.holds.present
  constructor
  · intro present
    by_cases link : ∃ key, name = Ring.linkName key
    · obtain ⟨key, rfl⟩ := link
      rcases (links key).1 (Option.isSome_iff_ne_none.2 present) with anchor | member
      · rcases anchor with rfl | rfl
        · exact .inl rfl
        · exact .inr (.inl rfl)
      · exact .inr (.inr ⟨key, member, .inl rfl⟩)
    by_cases payload : ∃ key, name = payloadName key
    · obtain ⟨key, rfl⟩ := payload
      rw [stocked.stores.payload, ne_eq, payloadOf_eq_none_iff, not_not] at present
      exact .inr (.inr ⟨key, present, .inr rfl⟩)
    · exact absurd (stocked.stores.others name (fun key same => link ⟨key, same⟩)
        fun key same => payload ⟨key, same⟩) present
  · rintro (rfl | rfl | ⟨key, member, rfl | rfl⟩)
    · exact Option.isSome_iff_ne_none.1 ((links .head).2 (.inl (.inl rfl)))
    · exact Option.isSome_iff_ne_none.1 ((links .tail).2 (.inl (.inr rfl)))
    · exact Option.isSome_iff_ne_none.1 ((links key).2 (.inr member))
    · rw [stocked.stores.payload, ne_eq, payloadOf_eq_none_iff, not_not]
      exact member

theorem Stocked.presents (stocked : Stocked s.1 s.2 entries) : Presents s entries where
  examined := by
    obtain ⟨count, run⟩ := runs_check stocked
    exact ⟨_, run⟩
  size := stocked.size
  present := stocked.present_iff
  ring := stocked.stores.holds
  payloads key bytes member := by
    rw [stocked.stores.payload, payloadOf_of_mem stocked.nodup member]

/-- However a shelf is called after it was opened cold on an empty device, it answers as a list
of entries, most recent first, and what can be seen of it afterwards is that list. -/
theorem shelf_follows_entries (empty : ∀ name, m.get? name = none) (unlimited : m.quota = none)
    (quiet : m.fault = none) (cold : settings.cold = true) (positive : 1 ≤ settings.capacity)
    (most : settings.capacity ≤ 65534) :
    ∃ m₀, Runs (openOn settings) m (.ok { capacity := settings.capacity }) m₀ ∧
      ∀ calls, (answers calls (m₀, { capacity := settings.capacity })).1 =
          (listAnswers settings.capacity calls []).1 ∧
        Presents (answers calls (m₀, { capacity := settings.capacity })).2
          (listAnswers settings.capacity calls []).2 := by
  obtain ⟨m₀, opening, keeps⟩ := opened_keeps empty unlimited quiet cold positive most
  refine ⟨m₀, opening, fun calls => ?_⟩
  obtain ⟨same, keeps'⟩ := answers_eq keeps calls
  exact ⟨same, keeps'.stocked.presents⟩

/-- Two glyphs fit; the third pushes out the one that was not read. -/
theorem third_glyph_drops_unread :
    ∃ m₀, Runs (openOn { capacity := 2 }) ({} : Memory) (.ok { capacity := 2 }) m₀ ∧
      (answers [.put ⟨1⟩ [7], .put ⟨2⟩ [], .get ⟨1⟩, .put ⟨3⟩ [9, 9], .get ⟨2⟩, .put ⟨0⟩ [],
        .keys] (m₀, { capacity := 2 })).1 =
        [.ok (.number 1), .ok (.number 2), .ok (.payload [7]), .ok (.number 2),
          .error .notFound, .error (.reservedKey .head), .ok (.keys [⟨3⟩, ⟨1⟩])] := by
  obtain ⟨m₀, opening, follows⟩ := shelf_follows_entries (m := {}) (fun _ => rfl) rfl rfl
    (rfl : ({ capacity := 2 } : Settings).cold = true) (by decide) (by decide)
  refine ⟨m₀, opening, (follows _).1.trans ?_⟩
  decide

end GlyphShelf.Shelf

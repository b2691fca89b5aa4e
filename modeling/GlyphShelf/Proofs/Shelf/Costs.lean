import GlyphShelf.Proofs.Shelf.Desks
import GlyphShelf.Proofs.Shelf.Restart

/-!
# What calls cost

No call walks the ring, and none looks at more than the records of its own key and of the keys
next to it. So on a device without limits a call takes a number of operations that depends on what
it has to do alone: on whether its key is on the shelf, comes first there and has to make room, and
for a read on how long the payload is. It depends neither on which key that is nor on how many
others there are.

The numbers were found together with the run of each operation on a stocked shelf. What is left is
that a shelf stays `Filled`, with no more entries than it has room for, in everything that is done
with it: operations are refined by what they do to the entries, and what is done with records that
are open changes none of them.
-/

namespace GlyphShelf.Shelf

open Payloads

variable {m m' : Memory} {s : Memory × Shelf} {shelf : Shelf} {entries : Entries} {key : Key}
variable {settings : Settings} {bytes : Bytes} {α : Type}

/-! ## Stocked shelves stay stocked -/

/-- The shelf and its device have entries, no more than there is room for. -/
def Filled (s : Memory × Shelf) : Prop := ∃ entries, Keeps s.2.capacity s entries

theorem filled_of_keeps {capacity : Nat} (keeps : Keeps capacity s entries) : Filled s :=
  ⟨entries, keeps.stocked, rfl, keeps.sized ▸ keeps.within⟩

/-- What changes no record changes nothing of this. -/
theorem Filled.within (filled : Filled (m, shelf)) (within : m.Within ∅ m') :
    Filled (m', shelf) := by
  obtain ⟨entries, stocked, sized, fits⟩ := filled
  have same : m'.get? = m.get? := funext fun name => within.get? name (Set.notMem_empty name)
  refine ⟨entries, ⟨?_, stocked.size, within.quota.trans stocked.unlimited,
    within.quiet stocked.quiet⟩, sized, fits⟩
  rw [same]
  exact stocked.stores

theorem Filled.call (filled : Filled s) (call : Call) : Filled (stateAfter call.act s) := by
  obtain ⟨entries, keeps⟩ := filled
  obtain ⟨s', run, keeps'⟩ := call_refined keeps call
  rw [run.stateAfter_eq]
  exact filled_of_keeps keeps'

theorem Filled.openEntry (filled : Filled s) (key : Key) :
    Filled (stateAfter (Shelf.openEntry key : Action (Memory × Shelf) Memory.Handle) s) := by
  obtain ⟨entries, keeps⟩ := filled
  by_cases anchor : key.IsAnchor
  · rw [(runs_openEntry_of_anchor anchor s).stateAfter_eq]
    exact ⟨entries, keeps⟩
  cases found : payloadOf entries key with
  | some bytes =>
    obtain ⟨handle, m', opening, -, stocked', -⟩ := runs_openEntry keeps.stocked found
    rw [opening.stateAfter_eq]
    exact filled_of_keeps (keeps_use keeps found rfl stocked')
  | none =>
    rw [(runs_openEntry_of_absent keeps.stocked anchor found).stateAfter_eq]
    exact filled_of_keeps (keeps_missed keeps _ (keeps.stocked.spend 1))

/-- A shelf that is opened warm takes over as many of the entries as it has room for. -/
theorem runs_openOn_warm (stocked : Stocked m shelf entries) (valid : settings.validate = .ok ())
    (warm : settings.cold = false) :
    ∃ m' shelf', Runs (openOn settings) m (.ok shelf') m' ∧
      Keeps settings.capacity (m', shelf') (entries.take settings.capacity) := by
  have setting := Ring.runs_setUp_of_ring stocked.shows stocked.ring stocked.quiet
  have set := stocked.spend 4
  have walking := Ring.runs_walk set.shows.reads set.quiet set.ring.passes
  rw [Memory.spend_spend] at walking
  have recovering : Runs (recover settings) m (.ok (keysOf entries).length)
      (m.spend (4 + (3 + 3 * (keysOf entries).length))) := by
    rw [recover_warm valid warm]
    exact setting.bind (walking.bind (.pure _ _))
  have walked := stocked.spend (4 + (3 + 3 * (keysOf entries).length))
  have counted : Stocked (m.spend (4 + (3 + 3 * (keysOf entries).length)))
      { capacity := settings.capacity, size := (keysOf entries).length } entries :=
    ⟨walked.stores, length_keysOf entries, walked.unlimited, walked.quiet⟩
  obtain ⟨m', shelf', keeping, -, stocked', same⟩ := runs_reconcile counted
  refine ⟨m', shelf', runs_openOn_of_recovered recovering keeping, stocked', same, ?_⟩
  rw [List.length_take]
  exact Nat.min_le_left _ _

theorem Filled.reopen (filled : Filled s) (settings : Settings) :
    Filled ((Operation.reopen settings).after s) := by
  have kept := filled
  obtain ⟨entries, keeps⟩ := filled
  unfold Operation.after
  dsimp only
  cases valid : settings.validate with
  | error e =>
    rw [(runs_openOn_of_invalid valid s.1).error_eq]
    exact kept
  | ok _ =>
    cases cold : settings.cold with
    | true =>
      obtain ⟨m', count, opening, spends, get⟩ :=
        runs_openOn_cold valid cold keeps.stocked.unlimited keeps.stocked.quiet
      rw [opening.ok_eq]
      have stores := stores_wiped keeps.stocked.owned
      rw [← get] at stores
      exact ⟨[], ⟨stores, rfl, spends.quota.trans keeps.stocked.unlimited,
        spends.fault_eq_none keeps.stocked.quiet⟩, rfl, Nat.zero_le _⟩
    | false =>
      obtain ⟨m', shelf', opening, keeps'⟩ := runs_openOn_warm keeps.stocked valid cold
      rw [opening.ok_eq]
      exact filled_of_keeps keeps'

theorem Filled.after (filled : Filled s) (operation : Operation) : Filled (operation.after s) := by
  cases operation with
  | openEntry key => exact filled.openEntry key
  | reopen settings => exact filled.reopen settings
  | check =>
    obtain ⟨entries, keeps⟩ := filled
    obtain ⟨count, run⟩ := runs_check keeps.stocked
    change Filled (stateAfter Shelf.check s)
    rw [run.stateAfter_eq]
    exact filled_of_keeps ⟨keeps.stocked.spend count, keeps.sized, keeps.within⟩
  | put key bytes =>
    simpa only [Operation.after, Call.act, stateAfter_bind_pure] using filled.call (.put key bytes)
  | get key =>
    simpa only [Operation.after, Call.act, stateAfter_bind_pure] using filled.call (.get key)
  | reset => simpa only [Operation.after, Call.act, stateAfter_bind_pure] using filled.call .reset
  | reconcile =>
    simpa only [Operation.after, Call.act, stateAfter_bind_pure] using filled.call .reconcile
  | contains key =>
    simpa only [Operation.after, Call.act, stateAfter_bind_pure] using filled.call (.contains key)
  | keys => simpa only [Operation.after, Call.act, stateAfter_bind_pure] using filled.call .keys

/-- Open entries are only read, and reading changes no record. -/
theorem Filled.take {desk : Desk Memory Memory.Handle} (filled : Filled desk.1) (step : Step) :
    Filled (step.take desk).2.1 := by
  cases operates : step.operation? with
  | some operation =>
    rw [Step.site_of_operation operates]
    exact filled.after operation
  | none =>
    obtain ⟨⟨m, shelf⟩, handles⟩ := desk
    have ticking : Respects (Memory.within ∅).onFirst
        (Action.onFirst Memory.tick : Action (Memory × Memory.Handle) Unit) :=
      respects_onFirst Memory.respects_tick
    obtain ⟨still, same⟩ := Step.respects_perform_of_reading
      (fun count => ticking.bind fun _ s => (Memory.within ∅).refl s.1)
      (fun pos => ticking.bind fun _ s => (Memory.within ∅).refl s.1) Memory.respects_close operates
      ((m, shelf), handles)
    rw [← Step.take_snd] at still same
    generalize (step.take ((m, shelf), handles)).2 = last at still same
    obtain ⟨⟨m', shelf'⟩, handles'⟩ := last
    obtain rfl : shelf' = shelf := same
    exact filled.within still

def afterSteps (steps : List Step) (site : Memory × Shelf) : Memory × Shelf :=
  (outcomes Step.take steps (site, fun _ => none)).2.1

theorem Filled.steps (filled : Filled s) (steps : List Step) : Filled (afterSteps steps s) :=
  outcomes_preserve (fun desk : Desk Memory Memory.Handle => Filled desk.1)
    (fun step _ filled => filled.take step) steps filled

/-! ## Numbers of operations -/

/-- The action ends with this answer, after so many operations of the device. -/
def Costs (act : Action (Memory × Shelf) α) (s : Memory × Shelf) (answer : Except Failure α)
    (count : Nat) : Prop :=
  ∃ s', Runs act s answer s' ∧ s'.1.ops = s.1.ops + count

section

variable (keeps : Keeps s.2.capacity s entries)
include keeps

theorem costs_put_of_fresh (glyph : ¬ key.IsAnchor) (fresh : key ∉ keysOf entries)
    (bytes : Bytes) :
    Costs (put key bytes) s (.ok (min s.2.capacity (entries.length + 1)))
      (if entries.length < s.2.capacity then 19 else 35) := by
  obtain ⟨m', shelf', run, spends, -⟩ := runs_put_of_fresh keeps.stocked glyph bytes fresh
  have within := keeps.within
  rw [List.length_take, keeps.stocked.length_toFront_of_fresh fresh] at run
  refine ⟨(m', shelf'), run, spends.ops.trans ?_⟩
  split <;> omega

theorem costs_put_of_member (glyph : ¬ key.IsAnchor) (member : key ∈ keysOf entries)
    (bytes : Bytes) :
    Costs (put key bytes) s (.ok entries.length)
      (if (keysOf entries).head? = some key then 8 else 30) := by
  obtain ⟨m', shelf', run, spends, -⟩ := runs_put_of_member keeps.stocked glyph bytes member
  have within := keeps.within
  rw [List.length_take, keeps.stocked.length_toFront_of_member member,
    Nat.min_eq_right within] at run
  refine ⟨(m', shelf'), run, spends.ops.trans ?_⟩
  unfold promotionCost
  split <;> omega

theorem costs_get (found : payloadOf entries key = some bytes) :
    Costs (get key) s (.ok bytes) (3 + (bytes.length + 255) / 256 +
      if (keysOf entries).head? = some key then 3 else 25) := by
  obtain ⟨m', run, spends, -⟩ := runs_get keeps.stocked found
  refine ⟨(m', s.2.record .hit), run, spends.ops.trans ?_⟩
  unfold promotionCost Memory.chunkReads
  omega

theorem costs_get_of_absent (glyph : ¬ key.IsAnchor) (absent : payloadOf entries key = none) :
    Costs (get key) s (.error .notFound) 1 :=
  ⟨_, runs_get_of_absent keeps.stocked glyph absent, rfl⟩

end

/-- What the next call costs, told by the keys on the shelf from the most recently used on. -/
structure Priced (s : Memory × Shelf) (linked : List Key) : Prop where
  keys : ∃ s', Runs keys s (.ok linked) s'
  counted : s.2.size = linked.length
  fits : linked.length ≤ s.2.capacity
  put_fresh : ∀ key : Key, ¬ key.IsAnchor → key ∉ linked → ∀ bytes,
    Costs (put key bytes) s (.ok (min s.2.capacity (linked.length + 1)))
      (if linked.length < s.2.capacity then 19 else 35)
  put_member : ∀ key ∈ linked, ∀ bytes,
    Costs (put key bytes) s (.ok linked.length) (if linked.head? = some key then 8 else 30)
  get_member : ∀ key ∈ linked, ∃ bytes, s.1.get? (payloadName key) = some bytes ∧
    Costs (get key) s (.ok bytes)
      (3 + (bytes.length + 255) / 256 + if linked.head? = some key then 3 else 25)
  get_absent : ∀ key : Key, ¬ key.IsAnchor → key ∉ linked → Costs (get key) s (.error .notFound) 1

theorem Filled.priced (filled : Filled s) : ∃ linked, Priced s linked := by
  obtain ⟨entries, keeps⟩ := filled
  obtain ⟨count, walking⟩ := runs_keys keeps.stocked
  have length := length_keysOf entries
  refine ⟨keysOf entries, ⟨_, walking⟩, keeps.stocked.size.trans length.symm,
    length ▸ keeps.within, fun key glyph fresh bytes => ?_, fun key member bytes => ?_,
    fun key member => ?_, fun key glyph fresh => ?_⟩
  · rw [length]
    exact costs_put_of_fresh keeps glyph fresh bytes
  · rw [length]
    exact costs_put_of_member keeps (keeps.stocked.glyph member) member bytes
  · cases found : payloadOf entries key with
    | some bytes =>
      exact ⟨bytes, (keeps.stocked.stores.payload key).trans found, costs_get keeps found⟩
    | none => exact absurd member (payloadOf_eq_none_iff.1 found)
  · exact costs_get_of_absent keeps glyph (payloadOf_eq_none_iff.2 fresh)

/-! ## The main statement -/

/-- Whatever was done with a shelf that was opened cold on an empty device without limits, the next
call takes a number of operations of the device that is told by what it has to do: 19 to store a
glyph under a new key if there is room and 35 if there is not, 8 to store one under the key used
last and 30 under another one on the shelf, and 1 to find that a glyph is not there. A glyph that is
there takes as many as its payload has chunks, and 6 or 28 besides. -/
theorem storage_work_is_constant (empty : ∀ name, m.get? name = none) (unlimited : m.quota = none)
    (quiet : m.fault = none) (cold : settings.cold = true) (positive : 1 ≤ settings.capacity)
    (most : settings.capacity ≤ 65534) :
    ∃ m₀, Runs (openOn settings) m (.ok { capacity := settings.capacity }) m₀ ∧
      ∀ steps, ∃ linked,
        Priced (afterSteps steps (m₀, { capacity := settings.capacity })) linked := by
  obtain ⟨m₀, opening, start⟩ := opened_keeps empty unlimited quiet cold positive most
  exact ⟨m₀, opening, fun steps => ((filled_of_keeps start).steps steps).priced⟩

def storedTwice : Memory × Shelf :=
  afterSteps [.operate (.put ⟨1⟩ [7]), .operate (.put ⟨2⟩ [])]
    (stateAfter (openOn { capacity := 2 }) ({} : Memory), { capacity := 2 })

/-- A third glyph has to make room, and the one that was stored first is read as the last one. -/
theorem third_put_costs_eviction :
    (∃ m₀, Runs (openOn { capacity := 2 }) ({} : Memory) (.ok { capacity := 2 }) m₀) ∧
      Costs (put ⟨3⟩ [9]) storedTwice (.ok 2) 35 ∧ Costs (put ⟨2⟩ [9]) storedTwice (.ok 2) 8 ∧
      Costs (get ⟨1⟩) storedTwice (.ok [7]) 29 ∧
      Costs (get ⟨3⟩) storedTwice (.error .notFound) 1 := by
  obtain ⟨m₀, opened, constant⟩ := storage_work_is_constant (m := {}) (fun _ => rfl) rfl rfl
    (rfl : ({ capacity := 2 } : Settings).cold = true) (by decide) (by decide)
  obtain rfl := opened.stateAfter_eq
  obtain ⟨linked, priced⟩ : ∃ linked, Priced storedTwice linked :=
    constant [.operate (.put ⟨1⟩ [7]), .operate (.put ⟨2⟩ [])]
  obtain ⟨s', walking⟩ := priced.keys
  have walked : Runs keys storedTwice (.ok [⟨2⟩, ⟨1⟩]) _ := runs_of_step (by decide +kernel)
  obtain rfl : linked = [⟨2⟩, ⟨1⟩] := Except.ok.inj (walking.deterministic walked).1
  have room : storedTwice.2.capacity = 2 := by decide +kernel
  have stored : storedTwice.1.get? (payloadName ⟨1⟩) = some [7] := by decide +kernel
  have evicting := priced.put_fresh ⟨3⟩ (by decide) (by decide) [9]
  have replacing := priced.put_member ⟨2⟩ (by decide) [9]
  obtain ⟨bytes, found, reading⟩ := priced.get_member ⟨1⟩ (by decide)
  have missing := priced.get_absent ⟨3⟩ (by decide) (by decide)
  obtain rfl : [7] = bytes := Option.some.inj (stored.symm.trans found)
  rw [room] at evicting
  exact ⟨⟨_, opened⟩, evicting, replacing, reading, missing⟩

end GlyphShelf.Shelf

import GlyphShelf.Proofs.Memory.Limits
import GlyphShelf.Proofs.Memory.Space
import GlyphShelf.Proofs.Ring.Operations

/-!
# The ring under a quota

A change of the order overwrites fields of links that are there and stores again the link of the
key that it moves, so it never takes more space than the ring had before. It takes less in
between, which is why the accounts matter: what a link gives back has to be there when the link
is stored again.

`Affords` says that whatever an action achieves without limits it achieves within them. It is
put together along the ways in which actions are; the states it speaks of are those in which no
record is larger than in one state that is known to fit. Only a new link asks for space, and if
there is none it leaves nothing behind.
-/

namespace GlyphShelf

variable {α β : Type} {sound : Memory → Prop} {m : Memory}

/-- From a sound device, what the action achieves without limits it also achieves within them,
and the device stays sound. -/
def Affords (sound : Memory → Prop) (act : Action Memory α) : Prop :=
  ∀ m a free, sound m → Runs act m.unbound (.ok a) free →
    ∃ m', Runs act m (.ok a) m' ∧ m'.unbound = free ∧ sound m'

namespace Affords

variable {act : Action Memory α} {next : α → Action Memory β}

/-- It is enough that the action ends in the same way with and without limits. -/
theorem of_runs (runs : ∀ m, sound m → ∃ result m', Runs act m result m' ∧
    Runs act m.unbound result m'.unbound ∧ sound m') : Affords sound act := by
  intro m a free start run
  obtain ⟨result, m', within, without, last⟩ := runs m start
  obtain ⟨rfl, rfl⟩ := run.deterministic without
  exact ⟨m', within, rfl, last⟩

/-- It is enough that the action succeeds. -/
theorem of_success (carries : Carries Memory.unbound act)
    (succeeds : ∀ m, sound m → ∃ a m', Runs act m (.ok a) m' ∧ sound m') : Affords sound act := by
  apply of_runs
  intro m start
  obtain ⟨a, m', run, last⟩ := succeeds m start
  exact ⟨.ok a, m', run, carries m a m' run, last⟩

theorem pure (a : α) : Affords sound (Pure.pure a : Action Memory α) :=
  of_runs fun m start => ⟨.ok a, m, .pure a m, .pure a _, start⟩

theorem throw_bind (e : Failure) (next : α → Action Memory β) :
    Affords sound (MonadExcept.throw e >>= next) :=
  of_runs fun m start =>
    ⟨.error e, m, (Runs.throw e m).bind_error, (Runs.throw e _).bind_error, start⟩

theorem ofExcept (result : Except Failure α) : Affords sound (Action.ofExcept result) :=
  of_runs fun m start =>
    ⟨result, m, Action.runs_ofExcept result m, Action.runs_ofExcept result _, start⟩

theorem bind (first : Affords sound act) (rest : ∀ a, Affords sound (next a)) :
    Affords sound (act >>= next) := by
  intro m b free start run
  obtain ⟨a, free₁, begun, ended⟩ := run.bind_ok
  obtain ⟨m₁, run₁, rfl, between⟩ := first m a free₁ start begun
  obtain ⟨m₂, run₂, rfl, last⟩ := rest a m₁ b free between ended
  exact ⟨m₂, run₁.bind run₂, rfl, last⟩

theorem ite {condition : Prop} [Decidable condition] {act' : Action Memory α}
    (positive : Affords sound act) (negative : Affords sound act') :
    Affords sound (if condition then act else act') := by
  split
  · exact positive
  · exact negative

theorem orCleanUp {cleanUp : Action Memory Unit} (affords : Affords sound act) :
    Affords sound (Action.orCleanUp act cleanUp) := by
  intro m a free start run
  have acting : Runs act m.unbound (.ok a) free := by
    unfold Runs Action.orCleanUp at run
    split at run
    · rename_i done
      cases run
      exact done
    · split at run <;> cases run
  obtain ⟨m', run', same, last⟩ := affords m a free start acting
  exact ⟨m', Action.runs_orCleanUp run', same, last⟩

end Affords

namespace Ring

variable {limit : Option Nat} {most : String → Option Bytes} {keys front : List Key} {key : Key}
variable {link : Link} {table : Table} {m' : Memory} {count : Nat}

/-! ## States that fit -/

/-- The device is solvent, every link has its size, and no record is larger than the given one of
the same name. -/
structure Under (limit : Option Nat) (most : String → Option Bytes) (m : Memory) : Prop where
  quota : m.quota = limit
  solvent : m.Solvent
  whole : ∀ key bytes, m.get? (linkName key) = some bytes → bytes.length = Link.size
  below : ∀ name, Memory.extent (m.get? name) ≤ Memory.extent (most name)

theorem Under.spend (under : Under limit most m) (count : Nat) :
    Under limit most (m.spend count) where
  quota := under.quota
  solvent := under.solvent.spend count
  whole := under.whole
  below := under.below

/-- Setting a record to one that is not too large. -/
theorem Under.sets {name : String} {value : Option Bytes} (under : Under limit most m)
    (sets : m.Sets count name value m') (solvent : m'.Solvent)
    (whole : ∀ key bytes, name = linkName key → value = some bytes → bytes.length = Link.size)
    (small : Memory.extent value ≤ Memory.extent (most name)) : Under limit most m' where
  quota := sets.quota.trans under.quota
  solvent := solvent
  whole key bytes stored := by
    rw [sets.get?] at stored
    by_cases same : linkName key = name
    · rw [same, Function.update_self] at stored
      exact whole key bytes same.symm stored
    · rw [Function.update_of_ne same] at stored
      exact under.whole key bytes stored
  below other := by
    rw [sets.get?]
    by_cases same : other = name
    · rw [same, Function.update_self]
      exact small
    · rw [Function.update_of_ne same]
      exact under.below other

/-! ## Single links -/

theorem affords_hasRecord (name : String) :
    Affords (Under limit most) (Device.hasRecord name : Action Memory Bool) := by
  apply Affords.of_runs
  intro m under
  have quiet := under.solvent.allows
  have free (count : Nat) : m.unbound.Allows count := Memory.allows_of_none rfl count
  cases stored : m.get? name with
  | none =>
    exact ⟨_, _, Memory.runs_hasRecord_of_absent (quiet 1) stored,
      Memory.runs_hasRecord_of_absent (free 1) stored, under.spend 1⟩
  | some bytes =>
    exact ⟨_, _, Memory.runs_hasRecord (quiet 2) stored, Memory.runs_hasRecord (free 2) stored,
      under.spend 2⟩

theorem affords_readLink (key : Key) :
    Affords (Under limit most) (readLink key : Action Memory Link) := by
  apply Affords.of_runs
  intro m under
  have quiet := under.solvent.allows
  have free (count : Nat) : m.unbound.Allows count := Memory.allows_of_none rfl count
  cases stored : m.get? (linkName key) with
  | none =>
    exact ⟨_, _, (Memory.runs_readHead_of_absent (quiet 1) stored).bind_error,
      (Memory.runs_readHead_of_absent (free 1) stored).bind_error, under.spend 1⟩
  | some bytes =>
    have enough : Link.size ≤ bytes.length := Nat.le_of_eq (under.whole key bytes stored).symm
    exact ⟨_, _, (Memory.runs_readHead (quiet 3) stored (by decide) enough).bind
      (Action.runs_ofExcept _ _), (Memory.runs_readHead (free 3) stored (by decide) enough).bind
      (Action.runs_ofExcept _ _), under.spend 3⟩

theorem affords_orDangling {act : Action Memory α} (affords : Affords (Under limit most) act) :
    Affords (Under limit most) (orDangling key act) := by
  intro m a free under run
  have acting : Runs act m.unbound (.ok a) free := by
    unfold Runs orDangling at run
    split at run
    · rename_i done
      cases run
      exact done
    · cases run
    · cases run
  obtain ⟨m', run', same, last⟩ := affords m a free under acting
  exact ⟨m', runs_orDangling_mapError run', same, last⟩

theorem affords_neighbours (key : Key) :
    Affords (Under limit most) (neighbours key : Action Memory Link) :=
  affords_orDangling (affords_readLink key)

/-- Overwriting a field of a link asks for no space. -/
theorem affords_patch (key : Key) (field : Link.Field) (value : Key) :
    Affords (Under limit most) (patch key field value : Action Memory Unit) := by
  apply affords_orDangling
  apply Affords.of_runs
  intro m under
  have free (count : Nat) : m.unbound.Allows count := Memory.allows_of_none rfl count
  cases stored : m.get? (linkName key) with
  | none =>
    exact ⟨_, _,
      Device.runs_withRecord_of_unopened
        (Memory.runs_openRecord_of_absent _ (under.solvent.allows 1) stored rfl),
      Device.runs_withRecord_of_unopened
        (Memory.runs_openRecord_of_absent _ (free 1) stored rfl), under.spend 1⟩
  | some old =>
    have size := under.whole key old stored
    have inside : field.offset + value.encode.length ≤ old.length := by
      rw [size, Key.length_encode]
      exact field.offset_add_two_le
    obtain ⟨m', run, sets, solvent⟩ := Memory.runs_overwrite_inside under.solvent stored
      field.offset value.encode inside
    have length : (Bytes.overlay old field.offset value.encode).length = old.length := by
      rw [Bytes.length_overlay, Nat.max_eq_left inside]
    have carries : Carries Memory.unbound (Device.withRecord (linkName key) .readWrite do
        Device.seek field.offset
        Device.write value.encode : Action Memory Unit) :=
      Memory.carries_withRecord _ _ ((Memory.carries_seek _).bind fun _ => Memory.carries_write _)
    refine ⟨_, m', run, carries m () m' run, under.sets sets solvent ?_ ?_⟩
    · intro other bytes _ same
      obtain rfl : Bytes.overlay old field.offset value.encode = bytes := Option.some.inj same
      rw [length, size]
    · rw [Memory.extent_some, length, ← Memory.extent_some, ← stored]
      exact under.below (linkName key)

theorem affords_delete (name : String) :
    Affords (Under limit most) (Device.delete name : Action Memory Unit) := by
  apply Affords.of_runs
  intro m under
  obtain ⟨result, m', run, sets, solvent⟩ := Memory.runs_delete_solvent under.solvent name
  refine ⟨result, m', run, ?_, under.sets sets solvent nofun (Nat.zero_le _)⟩
  cases result with
  | ok _ => exact Memory.carries_delete name m () m' run
  | error e =>
    by_cases absent : m.get? name = none
    · have missing := Memory.runs_delete_of_absent (under.solvent.allows 1) absent
      obtain ⟨same, -⟩ := run.deterministic missing
      cases same
      exact Memory.runs_delete_unbound run
    · obtain ⟨m'', deleting, -⟩ := Memory.runs_delete (under.solvent.allows 1) absent
      cases (run.deterministic deleting).1

theorem affords_discard (name : String) :
    Affords (Under limit most) (Action.allowAbsence (Device.delete name) : Action Memory Unit) := by
  apply Affords.of_success (Memory.carries_discard name)
  intro m under
  obtain ⟨m', run, sets, solvent⟩ := Memory.runs_discard_solvent under.solvent name
  exact ⟨(), m', run, under.sets sets solvent nofun (Nat.zero_le _)⟩

theorem affords_list :
    Affords (Under limit most) (Device.list : Action Memory (List String)) := by
  apply Affords.of_success Memory.carries_list
  intro m under
  exact ⟨_, _, Memory.runs_list (under.solvent.allows 1), under.spend 1⟩

theorem affords_deleteAll (names : List String) :
    Affords (Under limit most) (deleteAll names : Action Memory Unit) := by
  induction names with
  | nil => exact .pure ()
  | cons name names ih => exact (affords_discard name).bind fun _ => ih

theorem affords_detach (link : Link) :
    Affords (Under limit most) (detach link : Action Memory Unit) :=
  (affords_patch _ _ _).bind fun _ => affords_patch _ _ _

theorem affords_evict : Affords (Under limit most) (evict : Action Memory Key) := by
  refine (affords_neighbours .tail).bind fun tail => ?_
  refine .ite (.throw_bind _ _) (.ite (.throw_bind _ _) ?_)
  refine (affords_neighbours tail.prev).bind fun link => (affords_detach link).bind fun _ => ?_
  exact (affords_delete _).bind fun _ => .pure _

/-! ## Links that are stored anew -/

section

variable (finite : (Function.support fun name => Memory.extent (most name)).Finite)
variable (fits : ∀ quota, limit = some quota → Memory.load most ≤ quota)
include finite fits

/-- A link is stored if there is as much in its place in the state that fits. -/
theorem affords_writeLink (room : Link.size ≤ Memory.extent (most (linkName key))) (link : Link) :
    Affords (Under limit most) (writeLink key link : Action Memory Unit) := by
  apply Affords.of_success (Memory.carries_withRecord _ _ (Memory.carries_write link.encode))
  intro m under
  have after : m.Fits (Function.update m.get? (linkName key) (some link.encode)) := by
    intro quota limited
    refine (Memory.load_mono finite fun name => ?_).trans (fits quota (under.quota ▸ limited))
    by_cases same : name = linkName key
    · rw [same, Function.update_self]
      exact room
    · rw [Function.update_of_ne same]
      exact under.below name
  obtain ⟨m', run, sets, solvent⟩ :=
    Memory.runs_replace_of_fits under.solvent (linkName key) link.encode after
  refine ⟨(), m', run, under.sets sets solvent ?_ room⟩
  intro other bytes _ same
  obtain rfl := Option.some.inj same
  exact Link.length_encode link

theorem affords_linkInFront (room : Link.size ≤ Memory.extent (most (linkName key)))
    (oldFirst : Key) :
    Affords (Under limit most) (linkInFront key oldFirst : Action Memory Unit) :=
  (affords_writeLink finite fits room _).bind fun _ => affords_patch _ _ _

/-- The anchors are stored again after all links were deleted. -/
theorem affords_clear (head : Link.size ≤ Memory.extent (most (linkName .head)))
    (tail : Link.size ≤ Memory.extent (most (linkName .tail))) :
    Affords (Under limit most) (clear : Action Memory Unit) := by
  refine affords_list.bind fun names => (affords_deleteAll _).bind fun _ => ?_
  exact (affords_writeLink finite fits head _).bind fun _ => affords_writeLink finite fits tail _

theorem affords_insert (room : Link.size ≤ Memory.extent (most (linkName key))) :
    Affords (Under limit most) (insert key : Action Memory Unit) := by
  refine (Affords.ofExcept _).bind fun _ => (affords_hasRecord _).bind fun _ => ?_
  refine .ite (.throw_bind _ _) ((affords_neighbours .head).bind fun head => ?_)
  exact (affords_linkInFront finite fits room _).orCleanUp.bind fun _ => affords_patch _ _ _

theorem affords_promote (room : Link.size ≤ Memory.extent (most (linkName key))) :
    Affords (Under limit most) (promote key : Action Memory Bool) := by
  refine (Affords.ofExcept _).bind fun _ => (affords_readLink key).bind fun link => ?_
  refine .ite (.pure false) ((affords_detach link).bind fun _ => ?_)
  refine (affords_neighbours .head).bind fun head => ?_
  refine (affords_linkInFront finite fits room _).bind fun _ => ?_
  exact (affords_patch _ _ _).bind fun _ => .pure true

end

/-! ## Changes of the order -/

/-- What was found without limits holds with them: they play no part in which links are stored. -/
theorem relinks_of_unbound (relinks : Relinks m.unbound count table m'.unbound)
    (quota : m'.quota = m.quota) (quiet : m.fault = none) (quiet' : m'.fault = none) :
    Relinks m count table m' where
  quota := quota
  overcharge := relinks.overcharge
  listing := relinks.listing
  ops := relinks.ops
  fault := by rw [quiet, quiet', Option.map_none]
  get? := relinks.get?
  ref? := relinks.ref?

section

variable (shows : Shows m.get? table) (solvent : m.Solvent)
include shows solvent

/-- The links of a table are whole, so a solvent device does not exceed itself. -/
theorem under_of_shows : Under m.quota m.get? m where
  quota := rfl
  solvent := solvent
  whole key bytes stored := by
    rw [shows key] at stored
    obtain ⟨link, -, rfl⟩ := Option.map_eq_some_iff.1 stored
    exact Link.length_encode link
  below _ := Nat.le_refl _

/-- Promoting a key of the ring succeeds however full the device is. -/
theorem runs_promote_of_solvent (ring : IsRing table keys) (member : key ∈ keys) :
    ∃ moved m' table', Runs (promote key) m (.ok moved) m' ∧
      Relinks m (if keys.head? = some key then 3 else 25) table' m' ∧
      IsRing table' (key :: keys.erase key) ∧ m'.Solvent := by
  have shows' : Shows m.unbound.get? table := shows
  obtain ⟨moved, free, table', run, relinks, ring'⟩ :=
    runs_promote_of_linked shows' ring member rfl rfl
  obtain ⟨link, found⟩ := ring.exists_link key (.inr member)
  have room : Link.size ≤ Memory.extent (m.get? (linkName key)) := by
    rw [get?_of_linked shows found]
    exact Nat.le_refl _
  obtain ⟨m', run', rfl, under⟩ := affords_promote (Memory.finite_support m) solvent.fits room m
    moved free (under_of_shows shows solvent) run
  exact ⟨moved, m', table', run',
    relinks_of_unbound relinks under.quota solvent.quiet under.solvent.quiet, ring', under.solvent⟩

theorem runs_evict_of_solvent (ring : IsRing table (front ++ [key])) :
    ∃ m' table', Runs evict m (.ok key) m' ∧ Relinks m 15 table' m' ∧ IsRing table' front ∧
      m'.Solvent := by
  have shows' : Shows m.unbound.get? table := shows
  obtain ⟨free, table', run, relinks, ring'⟩ :=
    runs_evict shows' ring rfl (Memory.allows_of_none rfl 15)
  obtain ⟨m', run', rfl, under⟩ := affords_evict m key free (under_of_shows shows solvent) run
  exact ⟨m', table', run',
    relinks_of_unbound relinks under.quota solvent.quiet under.solvent.quiet, ring', under.solvent⟩

/-- A new link is stored if the device has room for a link under its name. -/
theorem runs_insert_of_fits (ring : IsRing table keys) (glyph : ¬ key.IsAnchor)
    (fresh : key ∉ keys)
    (fits : m.Fits (Function.update m.get? (linkName key) (some link.encode))) :
    ∃ m' table', Runs (insert key) m (.ok ()) m' ∧ Relinks m 15 table' m' ∧
      IsRing table' (key :: keys) ∧ m'.Solvent := by
  have shows' : Shows m.unbound.get? table := shows
  obtain ⟨free, table', run, relinks, ring'⟩ :=
    runs_insert shows' ring rfl (Memory.allows_of_none rfl 15) glyph fresh
  have under : Under m.quota (Function.update m.get? (linkName key) (some link.encode)) m := by
    refine { under_of_shows shows solvent with below := fun name => ?_ }
    by_cases same : name = linkName key
    · rw [same, get?_of_unlinked shows (ring.eq_none glyph fresh)]
      exact Nat.zero_le _
    · rw [Function.update_of_ne same]
  have finite : (Function.support fun name => Memory.extent
      (Function.update m.get? (linkName key) (some link.encode) name)).Finite := by
    apply ((Memory.finite_support m).insert (linkName key)).subset
    intro name nonempty
    by_cases same : name = linkName key
    · exact .inl same
    · rw [Function.mem_support, Function.update_of_ne same] at nonempty
      exact .inr nonempty
  have room : Link.size ≤ Memory.extent
      (Function.update m.get? (linkName key) (some link.encode) (linkName key)) := by
    rw [Function.update_self]
    exact Nat.le_refl _
  obtain ⟨m', run', rfl, under'⟩ := affords_insert finite fits room m () free under run
  exact ⟨m', table', run',
    relinks_of_unbound relinks under'.quota solvent.quiet under'.solvent.quiet, ring',
    under'.solvent⟩

/-- If it has not, what was stored of the link is deleted again. -/
theorem runs_insert_of_unfit (ring : IsRing table keys) (glyph : ¬ key.IsAnchor)
    (fresh : key ∉ keys)
    (unfit : ¬ m.Fits (Function.update m.get? (linkName key) (some link.encode))) :
    ∃ m', Runs (insert key) m (.error .outOfSpace) m' ∧ m.Sets 8 (linkName key) none m' ∧
      m'.Solvent := by
  obtain ⟨head, found⟩ := ring.exists_link .head (.inl (.inl rfl))
  have looking := runs_contains_of_unlinked shows (solvent.allows 1) (ring.eq_none glyph fresh)
  have reading := runs_neighbours (relinks_spend shows 1).shows ((solvent.spend 1).allows 3) found
  rw [Memory.spend_spend] at reading
  have solvent₄ := solvent.spend 4
  have unfit₄ : ¬ (m.spend 4).Fits (Function.update (m.spend 4).get? (linkName key)
      (some (Link.encode ⟨.head, head.next⟩))) := by
    intro fits
    apply unfit
    intro quota limited
    have exchanged := Memory.load_update (Memory.finite_support m) (linkName key)
    have link' := exchanged (some (Link.encode ⟨.head, head.next⟩))
    have link := exchanged (some link.encode)
    have most := fits quota limited
    rw [Memory.get?_spend] at most
    rw [Memory.extent_some, Link.length_encode] at link link'
    omega
  obtain ⟨m₁, storing, emptied, solvent₁⟩ :=
    Memory.runs_replace_of_unfit solvent₄ (linkName key) _ unfit₄
  obtain ⟨deleted, m₂, deleting, gone, solvent₂⟩ :=
    Memory.runs_delete_solvent solvent₁ (linkName key)
  have linking : Runs (linkInFront key head.next) (m.spend 4) (.error .outOfSpace) m₁ :=
    Runs.bind_error storing
  refine ⟨m₂, ?_, emptied.after_spend.trans gone, solvent₂⟩
  refine (Action.runs_requireGlyph glyph m).bind (looking.bind ?_)
  rw [if_neg (by decide)]
  exact reading.bind (Action.runs_orCleanUp_of_error linking deleting).bind_error

end

end Ring

end GlyphShelf

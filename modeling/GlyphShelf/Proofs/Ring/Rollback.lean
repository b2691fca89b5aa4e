import GlyphShelf.Proofs.Ring.Order

/-!
# Insertions that fail

An insertion asks whether the key is linked, reads the link of the head anchor, stores the link
of the key and patches the head anchor to name it: 1, 3, 3 and 4 operations. A failure up to
here takes the new link away again. That restores every record as long as the head anchor does
not name the key yet. The one exception is a failure to close the patched record: by then the
patch is complete, and taking the link away leaves the head anchor naming a key without one.
-/

namespace GlyphShelf.Ring

variable {m m₁ : Memory} {table : Table} {keys : List Key} {key first : Key} {link head : Link}
variable {left : Nat} {e : Failure}

/-! ## Failures of single steps -/

theorem runs_orDangling_of_error {α : Type} {act : Action Memory α}
    (run : Runs act m (.error e) m₁) (present : e ≠ .notFound) :
    Runs (orDangling key act) m (.error e) m₁ := by
  have running : Runs (orDangling key act) m (.error (dangling key e)) m₁ :=
    runs_orDangling_mapError run
  rwa [dangling_of_present present] at running

section

variable (shows : Shows m.get? table) (armed : m.fault = some left)
include shows armed

theorem runs_readLink_of_armed (soon : left < 3) (found : table key = some link) :
    ∃ m', Runs (readLink key) m (.error (.device .injected)) m' ∧ m'.fault = none ∧
      m'.get? = m.get? := by
  have whole : Link.size ≤ link.encode.length := by rw [Link.length_encode]
  obtain ⟨m', run, trips, same⟩ := Memory.runs_readHead_of_armed armed soon
    (get?_of_linked shows found) (by decide) whole
  exact ⟨m', run.bind_error, trips.fault, same⟩

theorem runs_neighbours_of_armed (soon : left < 3) (found : table key = some link) :
    ∃ m', Runs (neighbours key) m (.error (.device .injected)) m' ∧ m'.fault = none ∧
      m'.get? = m.get? := by
  obtain ⟨m', run, quiet, same⟩ := runs_readLink_of_armed shows armed soon found
  exact ⟨m', runs_orDangling_of_error run nofun, quiet, same⟩

/-- A patch that fails before its record is closed has written nothing. -/
theorem runs_patch_of_armed (soon : left < 3) (found : table key = some link)
    (field : Link.Field) (value : Key) :
    ∃ m', Runs (patch key field value) m (.error (.device .injected)) m' ∧ m'.fault = none ∧
      m'.get? = m.get? := by
  obtain ⟨m', run, trips, same⟩ := Memory.runs_overwrite_of_armed armed soon
    (get?_of_linked shows found) field.offset value.encode
  exact ⟨m', runs_orDangling_of_error run nofun, trips.fault, same⟩

/-- A patch that fails at the closing of its record is complete. -/
theorem runs_patch_of_armed_closing (unlimited : m.quota = none) (last : left = 3)
    (found : table key = some link) (field : Link.Field) (value : Key) :
    ∃ m', Runs (patch key field value) m (.error (.device .injected)) m' ∧ m'.fault = none ∧
      m'.get? = Function.update m.get? (linkName key) (some (link.set field value).encode) := by
  subst last
  obtain ⟨m', run, trips, get⟩ := Memory.runs_overwrite_of_armed_closing unlimited armed
    (get?_of_linked shows found) (offset_add_length_le field value)
  rw [overlay_encode] at get
  exact ⟨m', runs_orDangling_of_error run nofun, trips.fault, get⟩

/-- Until the patch of the head anchor is written, only the record of the new link differs. -/
theorem runs_linkInFront_of_armed (unlimited : m.quota = none) (soon : left < 6)
    (differs : Key.head ≠ key) (found : table .head = some head) :
    ∃ entry m', Runs (linkInFront key first) m (.error (.device .injected)) m' ∧
      m'.fault = none ∧ m'.get? = Function.update m.get? (linkName key) entry := by
  by_cases storing : left < 3
  · obtain ⟨entry, m', run, trips, get, -⟩ := Memory.runs_replace_of_armed unlimited armed storing
      (linkName key) (Link.encode ⟨.head, first⟩)
    exact ⟨entry, m', run.bind_error, trips.fault, get⟩
  · obtain ⟨m₁, stored, relinks⟩ := runs_writeLink shows unlimited
      (Memory.allows_of_some armed (Nat.le_of_not_lt storing)) key ⟨.head, first⟩
    have armed₁ : m₁.fault = some (left - 3) := by
      apply relinks.fault_eq_some
      rw [armed, Nat.sub_add_cancel (Nat.le_of_not_lt storing)]
    have found₁ : Function.update table key (some ⟨.head, first⟩) .head = some head := by
      rw [Function.update_of_ne differs, found]
    obtain ⟨m', patching, quiet, same⟩ :=
      runs_patch_of_armed relinks.shows armed₁ (by omega) found₁ .next key
    refine ⟨some (Link.encode ⟨.head, first⟩), m', stored.bind patching, quiet, ?_⟩
    rw [same, relinks.get?, ← shows.update_eq, Option.map_some]

theorem runs_linkInFront_of_armed_closing (unlimited : m.quota = none) (last : left = 6)
    (differs : Key.head ≠ key) (found : table .head = some head) :
    ∃ m', Runs (linkInFront key first) m (.error (.device .injected)) m' ∧ m'.fault = none ∧
      m'.get? = Function.update
        (Function.update m.get? (linkName key) (some (Link.encode ⟨.head, first⟩)))
        (linkName .head) (some (head.set .next key).encode) := by
  obtain ⟨m₁, stored, relinks⟩ := runs_writeLink shows unlimited
    (Memory.allows_of_some armed (by omega)) key ⟨.head, first⟩
  have armed₁ : m₁.fault = some 3 := relinks.fault_eq_some (by rw [armed, last])
  have found₁ : Function.update table key (some ⟨.head, first⟩) .head = some head := by
    rw [Function.update_of_ne differs, found]
  obtain ⟨m', patching, quiet, get⟩ := runs_patch_of_armed_closing relinks.shows armed₁
    (relinks.quota.trans unlimited) rfl found₁ .next key
  refine ⟨m', stored.bind patching, quiet, ?_⟩
  rw [get, relinks.get?, ← shows.update_eq, Option.map_some]

end

/-! ## Failures of an insertion -/

section

variable (shows : Shows m.get? table) (ring : IsRing table keys) (glyph : ¬ key.IsAnchor)
variable (fresh : key ∉ keys)
include shows ring glyph fresh

/-- The link of the key is taken away again when linking it in front failed. -/
theorem runs_insert_of_failed (allowed : m.Allows 4) (found : table .head = some head)
    (linking : Runs (linkInFront key head.next) (m.spend 4) (.error e) m₁)
    (quiet : m₁.fault = none) :
    ∃ m', Runs (insert key) m (.error e) m' ∧ m'.fault = none ∧
      m'.get? = Function.update m₁.get? (linkName key) none := by
  have looking := runs_contains_of_unlinked shows (allowed.mono (by omega))
    (ring.eq_none glyph fresh)
  have reading := runs_neighbours (relinks_spend shows 1).shows (allowed.spend 1 3 (by omega)) found
  rw [Memory.spend_spend] at reading
  obtain ⟨result, m', cleaning, sets⟩ :=
    Memory.exists_runs_delete (Memory.allows_of_none quiet 1) (linkName key)
  refine ⟨m', ?_, sets.fault_eq_none quiet, sets.get?⟩
  refine (Action.runs_requireGlyph glyph m).bind (looking.bind ?_)
  rw [if_neg (by decide)]
  exact reading.bind (Action.runs_orCleanUp_of_error linking cleaning).bind_error

theorem runs_insert_of_armed (unlimited : m.quota = none) (armed : m.fault = some left)
    (soon : left < 10) :
    ∃ m', Runs (insert key) m (.error (.device .injected)) m' ∧ m'.fault = none ∧
      m'.get? = m.get? := by
  obtain ⟨head, found⟩ := ring.exists_link .head (.inl (.inl rfl))
  have absent := ring.eq_none glyph fresh
  rcases Nat.lt_or_ge left 1 with presence | later
  · obtain rfl : left = 0 := by omega
    have failing := Memory.runs_hasRecord_of_due armed (linkName key)
    refine ⟨m.trip, ?_, rfl, rfl⟩
    unfold insert contains
    exact (Action.runs_requireGlyph glyph m).bind failing.bind_error
  rcases Nat.lt_or_ge left 4 with reading | later
  · have armed₁ : (m.spend 1).fault = some (left - 1) :=
      (Memory.spends_spend m 1).fault_eq_some (by rw [armed, Nat.sub_add_cancel (by omega)])
    obtain ⟨m', failing, quiet, same⟩ := runs_neighbours_of_armed (relinks_spend shows 1).shows
      armed₁ (by omega) found
    refine ⟨m', ?_, quiet, same⟩
    refine (Action.runs_requireGlyph glyph m).bind
      ((runs_contains_of_unlinked shows (Memory.allows_of_some armed (by omega)) absent).bind ?_)
    rw [if_neg (by decide)]
    exact failing.bind_error
  · have armed₄ : (m.spend 4).fault = some (left - 4) :=
      (Memory.spends_spend m 4).fault_eq_some (by rw [armed, Nat.sub_add_cancel (by omega)])
    obtain ⟨entry, m₁, linking, quiet, get⟩ := runs_linkInFront_of_armed
      (relinks_spend shows 4).shows armed₄ unlimited (by omega)
      (fun same => glyph (.inl same.symm)) found
    obtain ⟨m', run, quiet', get'⟩ := runs_insert_of_failed shows ring glyph fresh
      (Memory.allows_of_some armed (by omega)) found linking quiet
    refine ⟨m', run, quiet', ?_⟩
    rw [get', get, Function.update_idem, Memory.get?_spend, ← get?_of_unlinked shows absent,
      Function.update_eq_self]

/-- The failure to close the record of the head anchor after it was patched. -/
theorem runs_insert_of_armed_closing (unlimited : m.quota = none) (armed : m.fault = some 10) :
    ∃ head m', table .head = some head ∧
      Runs (insert key) m (.error (.device .injected)) m' ∧ m'.fault = none ∧
      m'.get? = Function.update m.get? (linkName .head) (some (head.set .next key).encode) := by
  obtain ⟨head, found⟩ := ring.exists_link .head (.inl (.inl rfl))
  have differs : Key.head ≠ key := fun same => glyph (.inl same.symm)
  obtain ⟨m₁, linking, quiet, get⟩ := runs_linkInFront_of_armed_closing
    (relinks_spend shows 4).shows ((Memory.spends_spend m 4).fault_eq_some armed) unlimited rfl
    differs found
  obtain ⟨m', run, quiet', get'⟩ := runs_insert_of_failed shows ring glyph fresh
    (Memory.allows_of_some armed (by omega)) found linking quiet
  refine ⟨head, m', found, run, quiet', ?_⟩
  rw [get', get, Function.update_comm (linkName_ne differs), Function.update_idem,
    Memory.get?_spend, ← get?_of_unlinked shows (ring.eq_none glyph fresh), Function.update_eq_self]

end

/-! ## The main statement -/

/-- No ring is held once the head anchor names a key without a link. -/
theorem not_holds_of_dangling {records : String → Option Bytes}
    (named : records (linkName .head) = some head.encode)
    (absent : records (linkName head.next) = none) (keys : List Key) : ¬ Holds records keys := by
  intro holds
  have found : linksOf records .head = some head := by
    simp [linksOf, named, Except.toOption]
  have present := holds.isRing.isSome_first found
  rw [linksOf, absent] at present
  cases present

/-- An insertion that fails up to the patch of the head anchor leaves every record as it was,
except if closing the patched record failed: then the head anchor names the key, the key has no
link, and no ring is left. -/
theorem insert_rolls_back_iff (holds : Holds m.get? keys) (unlimited : m.quota = none)
    (glyph : ¬ key.IsAnchor) (fresh : key ∉ keys) (armed : m.fault = some left)
    (soon : left < 11) :
    ∃ m', Runs (insert key) m (.error (.device .injected)) m' ∧ m'.fault = none ∧
      (m'.get? = m.get? ↔ left ≠ 10) ∧
      (left = 10 → ∃ head : Link, m.get? (linkName .head) = some head.encode ∧
        m'.get? = Function.update m.get? (linkName .head) (some (head.set .next key).encode) ∧
        m'.get? (linkName key) = none ∧ ∀ keys', ¬ Holds m'.get? keys') := by
  have ring := holds.isRing
  by_cases closing : left = 10
  · subst closing
    obtain ⟨head, m', found, run, quiet, get⟩ :=
      runs_insert_of_armed_closing holds.shows ring glyph fresh unlimited armed
    have absent : m'.get? (linkName key) = none := by
      rw [get, Function.update_of_ne (linkName_ne fun same => glyph (.inl same)),
        get?_of_unlinked holds.shows (ring.eq_none glyph fresh)]
    have named : m'.get? (linkName .head) = some (head.set .next key).encode := by
      rw [get, Function.update_self]
    have broken := not_holds_of_dangling named absent
    refine ⟨m', run, quiet, ⟨fun same => ?_, fun other => absurd rfl other⟩, fun _ =>
      ⟨head, get?_of_linked holds.shows found, get, absent, broken⟩⟩
    rw [same] at broken
    exact absurd holds (broken keys)
  · obtain ⟨m', run, quiet, same⟩ :=
      runs_insert_of_armed holds.shows ring glyph fresh unlimited armed (by omega)
    exact ⟨m', run, quiet, ⟨fun _ => closing, fun _ => same⟩, fun last => absurd last closing⟩

/-- The second of two keys, with the failure where it does damage. -/
theorem insert_second_breaks_ring :
    Holds ((inserted [⟨1⟩]).failAfter 10).get? [⟨1⟩] ∧
      ∃ m', Runs (insert ⟨2⟩) ((inserted [⟨1⟩]).failAfter 10) (.error (.device .injected)) m' ∧
        m'.get? (linkName ⟨2⟩) = none ∧ ∀ keys', ¬ Holds m'.get? keys' := by
  obtain ⟨holds, unlimited, -⟩ : Holds (inserted [⟨1⟩]).get? [⟨1⟩] ∧ _ ∧ _ :=
    holds_inserted (by decide) (by decide)
  have holds' : Holds ((inserted [⟨1⟩]).failAfter 10).get? [⟨1⟩] := holds
  obtain ⟨m', run, -, -, damage⟩ :=
    insert_rolls_back_iff holds' unlimited (by decide : ¬ Key.IsAnchor ⟨2⟩) (by decide) rfl
      (by decide)
  obtain ⟨-, -, -, absent, broken⟩ := damage rfl
  exact ⟨holds', m', run, absent, broken⟩

end GlyphShelf.Ring

import GlyphShelf.Proofs.Ring.Links

/-!
# Operations on a stored ring

Started on a device that shows a ring, each operation of the ring ends on one that shows the
ring with the same change made to its list of keys. The exact number of operations of the
device is stated with it, because it does not depend on the ring: no operation walks.
-/

namespace GlyphShelf.Ring

variable {m : Memory} {table : Table} {keys front back : List Key} {key : Key} {link : Link}

/-- A key of the ring with the keys before and behind it. -/
theorem exists_split (nodup : keys.Nodup) (member : key ∈ keys) :
    ∃ front back, keys = front ++ key :: back ∧ keys.erase key = front ++ back := by
  obtain ⟨front, back, rfl⟩ := List.append_of_mem member
  have fresh := (List.nodup_cons.1 (List.nodup_middle.1 nodup)).1
  rw [List.mem_append, not_or] at fresh
  exact ⟨front, back, rfl, by rw [List.erase_append_right _ fresh.1, List.erase_cons_head]⟩

section

variable (shows : Shows m.get? table)
include shows

/-- Storing the link of a key in front, and letting its two neighbours name it. Whether the key
has a link already does not matter. -/
theorem runs_linkFirst (unlimited : m.quota = none) (allowed : m.Allows 11)
    (differs : Key.head ≠ key) (found : table .head = some link)
    (next : (table link.next).isSome) :
    ∃ m₁ m₂, Runs (linkInFront key link.next) m (.ok ()) m₁ ∧
      Runs (patch link.next .prev key) m₁ (.ok ()) m₂ ∧
      Relinks m 11 (linkFirst table key link.next) m₂ := by
  obtain ⟨m₁, storing, relinks₁⟩ :=
    runs_writeLink shows unlimited (allowed.mono (by omega)) key ⟨.head, link.next⟩
  have headFound : Function.update table key (some ⟨.head, link.next⟩) Key.head = some link := by
    rw [Function.update_of_ne differs, found]
  obtain ⟨m₂, patching, relinks₂⟩ := runs_patch relinks₁.shows (relinks₁.quota.trans unlimited)
    (relinks₁.allows allowed 4 (by omega)) headFound .next key
  have both := relinks₁.trans relinks₂
  have next₂ : (setField (Function.update table key (some ⟨.head, link.next⟩)) .head .next key
      link.next).isSome := by
    rw [isSome_setField, Function.update_apply]
    split
    · rfl
    · exact next
  obtain ⟨after, nextFound⟩ := Option.isSome_iff_exists.1 next₂
  obtain ⟨m₃, closing, relinks₃⟩ := runs_patch relinks₂.shows (both.quota.trans unlimited)
    (both.allows allowed 4 (by omega)) nextFound .prev key
  exact ⟨m₂, m₃, storing.bind patching, closing, both.trans relinks₃⟩

theorem runs_insert (ring : IsRing table keys) (unlimited : m.quota = none)
    (allowed : m.Allows 15) (glyph : ¬ key.IsAnchor) (fresh : key ∉ keys) :
    ∃ m' table', Runs (insert key) m (.ok ()) m' ∧ Relinks m 15 table' m' ∧
      IsRing table' (key :: keys) := by
  obtain ⟨link, found⟩ := ring.exists_link .head (.inl (.inl rfl))
  have looking := runs_contains_of_unlinked shows (allowed.mono (by omega))
    (ring.eq_none glyph fresh)
  have shows₁ := relinks_spend shows 1
  have reading := runs_neighbours shows₁.shows (allowed.spend 1 3 (by omega)) found
  rw [Memory.spend_spend] at reading
  have shows₄ := relinks_spend shows 4
  obtain ⟨m₁, m₂, linking, closing, relinks⟩ := runs_linkFirst shows₄.shows (m := m.spend 4)
    unlimited (allowed.spend 4 11 (by omega)) (fun same => glyph (.inl same.symm)) found
    (ring.isSome_first found)
  refine ⟨m₂, _, ?_, shows₄.trans relinks, ring.linkFirst glyph fresh found⟩
  refine (Action.runs_requireGlyph glyph m).bind (looking.bind ?_)
  rw [if_neg (by decide)]
  exact reading.bind ((Action.runs_orCleanUp linking).bind closing)

theorem runs_insert_of_linked (ring : IsRing table keys) (allowed : m.Allows 2)
    (member : key ∈ keys) : Runs (insert key) m (.error (.alreadyLinked key)) (m.spend 2) := by
  obtain ⟨link, found⟩ := ring.exists_link key (.inr member)
  refine (Action.runs_requireGlyph (ring.glyphs key member) m).bind
    ((runs_contains_of_linked shows allowed found).bind ?_)
  rw [if_pos rfl]
  exact (Runs.throw _ _).bind_error

/-- Joining the neighbours of a key and deleting its link. -/
theorem runs_unlink (found : table key = some link) (before : (table link.prev).isSome)
    (after : (table link.next).isSome) (unlimited : m.quota = none) (allowed : m.Allows 9) :
    ∃ m₁ m₂, Runs (detach link) m (.ok ()) m₁ ∧
      Runs (Device.delete (linkName key)) m₁ (.ok ()) m₂ ∧
      Relinks m 9 (unlink table key link) m₂ := by
  obtain ⟨m₁, detaching, relinks₁⟩ :=
    runs_detach shows unlimited (allowed.mono (by omega)) before after
  obtain ⟨link', found'⟩ : ∃ link', setField (setField table link.prev .next link.next) link.next
      .prev link.prev key = some link' := by
    rw [← Option.isSome_iff_exists, isSome_setField, isSome_setField, found, Option.isSome_some]
  obtain ⟨m₂, deleting, relinks₂⟩ :=
    runs_deleteLink relinks₁.shows (relinks₁.allows allowed 1 (by omega)) found'
  exact ⟨m₁, m₂, detaching, deleting, relinks₁.trans relinks₂⟩

/-- Removing needs no more of the ring than the link of the key and those of its two neighbours. -/
theorem runs_remove_of_found (glyph : ¬ key.IsAnchor) (found : table key = some link)
    (before : (table link.prev).isSome) (after : (table link.next).isSome)
    (unlimited : m.quota = none) (allowed : m.Allows 12) :
    ∃ m', Runs (remove key) m (.ok ()) m' ∧ Relinks m 12 (unlink table key link) m' := by
  have reading := runs_readLink shows (allowed.mono (by omega)) found
  have shows₃ := relinks_spend shows 3
  obtain ⟨m₁, m₂, detaching, deleting, relinks⟩ := runs_unlink shows₃.shows (m := m.spend 3) found
    before after unlimited (allowed.spend 3 9 (by omega))
  exact ⟨m₂, (Action.runs_requireGlyph glyph m).bind (reading.bind (detaching.bind deleting)),
    shows₃.trans relinks⟩

theorem runs_remove (ring : IsRing table (front ++ key :: back)) (unlimited : m.quota = none)
    (allowed : m.Allows 12) :
    ∃ m' table', Runs (remove key) m (.ok ()) m' ∧ Relinks m 12 table' m' ∧
      IsRing table' (front ++ back) := by
  obtain ⟨link, found⟩ := ring.exists_link key (.inr (by simp))
  obtain ⟨m', removing, relinks⟩ := runs_remove_of_found shows (ring.glyphs key (by simp)) found
    (ring.isSome_prev found) (ring.isSome_next found) unlimited allowed
  exact ⟨m', _, removing, relinks, ring.unlink found⟩

theorem runs_remove_of_unlinked (ring : IsRing table keys) (allowed : m.Allows 1)
    (glyph : ¬ key.IsAnchor) (fresh : key ∉ keys) :
    Runs (remove key) m (.error .notFound) (m.spend 1) := by
  exact (Action.runs_requireGlyph glyph m).bind
    (runs_readLink_of_unlinked shows allowed (ring.eq_none glyph fresh)).bind_error

/-- The key keeps its old link while its neighbours are joined, and gets a new one afterwards;
in between the ring without the key is closed. -/
theorem runs_promote (ring : IsRing table (front ++ key :: back)) (later : front ≠ [])
    (unlimited : m.quota = none) (allowed : m.Allows 25) :
    ∃ m' table', Runs (promote key) m (.ok true) m' ∧ Relinks m 25 table' m' ∧
      IsRing table' (key :: (front ++ back)) := by
  have glyph := ring.glyphs key (by simp)
  have fresh : key ∉ front ++ back := (List.nodup_cons.1 (List.nodup_middle.1 ring.nodup)).1
  have differs : Key.head ≠ key := fun same => glyph (.inl same.symm)
  obtain ⟨link, found⟩ := ring.exists_link key (.inr (by simp))
  have reading := runs_readLink shows (allowed.mono (by omega)) found
  have shows₃ := relinks_spend shows 3
  obtain ⟨m₁, detaching, relinks₁⟩ := runs_detach shows₃.shows (m := m.spend 3) unlimited
    (allowed.spend 3 8 (by omega)) (ring.isSome_prev found) (ring.isSome_next found)
  have upTo₁ := shows₃.trans relinks₁
  have closed := ring.unlink found
  obtain ⟨head, headFound⟩ := closed.exists_link .head (.inl (.inl rfl))
  have firstPresent := closed.isSome_first headFound
  have ringFirst := closed.linkFirst glyph fresh headFound
  -- The stored table differs from the one without the key only at the key.
  rw [unlink, Function.update_of_ne differs] at headFound
  rw [unlink, Function.update_apply] at firstPresent
  rw [linkFirst, unlink, Function.update_idem, ← linkFirst] at ringFirst
  have reading₁ := runs_neighbours relinks₁.shows (upTo₁.allows allowed 3 (by omega)) headFound
  have shows₁ := relinks_spend relinks₁.shows 3
  have upTo₂ := upTo₁.trans shows₁
  obtain ⟨m₂, m₃, linking, closing, relinks₂⟩ := runs_linkFirst shows₁.shows
    (upTo₂.quota.trans unlimited) (upTo₂.allows allowed 11 (by omega)) differs headFound (by
      split at firstPresent
      · cases firstPresent
      · exact firstPresent)
  refine ⟨m₃, _, ?_, upTo₂.trans relinks₂, ringFirst⟩
  refine (Action.runs_requireGlyph glyph m).bind (reading.bind ?_)
  rw [if_neg fun first => later ((ring.prev_eq_head_iff found).1 first)]
  exact detaching.bind (reading₁.bind (linking.bind (closing.bind (.pure true _))))

theorem runs_promote_of_first (ring : IsRing table (key :: back)) (allowed : m.Allows 3) :
    Runs (promote key) m (.ok false) (m.spend 3) := by
  obtain ⟨link, found⟩ := ring.exists_link key (.inr (by simp))
  have glyph := ring.glyphs key (by simp)
  rw [← List.nil_append (key :: back)] at ring
  have first : link.prev = .head := (ring.prev_eq_head_iff found).2 rfl
  refine (Action.runs_requireGlyph glyph m).bind
    ((runs_readLink shows allowed found).bind ?_)
  rw [if_pos first]
  exact .pure false _

/-- Promoting a key of the ring, wherever it stands. -/
theorem runs_promote_of_linked (ring : IsRing table keys) (member : key ∈ keys)
    (unlimited : m.quota = none) (quiet : m.fault = none) :
    ∃ moved m' table', Runs (promote key) m (.ok moved) m' ∧
      Relinks m (if keys.head? = some key then 3 else 25) table' m' ∧
      IsRing table' (key :: keys.erase key) := by
  obtain ⟨front, back, rfl, erased⟩ := exists_split ring.nodup member
  rw [erased]
  cases front with
  | nil =>
    rw [List.nil_append] at ring ⊢
    rw [if_pos List.head?_cons]
    exact ⟨false, _, table, runs_promote_of_first shows ring (Memory.allows_of_none quiet 3),
      relinks_spend shows 3, ring⟩
  | cons first front =>
    have fresh := (List.nodup_cons.1 (List.nodup_middle.1 ring.nodup)).1
    have later : (first :: front ++ key :: back).head? ≠ some key := by
      intro same
      obtain rfl : first = key := by simpa using same
      exact fresh (by simp)
    obtain ⟨m', table', run, relinks, ring'⟩ := runs_promote shows ring (List.cons_ne_nil _ _)
      unlimited (Memory.allows_of_none quiet 25)
    rw [if_neg later]
    exact ⟨true, m', table', run, relinks, ring'⟩

theorem runs_promote_of_unlinked (ring : IsRing table keys) (allowed : m.Allows 1)
    (glyph : ¬ key.IsAnchor) (fresh : key ∉ keys) :
    Runs (promote key) m (.error .notFound) (m.spend 1) := by
  exact (Action.runs_requireGlyph glyph m).bind
    (runs_readLink_of_unlinked shows allowed (ring.eq_none glyph fresh)).bind_error

/-- Evicting needs no more of the ring than the key at its end and that key's two neighbours. -/
theorem runs_evict_of_found {tail : Link} (tailFound : table .tail = some tail)
    (glyph : ¬ tail.prev.IsAnchor) (found : table tail.prev = some link)
    (before : (table link.prev).isSome) (after : (table link.next).isSome)
    (unlimited : m.quota = none) (allowed : m.Allows 15) :
    ∃ m', Runs evict m (.ok tail.prev) m' ∧ Relinks m 15 (unlink table tail.prev link) m' := by
  have reading := runs_neighbours shows (allowed.mono (by omega)) tailFound
  have shows₃ := relinks_spend shows 3
  have reading₃ := runs_neighbours shows₃.shows (allowed.spend 3 3 (by omega)) found
  rw [Memory.spend_spend] at reading₃
  have shows₆ := relinks_spend shows 6
  obtain ⟨m₁, m₂, detaching, deleting, relinks⟩ := runs_unlink shows₆.shows (m := m.spend 6) found
    before after unlimited (allowed.spend 6 9 (by omega))
  refine ⟨m₂, reading.bind ?_, shows₆.trans relinks⟩
  dsimp only
  rw [if_neg fun same => glyph (.inl same), if_neg glyph]
  exact reading₃.bind (detaching.bind (deleting.bind (.pure _ _)))

theorem runs_evict (ring : IsRing table (front ++ [key])) (unlimited : m.quota = none)
    (allowed : m.Allows 15) :
    ∃ m' table', Runs evict m (.ok key) m' ∧ Relinks m 15 table' m' ∧ IsRing table' front := by
  obtain ⟨tail, tailFound⟩ := ring.exists_link .tail (.inl (.inr rfl))
  obtain rfl := ring.prev_tail_eq tailFound
  obtain ⟨link, found⟩ := ring.exists_link tail.prev (.inr (by simp))
  obtain ⟨m', evicting, relinks⟩ := runs_evict_of_found shows tailFound
    (ring.glyphs tail.prev (by simp)) found (ring.isSome_prev found) (ring.isSome_next found)
    unlimited allowed
  have closed := ring.unlink found
  rw [List.append_nil] at closed
  exact ⟨m', _, evicting, relinks, closed⟩

theorem runs_evict_of_empty (ring : IsRing table []) (allowed : m.Allows 3) :
    Runs evict m (.error .nothingToEvict) (m.spend 3) := by
  obtain ⟨tail, tailFound⟩ := ring.exists_link .tail (.inl (.inr rfl))
  obtain ⟨rest, lastEq⟩ := ring.prev_tail tailFound
  rw [← List.nil_append [Key.head]] at lastEq
  have empty : tail.prev = .head := by
    simpa using (List.append_inj_right' lastEq rfl).symm
  refine (runs_neighbours shows allowed tailFound).bind ?_
  dsimp only
  rw [if_pos empty]
  exact (Runs.throw _ _).bind_error

end

end GlyphShelf.Ring

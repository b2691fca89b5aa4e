import GlyphShelf.Proofs.Ring.Interruption

/-!
# Removals that fail

A removal reads the link of the key, joins the two neighbours of the key and deletes the link:
3, 8 and 1 operations. However far it got when one of them failed, the key still has the link it
had, because neither neighbour is the key itself, and joining neighbours that are joined already
changes nothing. So the same removal can be asked for again. It ends with exactly the records
that the undisturbed one ends with.
-/

namespace GlyphShelf.Ring

variable {m : Memory} {table : Table} {keys front back : List Key} {key : Key} {link : Link}
variable {left : Nat}

/-! ## What a failure leaves -/

section

variable (shows : Shows m.get? table) (armed : m.fault = some left)
include shows armed

/-- An eviction has read the tail anchor before it comes to what a removal begins with. -/
theorem runs_remove_of_armed (unlimited : m.quota = none) (glyph : ¬ key.IsAnchor)
    (found : table key = some link) (before : (table link.prev).isSome)
    (after : (table link.next).isSome) (soon : left < 12) :
    ∃ m', Runs (remove key) m (.error (.device .injected)) m' ∧ m'.fault = none ∧
      m'.get? = withLinks m.get? (interrupted table link (left + 3)) := by
  have permitted := Action.runs_requireGlyph glyph m
  rcases Nat.lt_or_ge left 3 with reading | later
  · obtain ⟨m', run, quiet, same⟩ := runs_readLink_of_armed shows armed reading found
    refine ⟨m', permitted.bind run.bind_error, quiet, ?_⟩
    rw [same, interrupted, if_pos (by omega), shows.withLinks_eq]
  have linkRead := runs_readLink shows (Memory.allows_of_some armed later) found
  have shows₃ := relinks_spend shows 3
  have armed₃ : (m.spend 3).fault = some (left - 3) :=
    shows₃.fault_eq_some (by rw [armed, Nat.sub_add_cancel later])
  by_cases detaching : left < 11
  · obtain ⟨m', run, quiet, get⟩ := runs_detach_of_armed shows₃.shows armed₃ unlimited (by omega)
      before after
    rw [show left - 3 + 6 = left + 3 by omega] at get
    exact ⟨m', permitted.bind (linkRead.bind run.bind_error), quiet, get⟩
  · obtain ⟨m₁, detached, relinks⟩ := runs_detach shows₃.shows (m := m.spend 3) unlimited
      (Memory.allows_of_some armed₃ (by omega)) before after
    have due : m₁.fault = some 0 := relinks.fault_eq_some (by rw [armed₃]; congr 1; omega)
    have deleting := Memory.runs_delete_of_due due (linkName key)
    refine ⟨m₁.trip, permitted.bind (linkRead.bind (detached.bind deleting)), rfl, ?_⟩
    rw [Memory.get?_trip, relinks.get?, interrupted, if_neg (by omega), if_neg (by omega)]
    rfl

end

/-! ## Removing again -/

/-- No key of a ring is its own neighbour. -/
theorem IsRing.ne_neighbours (ring : IsRing table (front ++ key :: back))
    (found : table key = some link) : key ≠ link.prev ∧ key ≠ link.next := by
  obtain ⟨front', back', frontEq, backEq⟩ := ring.exists_neighbours found
  have glyph := ring.glyphs key (by simp)
  have fresh := (List.nodup_cons.1 (List.nodup_middle.1 ring.nodup)).1
  rw [List.mem_append, not_or] at fresh
  constructor
  · intro same
    have member : key ∈ Key.head :: front := by
      rw [frontEq, same]
      simp
    rcases List.mem_cons.1 member with anchor | member
    · exact glyph (.inl anchor)
    · exact fresh.1 member
  · intro same
    have member : key ∈ back ++ [.tail, .head] := by
      rw [backEq, same]
      simp
    rcases List.mem_append.1 member with member | anchor
    · exact fresh.2 member
    · exact glyph (by simpa [Key.IsAnchor, or_comm] using anchor)

/-- A removal that succeeds in the end leaves the same records, whether or not one failed before. -/
theorem runs_remove_again (shows : Shows m.get? table) (ring : IsRing table (front ++ key :: back))
    (found : table key = some link) (unlimited : m.quota = none) (armed : m.fault = some left)
    (soon : left < 12) :
    ∃ m₁ m₂, Runs (remove key) m (.error (.device .injected)) m₁ ∧ m₁.fault = none ∧
      Runs (remove key) m₁ (.ok ()) m₂ ∧ m₂.get? = withLinks m.get? (unlink table key link) := by
  have glyph := ring.glyphs key (by simp)
  have before := ring.isSome_prev found
  have after := ring.isSome_next found
  obtain ⟨notPrev, notNext⟩ := ring.ne_neighbours found
  obtain ⟨m₁, failing, quiet, get⟩ :=
    runs_remove_of_armed shows armed unlimited glyph found before after soon
  have unlimited₁ : m₁.quota = none :=
    ((changes_within.respects_remove key).run failing).quota.trans unlimited
  have shows₁ : Shows m₁.get? (interrupted table link (left + 3)) := by
    rw [get]
    exact shows_withLinks _ _
  obtain ⟨m₂, removing, relinks⟩ := runs_remove_of_found shows₁ glyph
    (by rw [interrupted_of_ne notPrev notNext, found]) (by rwa [isSome_interrupted])
    (by rwa [isSome_interrupted]) unlimited₁ (Memory.allows_of_none quiet 12)
  refine ⟨m₁, m₂, failing, quiet, removing, ?_⟩
  rw [relinks.get?, get, withLinks_withLinks, unlink_interrupted]

/-! ## The main statement -/

/-- A removal that fails can be asked for again. Each of its twelve operations may be the one that
fails; the second removal then succeeds and leaves exactly the records that the undisturbed
removal leaves: those of the ring without the key, and no link of the key. -/
theorem remove_retried (holds : Holds m.get? keys) (unlimited : m.quota = none)
    (quiet : m.fault = none) (member : key ∈ keys) :
    ∃ m', Runs (remove key) m (.ok ()) m' ∧ Holds m'.get? (keys.erase key) ∧
      m'.get? (linkName key) = none ∧
      ∀ left,
        (12 ≤ left → ∃ m₁, Runs (remove key) (m.failAfter left) (.ok ()) m₁ ∧
          m₁.get? = m'.get?) ∧
        (left < 12 → ∃ m₁ m₂,
          Runs (remove key) (m.failAfter left) (.error (.device .injected)) m₁ ∧
          m₁.fault = none ∧ Runs (remove key) m₁ (.ok ()) m₂ ∧ m₂.get? = m'.get?) := by
  obtain ⟨front, back, split, erased⟩ := exists_split holds.nodup member
  have ring := holds.isRing
  rw [split] at ring
  obtain ⟨link, found⟩ := ring.exists_link key (.inr (by simp))
  have glyph := ring.glyphs key (by simp)
  have before := ring.isSome_prev found
  have after := ring.isSome_next found
  obtain ⟨m', removing, relinks⟩ := runs_remove_of_found holds.shows glyph found before after
    unlimited (Memory.allows_of_none quiet 12)
  refine ⟨m', removing, ?_, ?_, fun left => ⟨fun enough => ?_, fun soon => ?_⟩⟩
  · rw [erased]
    exact holds_of_shows relinks.shows (ring.unlink found)
  · rw [relinks.get?, withLinks_linkName, unlink, Function.update_self, Option.map_none]
  · obtain ⟨m₁, removing₁, relinks₁⟩ := runs_remove_of_found (m := m.failAfter left) holds.shows
      glyph found before after unlimited (Memory.allows_of_some rfl enough)
    exact ⟨m₁, removing₁, relinks₁.get?.trans relinks.get?.symm⟩
  · obtain ⟨m₁, m₂, failing, quiet₁, again, get⟩ := runs_remove_again (m := m.failAfter left)
      holds.shows ring found unlimited rfl soon
    exact ⟨m₁, m₂, failing, quiet₁, again, get.trans relinks.get?.symm⟩

/-- The middle one of three keys, with the failure between the two patches. -/
theorem remove_second_of_three_again :
    Holds (inserted [⟨3⟩, ⟨2⟩, ⟨1⟩]).get? [⟨3⟩, ⟨2⟩, ⟨1⟩] ∧ (⟨2⟩ : Key) ∈ [⟨3⟩, ⟨2⟩, (⟨1⟩ : Key)] ∧
      ∃ m₁ m₂, Runs (remove ⟨2⟩) ((inserted [⟨3⟩, ⟨2⟩, ⟨1⟩]).failAfter 7)
          (.error (.device .injected)) m₁ ∧
        Runs (remove ⟨2⟩) m₁ (.ok ()) m₂ ∧ Holds m₂.get? [⟨3⟩, ⟨1⟩] ∧
        m₂.get? (linkName ⟨2⟩) = none := by
  obtain ⟨holds, unlimited, quiet⟩ :
      Holds (inserted [⟨3⟩, ⟨2⟩, ⟨1⟩]).get? [⟨3⟩, ⟨2⟩, ⟨1⟩] ∧ _ ∧ _ :=
    holds_inserted (by decide) (by decide)
  have member : (⟨2⟩ : Key) ∈ [⟨3⟩, ⟨2⟩, (⟨1⟩ : Key)] := by decide
  obtain ⟨m', -, rest, absent, retried⟩ := remove_retried holds unlimited quiet member
  obtain ⟨m₁, m₂, failing, -, again, same⟩ := (retried 7).2 (by decide)
  rw [← same] at rest absent
  exact ⟨holds, member, m₁, m₂, failing, again, rest, absent⟩

end GlyphShelf.Ring

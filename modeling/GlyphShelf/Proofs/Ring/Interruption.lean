import GlyphShelf.Proofs.Ring.Frames
import GlyphShelf.Proofs.Ring.Rollback
import GlyphShelf.Proofs.Ring.Walk

/-!
# Evictions that fail

An eviction reads the link of the tail anchor and that of the key it names, joins the two
neighbours of this key and deletes its link: 3, 3, 8 and 1 operations. A failure leaves the
neighbours as they were, or the first one joined, or both, and never a key without a link. So
evicting again succeeds. As long as the tail anchor names the same key, it also completes what
was begun, because joining neighbours that are joined already changes nothing. Once the tail
anchor is patched it names the key before: that one goes, and the one that was to go keeps its
link but is out of reach.
-/

namespace GlyphShelf.Ring

variable {m m₁ : Memory} {table table' : Table} {front : List Key} {key other : Key}
variable {link tail : Link}
variable {left : Nat} {field field' : Link.Field} {value : Key}

/-- The table when an eviction of the key with the given link failed after so many operations. -/
def interrupted (table : Table) (link : Link) (left : Nat) : Table :=
  if left < 9 then table
  else if left < 13 then setField table link.prev .next link.next
  else setField (setField table link.prev .next link.next) link.next .prev link.prev

/-! ## What a failure leaves -/

theorem Shows.set_eq {records : String → Option Bytes} (shows : Shows records table)
    (found : table key = some link) (field : Link.Field) (value : Key) :
    Function.update records (linkName key) (some (link.set field value).encode) =
      withLinks records (setField table key field value) := by
  rw [setField, found]
  exact shows.update_eq key (some (link.set field value))

section

variable (shows : Shows m.get? table) (armed : m.fault = some left) (unlimited : m.quota = none)
include shows armed unlimited

/-- The two patches of a detachment are the seventh to fourteenth operations of an eviction. -/
theorem runs_detach_of_armed (soon : left < 8) (before : (table link.prev).isSome)
    (after : (table link.next).isSome) :
    ∃ m', Runs (detach link) m (.error (.device .injected)) m' ∧ m'.fault = none ∧
      m'.get? = withLinks m.get? (interrupted table link (left + 6)) := by
  obtain ⟨before, beforeFound⟩ := Option.isSome_iff_exists.1 before
  rw [← isSome_setField table link.prev .next link.next] at after
  obtain ⟨after, afterFound⟩ := Option.isSome_iff_exists.1 after
  rcases Nat.lt_or_ge left 4 with first | later
  -- A patch has written before it closes, so the closing alone fails too late to undo it.
  · by_cases closing : left = 3
    · obtain ⟨m', run, quiet, get⟩ := runs_patch_of_armed_closing shows armed unlimited closing
        beforeFound .next link.next
      refine ⟨m', run.bind_error, quiet, ?_⟩
      rw [get, shows.set_eq beforeFound, interrupted, if_neg (by omega), if_pos (by omega)]
    · obtain ⟨m', run, quiet, same⟩ :=
        runs_patch_of_armed shows armed (by omega) beforeFound .next link.next
      refine ⟨m', run.bind_error, quiet, ?_⟩
      rw [same, interrupted, if_pos (by omega), shows.withLinks_eq]
  · obtain ⟨m₁, patching, relinks⟩ := runs_patch shows unlimited
      (Memory.allows_of_some armed later) beforeFound .next link.next
    have armed₁ : m₁.fault = some (left - 4) := by
      apply relinks.fault_eq_some
      rw [armed, Nat.sub_add_cancel later]
    by_cases closing : left = 7
    · obtain ⟨m', run, quiet, get⟩ := runs_patch_of_armed_closing relinks.shows armed₁
        (relinks.quota.trans unlimited) (by omega) afterFound .prev link.prev
      refine ⟨m', patching.bind run, quiet, ?_⟩
      rw [get, relinks.shows.set_eq afterFound, relinks.get?, withLinks_withLinks, interrupted,
        if_neg (by omega), if_neg (by omega)]
    · obtain ⟨m', run, quiet, same⟩ :=
        runs_patch_of_armed relinks.shows armed₁ (by omega) afterFound .prev link.prev
      refine ⟨m', patching.bind run, quiet, ?_⟩
      rw [same, relinks.get?, interrupted, if_neg (by omega), if_pos (by omega)]

theorem runs_evict_of_armed (tailFound : table .tail = some tail) (glyph : ¬ tail.prev.IsAnchor)
    (found : table tail.prev = some link) (before : (table link.prev).isSome)
    (after : (table link.next).isSome) (soon : left < 15) :
    ∃ m', Runs evict m (.error (.device .injected)) m' ∧ m'.fault = none ∧
      m'.get? = withLinks m.get? (interrupted table link left) := by
  have untouched (early : left < 9) {m' : Memory} (same : m'.get? = m.get?) :
      m'.get? = withLinks m.get? (interrupted table link left) := by
    rw [same, interrupted, if_pos early, shows.withLinks_eq]
  rcases Nat.lt_or_ge left 3 with reading | later
  · obtain ⟨m', run, quiet, same⟩ := runs_neighbours_of_armed shows armed reading tailFound
    exact ⟨m', run.bind_error, quiet, untouched (by omega) same⟩
  have tailRead := runs_neighbours shows (Memory.allows_of_some armed later) tailFound
  have shows₃ := relinks_spend shows 3
  have armed₃ : (m.spend 3).fault = some (left - 3) :=
    shows₃.fault_eq_some (by rw [armed, Nat.sub_add_cancel later])
  have proceed {result : Except Failure Key} {m' : Memory} (rest : Runs (do
      let link ← neighbours tail.prev
      detach link
      Device.delete (linkName tail.prev)
      pure tail.prev) (m.spend 3) result m') : Runs evict m result m' := by
    refine tailRead.bind ?_
    dsimp only
    rw [if_neg fun same => glyph (.inl same), if_neg glyph]
    exact rest
  rcases Nat.lt_or_ge left 6 with reading | later
  · obtain ⟨m', run, quiet, same⟩ :=
      runs_neighbours_of_armed shows₃.shows armed₃ (by omega) found
    exact ⟨m', proceed run.bind_error, quiet, untouched (by omega) same⟩
  have linkRead := runs_neighbours shows₃.shows (Memory.allows_of_some armed₃ (by omega)) found
  rw [Memory.spend_spend] at linkRead
  have shows₆ := relinks_spend shows 6
  have armed₆ : (m.spend 6).fault = some (left - 6) :=
    shows₆.fault_eq_some (by rw [armed, Nat.sub_add_cancel later])
  by_cases detaching : left < 14
  · obtain ⟨m', run, quiet, get⟩ := runs_detach_of_armed shows₆.shows armed₆ unlimited (by omega)
      before after
    rw [Nat.sub_add_cancel later] at get
    exact ⟨m', proceed (linkRead.bind run.bind_error), quiet, get⟩
  · obtain ⟨m₁, detached, relinks⟩ := runs_detach shows₆.shows (m := m.spend 6) unlimited
      (Memory.allows_of_some armed₆ (by omega)) before after
    have due : m₁.fault = some 0 := relinks.fault_eq_some (by rw [armed₆]; congr 1; omega)
    have deleting := Memory.runs_delete_of_due due (linkName tail.prev)
    refine ⟨m₁.trip, proceed (linkRead.bind (detached.bind deleting.bind_error)), rfl, ?_⟩
    rw [Memory.get?_trip, relinks.get?, interrupted, if_neg (by omega), if_neg (by omega)]
    rfl

end

/-! ## Evicting again -/

theorem setField_eq_of_ne (differs : other ≠ key) :
    setField table key field value other = table other :=
  Function.update_of_ne differs _ _

theorem setField_congr (same : table' other = table other) :
    setField table' key field value other = setField table key field value other := by
  by_cases changed : other = key
  · subst changed
    rw [setField, setField, Function.update_self, Function.update_self, same]
  · rw [setField_eq_of_ne changed, setField_eq_of_ne changed, same]

theorem unlink_congr (same : table' other = table other) (key : Key) (link : Link) :
    unlink table' key link other = unlink table key link other := by
  by_cases gone : other = key
  · subst gone
    rw [unlink, unlink, Function.update_self, Function.update_self]
  · rw [unlink, unlink, Function.update_of_ne gone, Function.update_of_ne gone]
    exact setField_congr (setField_congr same)

theorem setField_setField (table : Table) (key : Key) (field : Link.Field) (value : Key) :
    setField (setField table key field value) key field value = setField table key field value := by
  have twice (link : Link) : (link.set field value).set field value = link.set field value := by
    cases field <;> rfl
  unfold setField
  rw [Function.update_idem, Function.update_self, Option.map_map]
  congr 2
  funext link
  exact twice link

/-- Patches of different fields can be made in either order. -/
theorem setField_comm (differs : field ≠ field') (table : Table) (key other : Key)
    (value value' : Key) :
    setField (setField table key field value) other field' value' =
      setField (setField table other field' value') key field value := by
  have order (link : Link) :
      (link.set field value).set field' value' = (link.set field' value').set field value := by
    cases field <;> cases field' <;> first | rfl | exact absurd rfl differs
  unfold setField
  by_cases same : other = key
  · subst same
    rw [Function.update_idem, Function.update_idem, Function.update_self, Function.update_self,
      Option.map_map, Option.map_map]
    congr 2
    funext link
    exact order link
  · rw [Function.update_of_ne same, Function.update_of_ne (Ne.symm same), Function.update_comm same]

/-- Joining the neighbours of a key again changes nothing, however far it was done already. -/
theorem unlink_interrupted (table : Table) (key : Key) (link : Link) (left : Nat) :
    unlink (interrupted table link left) key link = unlink table key link := by
  unfold interrupted
  split
  · rfl
  · split
    · rw [unlink, unlink, setField_setField]
    · rw [unlink, unlink, setField_comm (by decide) (setField table link.prev .next link.next),
        setField_setField, setField_setField]

theorem interrupted_of_ne (prev : other ≠ link.prev) (next : other ≠ link.next) (table : Table)
    (left : Nat) : interrupted table link left other = table other := by
  unfold interrupted
  split
  · rfl
  · split
    · rw [setField_eq_of_ne prev]
    · rw [setField_eq_of_ne next, setField_eq_of_ne prev]

/-- However far it was done, no link that was there is gone. -/
@[simp] theorem isSome_interrupted (table : Table) (link : Link) (left : Nat) (key : Key) :
    (interrupted table link left key).isSome = (table key).isSome := by
  unfold interrupted
  split
  · rfl
  · split <;> simp

section

variable (ring : IsRing table (front ++ [tail.prev])) (found : table tail.prev = some link)
include ring found

/-- The key before the last one is neither that one nor the tail anchor. -/
theorem prev_last_ne : link.prev ≠ tail.prev ∧ link.prev ≠ .tail := by
  obtain ⟨front', -, frontEq, -⟩ := ring.exists_neighbours found
  have member : link.prev ∈ Key.head :: front := by
    rw [frontEq]
    exact List.mem_append_right front' (List.mem_singleton_self link.prev)
  have nodup := ring.sources
  rw [show circle (front ++ [tail.prev]) =
    ((Key.head :: front) ++ [tail.prev, .tail]) ++ [.head] by simp [circle],
    List.dropLast_concat, List.nodup_append] at nodup
  exact ⟨nodup.2.2 link.prev member tail.prev (by simp), nodup.2.2 link.prev member .tail (by simp)⟩

/-- Before the tail anchor is patched, an eviction that failed can be begun anew. -/
theorem interrupted_early (tailFound : table .tail = some tail) (early : left < 13) :
    interrupted table link left .tail = some tail ∧
      interrupted table link left tail.prev = some link := by
  obtain ⟨notLast, notTail⟩ := prev_last_ne ring found
  by_cases untouched : left < 9
  · rw [interrupted, if_pos untouched]
    exact ⟨tailFound, found⟩
  · rw [interrupted, if_neg untouched, if_pos early]
    refine ⟨?_, ?_⟩
    · rw [setField_eq_of_ne notTail.symm, tailFound]
    · rw [setField_eq_of_ne notLast.symm, found]

/-- After that it is the key before whose turn it is, and the link that is left over is in
nobody's way. -/
theorem interrupted_late {last : Key} (split : front = front.dropLast ++ [last])
    (late : ¬ left < 13) :
    ∃ tail' link', interrupted table link left .tail = some tail' ∧ ¬ tail'.prev.IsAnchor ∧
      interrupted table link left tail'.prev = some link' ∧
      (interrupted table link left link'.prev).isSome ∧
      (interrupted table link left link'.next).isSome ∧
      Passes (unlink (interrupted table link left) tail'.prev link') front.dropLast := by
  have victim : tail.prev ∉ front := by
    have nodup := ring.nodup
    rw [List.nodup_append] at nodup
    exact fun member => nodup.2.2 _ member _ (List.mem_singleton_self _) rfl
  have glyph := ring.glyphs tail.prev (by simp)
  have closed := ring.unlink found
  rw [List.append_nil, split] at closed
  have spared {other : Key} (differs : other ≠ tail.prev) :
      unlink table tail.prev link other = interrupted table link left other := by
    rw [unlink, Function.update_of_ne differs, interrupted, if_neg (by omega), if_neg late]
  obtain ⟨tail', tailFound'⟩ := closed.exists_link .tail (.inl (.inr rfl))
  obtain rfl := closed.prev_tail_eq tailFound'
  obtain ⟨link', found'⟩ := closed.exists_link tail'.prev (.inr (by simp))
  have stays {other : Key} (present : (unlink table tail.prev link other).isSome) :
      (interrupted table link left other).isSome := by
    rw [← spared]
    · exact present
    · rintro rfl
      simp [unlink] at present
  have passes := (closed.unlink found').passes
  rw [List.append_nil] at passes
  refine ⟨tail', link', ?_, closed.glyphs tail'.prev (by simp), ?_, ?_, ?_, ?_⟩
  · rw [← spared fun same => glyph (.inr same.symm), tailFound']
  · rw [← spared, found']
    rintro same
    exact victim (by rw [split, ← same]; simp)
  · exact stays (closed.isSome_prev found')
  · exact stays (closed.isSome_next found')
  · refine passes.congr fun key known => unlink_congr (spared ?_).symm _ _
    rintro rfl
    rcases known with anchor | member
    · exact glyph anchor
    · exact victim (List.dropLast_subset front member)

end

/-- Evicting again after an eviction failed takes a key out of the ring. Up to the patch of the
tail anchor it is the one that the first eviction was to take, and then the one before it. -/
theorem runs_evict_again (shows : Shows m.get? table) (ring : IsRing table (front ++ [key]))
    (nonempty : front ≠ []) (unlimited : m.quota = none) (armed : m.fault = some left)
    (soon : left < 15) :
    ∃ m₁ victim m₂ table', Runs evict m (.error (.device .injected)) m₁ ∧
      m₁.quota = none ∧ m₁.fault = none ∧ Runs evict m₁ (.ok victim) m₂ ∧ ¬ victim.IsAnchor ∧
      Relinks m₁ 15 table' m₂ ∧ (left < 13 → IsRing table' front) ∧
      (¬ left < 13 → Passes table' front.dropLast) := by
  obtain ⟨tail, tailFound⟩ := ring.exists_link .tail (.inl (.inr rfl))
  obtain rfl := ring.prev_tail_eq tailFound
  obtain ⟨link, found⟩ := ring.exists_link tail.prev (.inr (by simp))
  have glyph := ring.glyphs tail.prev (by simp)
  have before := ring.isSome_prev found
  have after := ring.isSome_next found
  obtain ⟨m₁, failing, quiet, get⟩ :=
    runs_evict_of_armed shows armed unlimited tailFound glyph found before after soon
  have unlimited₁ : m₁.quota = none := (respects_evict.run failing).quota.trans unlimited
  have shows₁ : Shows m₁.get? (interrupted table link left) := by
    rw [get]
    exact shows_withLinks _ _
  by_cases early : left < 13
  · obtain ⟨tailFound₁, found₁⟩ := interrupted_early ring found tailFound early
    obtain ⟨m₂, evicting, relinks⟩ := runs_evict_of_found shows₁ tailFound₁ glyph found₁
      (by rwa [isSome_interrupted]) (by rwa [isSome_interrupted]) unlimited₁
      (Memory.allows_of_none quiet 15)
    have closed := ring.unlink found
    rw [List.append_nil, ← unlink_interrupted table tail.prev link left] at closed
    exact ⟨m₁, _, m₂, _, failing, unlimited₁, quiet, evicting, glyph, relinks, fun _ => closed,
      fun late => absurd early late⟩
  · obtain ⟨tail', link', tailFound₁, glyph', found₁, before', after', passes⟩ :=
      interrupted_late ring found (List.dropLast_concat_getLast nonempty).symm early
    obtain ⟨m₂, evicting, relinks⟩ := runs_evict_of_found shows₁ tailFound₁ glyph' found₁ before'
      after' unlimited₁ (Memory.allows_of_none quiet 15)
    exact ⟨m₁, _, m₂, _, failing, unlimited₁, quiet, evicting, glyph', relinks,
      fun again => absurd again early, fun _ => passes⟩

end GlyphShelf.Ring

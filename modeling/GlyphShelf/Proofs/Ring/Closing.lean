import GlyphShelf.Proofs.Ring.Ways

/-!
# Walks that close

The walk from the head anchor finds out whether the records lead to the tail anchor, and no more: it
does not look at the way back, nor for links beside its way. It either closes or finds damage.

If the way back leads through the same keys, then the examination finds nothing, and keys can be
evicted one after the other. Links beside the way are neither used nor changed by this.
-/

namespace GlyphShelf.Ring

variable {m m' : Memory} {records : String → Option Bytes} {table : Table}
variable {keys front : List Key} {key before : Key} {link : Link} {count more : Nat}
variable {linked linked' : Key → Bool}

/-! ## Closing walks -/

/-- From the head anchor on, each key names the next one, up to the tail anchor. -/
structure Closes (records : String → Option Bytes) (keys : List Key) : Prop where
  nodup : keys.Nodup
  glyphs : ∀ key ∈ keys, ¬ key.IsAnchor
  forward : IsPath (linksOf records) .next (.head :: (keys ++ [.tail]))

/-- From the tail anchor on, each key names the one before it, up to the head anchor. -/
def LeadsBack (records : String → Option Bytes) (keys : List Key) : Prop :=
  IsPath (linksOf records) .prev (.tail :: (keys.reverse ++ [.head]))

theorem Closes.passes (closes : Closes records keys) (back : LeadsBack records keys) :
    Passes (linksOf records) keys where
  nodup := closes.nodup
  glyphs := closes.glyphs
  forward := closes.forward
  backward := back

theorem Closes.leads (closes : Closes records keys) : Leads records .next .head .tail keys where
  path := closes.forward
  fresh member := closes.glyphs .tail member (.inr rfl)

theorem Closes.hasLink (closes : Closes records keys) (member : key ∈ keys) :
    hasLink records key = true := by
  obtain ⟨link, found⟩ := closes.leads.legible member
  exact hasLink_of_legible found

theorem Closes.runs_walk (closes : Closes m.get? keys) (quiet : m.fault = none) :
    Runs walk m (.ok keys) (m.spend (3 + 3 * keys.length)) :=
  runs_along (reads_linksOf m.get?) quiet closes.forward closes.nodup closes.glyphs
    (.inl rfl) (.inr rfl)

theorem Leads.closes (leads : Leads records .next .head .tail keys) : Closes records keys where
  nodup := (List.nodup_cons.1 (leads.nodup Key.head_ne_tail)).2
  glyphs := leads.glyphs Key.head_ne_tail fun _ anchor => anchor
  forward := leads.path

/-- A walk that does not close finds damage. -/
theorem walk_cases (quiet : m.fault = none) :
    (∃ keys, Closes m.get? keys) ∨ ∃ damage m', Runs walk m (.error (.corrupt damage)) m' :=
  (along_cases quiet .next .head .tail).imp_left fun ⟨keys, leads⟩ => ⟨keys, leads.closes⟩

/-- A walk returns keys only if it closes. -/
theorem closes_of_walk (quiet : m.fault = none) (run : Runs walk m (.ok keys) m') :
    Closes m.get? keys ∧ m' = m.spend (3 + 3 * keys.length) := by
  obtain ⟨keys', closes⟩ | ⟨damage, m₁, failing⟩ := walk_cases quiet
  · obtain ⟨same, rfl⟩ := run.deterministic (closes.runs_walk quiet)
    cases same
    exact ⟨closes, rfl⟩
  · cases (run.deterministic failing).1

/-! ## Examinations -/

theorem path_of_checkBackLinks (quiet : m.fault = none)
    (run : Runs (checkBackLinks before keys) m (.ok ()) m') :
    IsPath (linksOf m.get?) .prev (keys.reverse ++ [before]) := by
  induction keys generalizing m before with
  | nil => exact .singleton before
  | cons key keys ih =>
    obtain ⟨link, m₁, reading, rest⟩ := run.bind_ok
    obtain ⟨found, rfl⟩ := legible_of_neighbours quiet (Examination.of_ofAction reading)
    by_cases agrees : link.prev = before
    · rw [if_pos agrees] at rest
      have path := ih (m := m.spend 3) (Memory.fault_spend quiet 3) rest
      rw [List.reverse_cons]
      refine List.isChain_append.2 ⟨path, .singleton before, ?_⟩
      intro last isLast first isFirst
      rw [List.getLast?_append_of_ne_nil _ (List.cons_ne_nil key [])] at isLast
      cases isLast
      cases isFirst
      rw [← agrees]
      exact fieldOf_eq_some found .prev
    · rw [if_neg agrees] at rest
      cases rest

/-- If each key and the tail anchor name the key before them, then the way back is the way forward
in reverse. -/
theorem leadsBack_of_checkBackLinks (quiet : m.fault = none)
    (run : Runs (checkBackLinks .head (keys ++ [.tail])) m (.ok ()) m') :
    LeadsBack m.get? keys := by
  have path := path_of_checkBackLinks quiet run
  rwa [List.reverse_append] at path

/-- So the walk back cannot but return the same keys. -/
theorem walkBack_of_checkBackLinks {m₁ m₂ : Memory} (quiet : m.fault = none)
    (walking : Runs walk m (.ok keys) m₁)
    (checking : Runs (checkBackLinks .head (keys ++ [.tail])) m₁ (.ok ()) m₂) :
    Passes (linksOf m.get?) keys ∧ ∃ m₃, Runs walkBack m₂ (.ok keys.reverse) m₃ := by
  obtain ⟨closes, rfl⟩ := closes_of_walk quiet walking
  have quiet₁ := Memory.fault_spend quiet (3 + 3 * keys.length)
  have back := leadsBack_of_checkBackLinks quiet₁ checking
  have path : IsPath (linksOf m.get?) .prev ((keys ++ [Key.tail]).reverse ++ [Key.head]) := by
    rw [List.reverse_append]
    exact back
  obtain ⟨-, rfl⟩ := checking.deterministic
    (runs_checkBackLinks (m := m.spend _) (reads_linksOf m.get?) quiet₁ path)
  have passes := closes.passes back
  exact ⟨passes, _, runs_walkBack (m := (m.spend _).spend _) (reads_linksOf m.get?)
    (Memory.fault_spend quiet₁ _) passes⟩

/-- An examination that finds nothing has been there and all the way back. -/
theorem passes_of_check (quiet : m.fault = none) (run : Runs check m (.ok ()) m') :
    ∃ keys, Passes (linksOf m.get?) keys := by
  obtain ⟨keys, m₁, walking, rest⟩ := run.bind_ok
  obtain ⟨_, m₂, checking, -⟩ := rest.bind_ok
  exact ⟨keys, (walkBack_of_checkBackLinks quiet (Examination.of_ofAction walking) checking).1⟩

theorem Closes.leadsBack_of_check (closes : Closes m.get? keys) (quiet : m.fault = none)
    (run : Runs check m (.ok ()) m') : LeadsBack m.get? keys := by
  obtain ⟨keys', passes⟩ := passes_of_check quiet run
  have walking := Ring.runs_walk (reads_linksOf m.get?) quiet passes
  obtain ⟨same, -⟩ := walking.deterministic (closes.runs_walk quiet)
  cases same
  exact passes.backward

/-- Where links are compared, nothing is said of directions. -/
theorem breach_of_checkBackLinks {s s' : Memory} {breach : Breach}
    (run : Runs (checkBackLinks before keys) s (.error breach) s') :
    (∃ e, breach = .failed e) ∨ ∃ key found expected, breach = .backLink key found expected := by
  induction keys generalizing s before with
  | nil => cases run
  | cons key keys ih =>
    obtain ⟨link, m₁, -, rest⟩ | ⟨_, reading, same⟩ := run.bind_cases
    · by_cases agrees : link.prev = before
      · rw [if_pos agrees] at rest
        exact ih rest
      · rw [if_neg agrees] at rest
        cases rest
        exact .inr ⟨key, link.prev, before, rfl⟩
    · cases same
      exact .inl (Examination.failed_of_ofAction reading)

/-- That the directions disagree is never found: the links would have been found to disagree. -/
theorem check_never_directions (quiet : m.fault = none) (forward backward : List Key) :
    ¬ Runs check m (.error (.directions forward backward)) m' := by
  intro run
  obtain ⟨keys, m₁, walking, rest⟩ | ⟨_, walking, same⟩ := run.bind_cases
  · obtain ⟨_, m₂, checking, rest⟩ | ⟨_, checking, same⟩ := rest.bind_cases
    · obtain ⟨-, m₃, returning⟩ :=
        walkBack_of_checkBackLinks quiet (Examination.of_ofAction walking) checking
      obtain ⟨keys', m₃', returning', last⟩ | ⟨_, returning', same⟩ := rest.bind_cases
      · cases ((Examination.of_ofAction returning').deterministic returning).1
        rw [List.reverse_reverse, if_pos rfl] at last
        cases last
      · cases (returning'.deterministic (Examination.runs_ofAction returning)).1
    · cases same
      obtain ⟨_, same⟩ | ⟨_, _, _, same⟩ := breach_of_checkBackLinks checking
      · cases same
      · cases same
  · cases same
    obtain ⟨_, same⟩ := Examination.failed_of_ofAction walking
    cases same

/-! ## Evicting -/

/-- So many operations, none of which failed, lead to the given legible links, and to keys that have
links, legible or not. -/
structure Rewrites (m : Memory) (count : Nat) (table : Table) (linked : Key → Bool) (m' : Memory) :
    Prop extends m.Spends count m' where
  links : linksOf m'.get? = table
  linked : hasLink m'.get? = linked

theorem Rewrites.trans {m₁ m₂ : Memory} {table' : Table} (first : Rewrites m count table linked m₁)
    (second : Rewrites m₁ more table' linked' m₂) :
    Rewrites m (count + more) table' linked' m₂ where
  toSpends := first.toSpends.trans second.toSpends
  links := second.links
  linked := second.linked

theorem rewrites_spend (m : Memory) (count : Nat) :
    Rewrites m count (linksOf m.get?) (hasLink m.get?) (m.spend count) where
  toSpends := Memory.spends_spend m count
  links := rfl
  linked := rfl

section

variable (unlimited : m.quota = none) (quiet : m.fault = none)
include unlimited quiet

theorem runs_patch_of_legible (found : linksOf m.get? key = some link) (field : Link.Field)
    (value : Key) :
    ∃ m', Runs (patch key field value) m (.ok ()) m' ∧
      Rewrites m 4 (setField (linksOf m.get?) key field value) (hasLink m.get?) m' := by
  obtain ⟨rest, stored⟩ := linksOf_eq_some found
  obtain ⟨m', run, sets⟩ :=
    runs_patch_of_stored unlimited (Memory.allows_of_none quiet 4) stored field value
  rw [overlay_encode_append] at sets
  refine ⟨m', run, sets.toSpends, ?_, ?_⟩
  · rw [sets.get?, linksOf_update, setField, found, Option.bind_some, Link.decode_encode_append]
    rfl
  · rw [sets.get?, hasLink_update, Option.isSome_some, ← hasLink_of_legible found,
      Function.update_eq_self]

theorem runs_detach_of_legible (before : (linksOf m.get? link.prev).isSome)
    (after : (linksOf m.get? link.next).isSome) :
    ∃ m', Runs (detach link) m (.ok ()) m' ∧
      Rewrites m 8 (setField (setField (linksOf m.get?) link.prev .next link.next) link.next .prev
        link.prev) (hasLink m.get?) m' := by
  obtain ⟨before, beforeFound⟩ := Option.isSome_iff_exists.1 before
  obtain ⟨m₁, first, rewrites₁⟩ := runs_patch_of_legible unlimited quiet beforeFound .next link.next
  rw [← isSome_setField (linksOf m.get?) link.prev .next link.next, ← rewrites₁.links] at after
  obtain ⟨after, afterFound⟩ := Option.isSome_iff_exists.1 after
  obtain ⟨m₂, second, rewrites₂⟩ := runs_patch_of_legible (rewrites₁.quota.trans unlimited)
    (rewrites₁.fault_eq_none quiet) afterFound .prev link.prev
  rw [rewrites₁.links, rewrites₁.linked] at rewrites₂
  exact ⟨m₂, first.bind second, rewrites₁.trans rewrites₂⟩

omit unlimited in
theorem runs_deleteLink_of_legible (found : linksOf m.get? key = some link) :
    ∃ m', Runs (Device.delete (linkName key)) m (.ok ()) m' ∧
      Rewrites m 1 (Function.update (linksOf m.get?) key none)
        (Function.update (hasLink m.get?) key false) m' := by
  obtain ⟨rest, stored⟩ := linksOf_eq_some found
  obtain ⟨m', run, sets⟩ := Memory.runs_delete (Memory.allows_of_none quiet 1)
    (by rw [stored]; exact Option.some_ne_none _)
  refine ⟨m', run, sets.toSpends, ?_, ?_⟩
  · rw [sets.get?, linksOf_update]
    rfl
  · rw [sets.get?, hasLink_update]
    rfl

theorem runs_evict_of_legible {tail : Link} (tailFound : linksOf m.get? .tail = some tail)
    (glyph : ¬ tail.prev.IsAnchor) (found : linksOf m.get? tail.prev = some link)
    (before : (linksOf m.get? link.prev).isSome) (after : (linksOf m.get? link.next).isSome) :
    ∃ m', Runs evict m (.ok tail.prev) m' ∧
      Rewrites m 15 (unlink (linksOf m.get?) tail.prev link)
        (Function.update (hasLink m.get?) tail.prev false) m' := by
  have reading := runs_neighbours_of_legible quiet tailFound
  have reading₃ := runs_neighbours_of_legible (m := m.spend 3) (Memory.fault_spend quiet 3) found
  rw [Memory.spend_spend] at reading₃
  obtain ⟨m₁, detaching, rewrites₁⟩ :=
    runs_detach_of_legible (m := m.spend 6) unlimited (Memory.fault_spend quiet 6) before after
  have stays : (linksOf m₁.get? tail.prev).isSome := by
    rw [rewrites₁.links, isSome_setField, isSome_setField, Memory.get?_spend, found]
    rfl
  obtain ⟨last, lastFound⟩ := Option.isSome_iff_exists.1 stays
  obtain ⟨m₂, deleting, rewrites₂⟩ :=
    runs_deleteLink_of_legible (rewrites₁.fault_eq_none (Memory.fault_spend quiet 6)) lastFound
  rw [rewrites₁.links, rewrites₁.linked] at rewrites₂
  refine ⟨m₂, reading.bind ?_, (rewrites_spend m 6).trans (rewrites₁.trans rewrites₂)⟩
  dsimp only
  rw [if_neg fun same => glyph (.inl same), if_neg glyph]
  exact reading₃.bind (detaching.bind (deleting.bind (.pure _ _)))

end

theorem Passes.distinct (passes : Passes table keys) :
    (Key.head :: (keys ++ [Key.tail])).Nodup := by
  have noHead : Key.head ∉ keys := fun member => passes.glyphs .head member (.inl rfl)
  have noTail : Key.tail ∉ keys := fun member => passes.glyphs .tail member (.inr rfl)
  refine List.nodup_cons.2 ⟨?_, List.nodup_append.2 ⟨passes.nodup, List.nodup_singleton _, ?_⟩⟩
  · rw [List.mem_append, List.mem_singleton]
    exact fun member => member.elim noHead (by decide)
  · intro key member other isTail same
    rw [List.mem_singleton] at isTail
    exact noTail (by rwa [← isTail, ← same])

/-- The last key and its two neighbours name each other. -/
structure EndsIn (table : Table) (front start : List Key) (key : Key) (tail link : Link) :
    Prop where
  split : Key.head :: front = start ++ [link.prev]
  tailFound : table .tail = some tail
  tailPrev : tail.prev = key
  found : table key = some link
  next : link.next = .tail
  before : (table link.prev).isSome

theorem Passes.exists_endsIn (passes : Passes table (front ++ [key])) :
    ∃ start tail link, EndsIn table front start key tail link := by
  obtain ⟨start, before, split⟩ := (List.eq_nil_or_concat' (Key.head :: front)).resolve_left
    (List.cons_ne_nil _ _)
  have back : IsPath table .prev (.tail :: key :: before :: start.reverse) := by
    have path := passes.backward
    rw [List.reverse_append, List.reverse_singleton, List.append_assoc, ← List.reverse_cons, split,
      List.reverse_append] at path
    exact path
  have forth : IsPath table .next (before :: key :: [.tail]) := by
    have path := passes.forward
    rw [List.append_assoc, ← List.cons_append, split, List.append_assoc] at path
    exact path.right_of_append
  obtain ⟨tail, tailFound, tailPrev⟩ := back.exists_link rfl
  obtain ⟨link, found, rfl⟩ := back.tail.exists_link rfl
  obtain ⟨previous, previousFound, -⟩ := forth.exists_link rfl
  obtain ⟨link', found', next⟩ := forth.tail.exists_link rfl
  obtain rfl : link = link' := Option.some.inj (found.symm.trans found')
  have present : (table link.prev).isSome := Option.isSome_iff_exists.2 ⟨previous, previousFound⟩
  exact ⟨start, tail, link, split, tailFound, tailPrev, found, next, present⟩

namespace EndsIn

variable {start : List Key} {tail : Link} {other : Key}
variable (ends : EndsIn table front start key tail link) (passes : Passes table (front ++ [key]))
include ends passes

theorem distinct : (start ++ [link.prev] ++ ([key] ++ [Key.tail])).Nodup := by
  have distinct := passes.distinct
  rwa [List.append_assoc, ← List.cons_append, ends.split] at distinct

theorem ne_key (member : other ∈ start ++ [link.prev]) : other ≠ key :=
  (List.nodup_append.1 (ends.distinct passes)).2.2 other member key (by simp)

theorem ne_tail (member : other ∈ start ++ [link.prev]) : other ≠ .tail :=
  (List.nodup_append.1 (ends.distinct passes)).2.2 other member .tail (by simp)

theorem ne_prev (member : other ∈ start) : other ≠ link.prev :=
  (List.nodup_append.1 (List.nodup_append.1 (ends.distinct passes)).1).2.2 other member link.prev
    (by simp)

/-- Joining its neighbours and deleting its link takes the last key away from the way forward. -/
theorem forward_unlink : IsPath (unlink table key link) .next (.head :: (front ++ [.tail])) := by
  have upTo : IsPath table .next (start ++ [link.prev]) := by
    have path := passes.forward
    rw [List.append_assoc, ← List.cons_append, ends.split] at path
    exact path.left_of_append
  rw [← List.cons_append, ends.split]
  refine List.isChain_append.2 ⟨upTo.congr_sources ?_, .singleton _, ?_⟩
  · intro other member
    rw [List.dropLast_concat] at member
    rw [unlink, fieldOf_update_of_ne (ends.ne_key passes (List.mem_append_left _ member)),
      fieldOf_setField_of_ne_field (by decide),
      fieldOf_setField_of_ne_key (ends.ne_prev passes member)]
  · intro other isLast goal isGoal
    rw [List.getLast?_concat] at isLast
    cases isLast
    cases isGoal
    rw [unlink, ends.next, fieldOf_update_of_ne (ends.ne_key passes (by simp)),
      fieldOf_setField_of_ne_field (by decide), fieldOf_setField_same ends.before]

/-- And it takes it away from the way back. -/
theorem backward_unlink :
    IsPath (unlink table key link) .prev (.tail :: (front.reverse ++ [.head])) := by
  have path := passes.backward.tail
  rw [List.reverse_append, List.append_assoc, ← List.reverse_cons, ends.split] at path
  rw [← List.reverse_cons, ends.split]
  refine List.isChain_cons.2 ⟨?_, IsPath.congr_sources path.tail ?_⟩
  · intro other isFirst
    rw [List.head?_reverse, List.getLast?_concat] at isFirst
    cases isFirst
    have apart : Key.tail ≠ key := fun same => passes.glyphs key (by simp) (.inr same.symm)
    have present : (setField table link.prev .next .tail .tail).isSome := by
      rw [isSome_setField, ends.tailFound]
      rfl
    rw [unlink, ends.next, fieldOf_update_of_ne apart, fieldOf_setField_same present]
  · intro other member
    have member := List.mem_reverse.1 (List.dropLast_subset _ member)
    rw [unlink, ends.next, fieldOf_update_of_ne (ends.ne_key passes member),
      fieldOf_setField_of_ne_key (ends.ne_tail passes member),
      fieldOf_setField_of_ne_field (by decide)]

theorem passes_unlink : Passes (unlink table key link) front where
  nodup := (List.nodup_append.1 passes.nodup).1
  glyphs other member := passes.glyphs other (List.mem_append_left _ member)
  forward := ends.forward_unlink passes
  backward := ends.backward_unlink passes

end EndsIn

/-- As long as the way back is in order, the last key can be evicted. -/
theorem runs_evict_of_passes (unlimited : m.quota = none) (quiet : m.fault = none)
    (passes : Passes (linksOf m.get?) (front ++ [key])) :
    ∃ m', Runs evict m (.ok key) m' ∧ m.Spends 15 m' ∧ Passes (linksOf m'.get?) front ∧
      hasLink m'.get? = Function.update (hasLink m.get?) key false := by
  obtain ⟨start, tail, link, ends⟩ := passes.exists_endsIn
  obtain rfl := ends.tailPrev
  have after : (linksOf m.get? link.next).isSome := by
    rw [ends.next, ends.tailFound]
    rfl
  obtain ⟨m', evicting, rewrites⟩ := runs_evict_of_legible unlimited quiet ends.tailFound
    (passes.glyphs tail.prev (by simp)) ends.found ends.before after
  refine ⟨m', evicting, rewrites.toSpends, ?_, rewrites.linked⟩
  rw [rewrites.links]
  exact ends.passes_unlink passes

end GlyphShelf.Ring

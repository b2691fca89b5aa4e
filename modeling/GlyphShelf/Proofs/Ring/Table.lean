import Mathlib.Data.List.Chain
import Mathlib.Data.List.Nodup
import Mathlib.Logic.Function.Basic
import GlyphShelf.Link

/-!
# Tables of links

The ring without a device: a table gives each key its link, or none. `IsRing table keys` says
that the table is one closed ring through exactly `keys`. The two changes that a ring knows,
taking a key out and putting one in front, are updates of a table, and each turns a ring into
a ring.

Both fields of a link are looked at separately. A list of keys is joined up if each key names
the following one as its `next` and is named by it as its `prev`; so a change of one `next`
matters only where its key has a successor in the list, and a change of one `prev` only where
its key has a predecessor. That is what `joined_congr` says, and every splice rests on it.
-/

namespace GlyphShelf.Ring

abbrev Table := Key → Option Link

def fieldOf (table : Table) (field : Link.Field) (key : Key) : Option Key :=
  (table key).map (·.get field)

def setField (table : Table) (key : Key) (field : Link.Field) (value : Key) : Table :=
  Function.update table key ((table key).map (·.set field value))

/-- Two neighbours that name each other. -/
def Joined (table : Table) (key other : Key) : Prop :=
  fieldOf table .next key = some other ∧ fieldOf table .prev other = some key

/-- Once around: from the head anchor through the keys to the tail anchor, and back to the head
anchor. -/
def circle (keys : List Key) : List Key := .head :: (keys ++ [.tail, .head])

/-- A closed ring through the given keys and no others. -/
structure IsRing (table : Table) (keys : List Key) : Prop where
  nodup : keys.Nodup
  glyphs : ∀ key ∈ keys, ¬ key.IsAnchor
  present : ∀ key, (table key).isSome ↔ key.IsAnchor ∨ key ∈ keys
  joined : List.IsChain (Joined table) (circle keys)

variable {table table' : Table} {keys front back : List Key} {key other first before after : Key}
variable {field field' : Link.Field} {value : Key} {link : Link}

theorem circle_append (front back : List Key) :
    circle (front ++ back) = (.head :: front) ++ (back ++ [.tail, .head]) := by
  simp [circle]

theorem circle_append_cons (front : List Key) (key : Key) (back : List Key) :
    circle (front ++ key :: back) = (.head :: front) ++ key :: (back ++ [.tail, .head]) := by
  simp [circle]

theorem mem_circle : key ∈ circle keys ↔ key.IsAnchor ∨ key ∈ keys := by
  rw [circle, List.mem_cons, List.mem_append, Key.IsAnchor]
  simp only [List.mem_cons, List.not_mem_nil, or_false]
  constructor
  · rintro (head | member | tail | head)
    · exact .inl (.inl head)
    · exact .inr member
    · exact .inl (.inr tail)
    · exact .inl (.inl head)
  · rintro ((head | tail) | member)
    · exact .inl head
    · exact .inr (.inr (.inl tail))
    · exact .inr (.inl member)

/-! ## Fields -/

@[simp] theorem isSome_setField (table : Table) (key : Key) (field : Link.Field)
    (value other : Key) :
    (setField table key field value other).isSome = (table other).isSome := by
  by_cases same : other = key
  · subst same
    simp [setField]
  · simp [setField, Function.update_of_ne same]

theorem fieldOf_setField_same (present : (table key).isSome) (field : Link.Field) (value : Key) :
    fieldOf (setField table key field value) field key = some value := by
  obtain ⟨link, found⟩ := Option.isSome_iff_exists.1 present
  cases field <;> simp [fieldOf, setField, found, Link.get, Link.set]

theorem fieldOf_setField_of_ne_key (differs : other ≠ key) (field' : Link.Field) :
    fieldOf (setField table key field value) field' other = fieldOf table field' other := by
  simp [fieldOf, setField, Function.update_of_ne differs]

theorem fieldOf_setField_of_ne_field (differs : field' ≠ field) (other : Key) :
    fieldOf (setField table key field value) field' other = fieldOf table field' other := by
  by_cases same : other = key
  · subst same
    cases found : table other <;> cases field <;> cases field' <;>
      simp_all [fieldOf, setField, Link.get, Link.set]
  · exact fieldOf_setField_of_ne_key same field'

theorem fieldOf_update_of_ne (differs : other ≠ key) (entry : Option Link) (field : Link.Field) :
    fieldOf (Function.update table key entry) field other = fieldOf table field other := by
  simp [fieldOf, Function.update_of_ne differs]

theorem fieldOf_eq_some (found : table key = some link) (field : Link.Field) :
    fieldOf table field key = some (link.get field) := by
  rw [fieldOf, found, Option.map_some]

/-! ## Chains -/

/-- What the last key has next, and what the first one has before it, joins nothing. -/
theorem joined_congr (chain : List.IsChain (Joined table) keys)
    (nexts : ∀ key ∈ keys.dropLast, fieldOf table' .next key = fieldOf table .next key)
    (prevs : ∀ key ∈ keys.tail, fieldOf table' .prev key = fieldOf table .prev key) :
    List.IsChain (Joined table') keys := by
  induction keys with
  | nil => exact .nil
  | cons key rest ih =>
    cases rest with
    | nil => exact .singleton key
    | cons second rest =>
      obtain ⟨⟨forward, backward⟩, chain⟩ := List.isChain_cons_cons.1 chain
      refine List.isChain_cons_cons.2 ⟨⟨?_, ?_⟩, ih chain ?_ ?_⟩
      · rw [nexts key (by simp), forward]
      · rw [prevs second (by simp), backward]
      · exact fun other member => nexts other (by simp [member])
      · exact fun other member => prevs other (by simp [List.mem_of_mem_tail member])

/-- Taking the middle one of three neighbours out of a chain. -/
theorem joined_spliceOut
    (chain : List.IsChain (Joined table) (front ++ before :: key :: after :: back))
    (sources : (front ++ before :: key :: after :: back).dropLast.Nodup)
    (targets : (front ++ before :: key :: after :: back).tail.Nodup)
    (beforePresent : (table before).isSome) (afterPresent : (table after).isSome) :
    List.IsChain (Joined (setField (setField table before .next after) after .prev before))
      (front ++ before :: after :: back) := by
  obtain ⟨chainFront, chainRest⟩ := List.isChain_split.1 chain
  have chainBack := (List.isChain_cons_cons.1 (List.isChain_cons_cons.1 chainRest).2).2
  have nexts : ∀ key ≠ before,
      fieldOf (setField (setField table before .next after) after .prev before) .next key =
        fieldOf table .next key := by
    intro key differs
    rw [fieldOf_setField_of_ne_field (by decide), fieldOf_setField_of_ne_key differs]
  have prevs : ∀ key ≠ after,
      fieldOf (setField (setField table before .next after) after .prev before) .prev key =
        fieldOf table .prev key := by
    intro key differs
    rw [fieldOf_setField_of_ne_key differs, fieldOf_setField_of_ne_field (by decide)]
  have sources' : (front ++ before :: (key :: after :: back).dropLast).Nodup := by
    simpa [List.dropLast_append_of_ne_nil] using sources
  have targets' : ((front ++ [before]).tail ++ key :: after :: back).Nodup := by
    rw [← List.tail_append_of_ne_nil (by simp)]
    simpa using targets
  refine List.isChain_split.2 ⟨joined_congr chainFront ?_ ?_, List.isChain_cons_cons.2
    ⟨⟨?_, ?_⟩, joined_congr chainBack ?_ ?_⟩⟩
  · intro other member
    rw [List.dropLast_concat] at member
    refine nexts other fun same => ?_
    exact (List.nodup_append.1 sources').2.2 other member before (by simp) same
  · intro other member
    refine prevs other fun same => ?_
    exact (List.nodup_append.1 targets').2.2 other member after (by simp) same
  · rw [fieldOf_setField_of_ne_field (by decide), fieldOf_setField_same beforePresent]
  · rw [fieldOf_setField_same (by rwa [isSome_setField])]
  · intro other member
    refine nexts other fun same => ?_
    have fresh := (List.nodup_cons.1 (List.nodup_append.1 sources').2.1).1
    rw [List.dropLast_cons_of_ne_nil (by simp)] at fresh
    exact fresh (List.mem_cons_of_mem key (same ▸ member))
  · intro other member
    refine prevs other fun same => ?_
    have fresh := (List.nodup_cons.1 (List.nodup_cons.1 (List.nodup_append.1 targets').2.1).2).1
    exact fresh (same ▸ member)

/-- Putting a key behind the first one of a chain. -/
theorem joined_spliceIn (chain : List.IsChain (Joined table) (before :: after :: back))
    (beforeFresh : before ∉ (after :: back).dropLast) (afterFresh : after ∉ back)
    (keyFresh : key ∉ before :: after :: back)
    (beforePresent : (table before).isSome) (afterPresent : (table after).isSome) :
    List.IsChain (Joined (setField (setField (Function.update table key (some ⟨before, after⟩))
      before .next key) after .prev key)) (before :: key :: after :: back) := by
  have keyBefore : key ≠ before := fun same => keyFresh (by simp [same])
  have keyAfter : key ≠ after := fun same => keyFresh (by simp [same])
  have beforePresent' : (Function.update table key (some ⟨before, after⟩) before).isSome := by
    rwa [Function.update_of_ne keyBefore.symm]
  have afterPresent' : (Function.update table key (some ⟨before, after⟩) after).isSome := by
    rwa [Function.update_of_ne keyAfter.symm]
  refine List.isChain_cons_cons.2 ⟨⟨?_, ?_⟩, List.isChain_cons_cons.2 ⟨⟨?_, ?_⟩,
    joined_congr (List.isChain_cons_cons.1 chain).2 ?_ ?_⟩⟩
  · rw [fieldOf_setField_of_ne_field (by decide), fieldOf_setField_same beforePresent']
  · rw [fieldOf_setField_of_ne_key keyAfter, fieldOf_setField_of_ne_field (by decide),
      fieldOf_eq_some (Function.update_self ..)]
    rfl
  · rw [fieldOf_setField_of_ne_field (by decide), fieldOf_setField_of_ne_key keyBefore,
      fieldOf_eq_some (Function.update_self ..)]
    rfl
  · rw [fieldOf_setField_same (by rwa [isSome_setField])]
  · intro other member
    have otherKey : other ≠ key := fun same =>
      keyFresh (same ▸ List.mem_cons_of_mem before (List.dropLast_subset _ member))
    have otherBefore : other ≠ before := fun same => beforeFresh (same ▸ member)
    rw [fieldOf_setField_of_ne_field (by decide), fieldOf_setField_of_ne_key otherBefore,
      fieldOf_update_of_ne otherKey]
  · intro other member
    rw [List.tail_cons] at member
    have otherKey : other ≠ key := fun same => keyFresh (by simp [← same, member])
    have otherAfter : other ≠ after := fun same => afterFresh (same ▸ member)
    rw [fieldOf_setField_of_ne_key otherAfter, fieldOf_setField_of_ne_field (by decide),
      fieldOf_update_of_ne otherKey]

/-! ## Rings -/

/-- The ring without keys, laid over a table. -/
def anchored (table : Table) : Table :=
  Function.update (Function.update table .head (some ⟨.tail, .tail⟩)) .tail (some ⟨.head, .head⟩)

/-- The table without a key: its neighbours name each other instead, and its link is gone. -/
def unlink (table : Table) (key : Key) (link : Link) : Table :=
  Function.update (setField (setField table link.prev .next link.next) link.next .prev link.prev)
    key none

/-- The table with a key between the head anchor and the key that was first so far. -/
def linkFirst (table : Table) (key first : Key) : Table :=
  setField (setField (Function.update table key (some ⟨.head, first⟩)) .head .next key) first
    .prev key

theorem isRing_anchored : IsRing (anchored fun _ => none) [] where
  nodup := .nil
  glyphs := nofun
  present key := by
    simp only [anchored, Function.update_apply, Key.IsAnchor, List.not_mem_nil, or_false]
    split
    · simp [*]
    · split <;> simp [*]
  joined := .cons_cons ⟨by decide, by decide⟩ (.cons_cons ⟨by decide, by decide⟩ (.singleton _))

namespace IsRing

theorem not_mem_of_anchor (ring : IsRing table keys) (anchor : key.IsAnchor) : key ∉ keys :=
  fun member => ring.glyphs key member anchor

theorem exists_link (ring : IsRing table keys) (key : Key) (known : key.IsAnchor ∨ key ∈ keys) :
    ∃ link, table key = some link :=
  Option.isSome_iff_exists.1 ((ring.present key).2 known)

theorem eq_none (ring : IsRing table keys) (glyph : ¬ key.IsAnchor) (fresh : key ∉ keys) :
    table key = none := by
  rw [← Option.not_isSome_iff_eq_none, ring.present]
  rintro (anchor | member)
  · exact glyph anchor
  · exact fresh member

/-- No key has two successors in the ring. -/
theorem sources (ring : IsRing table keys) : (circle keys).dropLast.Nodup := by
  have headFresh := ring.not_mem_of_anchor (.inl rfl)
  have tailFresh := ring.not_mem_of_anchor (.inr rfl)
  rw [show circle keys = (Key.head :: (keys ++ [Key.tail])) ++ [Key.head] by simp [circle],
    List.dropLast_concat, List.nodup_cons, List.nodup_append]
  refine ⟨by simp [headFresh], ring.nodup, List.nodup_singleton _, ?_⟩
  intro key member other last same
  rw [List.mem_singleton] at last
  exact tailFresh (last ▸ same ▸ member)

/-- No key has two predecessors in the ring. -/
theorem targets (ring : IsRing table keys) : (circle keys).tail.Nodup := by
  rw [circle, List.tail_cons, List.nodup_append]
  refine ⟨ring.nodup, by decide, ?_⟩
  intro key member other anchor same
  refine ring.glyphs key member ?_
  rw [same]
  simpa [Key.IsAnchor, or_comm] using anchor

/-- Where a key stands between its neighbours. -/
theorem exists_neighbours (ring : IsRing table (front ++ key :: back))
    (found : table key = some link) :
    ∃ front' back', Key.head :: front = front' ++ [link.prev] ∧
      back ++ [.tail, .head] = link.next :: back' := by
  obtain ⟨front', before, frontEq⟩ : ∃ front' before, Key.head :: front = front' ++ [before] :=
    ⟨_, _, (List.dropLast_concat_getLast (List.cons_ne_nil _ _)).symm⟩
  obtain ⟨after, back', backEq⟩ : ∃ after back', back ++ [.tail, .head] = after :: back' :=
    List.exists_cons_of_ne_nil (by simp)
  have chain := ring.joined
  rw [circle_append_cons, frontEq, backEq, List.append_assoc, List.singleton_append] at chain
  have chainRest := List.isChain_cons_cons.1 (List.isChain_split.1 chain).2
  have previous := chainRest.1.2
  have next := (List.isChain_cons_cons.1 chainRest.2).1.1
  rw [fieldOf_eq_some found, Option.some_inj] at previous next
  exact ⟨front', back', by rw [frontEq, ← previous]; rfl, by rw [backEq, ← next]; rfl⟩

theorem prev_eq_head_iff (ring : IsRing table (front ++ key :: back))
    (found : table key = some link) : link.prev = .head ↔ front = [] := by
  obtain ⟨front', -, frontEq, -⟩ := ring.exists_neighbours found
  constructor
  · intro first
    cases front' with
    | nil => exact (List.cons_eq_cons.1 frontEq).2
    | cons start rest =>
      obtain ⟨-, frontEq⟩ := List.cons_eq_cons.1 frontEq
      refine absurd (Or.inl first) (ring.glyphs link.prev ?_)
      simp [frontEq]
  · rintro rfl
    cases front' with
    | nil => exact (List.cons_eq_cons.1 frontEq).1.symm
    | cons start rest => simp at frontEq

theorem isSome_prev (ring : IsRing table (front ++ key :: back)) (found : table key = some link) :
    (table link.prev).isSome := by
  obtain ⟨front', -, frontEq, -⟩ := ring.exists_neighbours found
  rw [ring.present, ← mem_circle, circle_append_cons, frontEq]
  simp

theorem isSome_next (ring : IsRing table (front ++ key :: back)) (found : table key = some link) :
    (table link.next).isSome := by
  obtain ⟨-, back', -, backEq⟩ := ring.exists_neighbours found
  rw [ring.present, ← mem_circle, circle_append_cons, backEq]
  simp

/-- A ring stays one when a key is taken out. -/
theorem unlink (ring : IsRing table (front ++ key :: back)) (found : table key = some link) :
    IsRing (unlink table key link) (front ++ back) where
  nodup := (List.nodup_middle.1 ring.nodup).of_cons
  glyphs other member := ring.glyphs other (by
    rcases List.mem_append.1 member with member | member <;> simp [member])
  present other := by
    have fresh : key ∉ front ++ back := (List.nodup_cons.1 (List.nodup_middle.1 ring.nodup)).1
    by_cases same : other = key
    · subst same
      simpa [Ring.unlink, fresh] using ring.glyphs other (by simp)
    · rw [Ring.unlink, Function.update_of_ne same, isSome_setField, isSome_setField, ring.present]
      simp [same]
  joined := by
    obtain ⟨front', back', frontEq, backEq⟩ := ring.exists_neighbours found
    have whole : circle (front ++ key :: back) =
        front' ++ link.prev :: key :: link.next :: back' := by
      rw [circle_append_cons, frontEq, backEq]
      simp
    have rest : circle (front ++ back) = front' ++ link.prev :: link.next :: back' := by
      rw [circle_append, frontEq, backEq]
      simp
    have fresh : key ∉ circle (front ++ back) := by
      rw [mem_circle, not_or]
      exact ⟨ring.glyphs key (by simp), (List.nodup_cons.1 (List.nodup_middle.1 ring.nodup)).1⟩
    have spliced := joined_spliceOut (whole ▸ ring.joined) (whole ▸ ring.sources)
      (whole ▸ ring.targets) (ring.isSome_prev found) (ring.isSome_next found)
    rw [← rest] at spliced
    refine joined_congr spliced ?_ ?_
    · intro other member
      refine fieldOf_update_of_ne ?_ none .next
      rintro rfl
      exact fresh (List.dropLast_subset _ member)
    · intro other member
      refine fieldOf_update_of_ne ?_ none .prev
      rintro rfl
      exact fresh (List.mem_of_mem_tail member)

/-- The key that the head anchor names comes first, be it the tail anchor. -/
theorem exists_first (ring : IsRing table keys) (found : table .head = some link) :
    ∃ rest, keys ++ [.tail, .head] = link.next :: rest := by
  obtain ⟨first, rest, keysEq⟩ : ∃ first rest, keys ++ [.tail, .head] = first :: rest :=
    List.exists_cons_of_ne_nil (by simp)
  have chain := ring.joined
  rw [circle, keysEq] at chain
  have next := (List.isChain_cons_cons.1 chain).1.1
  rw [fieldOf_eq_some found, Option.some_inj] at next
  exact ⟨rest, by rw [keysEq, ← next]; rfl⟩

theorem isSome_first (ring : IsRing table keys) (found : table .head = some link) :
    (table link.next).isSome := by
  obtain ⟨rest, keysEq⟩ := ring.exists_first found
  rw [ring.present, ← mem_circle, circle, keysEq]
  simp

/-- The key that the tail anchor names comes last, be it the head anchor. -/
theorem prev_tail (ring : IsRing table keys) (found : table .tail = some link) :
    ∃ rest, Key.head :: keys = rest ++ [link.prev] := by
  obtain ⟨rest, last, keysEq⟩ : ∃ rest last, Key.head :: keys = rest ++ [last] :=
    ⟨_, _, (List.dropLast_concat_getLast (List.cons_ne_nil _ _)).symm⟩
  have chain := ring.joined
  rw [circle, ← List.cons_append, keysEq, List.append_assoc, List.singleton_append] at chain
  have previous := (List.isChain_cons_cons.1 (List.isChain_split.1 chain).2).1.2
  rw [fieldOf_eq_some found, Option.some_inj] at previous
  exact ⟨rest, by rw [keysEq, ← previous]; rfl⟩

theorem prev_tail_eq (ring : IsRing table (front ++ [key])) (found : table .tail = some link) :
    key = link.prev := by
  obtain ⟨rest, lastEq⟩ := ring.prev_tail found
  rw [← List.cons_append] at lastEq
  simpa using List.append_inj_right' lastEq rfl

/-- A ring stays one when a new key is put in front. -/
theorem linkFirst (ring : IsRing table keys) (glyph : ¬ key.IsAnchor) (fresh : key ∉ keys)
    (found : table .head = some link) : IsRing (linkFirst table key link.next) (key :: keys) where
  nodup := List.nodup_cons.2 ⟨fresh, ring.nodup⟩
  glyphs other member := by
    rcases List.mem_cons.1 member with rfl | member
    · exact glyph
    · exact ring.glyphs other member
  present other := by
    rw [Ring.linkFirst, isSome_setField, isSome_setField]
    by_cases same : other = key
    · subst same
      simp
    · rw [Function.update_of_ne same, ring.present]
      simp [same]
  joined := by
    obtain ⟨rest, keysEq⟩ := ring.exists_first found
    have whole : circle keys = Key.head :: link.next :: rest := by rw [circle, keysEq]
    have sources := ring.sources
    have targets := ring.targets
    rw [whole, List.dropLast_cons_of_ne_nil (by simp)] at sources
    rw [whole, List.tail_cons] at targets
    have keyFresh : key ∉ circle keys := by
      rw [mem_circle, not_or]
      exact ⟨glyph, fresh⟩
    rw [show circle (key :: keys) = Key.head :: key :: (keys ++ [Key.tail, Key.head]) from rfl,
      keysEq]
    exact joined_spliceIn (whole ▸ ring.joined) (List.nodup_cons.1 sources).1
      (List.nodup_cons.1 targets).1 (whole ▸ keyFresh) ((ring.present _).2 (.inl (.inl rfl)))
      (ring.isSome_first found)

end IsRing

end GlyphShelf.Ring

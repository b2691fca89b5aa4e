import Mathlib.Data.List.Perm.Subperm
import GlyphShelf.Proofs.Ring.Links

/-!
# Going around a stored ring

Following one field of the links passes the keys of a path, and a ring has two paths: from the
head anchor to the tail anchor along `next`, and back along `prev` through the same keys in
reverse. So both walks succeed on a ring and the examination finds nothing. Each link costs
three operations, and no record is changed. A link that is left over beside the two paths makes
no difference to any of this.

A ring has at most as many keys as there are glyphs, which is why the bound on the steps of a
walk is never met.
-/

namespace GlyphShelf.Ring

variable {m : Memory} {table table' : Table} {keys rest passed : List Key}
variable {key start goal before : Key} {field : Link.Field} {link : Link} {steps : Nat}

/-! ## Paths -/

/-- Each key names the following one in the given field of its link. -/
def IsPath (table : Table) (field : Link.Field) (keys : List Key) : Prop :=
  List.IsChain (fun key other => fieldOf table field key = some other) keys

theorem IsRing.path_next (ring : IsRing table keys) :
    IsPath table .next (.head :: (keys ++ [.tail])) := by
  have around : circle keys = (Key.head :: (keys ++ [Key.tail])) ++ [Key.head] := by simp [circle]
  have forward := ring.joined.imp fun _ _ joined => joined.1
  rw [around] at forward
  exact forward.left_of_append

theorem IsRing.path_prev (ring : IsRing table keys) :
    IsPath table .prev (.tail :: (keys.reverse ++ [.head])) := by
  have around : (circle keys).reverse =
      [Key.head] ++ (Key.tail :: (keys.reverse ++ [Key.head])) := by
    simp [circle]
  have backward : List.IsChain (fun key other => fieldOf table .prev key = some other)
      (circle keys).reverse := by
    rw [List.isChain_reverse]
    exact ring.joined.imp fun _ _ joined => joined.2
  rw [around] at backward
  exact backward.right_of_append

/-- The key that a path starts from has a link that names the second key. -/
theorem IsPath.exists_link (path : IsPath table field (key :: rest)) {next : Key}
    (second : rest.head? = some next) : ∃ link, table key = some link ∧ link.get field = next := by
  have named := (List.isChain_cons.1 path).1 next second
  exact Option.map_eq_some_iff.1 named

theorem IsPath.tail (path : IsPath table field (key :: rest)) : IsPath table field rest :=
  (List.isChain_cons.1 path).2

/-- What the last key names is no part of the path. -/
theorem IsPath.congr_sources (path : IsPath table field keys)
    (agree : ∀ key ∈ keys.dropLast, fieldOf table' field key = fieldOf table field key) :
    IsPath table' field keys := by
  induction keys with
  | nil => exact .nil
  | cons key rest ih =>
    cases rest with
    | nil => exact .singleton key
    | cons next rest =>
      rw [List.dropLast_cons_cons] at agree
      have named := (List.isChain_cons_cons.1 path).1
      rw [← agree key List.mem_cons_self] at named
      exact .cons_cons named (ih path.tail fun other member =>
        agree other (List.mem_cons_of_mem key member))

theorem IsPath.congr (path : IsPath table field keys)
    (agree : ∀ key ∈ keys, table' key = table key) : IsPath table' field keys := by
  apply path.congr_sources
  intro key member
  rw [fieldOf, fieldOf, agree key (List.dropLast_subset keys member)]

/-- There is one path from a key to a goal. -/
theorem IsPath.unique {others : List Key} (path : IsPath table field (keys ++ [goal]))
    (path' : IsPath table field (others ++ [goal]))
    (same : (keys ++ [goal]).head? = (others ++ [goal]).head?) (fresh : goal ∉ keys)
    (fresh' : goal ∉ others) : keys = others := by
  induction keys generalizing others with
  | nil =>
    cases others with
    | nil => rfl
    | cons other others =>
      obtain rfl : goal = other := Option.some.inj same
      exact absurd List.mem_cons_self fresh'
  | cons key keys ih =>
    cases others with
    | nil =>
      obtain rfl : key = goal := Option.some.inj same
      exact absurd List.mem_cons_self fresh
    | cons other others =>
      obtain rfl : key = other := Option.some.inj same
      have named := (List.isChain_cons.1 path).1
      have named' := (List.isChain_cons.1 path').1
      have second : (keys ++ [goal]).head? = (others ++ [goal]).head? := by
        cases first : (keys ++ [goal]).head? with
        | none => simp at first
        | some next =>
          cases first' : (others ++ [goal]).head? with
          | none => simp at first'
          | some next' =>
            rw [← named next first]
            exact named' next' first'
      rw [ih path.tail path'.tail second (fun member => fresh (List.mem_cons_of_mem key member))
        fun member => fresh' (List.mem_cons_of_mem key member)]

/-- A path that ends passes no key twice, or it would have two lengths from there. -/
theorem IsPath.nodup (path : IsPath table field (keys ++ [goal])) (fresh : goal ∉ keys) :
    keys.Nodup := by
  induction keys with
  | nil => exact List.nodup_nil
  | cons key keys ih =>
    have fresh' : goal ∉ keys := fun member => fresh (List.mem_cons_of_mem key member)
    refine List.nodup_cons.2 ⟨?_, ih path.tail fresh'⟩
    intro again
    obtain ⟨front, back, rfl⟩ := List.append_of_mem again
    have later : IsPath table field ((key :: back) ++ [goal]) := by
      have rest : IsPath table field ((front ++ key :: back) ++ [goal]) := path.tail
      rw [List.append_assoc] at rest
      exact rest.right_of_append
    have same := path.unique later rfl fresh fun member =>
      fresh' (List.mem_append_right front member)
    have lengths := congrArg List.length same
    simp only [List.length_cons, List.length_append] at lengths
    omega

/-- The keys are those between the anchors, in both directions. Others may have links as well,
but nothing leads to them. -/
structure Passes (table : Table) (keys : List Key) : Prop where
  nodup : keys.Nodup
  glyphs : ∀ key ∈ keys, ¬ key.IsAnchor
  forward : IsPath table .next (.head :: (keys ++ [.tail]))
  backward : IsPath table .prev (.tail :: (keys.reverse ++ [.head]))

theorem IsRing.passes (ring : IsRing table keys) : Passes table keys where
  nodup := ring.nodup
  glyphs := ring.glyphs
  forward := ring.path_next
  backward := ring.path_prev

theorem Passes.congr (passes : Passes table keys)
    (agree : ∀ key, key.IsAnchor ∨ key ∈ keys → table' key = table key) :
    Passes table' keys where
  nodup := passes.nodup
  glyphs := passes.glyphs
  forward := passes.forward.congr fun key member => agree key (by
    simp only [List.mem_cons, List.mem_append, List.not_mem_nil, or_false] at member
    rw [Key.IsAnchor]
    tauto)
  backward := passes.backward.congr fun key member => agree key (by
    simp only [List.mem_cons, List.mem_append, List.mem_reverse, List.not_mem_nil,
      or_false] at member
    rw [Key.IsAnchor]
    tauto)

/-! ## Numbers of keys -/

/-- There are no more keys than glyphs. -/
theorem length_le_of_glyphs (nodup : keys.Nodup) (glyphs : ∀ key ∈ keys, ¬ key.IsAnchor) :
    keys.length ≤ 65534 := by
  have distinct : (keys.map Key.number).Nodup := nodup.map fun _ _ => Key.number_injective
  have bounded : keys.map Key.number ⊆ List.range' 1 65534 := by
    intro number listed
    obtain ⟨key, member, rfl⟩ := List.mem_map.1 listed
    have glyph := glyphs key member
    rw [Key.IsAnchor, not_or] at glyph
    have below := key.number_lt
    have notHead : key.number ≠ 0 := fun zero => glyph.1 (Key.number_injective zero)
    have notTail : key.number ≠ 65535 := fun last => glyph.2 (Key.number_injective last)
    rw [List.mem_range'_1]
    omega
  have := (List.subperm_of_subset distinct bounded).length_le
  rwa [List.length_map, List.length_range'] at this

/-! ## Walks -/

theorem runs_follow_of_arrived (arrived : key = goal) (steps : Nat) (passed : List Key) :
    Runs (follow start goal field steps passed key) m (.ok passed.reverse) m := by
  cases steps with
  | zero =>
    rw [follow, if_pos arrived]
    exact .pure _ m
  | succ steps =>
    rw [follow, if_pos arrived]
    exact .pure _ m

section

variable (reads : Reads m.get? table) (quiet : m.fault = none)
include reads quiet

theorem runs_follow (passed : List Key) (path : IsPath table field (keys ++ [goal]))
    (first : (keys ++ [goal]).head? = some key) (away : start ∉ keys) (fresh : goal ∉ keys)
    (enough : keys.length ≤ steps) :
    Runs (follow start goal field steps passed key) m (.ok (passed.reverse ++ keys))
      (m.spend (3 * keys.length)) := by
  induction keys generalizing m steps passed key with
  | nil =>
    obtain rfl : goal = key := by simpa using first
    rw [List.append_nil, List.length_nil, Nat.mul_zero, Memory.spend_zero]
    exact runs_follow_of_arrived rfl steps passed
  | cons passing keys ih =>
    obtain rfl : passing = key := by simpa using first
    rw [List.mem_cons, not_or] at away fresh
    obtain ⟨steps, rfl⟩ : ∃ fewer, steps = fewer + 1 :=
      ⟨steps - 1, by rw [List.length_cons] at enough; omega⟩
    obtain ⟨next, second⟩ : ∃ next, (keys ++ [goal]).head? = some next := by
      cases keys with
      | nil => exact ⟨goal, rfl⟩
      | cons next keys => exact ⟨next, rfl⟩
    obtain ⟨link, found, named⟩ := path.exists_link second
    have reading := runs_neighbours_of_reads reads (Memory.allows_of_none quiet 3) found
    have going := ih (m := m.spend 3) reads
      (Memory.fault_spend quiet 3) (passing :: passed) path.tail second
      away.2 fresh.2 (by simpa using enough)
    rw [Memory.spend_spend, List.reverse_cons, List.append_assoc, List.singleton_append] at going
    rw [follow, if_neg (Ne.symm fresh.1), if_neg (Ne.symm away.1), List.length_cons,
      Nat.mul_add_one, Nat.add_comm _ 3]
    refine reading.bind ?_
    rwa [named]

/-- From one anchor to the other, along a path of glyphs. -/
theorem runs_along (path : IsPath table field (start :: (keys ++ [goal]))) (nodup : keys.Nodup)
    (glyphs : ∀ key ∈ keys, ¬ key.IsAnchor) (startAnchor : start.IsAnchor)
    (goalAnchor : goal.IsAnchor) :
    Runs (do
      let link ← neighbours start
      follow start goal field maxSteps [] (link.get field)) m (.ok keys)
      (m.spend (3 + 3 * keys.length)) := by
  obtain ⟨first, firstEq⟩ : ∃ first, (keys ++ [goal]).head? = some first := by
    cases keys with
    | nil => exact ⟨goal, rfl⟩
    | cons key keys => exact ⟨key, rfl⟩
  obtain ⟨link, found, named⟩ := path.exists_link firstEq
  have reading := runs_neighbours_of_reads reads (Memory.allows_of_none quiet 3) found
  have going := runs_follow (m := m.spend 3) reads
    (Memory.fault_spend quiet 3) [] path.tail firstEq
    (fun member => glyphs start member startAnchor) (fun member => glyphs goal member goalAnchor)
    (Nat.le_succ_of_le (length_le_of_glyphs nodup glyphs))
  rw [Memory.spend_spend, ← named] at going
  exact reading.bind going

theorem runs_walk (passes : Passes table keys) :
    Runs walk m (.ok keys) (m.spend (3 + 3 * keys.length)) :=
  runs_along reads quiet passes.forward passes.nodup passes.glyphs (.inl rfl) (.inr rfl)

theorem runs_walkBack (passes : Passes table keys) :
    Runs walkBack m (.ok keys.reverse) (m.spend (3 + 3 * keys.length)) := by
  have glyphs : ∀ key ∈ keys.reverse, ¬ key.IsAnchor := fun key member =>
    passes.glyphs key (List.mem_reverse.1 member)
  have going := runs_along reads quiet passes.backward (List.nodup_reverse.2 passes.nodup) glyphs
    (.inr rfl) (.inl rfl)
  rwa [List.length_reverse] at going

/-! ## Examinations -/

/-- Each key names the one before it. -/
theorem runs_checkBackLinks (path : IsPath table .prev (keys.reverse ++ [before])) :
    Runs (checkBackLinks before keys) m (.ok ()) (m.spend (3 * keys.length)) := by
  induction keys generalizing m before with
  | nil =>
    rw [List.length_nil, Nat.mul_zero, Memory.spend_zero]
    exact .pure () m
  | cons key keys ih =>
    rw [List.reverse_cons, List.append_assoc] at path
    have last : IsPath table .prev [key, before] := path.right_of_append
    rw [← List.append_assoc] at path
    obtain ⟨link, found, named⟩ := last.exists_link rfl
    have reading := runs_neighbours_of_reads reads (Memory.allows_of_none quiet 3) found
    have going := ih (m := m.spend 3) reads
      (Memory.fault_spend quiet 3) path.left_of_append
    rw [Memory.spend_spend, Nat.add_comm, ← Nat.mul_add_one] at going
    rw [checkBackLinks]
    refine (Examination.runs_ofAction reading).bind ?_
    rw [show link.prev = before from named, if_pos rfl]
    exact going

/-- The examination finds nothing wrong with keys that are passed in both directions. -/
theorem runs_check (passes : Passes table keys) :
    ∃ count, Runs check m (.ok ()) (m.spend count) := by
  have forward := runs_walk reads quiet passes
  have path : IsPath table .prev ((keys ++ [Key.tail]).reverse ++ [Key.head]) := by
    rw [List.reverse_append]
    exact passes.backward
  have quiet₁ := Memory.fault_spend quiet (3 + 3 * keys.length)
  have links := runs_checkBackLinks (m := m.spend _) reads quiet₁ path
  rw [Memory.spend_spend] at links
  have quiet₂ := (Memory.spends_spend m (3 + 3 * keys.length +
    3 * (keys ++ [Key.tail]).length)).fault_eq_none quiet
  have backward := runs_walkBack (m := m.spend _) reads quiet₂ passes
  rw [Memory.spend_spend] at backward
  have agree (m : Memory) : Runs (if keys.reverse.reverse = keys then pure ()
      else throw (.directions keys keys.reverse.reverse) : Examination Memory Unit) m (.ok ())
      m := by
    rw [List.reverse_reverse, if_pos rfl]
    exact .pure () m
  exact ⟨_, (Examination.runs_ofAction forward).bind (links.bind
    ((Examination.runs_ofAction backward).bind (agree _)))⟩

end

end GlyphShelf.Ring

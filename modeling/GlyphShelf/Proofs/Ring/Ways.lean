import GlyphShelf.Proofs.Frames
import GlyphShelf.Proofs.Ring.Order
import GlyphShelf.Proofs.Ring.Walk

/-!
# Walks on any device

Nothing is known of the records here. Those of at least four bytes can be read as links, whoever
stored them, and what follows the four bytes stays where it is.

A walk is bounded, so it ends whatever the records are. That the bound costs nothing is due to the
links themselves: each names one key, so a way that comes to a key twice goes around for ever, and
one that reaches its goal passes every key at most once. There are no more keys than steps.
-/

namespace GlyphShelf.Ring

variable {m m' : Memory} {records records' : String → Option Bytes} {keys : List Key}
variable {key start goal : Key} {field : Link.Field} {link : Link}

/-! ## Legible links -/

theorem exists_rest_of_decode {bytes : Bytes} (decoded : Link.decode bytes = .ok link) :
    ∃ rest, bytes = link.encode ++ rest := by
  unfold Link.decode at decoded
  split at decoded
  · rename_i prevLow prevHigh nextLow nextHigh rest
    cases decoded
    exact ⟨rest, by simp [Link.encode, Key.encode]⟩
  · cases decoded

theorem exists_decode_of_size_le {bytes : Bytes} (enough : Link.size ≤ bytes.length) :
    ∃ link, Link.decode bytes = .ok link := by
  obtain _ | ⟨_, _ | ⟨_, _ | ⟨_, _ | ⟨_, rest⟩⟩⟩⟩ := bytes
  case cons.cons.cons.cons => exact ⟨_, rfl⟩
  all_goals simp [Link.size] at enough

theorem linksOf_eq_some (found : linksOf records key = some link) :
    ∃ rest, records (linkName key) = some (link.encode ++ rest) := by
  obtain ⟨bytes, stored, decoded⟩ := Option.bind_eq_some_iff.1 found
  cases answer : Link.decode bytes with
  | ok link' =>
    rw [answer] at decoded
    obtain rfl : link' = link := Option.some.inj decoded
    obtain ⟨rest, rfl⟩ := exists_rest_of_decode answer
    exact ⟨rest, stored⟩
  | error e =>
    rw [answer] at decoded
    cases decoded

theorem reads_linksOf (records : String → Option Bytes) : Reads records (linksOf records) :=
  fun _ _ found => linksOf_eq_some found

/-- A key without a legible link has none at all, or one that is too short. -/
theorem short_of_illegible (illegible : linksOf records key = none) {bytes : Bytes}
    (stored : records (linkName key) = some bytes) : bytes.length < Link.size := by
  by_contra enough
  obtain ⟨link, decoded⟩ := exists_decode_of_size_le (Nat.le_of_not_lt enough)
  rw [linksOf, stored, Option.bind_some, decoded] at illegible
  cases illegible

theorem hasLink_of_legible (found : linksOf records key = some link) :
    hasLink records key = true := by
  obtain ⟨rest, stored⟩ := linksOf_eq_some found
  rw [hasLink, stored]
  rfl

theorem linksOf_congr (same : ∀ key, records' (linkName key) = records (linkName key)) :
    linksOf records' = linksOf records := by
  funext key
  rw [linksOf, linksOf, same key]

theorem hasLink_congr (same : ∀ key, records' (linkName key) = records (linkName key)) :
    hasLink records' = hasLink records := by
  funext key
  rw [hasLink, hasLink, same key]

theorem linksOf_update (key : Key) (value : Option Bytes) :
    linksOf (Function.update records (linkName key) value) =
      Function.update (linksOf records) key
        (value.bind fun bytes => (Link.decode bytes).toOption) := by
  funext other
  by_cases same : other = key
  · rw [same, linksOf, Function.update_self, Function.update_self]
  · rw [linksOf, Function.update_of_ne (linkName_ne same), Function.update_of_ne same]
    rfl

theorem hasLink_update (key : Key) (value : Option Bytes) :
    hasLink (Function.update records (linkName key) value) =
      Function.update (hasLink records) key value.isSome := by
  funext other
  by_cases same : other = key
  · rw [same, hasLink, Function.update_self, Function.update_self]
  · rw [hasLink, Function.update_of_ne (linkName_ne same), Function.update_of_ne same]
    rfl

theorem runs_readLink_of_short {bytes : Bytes} (quiet : m.fault = none)
    (stored : m.get? (linkName key) = some bytes) (short : bytes.length < Link.size) :
    ∃ m', Runs (readLink key) m
      (.error (.corrupt (.endOfRecord bytes.length Link.size))) m' := by
  obtain ⟨m', heading⟩ := Memory.runs_readHead_of_short quiet stored short
  exact ⟨m', heading.bind_error⟩

/-- A link that is needed and cannot be read is damage. -/
theorem runs_neighbours_of_illegible (quiet : m.fault = none)
    (illegible : linksOf m.get? key = none) :
    ∃ damage m', Runs (neighbours key) m (.error (.corrupt damage)) m' := by
  cases stored : m.get? (linkName key) with
  | none =>
    have reading := runs_readLink_of_absent (Memory.allows_of_none quiet 1) stored
    exact ⟨.missingLink key, _, runs_orDangling_mapError reading⟩
  | some bytes =>
    obtain ⟨m', reading⟩ :=
      runs_readLink_of_short quiet stored (short_of_illegible illegible stored)
    exact ⟨.endOfRecord bytes.length Link.size, m', runs_orDangling_mapError reading⟩

theorem runs_neighbours_of_legible (quiet : m.fault = none)
    (found : linksOf m.get? key = some link) :
    Runs (neighbours key) m (.ok link) (m.spend 3) :=
  runs_neighbours_of_reads (reads_linksOf m.get?) (Memory.allows_of_none quiet 3) found

theorem legible_of_neighbours (quiet : m.fault = none)
    (run : Runs (neighbours key) m (.ok link) m') :
    linksOf m.get? key = some link ∧ m' = m.spend 3 := by
  cases found : linksOf m.get? key with
  | none =>
    obtain ⟨damage, m₁, failing⟩ := runs_neighbours_of_illegible quiet found
    cases (run.deterministic failing).1
  | some link' =>
    obtain ⟨same, rfl⟩ := run.deterministic (runs_neighbours_of_legible quiet found)
    cases same
    exact ⟨rfl, rfl⟩

/-! ## Following -/

theorem isPath_cons {field : Link.Field} {rest : List Key}
    (found : linksOf records key = some link) (path : IsPath (linksOf records) field rest)
    (first : rest.head? = some (link.get field)) :
    IsPath (linksOf records) field (key :: rest) := by
  refine List.isChain_cons.2 ⟨?_, path⟩
  intro next second
  rw [fieldOf_eq_some found, ← first]
  exact second

/-- From the given key on, the links are followed to the goal. -/
def Following (m : Memory) (start goal : Key) (field : Link.Field) (steps : Nat)
    (passed : List Key) (key : Key) : Prop :=
  ∃ keys count, Runs (follow start goal field steps passed key) m (.ok (passed.reverse ++ keys))
      (m.spend count) ∧
    IsPath (linksOf m.get?) field (keys ++ [goal]) ∧ (keys ++ [goal]).head? = some key ∧
    start ∉ keys ∧ goal ∉ keys

theorem following_of_arrived {start goal : Key} {field : Link.Field} (arrived : key = goal)
    (steps : Nat) (passed : List Key) : Following m start goal field steps passed key := by
  refine ⟨[], 0, ?_, .singleton goal, by rw [arrived]; rfl, List.not_mem_nil, List.not_mem_nil⟩
  rw [List.append_nil, Memory.spend_zero]
  exact runs_follow_of_arrived arrived steps passed

/-- Following the links ends at the goal or finds damage. -/
theorem follow_cases (quiet : m.fault = none) (start goal : Key) (field : Link.Field)
    (steps : Nat) (passed : List Key) (key : Key) :
    Following m start goal field steps passed key ∨
    ∃ damage m', Runs (follow start goal field steps passed key) m
      (.error (.corrupt damage)) m' := by
  induction steps generalizing m passed key with
  | zero =>
    by_cases arrived : key = goal
    · exact .inl (following_of_arrived arrived 0 passed)
    · refine .inr ⟨.unclosedRing start goal, m, ?_⟩
      rw [follow, if_neg arrived]
      exact .throw _ m
  | succ steps ih =>
    by_cases arrived : key = goal
    · exact .inl (following_of_arrived arrived (steps + 1) passed)
    by_cases around : key = start
    · refine .inr ⟨.unclosedRing start goal, m, ?_⟩
      rw [follow, if_neg arrived, if_pos around]
      exact .throw _ m
    cases found : linksOf m.get? key with
    | none =>
      obtain ⟨damage, m', failing⟩ := runs_neighbours_of_illegible quiet found
      refine .inr ⟨damage, m', ?_⟩
      rw [follow, if_neg arrived, if_neg around]
      exact failing.bind_error
    | some link =>
      have onward {result : Except Failure (List Key)} {m' : Memory}
          (going : Runs (follow start goal field steps (key :: passed) (link.get field)) (m.spend 3)
            result m') : Runs (follow start goal field (steps + 1) passed key) m result m' := by
        rw [follow, if_neg arrived, if_neg around]
        exact (runs_neighbours_of_legible quiet found).bind going
      rcases ih (m := m.spend 3) (Memory.fault_spend quiet 3) (key :: passed)
        (link.get field) with ⟨keys, count, going, path, first, away, fresh⟩ | ⟨damage, m', going⟩
      · rw [Memory.spend_spend, List.reverse_cons, List.append_assoc, List.singleton_append]
          at going
        refine .inl ⟨key :: keys, _, onward going, isPath_cons found path first, rfl, ?_, ?_⟩
        · exact List.not_mem_cons_of_ne_of_not_mem (Ne.symm around) away
        · exact List.not_mem_cons_of_ne_of_not_mem (Ne.symm arrived) fresh
      · exact .inr ⟨damage, m', onward going⟩

/-! ## Ways -/

/-- From one key the links lead through the given keys until they reach the other one. -/
structure Leads (records : String → Option Bytes) (field : Link.Field) (start goal : Key)
    (keys : List Key) : Prop where
  path : IsPath (linksOf records) field (start :: (keys ++ [goal]))
  fresh : goal ∉ keys

/-- A way that arrives never comes back, not even to where it started. -/
theorem Leads.nodup (leads : Leads records field start goal keys) (apart : start ≠ goal) :
    (start :: keys).Nodup :=
  IsPath.nodup leads.path (List.not_mem_cons_of_ne_of_not_mem apart.symm leads.fresh)

/-- Each key that is passed has a link. -/
theorem Leads.legible (leads : Leads records field start goal keys) (member : key ∈ keys) :
    ∃ link, linksOf records key = some link := by
  obtain ⟨front, back, rfl⟩ := List.append_of_mem member
  have path := leads.path
  rw [List.append_assoc, List.cons_append, ← List.cons_append] at path
  have onward : IsPath (linksOf records) field (key :: (back ++ [goal])) := path.right_of_append
  obtain ⟨next, second⟩ : ∃ next, (back ++ [goal]).head? = some next := by
    cases back with
    | nil => exact ⟨goal, rfl⟩
    | cons next back => exact ⟨next, rfl⟩
  obtain ⟨link, found, -⟩ := onward.exists_link second
  exact ⟨link, found⟩

/-- From one anchor to the other only glyphs are passed. -/
theorem Leads.glyphs (leads : Leads records field start goal keys) (apart : start ≠ goal)
    (anchors : ∀ key : Key, key.IsAnchor → key = start ∨ key = goal) :
    ∀ key ∈ keys, ¬ key.IsAnchor := by
  intro key member anchor
  obtain rfl | rfl := anchors key anchor
  · exact (List.nodup_cons.1 (leads.nodup apart)).1 member
  · exact leads.fresh member

/-- A walk passes the keys of its way, or else it finds damage. -/
theorem along_cases (quiet : m.fault = none) (field : Link.Field) (start goal : Key) :
    (∃ keys, Leads m.get? field start goal keys) ∨
    ∃ damage m', Runs (do
      let link ← neighbours start
      follow start goal field maxSteps [] (link.get field)) m (.error (.corrupt damage)) m' := by
  cases found : linksOf m.get? start with
  | none =>
    obtain ⟨damage, m', failing⟩ := runs_neighbours_of_illegible quiet found
    exact .inr ⟨damage, m', failing.bind_error⟩
  | some link =>
    have reading := runs_neighbours_of_legible quiet found
    obtain ⟨keys, count, -, path, first, -, fresh⟩ | ⟨damage, m', going⟩ :=
      follow_cases (Memory.fault_spend quiet 3) start goal field maxSteps [] (link.get field)
    · exact .inl ⟨keys, isPath_cons found path first, fresh⟩
    · exact .inr ⟨damage, m', reading.bind going⟩

/-! ## The main statement -/

/-- What a walk from one key to another finds on a device. -/
structure Explores (m : Memory) (walk : Action Memory (List Key)) (field : Link.Field)
    (start goal : Key) : Prop where
  /-- It passes the keys that lead to its goal, and these alone. -/
  finds : ∀ keys, (∃ m', Runs walk m (.ok keys) m') ↔ Leads m.get? field start goal keys
  /-- Unless there are such keys, it ends with damage. -/
  fails : (∀ keys, ¬ Leads m.get? field start goal keys) →
    ∃ damage m', Runs walk m (.error (.corrupt damage)) m'
  /-- The keys are different. -/
  distinct : ∀ keys, Leads m.get? field start goal keys → keys.Nodup
  /-- Each of them is a glyph and has a record that is long enough. -/
  stored : ∀ keys, Leads m.get? field start goal keys → ∀ key ∈ keys,
    ¬ key.IsAnchor ∧ ∃ bytes, m.get? (linkName key) = some bytes ∧ Link.size ≤ bytes.length

theorem explores_along (quiet : m.fault = none) (startAnchor : start.IsAnchor)
    (goalAnchor : goal.IsAnchor) (apart : start ≠ goal) (field : Link.Field) :
    Explores m (do
      let link ← neighbours start
      follow start goal field maxSteps [] (link.get field)) field start goal := by
  have anchors (key : Key) (anchor : key.IsAnchor) : key = start ∨ key = goal := by
    unfold Key.IsAnchor at startAnchor goalAnchor anchor
    grind
  have arrives {keys : List Key} (leads : Leads m.get? field start goal keys) :=
    runs_along (reads_linksOf m.get?) quiet leads.path (List.nodup_cons.1 (leads.nodup apart)).2
      (leads.glyphs apart anchors) startAnchor goalAnchor
  refine ⟨?_, ?_, ?_, ?_⟩
  · intro keys
    constructor
    · rintro ⟨m', walking⟩
      obtain ⟨keys', leads⟩ | ⟨damage, m', failing⟩ := along_cases quiet field start goal
      · cases (walking.deterministic (arrives leads)).1
        exact leads
      · cases (walking.deterministic failing).1
    · exact fun leads => ⟨_, arrives leads⟩
  · intro nowhere
    obtain ⟨keys, leads⟩ | failing := along_cases quiet field start goal
    · exact absurd leads (nowhere keys)
    · exact failing
  · exact fun keys leads => (List.nodup_cons.1 (leads.nodup apart)).2
  · intro keys leads key member
    refine ⟨leads.glyphs apart anchors key member, ?_⟩
    obtain ⟨link, found⟩ := leads.legible member
    obtain ⟨rest, stored⟩ := linksOf_eq_some found
    exact ⟨_, stored, by simp [Link.size]⟩

/-- Whatever the records are, the walk returns the keys through which the links lead from the head
anchor to the tail anchor, and the walk back those through which they lead the other way. They are
different glyphs, each with a record of at least four bytes, and there may be as many of them as
there are glyphs. If there are no such keys then the walk ends with damage. -/
theorem walks_find_ways (quiet : m.fault = none) :
    Explores m walk .next .head .tail ∧ Explores m walkBack .prev .tail .head :=
  ⟨explores_along quiet (.inl rfl) (.inr rfl) Key.head_ne_tail .next,
    explores_along quiet (.inr rfl) (.inl rfl) Key.head_ne_tail.symm .prev⟩

def allGlyphs : List Key := (List.range' 1 65534).map fun number => ⟨UInt16.ofNat number⟩

theorem number_ofNat {number : Nat} (below : number < 65536) :
    Key.number ⟨UInt16.ofNat number⟩ = number :=
  Nat.mod_eq_of_lt below

theorem nodup_allGlyphs : allGlyphs.Nodup := by
  refine List.Nodup.map_on ?_ List.nodup_range'
  intro number listed other listed' same
  rw [List.mem_range'_1] at listed listed'
  rw [← number_ofNat (show number < 65536 by omega), same, number_ofNat (by omega)]

theorem glyphs_allGlyphs : ∀ key ∈ allGlyphs, ¬ key.IsAnchor := by
  intro key member anchor
  obtain ⟨number, listed, rfl⟩ := List.mem_map.1 member
  rw [List.mem_range'_1] at listed
  have numbered := number_ofNat (show number < 65536 by omega)
  obtain same | same := anchor
  · rw [same, show Key.head.number = 0 from rfl] at numbered
    omega
  · rw [same, show Key.tail.number = 65535 from rfl] at numbered
    omega

/-- One key that leads on to the tail anchor; on the way back there is another that names itself. -/
def looped : Memory :=
  (((({} : Memory).poke "0.lnk" [255, 255, 1, 0]).poke "1.lnk" [9, 9, 255, 255, 8]).poke "7.lnk"
    [7, 0, 255, 255]).poke "65535.lnk" [7, 0, 0, 0]

/-- The ring of all glyphs is passed as a whole, and a walk that goes around for ever is stopped. -/
theorem full_ring_passed_and_loop_found :
    allGlyphs.length = 65534 ∧ (inserted allGlyphs).fault = none ∧ looped.fault = none ∧
      (∃ m', Runs walk (inserted allGlyphs) (.ok allGlyphs) m') ∧
      (∃ m', Runs walk looped (.ok [⟨1⟩]) m') ∧
      ∃ damage m', Runs walkBack looped (.error (.corrupt damage)) m' := by
  obtain ⟨holds, -, quiet⟩ := holds_inserted nodup_allGlyphs glyphs_allGlyphs
  have full := (walks_find_ways quiet).1
  obtain ⟨forth, back⟩ := walks_find_ways (m := looped) rfl
  have once : Leads looped.get? .next .head .tail [⟨1⟩] := by
    refine ⟨?_, by decide⟩
    unfold IsPath
    decide +kernel
  have around : ∀ keys, ¬ Leads looped.get? .prev .tail .head keys := by
    intro keys leads
    have first : fieldOf (linksOf looped.get?) .prev .tail = some ⟨7⟩ := by decide +kernel
    have again : fieldOf (linksOf looped.get?) .prev ⟨7⟩ = some ⟨7⟩ := by decide +kernel
    have nodup := back.distinct keys leads
    have path := leads.path
    unfold IsPath at path
    obtain _ | ⟨key, _ | ⟨other, keys⟩⟩ := keys
    · simp [first, Key.head] at path
    · simp only [List.cons_append, List.nil_append, List.isChain_cons_cons, first,
        Option.some.injEq] at path
      obtain ⟨rfl, loop, -⟩ := path
      rw [again] at loop
      exact absurd loop (by decide)
    · simp only [List.cons_append, List.isChain_cons_cons, first, Option.some.injEq] at path
      obtain ⟨rfl, loop, -⟩ := path
      rw [again] at loop
      cases loop
      simp at nodup
  refine ⟨by simp [allGlyphs], quiet, rfl, ?_, (forth.finds _).2 once, back.fails around⟩
  exact (full.finds _).2 ⟨holds.isRing.path_next, fun tail => glyphs_allGlyphs .tail tail (.inr rfl)⟩

end GlyphShelf.Ring

import GlyphShelf.Proofs.Ring.Operations

/-!
# The ring follows a list

`Holds records keys` reads a ring off stored bytes: which links are stored, how long they are,
and whom each one names. `Change.onList` says what each operation of the ring answers and does
when the ring is thought of as a plain list of keys, the most recent first. The main statement
is that the stored ring follows the list: from any device that holds a ring, each operation
ends with the answer of the list, on a device that holds the ring of the resulting list, and
with every record that is not a link as it was.
-/

namespace GlyphShelf.Ring

variable {m : Memory} {records : String → Option Bytes} {table : Table} {keys : List Key}
variable {key : Key}

/-! ## Rings in stored bytes -/

/-- The links that can be read from stored records. -/
def linksOf (records : String → Option Bytes) : Table := fun key =>
  (records (linkName key)).bind fun bytes => (Link.decode bytes).toOption

/-- The records hold the ring of the given keys: their links and those of the anchors are the
only ones stored, each has the size of a link, and going around, each names its neighbours. -/
structure Holds (records : String → Option Bytes) (keys : List Key) : Prop where
  nodup : keys.Nodup
  glyphs : ∀ key ∈ keys, ¬ key.IsAnchor
  present : ∀ key, (records (linkName key)).isSome ↔ key.IsAnchor ∨ key ∈ keys
  size : ∀ key bytes, records (linkName key) = some bytes → bytes.length = Link.size
  joined : List.IsChain (Joined (linksOf records)) (circle keys)

theorem exists_eq_encode {bytes : Bytes} (size : bytes.length = Link.size) :
    ∃ link : Link, bytes = link.encode := by
  match bytes, size with
  | [prevLow, prevHigh, nextLow, nextHigh], _ =>
    exact ⟨⟨⟨Bytes.word prevHigh prevLow⟩, ⟨Bytes.word nextHigh nextLow⟩⟩, by
      simp [Link.encode, Key.encode]⟩

theorem linksOf_eq (shows : Shows records table) : linksOf records = table := by
  funext key
  rw [linksOf, shows key]
  cases table key <;> simp [Except.toOption]

theorem Holds.shows (holds : Holds records keys) : Shows records (linksOf records) := by
  intro key
  cases stored : records (linkName key) with
  | none => simp [linksOf, stored]
  | some bytes =>
    obtain ⟨link, rfl⟩ := exists_eq_encode (holds.size key bytes stored)
    simp [linksOf, stored, Except.toOption]

theorem Holds.isRing (holds : Holds records keys) : IsRing (linksOf records) keys where
  nodup := holds.nodup
  glyphs := holds.glyphs
  present key := by
    rw [← holds.present, holds.shows key, Option.isSome_map]
  joined := holds.joined

/-- To hold a ring is to show a table that is one. -/
theorem holds_of_shows (shows : Shows records table) (ring : IsRing table keys) :
    Holds records keys where
  nodup := ring.nodup
  glyphs := ring.glyphs
  present key := by
    rw [shows key, Option.isSome_map, ring.present]
  size key bytes stored := by
    rw [shows key] at stored
    obtain ⟨link, -, rfl⟩ := Option.map_eq_some_iff.1 stored
    exact Link.length_encode link
  joined := by
    rw [linksOf_eq shows]
    exact ring.joined

/-- Other records have no part in it. -/
theorem Holds.congr {records' : String → Option Bytes} (holds : Holds records keys)
    (same : ∀ key, records' (linkName key) = records (linkName key)) : Holds records' keys :=
  holds_of_shows (fun key => (same key).trans (holds.shows key)) holds.isRing

/-! ## Operations on a list -/

inductive Change
  | insert (key : Key)
  | remove (key : Key)
  | promote (key : Key)
  | evict

inductive Answer
  | done
  /-- Whether a key was moved. -/
  | moved (yes : Bool)
  /-- The key that was evicted. -/
  | key (key : Key)
deriving DecidableEq

def Change.act : Change → Action Memory Answer
  | .insert key => do
    Ring.insert key
    pure .done
  | .remove key => do
    Ring.remove key
    pure .done
  | .promote key => do
    let moved ← Ring.promote key
    pure (.moved moved)
  | .evict => do
    let key ← Ring.evict
    pure (.key key)

def Change.onList (keys : List Key) : Change → Except Failure Answer × List Key
  | .insert key =>
    if key.IsAnchor then (.error (.reservedKey key), keys)
    else if key ∈ keys then (.error (.alreadyLinked key), keys)
    else (.ok .done, key :: keys)
  | .remove key =>
    if key.IsAnchor then (.error (.reservedKey key), keys)
    else if key ∈ keys then (.ok .done, keys.erase key)
    else (.error .notFound, keys)
  | .promote key =>
    if key.IsAnchor then (.error (.reservedKey key), keys)
    else if keys.head? = some key then (.ok (.moved false), keys)
    else if key ∈ keys then (.ok (.moved true), key :: keys.erase key)
    else (.error .notFound, keys)
  | .evict =>
    match keys.getLast? with
    | some key => (.ok (.key key), keys.dropLast)
    | none => (.error .nothingToEvict, keys)

/-- The operation ends with the answer of the list, on a device that holds the resulting ring.
Records that are not links are as before, and so is every record if the list stays the same. -/
structure Follows (m : Memory) (keys : List Key) (change : Change) (m' : Memory) : Prop where
  runs : Runs change.act m (change.onList keys).1 m'
  holds : Holds m'.get? (change.onList keys).2
  others : ∀ name, (∀ key, name ≠ linkName key) → m'.get? name = m.get? name
  unchanged : (change.onList keys).2 = keys → m'.cabinet = m.cabinet
  quota : m'.quota = none
  fault : m'.fault = none

variable {m' : Memory} {change : Change} {answer : Except Failure Answer} {count : Nat}

theorem follows_of_spend (holds : Holds m.get? keys) (unlimited : m.quota = none)
    (quiet : m.fault = none) (outcome : change.onList keys = (answer, keys))
    (run : Runs change.act m answer (m.spend count)) : Follows m keys change (m.spend count) where
  runs := by rwa [outcome]
  holds := by rwa [outcome]
  others _ _ := rfl
  unchanged _ := rfl
  quota := unlimited
  fault := Memory.fault_spend quiet count

theorem follows_of_relinks {keys' : List Key} (unlimited : m.quota = none) (quiet : m.fault = none)
    (outcome : change.onList keys = (answer, keys')) (changed : keys' ≠ keys)
    (run : Runs change.act m answer m') (relinks : Relinks m count table m')
    (ring : IsRing table keys') : Follows m keys change m' where
  runs := by rwa [outcome]
  holds := by
    rw [outcome]
    exact holds_of_shows relinks.shows ring
  others name other := by
    rw [relinks.get?, withLinks_of_other (linkKey?_eq_none_iff.2 other)]
  unchanged same := by
    rw [outcome] at same
    exact absurd same changed
  quota := relinks.quota.trans unlimited
  fault := relinks.fault_eq_none quiet

section

variable (holds : Holds m.get? keys) (unlimited : m.quota = none) (quiet : m.fault = none)
include holds unlimited quiet

/-- An operation that refuses anchors does so before it asks the device for anything. -/
theorem refusal_follows (outcome : change.onList keys = (.error (.reservedKey key), keys))
    (run : Runs change.act m (.error (.reservedKey key)) m) : ∃ m', Follows m keys change m' := by
  refine ⟨m.spend 0, follows_of_spend holds unlimited quiet outcome ?_⟩
  rwa [Memory.spend_zero]

theorem insert_follows (key : Key) : ∃ m', Follows m keys (.insert key) m' := by
  have allowed := Memory.allows_of_none quiet
  by_cases anchor : key.IsAnchor
  · exact refusal_follows holds unlimited quiet (by rw [Change.onList, if_pos anchor])
      (Action.refuses_anchor anchor _ m).bind_error
  by_cases member : key ∈ keys
  · have run := runs_insert_of_linked holds.shows holds.isRing (allowed 2) member
    exact ⟨_, follows_of_spend holds unlimited quiet
      (by rw [Change.onList, if_neg anchor, if_pos member]) run.bind_error⟩
  · obtain ⟨m', table', run, relinks, ring⟩ :=
      runs_insert holds.shows holds.isRing unlimited (allowed 15) anchor member
    refine ⟨m', follows_of_relinks unlimited quiet
      (by rw [Change.onList, if_neg anchor, if_neg member]) ?_ (run.bind (.pure _ _)) relinks ring⟩
    exact List.cons_ne_self key keys

theorem remove_follows (key : Key) : ∃ m', Follows m keys (.remove key) m' := by
  have allowed := Memory.allows_of_none quiet
  by_cases anchor : key.IsAnchor
  · exact refusal_follows holds unlimited quiet (by rw [Change.onList, if_pos anchor])
      (Action.refuses_anchor anchor _ m).bind_error
  by_cases member : key ∈ keys
  · have outcome : Change.onList keys (.remove key) = (.ok .done, keys.erase key) := by
      rw [Change.onList, if_neg anchor, if_pos member]
    obtain ⟨front, back, split, erased⟩ := exists_split holds.nodup member
    have ring := holds.isRing
    rw [split] at ring
    obtain ⟨m', table', run, relinks, ring'⟩ := runs_remove holds.shows ring unlimited (allowed 12)
    rw [← erased] at ring'
    refine ⟨m', follows_of_relinks unlimited quiet outcome ?_ (run.bind (.pure _ _)) relinks ring'⟩
    intro same
    exact (holds.nodup.mem_erase_iff.1 (same ▸ member)).1 rfl
  · have run := runs_remove_of_unlinked holds.shows holds.isRing (allowed 1) anchor member
    exact ⟨_, follows_of_spend holds unlimited quiet
      (by rw [Change.onList, if_neg anchor, if_neg member]) run.bind_error⟩

theorem promote_follows (key : Key) : ∃ m', Follows m keys (.promote key) m' := by
  have allowed := Memory.allows_of_none quiet
  by_cases anchor : key.IsAnchor
  · exact refusal_follows holds unlimited quiet (by rw [Change.onList, if_pos anchor])
      (Action.refuses_anchor anchor _ m).bind_error
  by_cases first : keys.head? = some key
  · obtain ⟨back, split⟩ := List.head?_eq_some_iff.1 first
    have ring := holds.isRing
    rw [split] at ring
    have run := runs_promote_of_first holds.shows ring (allowed 3)
    exact ⟨_, follows_of_spend holds unlimited quiet
      (by rw [Change.onList, if_neg anchor, if_pos first]) (run.bind (.pure _ _))⟩
  by_cases member : key ∈ keys
  · have outcome : Change.onList keys (.promote key) =
        (.ok (.moved true), key :: keys.erase key) := by
      rw [Change.onList, if_neg anchor, if_neg first, if_pos member]
    obtain ⟨front, back, split, erased⟩ := exists_split holds.nodup member
    have later : front ≠ [] := by
      rintro rfl
      exact first (by rw [split, List.nil_append, List.head?_cons])
    have ring := holds.isRing
    rw [split] at ring
    obtain ⟨m', table', run, relinks, ring'⟩ :=
      runs_promote holds.shows ring later unlimited (allowed 25)
    rw [← erased] at ring'
    refine ⟨m', follows_of_relinks unlimited quiet outcome ?_ (run.bind (.pure _ _)) relinks ring'⟩
    intro same
    exact first (by rw [← same, List.head?_cons])
  · have run := runs_promote_of_unlinked holds.shows holds.isRing (allowed 1) anchor member
    exact ⟨_, follows_of_spend holds unlimited quiet
      (by rw [Change.onList, if_neg anchor, if_neg first, if_neg member]) run.bind_error⟩

theorem evict_follows : ∃ m', Follows m keys .evict m' := by
  have allowed := Memory.allows_of_none quiet
  have ring := holds.isRing
  rcases List.eq_nil_or_concat' keys with rfl | ⟨front, key, rfl⟩
  · have run := runs_evict_of_empty holds.shows ring (allowed 3)
    exact ⟨_, follows_of_spend holds unlimited quiet rfl run.bind_error⟩
  · have outcome : Change.onList (front ++ [key]) .evict = (.ok (.key key), front) := by
      simp [Change.onList]
    obtain ⟨m', table', run, relinks, ring'⟩ :=
      runs_evict holds.shows ring unlimited (allowed 15)
    refine ⟨m', follows_of_relinks unlimited quiet outcome ?_ (run.bind (.pure _ _)) relinks ring'⟩
    intro same
    simpa using congrArg List.length same

end

/-! ## Every list is the ring of some device -/

def emptyRing : Memory :=
  (({} : Memory).poke (linkName .head) (Link.encode ⟨.tail, .tail⟩)).poke (linkName .tail)
    (Link.encode ⟨.head, .head⟩)

/-- The device after the keys were inserted into the empty ring, the last one first. -/
def inserted : List Key → Memory
  | [] => emptyRing
  | key :: keys =>
    match Ring.insert key (inserted keys) with
    | .ok () m => m
    | .error _ m => m

theorem holds_emptyRing : Holds emptyRing.get? [] := by
  have nothing : Shows ({} : Memory).get? fun _ => none := fun _ => rfl
  have heads := nothing.update .head (some ⟨.tail, .tail⟩)
  have both := heads.update .tail (some ⟨.head, .head⟩)
  rw [emptyRing, Memory.get?_poke, Memory.get?_poke]
  exact holds_of_shows both isRing_anchored

/-- Every list of different keys, none of them an anchor, is the ring of some device. -/
theorem holds_inserted (nodup : keys.Nodup) (glyphs : ∀ key ∈ keys, ¬ key.IsAnchor) :
    Holds (inserted keys).get? keys ∧ (inserted keys).quota = none ∧
      (inserted keys).fault = none := by
  induction keys with
  | nil => exact ⟨holds_emptyRing, rfl, rfl⟩
  | cons key keys ih =>
    obtain ⟨fresh, nodup⟩ := List.nodup_cons.1 nodup
    obtain ⟨holds, unlimited, quiet⟩ := ih nodup fun other member =>
      glyphs other (List.mem_cons_of_mem key member)
    obtain ⟨m', table', run, relinks, ring⟩ := runs_insert holds.shows holds.isRing unlimited
      (Memory.allows_of_none quiet 15) (glyphs key List.mem_cons_self) fresh
    have next : inserted (key :: keys) = m' := by
      rw [inserted, run]
    rw [next]
    exact ⟨holds_of_shows relinks.shows ring, relinks.quota.trans unlimited,
      relinks.fault_eq_none quiet⟩

/-! ## The main statement -/

/-- The stored ring follows the list of its keys: every operation, on every ring. -/
theorem ring_follows_list (holds : Holds m.get? keys) (unlimited : m.quota = none)
    (quiet : m.fault = none) (change : Change) : ∃ m', Follows m keys change m' := by
  cases change with
  | insert key => exact insert_follows holds unlimited quiet key
  | remove key => exact remove_follows holds unlimited quiet key
  | promote key => exact promote_follows holds unlimited quiet key
  | evict => exact evict_follows holds unlimited quiet

/-- Three keys, and the operation that splices at the most places. -/
theorem promote_last_of_three :
    Holds (inserted [⟨3⟩, ⟨2⟩, ⟨1⟩]).get? [⟨3⟩, ⟨2⟩, ⟨1⟩] ∧
      Change.onList [⟨3⟩, ⟨2⟩, ⟨1⟩] (.promote ⟨1⟩) = (.ok (.moved true), [⟨1⟩, ⟨3⟩, ⟨2⟩]) ∧
      ∃ m', Follows (inserted [⟨3⟩, ⟨2⟩, ⟨1⟩]) [⟨3⟩, ⟨2⟩, ⟨1⟩] (.promote ⟨1⟩) m' := by
  obtain ⟨holds, unlimited, quiet⟩ :
      Holds (inserted [⟨3⟩, ⟨2⟩, ⟨1⟩]).get? [⟨3⟩, ⟨2⟩, ⟨1⟩] ∧ _ ∧ _ :=
    holds_inserted (by decide) (by decide)
  exact ⟨holds, by decide, ring_follows_list holds unlimited quiet (.promote ⟨1⟩)⟩

/-- An anchor is in no ring, and yet removing it does not report an absent record: it is refused. -/
theorem remove_head_not_absent :
    Holds emptyRing.get? [] ∧ Key.head ∉ ([] : List Key) ∧
      ¬ ∃ m', Runs (remove .head) emptyRing (.error .notFound) m' := by
  refine ⟨holds_emptyRing, List.not_mem_nil, ?_⟩
  rintro ⟨m', run⟩
  have refused : Runs (remove .head) emptyRing (.error (.reservedKey .head)) emptyRing :=
    Action.refuses_anchor (.inl rfl) _ emptyRing
  cases (run.deterministic refused).1

end GlyphShelf.Ring

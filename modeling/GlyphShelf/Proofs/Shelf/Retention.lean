import Mathlib.Data.List.Dedup
import Mathlib.Data.List.TakeWhile
import GlyphShelf.Proofs.Shelf.Calls

/-!
# Which glyphs a shelf retains

Whether a glyph is still on the shelf depends only on how many other glyphs were used since it
was used last. The invariant behind this ties the list of entries to the whole history: its keys
are the first `capacity` of the keys ever used, each counted once, in the order of their last
uses. Reads of absent glyphs are no uses, and the order of earlier entries when the history
begins is a history of its own. A device on which the shelf was opened cold may hold other records
than those of the entries; the shelf then has the inventory of the list all the same.
-/

namespace GlyphShelf.Shelf

variable {m : Memory} {settings : Settings} {entries : Entries} {key other : Key}
variable {bytes : Bytes} {uses keys : List Key} {capacity : Nat} {call : Call} {calls : List Call}

/-! ## Histories -/

/-- The keys of a history, each once, ordered by last use. Histories have the most recent use
first. -/
def recency : List Key → List Key
  | [] => []
  | key :: uses => key :: (recency uses).erase key

theorem nodup_recency (uses : List Key) : (recency uses).Nodup := by
  induction uses with
  | nil => exact .nil
  | cons key uses ih => exact List.nodup_cons.2 ⟨ih.not_mem_erase, ih.erase key⟩

@[simp] theorem mem_recency : key ∈ recency uses ↔ key ∈ uses := by
  induction uses with
  | nil => simp [recency]
  | cons first uses ih =>
    by_cases same : key = first
    · simp [recency, same]
    · rw [recency, List.mem_cons, List.mem_cons, List.mem_erase_of_ne same, ih]

/-- A list without repetitions is the history of its own order. -/
theorem recency_eq_self (nodup : keys.Nodup) : recency keys = keys := by
  induction keys with
  | nil => rfl
  | cons key keys ih =>
    obtain ⟨fresh, nodup⟩ := List.nodup_cons.1 nodup
    rw [recency, ih nodup, List.erase_of_not_mem fresh]

theorem length_recency (uses : List Key) : (recency uses).length = uses.dedup.length := by
  refine ((List.perm_ext_iff_of_nodup (nodup_recency uses) uses.nodup_dedup).2 ?_).length_eq
  intro key
  rw [mem_recency, List.mem_dedup]

/-- In front of a key are the keys that were used since. -/
theorem exists_recency_eq (used : key ∈ uses) :
    ∃ rest, recency uses = recency (uses.takeWhile (· ≠ key)) ++ key :: rest := by
  induction uses with
  | nil => cases used
  | cons first uses ih =>
    by_cases same : first = key
    · subst same
      exact ⟨(recency uses).erase first, by simp [recency]⟩
    · obtain ⟨rest, split⟩ := ih ((List.mem_cons.1 used).resolve_left (Ne.symm same))
      rw [List.takeWhile_cons_of_pos (by simpa using same), recency, recency, split]
      by_cases member : first ∈ recency (uses.takeWhile (· ≠ key))
      · exact ⟨rest, by rw [List.erase_append_left _ member, List.cons_append]⟩
      · refine ⟨rest.erase first, ?_⟩
        rw [List.erase_append_right _ member, List.erase_cons_tail (by simpa using Ne.symm same),
          List.erase_of_not_mem member, List.cons_append]

/-- What is cut off at the end never comes back by moving a key to the front. -/
theorem take_erase_take (count : Nat) (keys : List Key) (key : Key) :
    ((keys.take (count + 1)).erase key).take count = (keys.erase key).take count := by
  rcases Nat.le_total keys.length (count + 1) with short | long
  · rw [List.take_of_length_le short]
  · have length : (keys.take (count + 1)).length = count + 1 := List.length_take_of_le long
    have enough : count ≤ ((keys.take (count + 1)).erase key).length := by
      have := List.le_length_erase (a := key) (l := keys.take (count + 1))
      omega
    have split := List.take_append_drop (count + 1) keys
    by_cases member : key ∈ keys.take (count + 1)
    · conv_rhs => rw [← split, List.erase_append_left _ member]
      rw [List.take_append_of_le_length enough]
    · conv_rhs => rw [← split, List.erase_append_right _ member]
      rw [List.erase_of_not_mem member] at enough ⊢
      rw [List.take_append_of_le_length enough]

theorem take_cons_recency (positive : 1 ≤ capacity) (key : Key) (uses : List Key) :
    (key :: ((recency uses).take capacity).erase key).take capacity =
      (recency (key :: uses)).take capacity := by
  obtain ⟨count, rfl⟩ : ∃ count, capacity = count + 1 := ⟨capacity - 1, by omega⟩
  rw [recency, List.take_succ_cons, List.take_succ_cons, take_erase_take]

/-! ## Uses -/

/-- The key that a call used, if it succeeded. -/
def Call.used? (call : Call) (answer : Except Failure Reply) : Option Key :=
  match call, answer with
  | .put key _, .ok _ => some key
  | .get key, .ok _ => some key
  | .openEntry key, .ok _ => some key
  | _, _ => none

/-- The keys used by calls with the given answers, the most recent use last. -/
def usesOf : List Call → List (Except Failure Reply) → List Key
  | call :: calls, answer :: answers => (call.used? answer).toList ++ usesOf calls answers
  | _, _ => []

theorem usesOf_append {answers later : List (Except Failure Reply)} (calls' : List Call)
    (same : calls.length = answers.length) :
    usesOf (calls ++ calls') (answers ++ later) = usesOf calls answers ++ usesOf calls' later := by
  induction calls generalizing answers with
  | nil =>
    obtain rfl := List.eq_nil_of_length_eq_zero same.symm
    rfl
  | cons call calls ih =>
    cases answers with
    | nil => cases same
    | cons answer answers =>
      rw [List.cons_append, List.cons_append, usesOf, usesOf, ih (by simpa using same),
        List.append_assoc]

/-! ## The invariant -/

/-- The entries are as the history says, and the key, if it is among them, has the payload. -/
structure Tracks (capacity : Nat) (key : Key) (bytes : Bytes) (uses : List Key)
    (entries : Entries) : Prop where
  keys : keysOf entries = (recency uses).take capacity
  payload : key ∈ keysOf entries → payloadOf entries key = some bytes

namespace Tracks

variable (tracks : Tracks capacity key bytes uses entries)
include tracks

theorem nodup : (keysOf entries).Nodup := by
  rw [tracks.keys]
  exact (nodup_recency uses).sublist (List.take_sublist capacity _)

theorem length_le : entries.length ≤ capacity := by
  rw [← length_keysOf, tracks.keys, List.length_take]
  exact Nat.min_le_left _ _

theorem put (positive : 1 ≤ capacity) (differs : other ≠ key) (bytes' : Bytes) :
    Tracks capacity key bytes (other :: uses) ((toFront other bytes' entries).take capacity) where
  keys := by
    rw [keysOf_take, keysOf_toFront tracks.nodup, tracks.keys, take_cons_recency positive]
  payload member := by
    rw [payloadOf_take member, payloadOf_toFront, Function.update_of_ne differs.symm]
    rw [keysOf_take, keysOf_toFront tracks.nodup] at member
    have still := (List.mem_cons.1 (List.mem_of_mem_take member)).resolve_left differs.symm
    exact tracks.payload (List.mem_of_mem_erase still)

theorem use {found : Bytes} (positive : 1 ≤ capacity)
    (present : payloadOf entries other = some found) :
    Tracks capacity key bytes (other :: uses) (toFront other found entries) where
  keys := by
    have member := mem_keysOf_of_payload present
    have whole : (other :: (keysOf entries).erase other).length ≤ capacity := by
      have := List.length_pos_of_mem member
      have := tracks.length_le
      rw [List.length_cons, List.length_erase_of_mem member, length_keysOf] at *
      omega
    rw [keysOf_toFront tracks.nodup, ← List.take_of_length_le whole, tracks.keys,
      take_cons_recency positive]
  payload member := by
    have same : payloadOf (toFront other found entries) = payloadOf entries := by
      rw [payloadOf_toFront, ← present, Function.update_eq_self]
    rw [keysOf_toFront tracks.nodup, List.mem_cons] at member
    rw [same]
    rcases member with rfl | member
    · exact tracks.payload (mem_keysOf_of_payload present)
    · exact tracks.payload (List.mem_of_mem_erase member)

/-- Only a successful use counts, be it by reading or by opening. -/
theorem reading (positive : 1 ≤ capacity) (other : Key)
    (reads : ∀ answer, call.used? answer = answer.toOption.map fun _ => other) :
    Tracks capacity key bytes ((call.used? (useOnEntries entries other).1).toList ++ uses)
      (useOnEntries entries other).2 := by
  rw [reads]
  by_cases anchor : other.IsAnchor
  · rw [useOnEntries_of_anchor anchor]
    exact tracks
  cases found : payloadOf entries other with
  | none =>
    rw [useOnEntries_of_absent anchor found]
    exact tracks
  | some payload =>
    rw [useOnEntries_of_present anchor found]
    exact tracks.use positive found

theorem putting (positive : 1 ≤ capacity) (differs : other ≠ key) (bytes' : Bytes) :
    Tracks capacity key bytes
      ((Call.used? (.put other bytes') (putOnEntries capacity other bytes' entries).1).toList ++
        uses) (putOnEntries capacity other bytes' entries).2 := by
  by_cases anchor : other.IsAnchor
  · rw [putOnEntries_of_anchor anchor]
    exact tracks
  · rw [putOnEntries_of_glyph anchor]
    exact tracks.put positive differs bytes'

/-- One call adds its use to the history, unless it resets the shelf or puts the key anew. -/
theorem step (positive : 1 ≤ capacity) (unreset : call ≠ .reset)
    (last : ∀ later, call ≠ .put key later) :
    Tracks capacity key bytes ((call.used? (call.onEntries capacity entries).1).toList ++ uses)
      (call.onEntries capacity entries).2 := by
  cases call with
  | put other bytes' =>
    have differs : other ≠ key := by
      rintro rfl
      exact last bytes' rfl
    exact tracks.putting positive differs bytes'
  | get other => exact tracks.reading positive other fun answer => by cases answer <;> rfl
  | openEntry other => exact tracks.reading positive other fun answer => by cases answer <;> rfl
  | contains other => exact tracks
  | keys => exact tracks
  | size => exact tracks
  | check => exact tracks
  | reconcile => exact tracks
  | reset => exact absurd rfl unreset

theorem run (positive : 1 ≤ capacity) (calls : List Call) (unreset : Call.reset ∉ calls)
    (last : ∀ later, Call.put key later ∉ calls) :
    Tracks capacity key bytes
      ((usesOf calls (listAnswers capacity calls entries).1).reverse ++ uses)
      (listAnswers capacity calls entries).2 := by
  induction calls generalizing uses entries with
  | nil => exact tracks
  | cons call calls ih =>
    rw [List.mem_cons, not_or] at unreset
    have next := tracks.step positive (Ne.symm unreset.1) fun later same =>
      last later (by rw [same]; exact List.mem_cons_self)
    have rest := ih next unreset.2 fun later member => last later (List.mem_cons_of_mem call member)
    have single : (call.used? (call.onEntries capacity entries).1).toList.reverse =
        (call.used? (call.onEntries capacity entries).1).toList := by
      cases call.used? (call.onEntries capacity entries).1 <;> rfl
    rw [← List.append_assoc, ← single, ← List.reverse_append] at rest
    exact rest

/-- The key is in the place that the keys used since leave to it. -/
theorem getElem?_keysOf (used : key ∈ uses)
    (near : (uses.takeWhile (· ≠ key)).dedup.length < capacity) :
    (keysOf entries)[(uses.takeWhile (· ≠ key)).dedup.length]? = some key := by
  obtain ⟨rest, split⟩ := exists_recency_eq used
  rw [tracks.keys, split, List.getElem?_take_of_lt near, ← length_recency,
    List.getElem?_append_right (Nat.le_refl _), Nat.sub_self, List.getElem?_cons_zero]

theorem mem_keysOf_iff (used : key ∈ uses) :
    key ∈ keysOf entries ↔ (uses.takeWhile (· ≠ key)).dedup.length < capacity := by
  constructor
  · intro member
    by_contra far
    obtain ⟨rest, split⟩ := exists_recency_eq used
    rw [← length_recency] at far
    rw [tracks.keys, split, List.take_append_of_le_length (Nat.le_of_not_lt far)] at member
    have since := mem_recency.1 (List.mem_of_mem_take member)
    simpa using List.mem_takeWhile_imp since
  · intro near
    exact List.mem_of_getElem? (tracks.getElem?_keysOf used near)

end Tracks

/-- A history begins when the key is put. -/
theorem tracks_put (nodup : (keysOf entries).Nodup) (key : Key) (bytes : Bytes) (capacity : Nat) :
    Tracks capacity key bytes (key :: keysOf entries) ((toFront key bytes entries).take capacity)
    where
  keys := by rw [keysOf_take, keysOf_toFront nodup, recency, recency_eq_self nodup]
  payload member := by rw [payloadOf_take member, payloadOf_toFront, Function.update_self]

/-! ## The main statement -/

/-- The keys used since the last use of a key, each once. -/
def usedSince (key : Key) (calls : List Call) (answers : List (Except Failure Reply)) : List Key :=
  ((usesOf calls answers).reverse.takeWhile (· ≠ key)).dedup

theorem takeWhile_append_cons (front back : List Key) (key : Key) :
    (front ++ key :: back).takeWhile (· ≠ key) = front.takeWhile (· ≠ key) := by
  induction front with
  | nil => simp
  | cons first front ih =>
    rw [List.cons_append, List.takeWhile_cons, List.takeWhile_cons, ih]

/-- The calls up to the last time the key was put do not matter to what was used since. -/
theorem usedSince_eq (glyph : ¬ key.IsAnchor) (before after : List Call) :
    usedSince key (before ++ .put key bytes :: after)
        (listAnswers capacity (before ++ .put key bytes :: after) []).1 =
      ((usesOf after (listAnswers capacity after ((toFront key bytes
          (listAnswers capacity before []).2).take capacity)).1).reverse.takeWhile
        (· ≠ key)).dedup := by
  have put := putOnEntries_of_glyph glyph capacity bytes (listAnswers capacity before []).2
  have same := length_outcomes (fun call : Call => call.onEntries capacity) before []
  unfold usedSince listAnswers at *
  rw [outcomes_append, usesOf_append _ same.symm, outcomes, Call.onEntries, put]
  change ((usesOf before _ ++ key :: usesOf after _).reverse.takeWhile (· ≠ key)).dedup = _
  rw [List.reverse_append, List.reverse_cons, List.append_assoc, List.singleton_append,
    takeWhile_append_cons]

/-- The list of entries follows the history from the last time the key was put. -/
theorem tracks_listAnswers (positive : 1 ≤ capacity) (glyph : ¬ key.IsAnchor)
    (before after : List Call) (nodup : (keysOf (listAnswers capacity before []).2).Nodup)
    (unreset : Call.reset ∉ after) (last : ∀ later, Call.put key later ∉ after) :
    ∃ uses, key ∈ uses ∧
      (uses.takeWhile (· ≠ key)).dedup = usedSince key (before ++ .put key bytes :: after)
        (listAnswers capacity (before ++ .put key bytes :: after) []).1 ∧
      Tracks capacity key bytes uses
        (listAnswers capacity (before ++ .put key bytes :: after) []).2 := by
  have put := putOnEntries_of_glyph glyph capacity bytes (listAnswers capacity before []).2
  have entries : (listAnswers capacity (before ++ .put key bytes :: after) []).2 =
      (listAnswers capacity after ((toFront key bytes (listAnswers capacity before []).2).take
        capacity)).2 := by
    unfold listAnswers at *
    rw [outcomes_append, outcomes, Call.onEntries, put]
  have tracks := (tracks_put nodup key bytes capacity).run positive after unreset last
  rw [← entries] at tracks
  refine ⟨_, ?_, ?_, tracks⟩
  · exact List.mem_append_right _ List.mem_cons_self
  · rw [usedSince_eq glyph, takeWhile_append_cons]

/-- Whether the shelf still has a glyph that was put: by asking for it, by reading it, and by
its place among all keys. -/
structure Retains (s : Memory × Shelf) (capacity distance : Nat) (key : Key) (bytes : Bytes) :
    Prop where
  contains : ∃ s', Runs (contains key) s (.ok (decide (distance < capacity))) s'
  get : (∃ s', Runs (get key) s (.ok bytes) s') ↔ distance < capacity
  place : distance < capacity →
    ∃ keys s', Runs Shelf.keys s (.ok keys) s' ∧ keys[distance]? = some key

theorem Tracks.payloadOf_eq_some_iff (tracks : Tracks capacity key bytes uses entries)
    (used : key ∈ uses) : payloadOf entries key = some bytes ↔
      (uses.takeWhile (· ≠ key)).dedup.length < capacity := by
  rw [← tracks.mem_keysOf_iff used]
  exact ⟨mem_keysOf_of_payload, tracks.payload⟩

theorem Tracks.retains {s : Memory × Shelf} (tracks : Tracks capacity key bytes uses entries)
    (inUse : InUse capacity s (inventoryOf entries)) (glyph : ¬ key.IsAnchor) (used : key ∈ uses) :
    Retains s capacity (uses.takeWhile (· ≠ key)).dedup.length key bytes where
  contains := by
    obtain ⟨count, run⟩ := runs_contains_of_inUse inUse key
    have same : (¬ key.IsAnchor ∧ key ∈ (inventoryOf entries).linked) ↔
        (uses.takeWhile (· ≠ key)).dedup.length < capacity := by
      rw [and_iff_right glyph]
      exact tracks.mem_keysOf_iff used
    rw [decide_eq_decide.2 same] at run
    exact ⟨_, run⟩
  get := (runs_get_iff_of_inUse inUse glyph).trans (tracks.payloadOf_eq_some_iff used)
  place near := by
    obtain ⟨count, run⟩ := runs_keys_of_inUse inUse
    exact ⟨_, _, run, tracks.getElem?_keysOf used near⟩

/-- A glyph is on the shelf exactly if fewer other glyphs than fit were used since it was used
last; then it stands behind those, with the payload that was put last. -/
theorem retained_iff_few_used_since (unlimited : m.quota = none) (quiet : m.fault = none)
    (cold : settings.cold = true) (positive : 1 ≤ settings.capacity)
    (most : settings.capacity ≤ 65534) (glyph : ¬ key.IsAnchor) (bytes : Bytes)
    (before after : List Call) (unreset : Call.reset ∉ after)
    (last : ∀ later, Call.put key later ∉ after) :
    ∃ m₀, Runs (openOn settings) m (.ok { capacity := settings.capacity }) m₀ ∧
      let calls := before ++ .put key bytes :: after
      let run := answers calls (m₀, { capacity := settings.capacity })
      Retains run.2 settings.capacity (usedSince key calls run.1).length key bytes ∧
        (after = [] → usedSince key calls run.1 = []) := by
  obtain ⟨m₀, opening, inUse, unlimited₀⟩ := opened_inUse unlimited quiet cold positive most
  rw [← inventoryOf_nil] at inUse
  have follows := answers_of_entries inUse unlimited₀
  obtain ⟨same, inUse'⟩ := follows (before ++ .put key bytes :: after)
  have nodup := (follows before).2.serves.holds.isRing.nodup
  obtain ⟨uses, used, since, tracks⟩ :=
    tracks_listAnswers positive glyph before after nodup unreset last
  refine ⟨m₀, opening, ?_, ?_⟩
  · rw [same, ← since]
    exact tracks.retains inUse' glyph used
  · rintro rfl
    rw [same, usedSince_eq glyph]
    rfl

/-- One glyph is read twice since the other was put, and a read of one that was left over from
before the cold start does not count. -/
theorem rereads_push_out_nothing :
    let leftover := (({} : Memory).poke "9" [6]).poke "2.lnk" [1]
    ∃ m₀, Runs (openOn { capacity := 2 }) leftover (.ok { capacity := 2 }) m₀ ∧
      ∃ s', Runs (get ⟨2⟩) (answers [.put ⟨1⟩ [5], .put ⟨2⟩ [7], .get ⟨1⟩, .get ⟨9⟩,
        .openEntry ⟨1⟩] (m₀, { capacity := 2 })).2 (.ok [7]) s' := by
  intro leftover
  have cold : ({ capacity := 2 } : Settings).cold = true := rfl
  have unlimited : leftover.quota = none := rfl
  have quiet : leftover.fault = none := rfl
  obtain ⟨m₀, opening, retains, -⟩ := retained_iff_few_used_since unlimited quiet cold (by decide)
    (by decide) (by decide : ¬ Key.IsAnchor ⟨2⟩) [7] [.put ⟨1⟩ [5]]
    [.get ⟨1⟩, .get ⟨9⟩, .openEntry ⟨1⟩] (by decide) (by simp)
  obtain ⟨m₀', opening', inUse, unlimited₀⟩ :=
    opened_inUse unlimited quiet cold (by decide) (by decide)
  obtain ⟨-, rfl⟩ := opening.deterministic opening'
  rw [← inventoryOf_nil] at inUse
  rw [(answers_of_entries inUse unlimited₀ _).1] at retains
  exact ⟨m₀, opening, retains.get.2 (by decide)⟩

end GlyphShelf.Shelf

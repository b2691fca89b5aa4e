import GlyphShelf.Proofs.Shelf.Recovery

/-!
# Which keys are enumerated

Payloads are enumerated by reading the names of all records, and reading a name is more generous
than writing one. So a record `007` is taken for the payload of the key 7, although whoever asks
for that payload asks for the record `7`. Such a name is an alias of the key: a key is enumerated
once for its payload, if it has one, and once more for each alias. Where there are no aliases,
and only there, the keys that are enumerated are those that have payloads, each of them once.

Aliases are nobody's to delete: a reset passes over them, and what they stand for is enumerated
afterwards.
-/

namespace GlyphShelf.Shelf

open Payloads

variable {m m' : Memory} {shelf : Shelf} {key : Key} {name : String} {listed : List Key}

/-- A name that is read as that of the payload of a key, but under which it is never stored. -/
def IsAlias (name : String) (key : Key) : Prop :=
  RecordName.glyph? name = some key ∧ name ≠ payloadName key

instance (name : String) (key : Key) : Decidable (IsAlias name key) :=
  inferInstanceAs (Decidable (_ ∧ _))

/-- The aliases of a key under which a device holds records. -/
def aliases (m : Memory) (key : Key) : List String :=
  m.cabinet.names.filter (IsAlias · key)

theorem mem_aliases : name ∈ aliases m key ↔ m.get? name ≠ none ∧ IsAlias name key := by
  rw [aliases, List.mem_filter, Cabinet.mem_names, Option.isSome_iff_ne_none, decide_eq_true_iff]
  exact .rfl

/-! ## What is enumerated -/

/-- The keys that enumerating the payloads of a device tells. -/
def enumerated (m : Memory) : List Key :=
  (m.listing.arrange m.cabinet.names).filterMap RecordName.glyph?

theorem not_isAnchor_of_enumerated (member : key ∈ enumerated m) : ¬ key.IsAnchor := by
  obtain ⟨name, -, read⟩ := List.mem_filterMap.1 member
  exact not_isAnchor_of_glyph? read

theorem count_payloadName (m : Memory) (key : Key) :
    m.cabinet.names.count (payloadName key) = (m.get? (payloadName key)).isSome.toNat := by
  cases stored : m.get? (payloadName key) with
  | some bytes =>
    have member : payloadName key ∈ m.cabinet.names :=
      (Cabinet.mem_names _ _).2 (Option.isSome_iff_exists.2 ⟨bytes, stored⟩)
    exact List.count_eq_one_of_mem m.nodup_names member
  | none =>
    apply List.count_eq_zero_of_not_mem
    rw [Cabinet.mem_names, ← Memory.get?, stored]
    exact Bool.false_ne_true

/-- A key is enumerated for its payload and for each of its aliases. -/
theorem count_enumerated (glyph : ¬ key.IsAnchor) :
    (enumerated m).count key =
      (m.get? (payloadName key)).isSome.toNat + (aliases m key).length := by
  have own (name : String) :
      (RecordName.glyph? name == some key && decide (name = payloadName key)) =
        (name == payloadName key) := by
    by_cases same : name = payloadName key
    · simp [same, glyph?_payloadName glyph]
    · simp [same]
  have other (name : String) :
      (RecordName.glyph? name == some key && !decide (name = payloadName key)) =
        decide (IsAlias name key) := by
    rw [Bool.eq_iff_iff, decide_eq_true_iff]
    simp [IsAlias]
  calc (enumerated m).count key
      = m.cabinet.names.countP (RecordName.glyph? · == some key) := by
        rw [enumerated, ((m.listing.perm m.cabinet.names).filterMap _).count_eq,
          List.count_filterMap]
    _ = m.cabinet.names.count (payloadName key) + (aliases m key).length := by
        rw [List.countP_eq_countP_filter_add _ _ (decide <| · = payloadName key),
          List.countP_filter, List.countP_filter, List.count_eq_countP, aliases,
          ← List.countP_eq_length_filter]
        simp [own, other]
    _ = (m.get? (payloadName key)).isSome.toNat + (aliases m key).length := by
        rw [count_payloadName]

theorem mem_enumerated_iff (glyph : ¬ key.IsAnchor) :
    key ∈ enumerated m ↔ (m.get? (payloadName key)).isSome = true ∨ aliases m key ≠ [] := by
  rw [← List.count_pos_iff, count_enumerated glyph, ← List.length_pos_iff]
  cases (m.get? (payloadName key)).isSome with
  | true => exact iff_of_true (by rw [Bool.toNat_true]; omega) (.inl rfl)
  | false => simp only [Bool.toNat_false, Nat.zero_add, Bool.false_eq_true, false_or]

/-- The keys that have payloads are enumerated, each once and no others, where no key has an
alias, and only there. -/
theorem exact_iff_no_aliases :
    ((∀ key, ¬ key.IsAnchor →
        (key ∈ enumerated m ↔ (m.get? (payloadName key)).isSome = true)) ∧
      (enumerated m).Nodup) ↔
    ∀ key, ¬ key.IsAnchor → aliases m key = [] := by
  constructor
  · rintro ⟨exact, once⟩ key glyph
    by_contra called
    have listed := (mem_enumerated_iff glyph).2 (.inr called)
    have twice := count_enumerated (m := m) glyph
    rw [(exact key glyph).1 listed] at twice
    have most := List.nodup_iff_count_le_one.1 once key
    have some := List.length_pos_iff.2 called
    rw [Bool.toNat_true] at twice
    omega
  · intro none
    refine ⟨fun key glyph => ?_, List.nodup_iff_count_le_one.2 fun key => ?_⟩
    · rw [mem_enumerated_iff glyph, none key glyph]
      simp
    · by_cases listed : key ∈ enumerated m
      · have glyph := not_isAnchor_of_enumerated listed
        rw [count_enumerated glyph, none key glyph]
        exact Bool.toNat_le _
      · rw [List.count_eq_zero_of_not_mem listed]
        exact Nat.zero_le 1

/-! ## After a reset -/

/-- Aliases are read neither as links nor as payloads under their own names. -/
theorem IsAlias.wiped (called : IsAlias name key) (records : String → Option Bytes) :
    wiped records name = records name := by
  obtain ⟨read, other⟩ := called
  apply wiped_of_other
  · rw [RecordName.glyph?] at read
    rw [RecordName.isLink]
    split at read <;> rename_i named
    · rw [named]
    · cases read
  · rw [isPayload, read]
    simpa using Ne.symm other

/-- Recovering leaves all aliases, and no payloads. -/
theorem count_enumerated_of_recovers (recovers : Recovers m m' shelf) (glyph : ¬ key.IsAnchor) :
    (enumerated m').count key = (aliases m key).length := by
  have get := recovers.get?.1
  have unpaid := (recovered_of_wiped get recovers.get?.2).unpaid key glyph
  have same : (aliases m' key).Perm (aliases m key) := by
    apply (List.perm_ext_iff_of_nodup (m'.nodup_names.filter _) (m.nodup_names.filter _)).2
    intro name
    rw [← aliases, ← aliases, mem_aliases, mem_aliases, get]
    constructor
    · rintro ⟨present, called⟩
      exact ⟨called.wiped m.get? ▸ present, called⟩
    · rintro ⟨present, called⟩
      exact ⟨(called.wiped m.get?).symm ▸ present, called⟩
  rw [count_enumerated glyph, unpaid, same.length_eq]
  exact Nat.zero_add _

/-! ## The main statement -/

/-- A glyph is enumerated once for its payload, if it has one, and once for each alias of its key;
so what is enumerated are the keys with payloads, each once, exactly on devices without aliases.
After a reset or a cold start only the aliases of before are enumerated. -/
theorem enumerates_payloads_and_aliases (m : Memory) :
    (m.fault = none → ∃ listed s, Runs enumerate m (.ok listed) s ∧
      (∀ key ∈ listed, ¬ key.IsAnchor) ∧
      (∀ key, ¬ key.IsAnchor → ∃ present s, Runs (Payloads.contains key) m (.ok present) s ∧
        listed.count key = present.toNat + (aliases m key).length) ∧
      (((∀ key, ¬ key.IsAnchor →
          (key ∈ listed ↔ ∃ s, Runs (Payloads.contains key) m (.ok true) s)) ∧ listed.Nodup) ↔
        ∀ key, ¬ key.IsAnchor → aliases m key = [])) ∧
    ∀ m' shelf, Recovers m m' shelf → m'.fault = none →
      ∃ listed s, Runs enumerate m' (.ok listed) s ∧
        (∀ key, ¬ key.IsAnchor → listed.count key = (aliases m key).length) ∧
        (listed = [] ↔ ∀ key, ¬ key.IsAnchor → aliases m key = []) := by
  refine ⟨fun quiet => ?_, fun m' shelf recovers quiet => ?_⟩
  · have contained (key : Key) (glyph : ¬ key.IsAnchor) :
        (∃ s, Runs (Payloads.contains key) m (.ok true) s) ↔
          (m.get? (payloadName key)).isSome = true := by
      obtain ⟨count, run⟩ := Payloads.runs_contains quiet glyph
      constructor
      · rintro ⟨s, run'⟩
        exact Except.ok.inj (run.deterministic run').1
      · intro present
        rw [present] at run
        exact ⟨_, run⟩
    refine ⟨_, _, runs_enumerate (Memory.allows_of_none quiet 1),
      fun key => not_isAnchor_of_enumerated, fun key glyph => ?_, ?_⟩
    · obtain ⟨count, run⟩ := Payloads.runs_contains quiet glyph
      exact ⟨_, _, run, count_enumerated glyph⟩
    · rw [← exact_iff_no_aliases]
      apply and_congr_left'
      apply forall₂_congr
      intro key glyph
      rw [contained key glyph]
      exact .rfl
  · refine ⟨_, _, runs_enumerate (Memory.allows_of_none quiet 1),
      fun key => count_enumerated_of_recovers recovers, ?_⟩
    change enumerated m' = [] ↔ _
    constructor
    · intro nothing key glyph
      have count := count_enumerated_of_recovers recovers glyph
      rw [nothing, List.count_nil] at count
      exact List.eq_nil_of_length_eq_zero count.symm
    · intro none
      apply List.eq_nil_iff_forall_not_mem.2
      intro key member
      have glyph := not_isAnchor_of_enumerated member
      have count := count_enumerated_of_recovers recovers glyph
      rw [none key glyph] at count
      exact absurd (List.count_pos_iff.2 member) (by rw [count]; exact Nat.lt_irrefl 0)

/-- A device with one record, under an alias of the key 7. -/
def misnamed : Memory := ({} : Memory).poke "007" [1]

/-- The key 7 is enumerated although it has no payload, also after a reset. -/
theorem seven_enumerated_by_alias :
    (∃ listed s s', Runs enumerate misnamed (.ok listed) s ∧ ⟨7⟩ ∈ listed ∧
      Runs (Payloads.contains ⟨7⟩) misnamed (.ok false) s') ∧
    ∀ m' shelf, Recovers misnamed m' shelf → m'.fault = none →
      ∃ listed s, Runs enumerate m' (.ok listed) s ∧ ⟨7⟩ ∈ listed := by
  have glyph : ¬ (⟨7⟩ : Key).IsAnchor := by decide
  have called : aliases misnamed ⟨7⟩ = ["007"] := by decide +kernel
  have absent : misnamed.get? (payloadName ⟨7⟩) = none := by decide +kernel
  obtain ⟨now, later⟩ := enumerates_payloads_and_aliases misnamed
  constructor
  · obtain ⟨listed, s, run, -, counts, -⟩ := now rfl
    obtain ⟨present, s', looking, count⟩ := counts ⟨7⟩ glyph
    obtain ⟨_, looking'⟩ := Payloads.runs_contains (m := misnamed) rfl glyph
    rw [absent] at looking'
    obtain rfl := Except.ok.inj (looking.deterministic looking').1
    rw [called] at count
    exact ⟨listed, s, s', run, List.count_pos_iff.1 (by rw [count]; decide), looking⟩
  · intro m' shelf recovers quiet
    obtain ⟨listed, s, run, counts, -⟩ := later m' shelf recovers quiet
    have count := counts ⟨7⟩ glyph
    rw [called] at count
    exact ⟨listed, s, run, List.count_pos_iff.1 (by rw [count]; decide)⟩

end GlyphShelf.Shelf

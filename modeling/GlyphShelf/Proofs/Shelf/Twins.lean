import GlyphShelf.Proofs.Shelf.Acceptance
import GlyphShelf.Proofs.Shelf.Desks
import GlyphShelf.Proofs.Twins

/-!
# Shelves on twins

A shelf on a device in memory and a shelf on its twin, a directory, cannot be told apart. Whatever
is done with them one step after the other, they answer the same, with the same failures, and the
same records are there afterwards. The ring need not be sound to begin with, entries may be open
while their records are deleted, emptied or created anew, and the two devices may list names in
different orders.

Each step agrees because the actions that it consists of do; the whole run then agrees by induction.
What is shared by all steps is `desks`: the devices are twins, the shelves are equal, and the open
entries are related number by number.
-/

namespace GlyphShelf.Shelf

open Comparison Desk
open Directory (Ordinary safeSize)

section

variable {σ η τ θ α β : Type} [Device σ η] [Device τ θ] {l : Likeness σ η τ θ}

/-- Desks on devices that are alike, with the same shelf and entries that agree. -/
def desks (l : Likeness σ η τ θ) : Comparison (Desk σ η) (Desk τ θ) :=
  (l.sharing Shelf).beside fun entries entries' p q =>
    ∀ number, Option.Rel (fun h k => l.records h k p.1 q.1) (entries number) (entries' number)

variable {s s' : σ} {t t' : τ} {entries : Nat → Option η} {entries' : Nat → Option θ} {number : Nat}

omit [Device σ η] [Device τ θ] in
theorem related_later (lasted : l.later.allows (s, t) (s', t'))
    (related : Option.Rel (fun h k => l.records h k s t) (entries number) (entries' number)) :
    Option.Rel (fun h k => l.records h k s' t') (entries number) (entries' number) :=
  related_mono related fun _ _ agree => l.lasting agree lasted

variable {found : Breach → Breach → Prop}

omit [Device σ η] [Device τ θ] in
theorem agrees_take (shelf : Shelf) : (desks l).Agrees found Same
    (take shelf : Examination (Desk σ η) Unit) (take shelf : Examination (Desk τ θ) Unit) := by
  rintro ⟨⟨s, _⟩, entries⟩ ⟨⟨t, _⟩, entries'⟩ ⟨⟨agree, -⟩, related⟩
  exact ⟨.ok (), .ok (), ((s, shelf), entries), ((t, shelf), entries'), rfl, rfl,
    ⟨⟨agree, rfl⟩, related⟩, l.later.refl _, .ok rfl⟩

variable (failing : ∀ e e', l.told e e' → found (.failed e) (.failed e'))

include failing

omit [Device σ η] [Device τ θ] in
theorem agrees_onShelf {values : α → β → σ × Shelf → τ × Shelf → Prop}
    {act : Action (σ × Shelf) α} {act' : Action (τ × Shelf) β}
    (agrees : (l.sharing Shelf).Agrees l.told values act act') :
    (desks l).Agrees found (fun a b p q => values a b p.1 q.1)
      (onShelf act : Examination (Desk σ η) α) (onShelf act' : Examination (Desk τ θ) β) := by
  refine agrees_ofAction failing ?_
  rintro ⟨site, entries⟩ ⟨site', entries'⟩ ⟨agree, related⟩
  exact agreesFrom_onFirst (agrees site site' agree) fun lasted number =>
    related_later lasted (related number)

omit [Device σ η] [Device τ θ] in
theorem agrees_onEntry {act : Action (σ × η) Reply} {act' : Action (τ × θ) Reply}
    (agrees : l.opened.Agrees l.told Same act act') (number : Nat) :
    (desks l).Agrees found Same (onEntry number act) (onEntry number act') := by
  rintro ⟨⟨s, shelf⟩, entries⟩ ⟨⟨t, shelf'⟩, entries'⟩ ⟨⟨agree, same⟩, related⟩
  obtain rfl : shelf = shelf' := same
  rcases cases_of_related (related number) with ⟨none, none'⟩ | ⟨h, k, entry, entry', agreeing⟩
  · refine ⟨.ok .done, .ok .done, ((s, shelf), entries), ((t, shelf), entries'),
      runs_onEntry_of_none none, runs_onEntry_of_none none', ⟨⟨agree, rfl⟩, related⟩,
      l.later.refl _, .ok rfl⟩
  · obtain ⟨result, result', ⟨s', h'⟩, ⟨t', k'⟩, run, run', ⟨agree', still⟩, lasted, matched⟩ :=
      agrees (s, h) (t, k) ⟨agree, agreeing⟩
    refine ⟨_, _, _, _, runs_onEntry entry run, runs_onEntry entry' run', ⟨⟨agree', rfl⟩, ?_⟩,
      lasted, ?_⟩
    · exact related_update (fun other => related_later lasted (related other)) (.some still)
    · cases matched with
      | ok same => exact .ok same
      | error told => exact .error (failing _ _ told)

theorem agrees_close (closing : l.Closing) (number : Nat) : (desks l).Agrees found Same
    (Desk.close number : Examination (Desk σ η) Unit)
    (Desk.close number : Examination (Desk τ θ) Unit) := by
  rintro ⟨⟨s, shelf⟩, entries⟩ ⟨⟨t, shelf'⟩, entries'⟩ ⟨⟨agree, same⟩, related⟩
  obtain rfl : shelf = shelf' := same
  rcases cases_of_related (related number) with ⟨none, none'⟩ | ⟨h, k, entry, entry', agreeing⟩
  · refine ⟨.ok (), .ok (), ((s, shelf), entries), ((t, shelf), entries'),
      runs_close_of_none none, runs_close_of_none none', ⟨⟨agree, rfl⟩, related⟩,
      l.later.refl _, .ok rfl⟩
  · obtain ⟨result, result', s', t', run, run', agree', lasted, matched⟩ :=
      closing h k s t agree agreeing
    refine ⟨_, _, _, _, runs_close entry run, runs_close entry' run', ⟨⟨agree', rfl⟩, ?_⟩, lasted,
      ?_⟩
    · exact related_update (fun other => related_later lasted (related other)) .none
    · cases matched with
      | ok _ => exact .ok rfl
      | error told => exact .error (failing _ _ told)

/-! ## Operations -/

variable {room : Nat} (alike : Alike l room) (finding : ∀ breach, found breach breach)

include alike finding

theorem agrees_examine : (desks l).Agrees found Same
    (examine : Examination (Desk σ η) Reply) (examine : Examination (Desk τ θ) Reply) := by
  rintro ⟨site, entries⟩ ⟨site', entries'⟩ ⟨agree, related⟩
  obtain ⟨result, result', last, last', run, run', agree', lasted, matched⟩ :=
    alike.agrees_checkShelf failing finding site site' agree
  refine ⟨_, _, _, _, runs_examine run, runs_examine run', ⟨agree', ?_⟩, lasted, ?_⟩
  · exact fun number => related_later lasted (related number)
  · cases matched with
    | ok _ => exact .ok rfl
    | error told => exact .error told

/-- Operations that store no more than the devices have room for agree. -/
theorem agrees_perform (refusing : ∀ e : Failure, l.told e e) (operation : Operation)
    (fits : ∀ key bytes, operation = .put key bytes → bytes.length ≤ room) :
    (desks l).Agrees found Same (operation.perform : Examination (Desk σ η) Reply)
      (operation.perform : Examination (Desk τ θ) Reply) := by
  cases operation with
  | put key bytes =>
    exact Agrees.map (agrees_onShelf failing (alike.agrees_put key (fits key bytes rfl)))
      Reply.number
  | get key => exact Agrees.map (agrees_onShelf failing (alike.agrees_get key)) Reply.payload
  | openEntry key =>
    refine Agrees.bindRelated (agrees_onShelf failing (alike.agrees_openEntry key)) ?_
    exact fun _ _ _ _ agree _ => .pure agree rfl
  | reset => exact Agrees.map (agrees_onShelf failing alike.agrees_reset) fun _ => Reply.done
  | reconcile => exact Agrees.map (agrees_onShelf failing alike.agrees_reconcile) Reply.number
  | contains key =>
    exact Agrees.map (agrees_onShelf failing (alike.agrees_contains key)) Reply.answer
  | keys => exact Agrees.map (agrees_onShelf failing alike.agrees_keys) Reply.keys
  | check => exact agrees_examine failing alike finding
  | reopen settings =>
    have opening : (l.sharing Shelf).Agrees l.told Same
        (Action.onFirst (openOn settings) : Action (σ × Shelf) Shelf)
        (Action.onFirst (openOn settings) : Action (τ × Shelf) Shelf) :=
      agrees_onFirst (alike.agrees_openOn fun e _ => refusing e)
    exact Agrees.bind (agrees_onShelf failing opening) fun shelf =>
      (agrees_take shelf).map fun _ => Reply.done

end

/-! ## Steps on twins -/

/-- No more is stored or asked for at a time than a record may hold. -/
def Step.Small : Step → Prop
  | .operate (.put _ bytes) => bytes.length ≤ safeSize
  | .read _ count => count ≤ safeSize
  | .readExact _ count => count ≤ safeSize
  | .seek _ pos => pos ≤ safeSize
  | _ => True

instance (step : Step) : Decidable step.Small := by
  unfold Step.Small
  split <;> infer_instance

variable {folder : Nat} {step : Step}

theorem agrees_step (small : step.Small) : (desks (Twins.likeness folder)).Agrees Eq Same
    (step.perform : Examination (Desk Memory Memory.Handle) Reply)
    (step.perform : Examination (Desk Directory Directory.Handle) Reply) := by
  have alike := Twins.alike folder
  have failing : ∀ e e', (Twins.likeness folder).told e e' → Breach.failed e = .failed e' :=
    fun _ _ same => congrArg Breach.failed same
  cases step with
  | operate operation =>
    refine agrees_perform failing alike (fun _ => rfl) (fun _ => rfl) operation ?_
    rintro key bytes rfl
    exact small
  | size =>
    exact Agrees.map (agrees_onShelf failing (agrees_second Shelf.size id)) Reply.number
  | openAs number key =>
    refine Agrees.bindRelated (agrees_onShelf failing (alike.agrees_openEntry key)) ?_
    rintro h k ⟨site, entries⟩ ⟨site', entries'⟩ ⟨agree, related⟩ opened
    exact ⟨.ok .done, .ok .done, _, _, rfl, rfl, ⟨agree, related_update related (.some opened)⟩,
      (Twins.likeness folder).later.refl _, .ok rfl⟩
  | read number count =>
    exact agrees_onEntry failing (Agrees.map (Twins.agrees_read small) Reply.payload) number
  | readExact number count =>
    have reading : (Twins.likeness folder).opened.Agrees Eq Same
        (Device.readExact count : Action (Memory × Memory.Handle) Bytes)
        (Device.readExact count : Action (Directory × Directory.Handle) Bytes) :=
      Likeness.agrees_readUpTo (fun more few => Twins.agrees_read (Nat.le_trans few small))
        (fun _ _ => rfl) count []
    exact agrees_onEntry failing (Agrees.map reading Reply.payload) number
  | readToEnd number =>
    have reading := Likeness.agrees_readToEnd (alike.reading _ (Nat.le_refl _)) alike.sizing
    exact agrees_onEntry failing (Agrees.map reading Reply.payload) number
  | seek number pos =>
    have seeking : (Twins.likeness folder).opened.Agrees Eq Same
        (Device.seek pos : Action (Memory × Memory.Handle) Unit)
        (Device.seek pos : Action (Directory × Directory.Handle) Unit) := by
      rintro ⟨m, h⟩ ⟨d, k⟩ ⟨twins, related⟩
      exact (Twins.agreesFrom_seek small twins related).mono fun _ _ _ _ _ => rfl
    exact agrees_onEntry failing (seeking.map fun _ => Reply.done) number
  | length number =>
    have sizing : (Twins.likeness folder).opened.Agrees Eq Same
        (Bench.tellSize : Action (Memory × Memory.Handle) Nat)
        (Bench.tellSize : Action (Directory × Directory.Handle) Nat) := by
      rintro ⟨m, h⟩ ⟨d, k⟩ ⟨twins, related⟩
      exact ⟨_, _, _, _, Bench.runs_tellSize m h, Bench.runs_tellSize d k, ⟨twins, related⟩,
        (Twins.likeness folder).later.refl _, .ok (alike.sizing twins related)⟩
    exact agrees_onEntry failing (Agrees.map sizing Reply.number) number
  | close number => exact (agrees_close failing alike.closing number).map fun _ => Reply.done

/-- A step gives the same answer at both desks and leaves them related. -/
theorem take_agrees (small : step.Small) (desk : Desk Memory Memory.Handle)
    (desk' : Desk Directory Directory.Handle)
    (related : (desks (Twins.likeness folder)).agree desk desk') :
    (step.take desk).1 = (step.take desk').1 ∧
      (desks (Twins.likeness folder)).agree (step.take desk).2 (step.take desk').2 := by
  obtain ⟨result, result', last, last', run, run', agree, -, matched⟩ :=
    agrees_step small desk desk' related
  obtain rfl : result = result' := matched.eq
  rw [Step.take_of_runs run, Step.take_of_runs run']
  exact ⟨rfl, agree⟩

variable {m : Memory} {d : Directory} {steps : List Step}

/-- A shelf on a device in memory and a shelf on its twin give the same answers whatever is done
with them, the same failures among them, and have the same records afterwards. What the shelf was
before the first one was opened does not matter. -/
theorem twins_answer_alike (twins : Twins folder m d) (shelf : Shelf)
    (small : ∀ step ∈ steps, step.Small) :
    ∃ answers m' shelf' entries d' entries',
      outcomes Step.take steps ((m, shelf), fun _ => none) = (answers, (m', shelf'), entries) ∧
      outcomes Step.take steps ((d, shelf), fun _ => none) = (answers, (d', shelf'), entries') ∧
      Twins folder m' d' ∧ ∀ name, m'.get? name = d'.files.get? ⟨folder, name⟩ := by
  have start : (desks (Twins.likeness folder)).agree ((m, shelf), fun _ => none)
      ((d, shelf), fun _ => none) := ⟨⟨twins, rfl⟩, fun _ => .none⟩
  obtain ⟨same, ⟨last, shelves⟩, -⟩ := outcomes_agree_of_mem
    (fun step member => take_agrees (small step member)) start
  generalize outcomes Step.take steps ((m, shelf), fun _ => none) = run at same last shelves ⊢
  generalize outcomes Step.take steps ((d, shelf), fun _ => none) = run' at same last shelves ⊢
  obtain ⟨answers, ⟨m', shelf'⟩, entries⟩ := run
  obtain ⟨answers', ⟨d', shelf''⟩, entries'⟩ := run'
  obtain rfl : answers = answers' := same
  obtain rfl : shelf' = shelf'' := shelves
  exact ⟨answers, m', shelf', entries, d', entries', rfl, rfl, last, last.mirrors.same⟩

/-! ## Given records -/

def directoryOf (records : List (String × Bytes)) : Directory :=
  records.foldl (fun d record => stateAfter (Directory.poke record.1 record.2) d) {}

/-- Whatever records are placed in both, they are twins. -/
theorem twins_of {records : List (String × Bytes)}
    (usable : ∀ record ∈ records, Ordinary record.1 ∧ record.2.length ≤ safeSize) :
    Twins 0 (deviceOf records) (directoryOf records) := by
  have plain : Directory.Plain {} 0 := ⟨rfl, by decide, fun _ => by simp⟩
  have start : Twins 0 {} {} := .of_vacant plain Cabinet.sound_empty (fun _ => rfl) .asStored
  unfold deviceOf directoryOf
  generalize ({} : Memory) = m at start
  generalize ({} : Directory) = d at start
  induction records generalizing m d with
  | nil => exact start
  | cons record records ih =>
    obtain ⟨first, rest⟩ := List.forall_mem_cons.1 usable
    exact ih rest _ _ (start.placed first.1 first.2)

/-- A ring with one key whose way back misses it, and an entry that is replaced while it is open. -/
theorem frayed_twins_answer_alike :
    let records : List (String × Bytes) :=
      [("0.lnk", [255, 255, 5, 0]), ("5.lnk", [0, 0, 255, 255]), ("5", [1, 2, 3]),
        ("65535.lnk", [0, 0, 0, 0]), ("notes", [4])]
    let steps : List Step :=
      [.operate (.reopen { capacity := 4, cold := false }), .openAs 0 ⟨5⟩, .operate .check,
        .operate (.put ⟨5⟩ [9]), .readToEnd 0, .operate (.reopen { capacity := 1 }), .close 0]
    (∀ record ∈ records, Ordinary record.1 ∧ record.2.length ≤ safeSize) ∧
      (∀ step ∈ steps, step.Small) ∧
      ∃ answers m' shelf' entries d' entries',
        outcomes Step.take steps ((deviceOf records, { capacity := 0 }), fun _ => none) =
          (answers, (m', shelf'), entries) ∧
        outcomes Step.take steps ((directoryOf records, { capacity := 0 }), fun _ => none) =
          (answers, (d', shelf'), entries') ∧
        Twins 0 m' d' ∧ ∀ name, m'.get? name = d'.files.get? ⟨0, name⟩ := by
  intro records steps
  have usable : ∀ record ∈ records, Ordinary record.1 ∧ record.2.length ≤ safeSize := by
    decide +kernel
  have small : ∀ step ∈ steps, step.Small := by decide +kernel
  exact ⟨usable, small, twins_answer_alike (twins_of usable) _ small⟩

end GlyphShelf.Shelf

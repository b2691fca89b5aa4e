import GlyphShelf.Proofs.Shelf.OpenPayloads

/-!
# Readers

An entry that was opened is read piece by piece, and between two pieces anything may be done with
the shelf. `Follows` relates a reader to the payload it is about to collect: so far it has the
beginning of it, and its record shows all of it. Reading goes on in the payload, and so do all
operations but one. A glyph that is put under the key of the entry may be written to the record
that is read; then the reader has to go on in the new payload, which it can if this begins with
what it has.
-/

namespace GlyphShelf.Shelf

variable {σ η ν : Type} [Device σ η] [Ord ν] {archive : Archive σ η ν}
variable {key : Key} {bytes content : Bytes} {ref : Cabinet.Ref ν} {whole : Bytes → Prop}

/-! ## Operations -/

/-- The inputs of a run, each with the state in which it is processed. -/
def moments {τ ι : Type} (after : τ → ι → τ) (s : τ) (inputs : List ι) : List (τ × ι) :=
  (inputs.scanl after s).zip inputs

theorem moments_cons {τ ι : Type} (after : τ → ι → τ) (s : τ) (input : ι) (inputs : List ι) :
    moments after s (input :: inputs) = (s, input) :: moments after (after s input) inputs := by
  simp [moments, List.scanl_cons]

/-- What each input preserves where it is processed holds after the run. -/
theorem foldl_induction {τ ι : Type} {after : τ → ι → τ} {motive : τ → Prop} {s : τ}
    {inputs : List ι} (start : motive s)
    (step : ∀ moment ∈ moments after s inputs,
      motive moment.1 → motive (after moment.1 moment.2)) :
    motive (inputs.foldl after s) := by
  induction inputs generalizing s with
  | nil => exact start
  | cons input inputs ih =>
    rw [moments_cons] at step
    exact ih (step _ List.mem_cons_self start) fun moment later =>
      step moment (List.mem_cons_of_mem _ later)

inductive Operation
  | put (key : Key) (bytes : Bytes)
  | get (key : Key)
  | openEntry (key : Key)
  | reset
  | reconcile
  | contains (key : Key)
  | keys
  | check
  /-- Opens a shelf on the device, which takes the place of the one before if that succeeds. -/
  | reopen (settings : Settings)
deriving DecidableEq

namespace Operation

def after (site : σ × Shelf) : Operation → σ × Shelf
  | .put key bytes => stateAfter (Shelf.put key bytes : Action (σ × Shelf) Nat) site
  | .get key => stateAfter (Shelf.get key : Action (σ × Shelf) Bytes) site
  | .openEntry key => stateAfter (Shelf.openEntry key : Action (σ × Shelf) η) site
  | .reset => stateAfter (Shelf.reset : Action (σ × Shelf) Unit) site
  | .reconcile => stateAfter (Shelf.reconcile : Action (σ × Shelf) Nat) site
  | .contains key => stateAfter (Shelf.contains key : Action (σ × Shelf) Bool) site
  | .keys => stateAfter (Shelf.keys : Action (σ × Shelf) (List Key)) site
  | .check => stateAfter (Shelf.check : Examination (σ × Shelf) Unit) site
  | .reopen settings =>
    match (openOn settings : Action σ Shelf) site.1 with
    | .ok shelf s => (s, shelf)
    | .error _ s => (s, site.2)

/-- The operation puts the payload under the key, and the device takes it. -/
def Stores (key : Key) (bytes : Bytes) (s : σ) (operation : Operation) : Prop :=
  operation = .put key bytes ∧ Takes s key bytes

variable [Std.TransOrd ν] [Std.LawfulEqOrd ν] [DecidableEq ν] (lawful : archive.Lawful)

include lawful

/-- Only storing under a key writes to the payload of that key. -/
theorem keeps (operation : Operation) (other : ∀ bytes, operation ≠ .put key bytes)
    (site : σ × Shelf) : archive.Keeps (.payload key) site.1 (operation.after site).1 := by
  have guards := lawful.guards_keeping key
  cases operation with
  | put put bytes =>
    have differs : RecordName.payload put ≠ .payload key := by
      rintro ⟨⟩
      exact other bytes rfl
    have writing : Respects (archive.keeping (.payload key))
        (Payloads.write put bytes : Action σ Unit) :=
      (respects_ofExcept _).bind fun _ => lawful.respects_replace differs bytes
    exact guards.respects_put writing site
  | get key => exact guards.respects_get key site
  | openEntry key => exact guards.respects_openEntry key site
  | reset => exact guards.respects_reset site
  | reconcile => exact guards.respects_reconcile site
  | contains key => exact respects_contains_of_looks guards.toLooks key site
  | keys => exact respects_keys_of_looks guards.toLooks site
  | check => exact respects_check_of_looks guards.toLooks site
  | reopen settings =>
    have opening := guards.respects_openOn settings site.1
    unfold after
    dsimp only
    unfold stateAfter at opening
    split <;> rename_i opened <;> rw [opened] at opening <;> exact opening

/-- An operation leaves what is under a key whole, if the payload that it stores there is. -/
theorem orderly_after (glyph : ¬ key.IsAnchor) {operation : Operation} {site : σ × Shelf}
    (stores : ∀ bytes, operation.Stores key bytes site.1 → whole bytes)
    (orderly : Orderly archive whole key site.1) :
    Orderly archive whole key (operation.after site).1 := by
  by_cases putting : ∃ bytes, operation = .put key bytes
  · obtain ⟨bytes, rfl⟩ := putting
    have stored := orderly_storePayload lawful glyph (fun taken => stores bytes ⟨rfl, taken⟩)
      orderly
    exact stored.of_keeps (keeps_of_put lawful glyph bytes site.1 site.2)
  · have other (bytes : Bytes) : operation ≠ .put key bytes := fun same => putting ⟨bytes, same⟩
    exact orderly.of_keeps (operation.keeps lawful other site)

end Operation

/-! ## Readers -/

/-- Somebody who reads an open record: the device with its shelf, the record, and the bytes
collected so far. -/
structure Reader (σ η : Type) where
  site : σ × Shelf
  record : η
  collected : Bytes := []

namespace Reader

/-- What happens next: the reader asks for so many bytes, or something is done with the shelf. -/
inductive Step
  | read (count : Nat)
  | operation (done : Operation)
deriving DecidableEq

/-- The reader after a step. A read that fails collects nothing. -/
def after (reader : Reader σ η) : Step → Reader σ η
  | .read count =>
    match Device.read count (reader.site.1, reader.record) with
    | .ok bytes (s, record) => ⟨(s, reader.site.2), record, reader.collected ++ bytes⟩
    | .error _ (s, record) => ⟨(s, reader.site.2), record, reader.collected⟩
  | .operation done => { reader with site := done.after reader.site }

/-- All bytes collected once the record is read to its end, unless that fails. -/
def finish (reader : Reader σ η) : Option Bytes :=
  match Device.readToEnd (reader.site.1, reader.record) with
  | .ok rest _ => some (reader.collected ++ rest)
  | .error _ _ => none

/-- The reader can do with a glyph put under the key. If it reads the record that is stored there,
the device takes the payload, and this begins with the bytes collected so far. -/
def Tolerates (archive : Archive σ η ν) (key : Key) (bytes : Bytes) (reader : Reader σ η) : Prop :=
  ∀ ref ∈ archive.target reader.record, (archive.cabinet reader.site.1).Holds ref →
    Takes reader.site.1 key bytes ∧ reader.collected <+: bytes

instance [DecidableEq ν] (key : Key) (bytes : Bytes) (reader : Reader σ η) :
    Decidable (reader.Tolerates archive key bytes) :=
  inferInstanceAs (Decidable (∀ ref ∈ archive.target reader.record,
    (archive.cabinet reader.site.1).ref? ref.name = some ref →
      Takes reader.site.1 key bytes ∧ reader.collected <+: bytes))

/-- The reader can do with all glyphs put under the key on the way. -/
def Undisturbed (archive : Archive σ η ν) (key : Key) (reader : Reader σ η) (steps : List Step) :
    Prop :=
  ∀ moment ∈ moments after reader steps, ∀ bytes,
    moment.2 = .operation (.put key bytes) → moment.1.Tolerates archive key bytes

instance (key : Key) (step : Step) (accepts : Bytes → Prop) [DecidablePred accepts] :
    Decidable (∀ bytes, step = .operation (.put key bytes) → accepts bytes) :=
  match step with
  | .operation (.put put bytes) =>
    decidable_of_iff (put = key → accepts bytes)
      ⟨fun accepted bytes same => by cases same; exact accepted rfl,
        fun accepted same => accepted bytes (same ▸ rfl)⟩
  | .operation (.get _) | .operation (.openEntry _) | .operation .reset | .operation .reconcile
  | .operation (.contains _) | .operation .keys | .operation .check | .operation (.reopen _)
  | .read _ => .isTrue nofun

instance [DecidableEq ν] (reader : Reader σ η) (steps : List Step) :
    Decidable (reader.Undisturbed archive key steps) :=
  inferInstanceAs (Decidable (∀ moment ∈ moments after reader steps, ∀ bytes,
    moment.2 = .operation (.put key bytes) → moment.1.Tolerates archive key bytes))

/-- What a reader has collected is the beginning of one whole payload, and the cursor stands where
it ends. -/
structure Follows (archive : Archive σ η ν) (whole : Bytes → Prop) (key : Key)
    (reader : Reader σ η) : Prop where
  orderly : Orderly archive whole key reader.site.1
  sees : ∀ ref ∈ archive.target reader.record, ∃ content,
    Shows archive key ref content reader.site.1 ∧ whole content ∧ reader.collected <+: content ∧
      archive.position reader.record = reader.collected.length

omit [Device σ η] in
/-- A record that was just opened is followed from its start. -/
theorem follows_start {site : σ × Shelf} {record : η} (orderly : Orderly archive whole key site.1)
    (opens : ∀ ref ∈ archive.target record, archive.place site.1 (.payload key) = some ref.name ∧
      (archive.cabinet site.1).Holds ref ∧ archive.position record = 0) :
    Follows archive whole key { site, record } where
  orderly := orderly
  sees ref target := by
    obtain ⟨placed, held, start⟩ := opens ref target
    exact ⟨_, ⟨placed, orderly.sound ref held, rfl⟩, orderly.whole ref placed held,
      List.nil_prefix, start⟩

omit [Device σ η] in
theorem Follows.of_keeps {reader : Reader σ η} {site : σ × Shelf}
    (follows : Follows archive whole key reader)
    (keeps : archive.Keeps (.payload key) reader.site.1 site.1) :
    Follows archive whole key { reader with site } where
  orderly := follows.orderly.of_keeps keeps
  sees ref found := by
    obtain ⟨content, shows, rest⟩ := follows.sees ref found
    exact ⟨content, shows.of_keeps keeps, rest⟩

section

variable (lawful : archive.Lawful)

include lawful

theorem target_after (reader : Reader σ η) (step : Step) :
    archive.target (reader.after step).record = archive.target reader.record := by
  cases step with
  | read count =>
    obtain ⟨result, run⟩ := exists_runs (Device.read count : Action (σ × η) Bytes)
      (reader.site.1, reader.record)
    obtain ⟨-, target, -⟩ := lawful.reading run
    unfold Runs at run
    unfold after
    dsimp only
    rw [run]
    cases result <;> exact target
  | operation done => rfl

theorem target_foldl (reader : Reader σ η) (steps : List Step) :
    archive.target (steps.foldl after reader).record = archive.target reader.record :=
  foldl_induction (motive := fun last => archive.target last.record = _) rfl
    fun moment _ same => (target_after lawful moment.1 moment.2).trans same

/-- A read collects the next bytes of the payload. -/
theorem follows_read {reader : Reader σ η} (follows : Follows archive whole key reader)
    (count : Nat) : Follows archive whole key (reader.after (.read count)) := by
  obtain ⟨⟨s, shelf⟩, record, collected⟩ := reader
  obtain ⟨result, run⟩ := exists_runs (Device.read count : Action (σ × η) Bytes) (s, record)
  generalize stateAfter (Device.read count : Action (σ × η) Bytes) (s, record) = last at run
  obtain ⟨s', record'⟩ := last
  obtain ⟨same, target, reads, fails⟩ := lawful.reading run
  have keeps : archive.Keeps (.payload key) s s' := same.keeps_of_same
  unfold Runs at run
  unfold after
  dsimp only
  rw [run]
  cases result with
  | ok bytes =>
    refine ⟨follows.orderly.of_keeps keeps, fun ref found => ?_⟩
    obtain ⟨ref', found', sliced, moved⟩ := reads bytes rfl
    obtain rfl := Option.some.inj ((target.symm.trans found).symm.trans found')
    obtain ⟨content, shows, member, ⟨rest, split⟩, position⟩ := follows.sees ref found'
    refine ⟨content, shows.of_keeps keeps, member, ?_, ?_⟩
    · dsimp only at split position
      rw [shows.read, position, ← split, Bytes.slice, List.drop_left] at sliced
      rw [sliced, ← split]
      exact (List.prefix_append_right_inj collected).2 (List.take_prefix count rest)
    · rw [moved, position, List.length_append]
  | error e =>
    refine ⟨follows.orderly.of_keeps keeps, fun ref found => ?_⟩
    obtain ⟨content, shows, member, collects, position⟩ := follows.sees ref (target ▸ found)
    exact ⟨content, shows.of_keeps keeps, member, collects, (fails e rfl).1.trans position⟩

/-- In the end the reader has that payload, unless its record cannot be read to the end. -/
theorem finish_of_follows {reader : Reader σ η} (follows : Follows archive whole key reader)
    (found : archive.target reader.record = some ref) : ∃ payload, whole payload ∧
      (reader.finish = some payload ∨
        reader.finish = none ∧ ¬ archive.Reaches (payload.length + Device.chunkSize)) := by
  obtain ⟨⟨s, shelf⟩, record, collected⟩ := reader
  obtain ⟨content, shows, member, ⟨rest, split⟩, position⟩ := follows.sees ref found
  obtain ⟨result, run⟩ := exists_runs (Device.readToEnd : Action (σ × η) Bytes) (s, record)
  dsimp only at split position found shows
  have within : archive.position record ≤ ((archive.cabinet s).read ref).bytes.length := by
    rw [shows.read, ← split, position, List.length_append]
    omega
  have collects := lawful.collects_of_readToEnd follows.orderly.healthy found within run
  rw [shows.read, position] at collects
  refine ⟨content, member, ?_⟩
  unfold Runs at run
  unfold finish
  dsimp only
  rw [run]
  rcases collects with rfl | ⟨⟨e, rfl⟩, beyond⟩
  · rw [← split, List.drop_left]
    exact .inl rfl
  · exact .inr ⟨rfl, beyond⟩

theorem finish_of_nothing {reader : Reader σ η} (nothing : archive.target reader.record = none) :
    reader.finish = none := by
  obtain ⟨result, run⟩ :=
    exists_runs (Device.readToEnd : Action (σ × η) Bytes) (reader.site.1, reader.record)
  obtain ⟨e, rfl⟩ := lawful.error_of_readToEnd nothing run
  unfold Runs at run
  unfold finish
  rw [run]

end

variable [Std.TransOrd ν] [Std.LawfulEqOrd ν] [DecidableEq ν] (lawful : archive.Lawful)

include lawful

/-- An operation shows a reader what it showed before, or a payload that the reader tolerates. -/
theorem follows_operation (glyph : ¬ key.IsAnchor) {reader : Reader σ η} {done : Operation}
    (stores : ∀ bytes, done.Stores key bytes reader.site.1 → whole bytes)
    (tolerates : ∀ bytes, done = .put key bytes → reader.Tolerates archive key bytes)
    (follows : Follows archive whole key reader) :
    Follows archive whole key (reader.after (.operation done)) := by
  refine ⟨done.orderly_after lawful glyph stores follows.orderly, fun ref found => ?_⟩
  obtain ⟨content, shows, member, collects, position⟩ := follows.sees ref found
  by_cases putting : ∃ bytes, done = .put key bytes
  · obtain ⟨bytes, rfl⟩ := putting
    have tolerates := tolerates bytes rfl ref found
    have keeps := keeps_of_put lawful glyph bytes reader.site.1 reader.site.2
    rcases shows_storePayload lawful glyph follows.orderly.healthy shows
      (fun held => (tolerates held).1) with unseen | ⟨held, seen⟩
    · exact ⟨content, unseen.of_keeps keeps, member, collects, position⟩
    · obtain ⟨taken, begins⟩ := tolerates held
      exact ⟨bytes, seen.of_keeps keeps, stores bytes ⟨rfl, taken⟩, begins, position⟩
  · have other (bytes : Bytes) : done ≠ .put key bytes := fun same => putting ⟨bytes, same⟩
    have keeps := done.keeps lawful other reader.site
    exact ⟨content, shows.of_keeps keeps, member, collects, position⟩

/-- A reader that is undisturbed goes on in one whole payload. -/
theorem follows_steps (glyph : ¬ key.IsAnchor) {reader : Reader σ η} {steps : List Step}
    (stores : ∀ moment ∈ moments after reader steps, ∀ done bytes, moment.2 = .operation done →
      done.Stores key bytes moment.1.site.1 → whole bytes)
    (undisturbed : reader.Undisturbed archive key steps)
    (follows : Follows archive whole key reader) :
    Follows archive whole key (steps.foldl after reader) := by
  refine foldl_induction follows fun ⟨reader, step⟩ met follows => ?_
  cases step with
  | read count => exact follows_read lawful follows count
  | operation done =>
    refine follows_operation lawful glyph (fun bytes => stores _ met done bytes rfl) ?_ follows
    exact fun bytes putting => undisturbed _ met bytes (congrArg Step.operation putting)

end Reader

end GlyphShelf.Shelf

import GlyphShelf.Proofs.Runs

/-!
# Frames

A frame says what a state may differ in from an earlier one. An action respects a frame if the
state it leaves is always one that the frame allows, however the action ends and whatever state
it starts from. So a statement on frames speaks of failures as well as of successes, of damaged
rings as well as of sound ones.

Doing nothing respects every frame, and so do two actions in a row that both respect it. The
rules below follow the ways in which actions are put together; a device enters through its
single operations only.
-/

namespace GlyphShelf

variable {ε σ τ η α β : Type}

/-- The state that an action leaves, also after a failure. -/
def stateAfter (act : EStateM ε σ α) (s : σ) : σ :=
  match act s with
  | .ok _ s' => s'
  | .error _ s' => s'

theorem Runs.stateAfter_eq {act : EStateM ε σ α} {result : Except ε α} {s s' : σ}
    (run : Runs act s result s') : stateAfter act s = s' := by
  unfold Runs at run
  rw [stateAfter, run]
  cases result <;> rfl

theorem stateAfter_congr {act act' : EStateM ε σ α} {s : σ} (same : act s = act' s) :
    stateAfter act s = stateAfter act' s := by
  rw [stateAfter, stateAfter, same]

theorem step_snd (act : Action σ α) (s : σ) : (act.step s).2 = stateAfter act s := by
  unfold Action.step stateAfter
  cases act s <;> rfl

theorem exists_runs (act : EStateM ε σ α) (s : σ) :
    ∃ result, Runs act s result (stateAfter act s) := by
  unfold Runs stateAfter
  cases act s with
  | ok a s' => exact ⟨.ok a, rfl⟩
  | error e s' => exact ⟨.error e, rfl⟩

/-- An answer that is computed is that of a run. -/
theorem runs_of_step {act : Action σ α} {result : Except Failure α} {s : σ}
    (answer : (act.step s).1 = result) : Runs act s result (stateAfter act s) := by
  obtain ⟨result', run⟩ := exists_runs act s
  rw [run.step_eq] at answer
  rwa [← answer]

/-- Two actions in a row end as the first one does, if it fails, and otherwise as the second
one does from where the first one got to. -/
theorem Runs.bind_cases {act : EStateM ε σ α} {next : α → EStateM ε σ β} {last : Except ε β}
    {s s' : σ} (run : Runs (act >>= next) s last s') :
    (∃ a s₁, Runs act s (.ok a) s₁ ∧ Runs (next a) s₁ last s') ∨
      ∃ e, Runs act s (.error e) s' ∧ last = .error e := by
  obtain ⟨result, first⟩ := exists_runs act s
  cases result with
  | ok a =>
    obtain ⟨last', rest⟩ := exists_runs (next a) (stateAfter act s)
    obtain ⟨rfl, rfl⟩ := run.deterministic (first.bind rest)
    exact .inl ⟨a, _, first, rest⟩
  | error e =>
    obtain ⟨rfl, rfl⟩ := run.deterministic first.bind_error
    exact .inr ⟨e, first, rfl⟩

/-- Two actions in a row succeed only if both do. -/
theorem Runs.bind_ok {act : EStateM ε σ α} {next : α → EStateM ε σ β} {b : β} {s s' : σ}
    (run : Runs (act >>= next) s (.ok b) s') :
    ∃ a s₁, Runs act s (.ok a) s₁ ∧ Runs (next a) s₁ (.ok b) s' := by
  rcases run.bind_cases with both | ⟨e, -, failed⟩
  · exact both
  · cases failed

/-- Where an action is part of an examination, the only breach is that it failed. -/
theorem Examination.failed_of_ofAction {act : Action σ α} {s s' : σ} {breach : Breach}
    (run : Runs (Examination.ofAction act) s (.error breach) s') : ∃ e, breach = .failed e := by
  obtain ⟨result, acting⟩ := exists_runs act s
  have same := (run.deterministic (Examination.runs_ofAction_mapError acting)).1
  cases result with
  | ok a => cases same
  | error e =>
    cases same
    exact ⟨e, rfl⟩

/-- Two actions in a row may be replaced where the first one starts and where it gets to. -/
theorem bind_congr_run {act act' : EStateM ε σ α} {next next' : α → EStateM ε σ β} {s : σ}
    (first : act s = act' s)
    (rest : ∀ a s₁, Runs act s (.ok a) s₁ → next a s₁ = next' a s₁) :
    (act >>= next) s = (act' >>= next') s := by
  change EStateM.bind act next s = EStateM.bind act' next' s
  rw [EStateM.bind, EStateM.bind, ← first]
  cases ended : act s with
  | ok a s₁ => exact rest a s₁ ended
  | error e s₁ => rfl

/-- The second of two actions is what counts, unless the first one fails. -/
theorem stateAfter_bind (act : EStateM ε σ α) (next : α → EStateM ε σ β) (s : σ) :
    stateAfter (act >>= next) s = stateAfter act s ∨ ∃ a s₁, Runs act s (.ok a) s₁ ∧
      stateAfter (act >>= next) s = stateAfter (next a) s₁ := by
  obtain ⟨result, run⟩ := exists_runs (act >>= next) s
  rcases run.bind_cases with ⟨a, s₁, begun, ended⟩ | ⟨e, failed, -⟩
  · exact .inr ⟨a, s₁, begun, ended.stateAfter_eq.symm⟩
  · exact .inl failed.stateAfter_eq.symm

theorem stateAfter_bind_pure (act : EStateM ε σ α) (f : α → β) (s : σ) :
    stateAfter (do let a ← act; pure (f a)) s = stateAfter act s := by
  obtain ⟨result, run⟩ := exists_runs act s
  exact (run.bind_pure f).stateAfter_eq

theorem stateAfter_onFirst (act : Action σ α) (s : σ) (t : τ) :
    stateAfter (Action.onFirst act) (s, t) = (stateAfter act s, t) := by
  obtain ⟨result, run⟩ := exists_runs act s
  exact (Action.runs_onFirst run t).stateAfter_eq

theorem Runs.of_onFirst {act : Action σ α} {result : Except Failure α} {s s' : σ × τ}
    (run : Runs (Action.onFirst act) s result s') : Runs act s.1 result s'.1 ∧ s'.2 = s.2 := by
  obtain ⟨result', first⟩ := exists_runs act s.1
  obtain ⟨rfl, rfl⟩ := run.deterministic (Action.runs_onFirst first s.2)
  exact ⟨first, rfl⟩

/-- An action that is run on a second component of its own, for what becomes of that. -/
def Action.keeping (act : Action (σ × τ) α) (t : τ) : Action σ τ := fun s =>
  match act (s, t) with
  | .ok _ (s, t') => .ok t' s
  | .error e (s, _) => .error e s

theorem Action.runs_keeping {act : Action (σ × τ) α} {t : τ} {result : Except Failure α}
    {last : σ × τ} (acting : Runs act (s, t) result last) :
    Runs (act.keeping t) s (result.map fun _ => last.2) last.1 := by
  unfold Runs at *
  rw [Action.keeping, acting]
  cases result <;> rfl

/-- What may differ between a state and a later one. -/
structure FrameCondition (σ : Type) where
  allows : σ → σ → Prop
  refl : ∀ s, allows s s
  trans : ∀ {s₁ s₂ s₃}, allows s₁ s₂ → allows s₂ s₃ → allows s₁ s₃

/-- A frame for the first component of a state; the second may differ in everything. -/
def FrameCondition.onFirst (frame : FrameCondition σ) : FrameCondition (σ × τ) where
  allows s s' := frame.allows s.1 s'.1
  refl s := frame.refl s.1
  trans first second := frame.trans first second

def FrameCondition.onSecond (frame : FrameCondition τ) : FrameCondition (σ × τ) where
  allows s s' := frame.allows s.2 s'.2
  refl s := frame.refl s.2
  trans first second := frame.trans first second

/-- It is enough that the second action respects the frame where the first one got to. -/
theorem FrameCondition.allows_bind (frame : FrameCondition σ) {act : EStateM ε σ α}
    {next : α → EStateM ε σ β} {s : σ} (first : frame.allows s (stateAfter act s))
    (rest : ∀ a s₁, Runs act s (.ok a) s₁ → frame.allows s₁ (stateAfter (next a) s₁)) :
    frame.allows s (stateAfter (act >>= next) s) := by
  rcases stateAfter_bind act next s with failed | ⟨a, s₁, run, ended⟩
  · rwa [failed]
  · rw [run.stateAfter_eq] at first
    rw [ended]
    exact frame.trans first (rest a s₁ run)

/-- The frame in which an invariant, if it holds, is not lost. -/
def preserving (invariant : σ → Prop) : FrameCondition σ where
  allows s s' := invariant s → invariant s'
  refl _ := id
  trans first second := second ∘ first

/-- From whatever state and with whatever result, the action leaves a state that the frame
allows. -/
def Respects (frame : FrameCondition σ) (act : EStateM ε σ α) : Prop :=
  ∀ s, frame.allows s (stateAfter act s)

namespace Respects

variable {frame other : FrameCondition σ} {act : EStateM ε σ α} {next : α → EStateM ε σ β}

theorem run (respects : Respects frame act) {result : Except ε α} {s s' : σ}
    (run : Runs act s result s') : frame.allows s s' :=
  run.stateAfter_eq ▸ respects s

theorem of_runs (all : ∀ {s result s'}, Runs act s result s' → frame.allows s s') :
    Respects frame act := by
  intro s
  obtain ⟨result, run⟩ := exists_runs act s
  exact all run

theorem mono (respects : Respects frame act)
    (weaker : ∀ s s', frame.allows s s' → other.allows s s') : Respects other act :=
  fun s => weaker s _ (respects s)

theorem pure (a : α) : Respects frame (Pure.pure a : EStateM ε σ α) := fun s => frame.refl s

theorem throw (e : ε) : Respects frame (MonadExcept.throw e : EStateM ε σ α) :=
  fun s => frame.refl s

theorem throw_bind (e : ε) (next : α → EStateM ε σ β) :
    Respects frame (MonadExcept.throw e >>= next) :=
  fun s => frame.refl s

theorem bind (first : Respects frame act) (rest : ∀ a, Respects frame (next a)) :
    Respects frame (act >>= next) :=
  fun s => frame.allows_bind (first s) fun a s₁ _ => rest a s₁

theorem ite {condition : Prop} [Decidable condition] {act' : EStateM ε σ α}
    (positive : condition → Respects frame act) (negative : ¬ condition → Respects frame act') :
    Respects frame (if condition then act else act') := by
  split
  · exact positive ‹_›
  · exact negative ‹_›

end Respects

/-! ## Ways of putting actions together -/

section

variable {frame : FrameCondition σ} {act : Action σ α}

theorem respects_ofExcept (result : Except Failure α) :
    Respects frame (Action.ofExcept result) := by
  cases result with
  | ok a => exact .pure a
  | error e => exact .throw e

theorem respects_onFirst (respects : Respects frame act) :
    Respects (frame.onFirst (τ := τ)) (Action.onFirst act) := by
  rintro ⟨s, t⟩
  rw [stateAfter_onFirst]
  exact respects s

/-- What is done to the first component leaves the second as it is. -/
theorem respects_onSecond (frame : FrameCondition τ) (act : Action σ α) :
    Respects frame.onSecond (Action.onFirst act) := by
  rintro ⟨s, t⟩
  rw [stateAfter_onFirst]
  exact frame.refl t

theorem stateAfter_allowAbsence (act : Action σ Unit) (s : σ) :
    stateAfter (Action.allowAbsence act) s = stateAfter act s := by
  unfold stateAfter Action.allowAbsence
  cases act s with
  | ok _ s' => rfl
  | error e s' => cases e <;> rfl

theorem respects_allowAbsence {act : Action σ Unit} (respects : Respects frame act) :
    Respects frame (Action.allowAbsence act) := by
  intro s
  rw [stateAfter_allowAbsence]
  exact respects s

theorem respects_orCleanUp {cleanUp : Action σ Unit} (respects : Respects frame act)
    (cleaning : Respects frame cleanUp) : Respects frame (Action.orCleanUp act cleanUp) := by
  intro s
  obtain ⟨result, run⟩ := exists_runs act s
  cases result with
  | ok a =>
    rw [(Action.runs_orCleanUp run).stateAfter_eq]
    exact respects s
  | error e =>
    obtain ⟨cleaned, clean⟩ := exists_runs cleanUp (stateAfter act s)
    rw [(Action.runs_orCleanUp_of_error run clean).stateAfter_eq]
    exact frame.trans (respects s) (cleaning _)

theorem respects_ofAction (respects : Respects frame act) :
    Respects frame (Examination.ofAction act) := by
  intro s
  have same : stateAfter (Examination.ofAction act) s = stateAfter act s := by
    unfold stateAfter Examination.ofAction
    cases act s <;> rfl
  rw [same]
  exact respects s

end

/-! ## Records -/

namespace Device

variable [Device σ η] {frame : FrameCondition σ} {name : String}

theorem respects_hasRecord
    (opening : Respects frame (openRecord name .readOnly : Action σ η))
    (closing : ∀ record : η, Respects frame (close record : Action σ Unit)) :
    Respects frame (hasRecord name : Action σ Bool) := by
  intro s
  obtain ⟨result, opened⟩ := exists_runs (openRecord name .readOnly : Action σ η) s
  cases result with
  | ok record =>
    obtain ⟨closed, close⟩ :=
      exists_runs (close record : Action σ Unit) (stateAfter (openRecord name .readOnly) s)
    rw [(runs_hasRecord_of_present opened close).stateAfter_eq]
    exact frame.trans (opening s) (closing record _)
  | error e =>
    by_cases absent : e = .notFound
    · subst absent
      rw [(runs_hasRecord_of_absent opened).stateAfter_eq]
      exact opening s
    · rw [(runs_hasRecord_of_error opened absent).stateAfter_eq]
      exact opening s

theorem respects_readUpTo {open_ : FrameCondition (σ × η)}
    (reading : ∀ count, Respects open_ (read count : Action (σ × η) Bytes)) (wanted reads : Nat)
    (filled : Bytes) : Respects open_ (readUpTo wanted reads filled : Action (σ × η) Bytes) := by
  induction reads generalizing filled with
  | zero => exact .pure filled
  | succ reads ih =>
    unfold readUpTo
    refine .ite (fun _ => .pure filled) fun _ => .bind (reading _) fun more => ?_
    exact .ite (fun _ => .throw _) fun _ => ih _

theorem respects_readChunks {open_ : FrameCondition (σ × η)}
    (reading : ∀ count, Respects open_ (read count : Action (σ × η) Bytes)) (reads : Nat)
    (chunks : List Bytes) : Respects open_ (readChunks reads chunks : Action (σ × η) Bytes) := by
  induction reads generalizing chunks with
  | zero => exact .pure _
  | succ reads ih =>
    unfold readChunks
    exact .bind (reading _) fun chunk => .ite (fun _ => .pure _) fun _ => ih _

theorem respects_readExact {open_ : FrameCondition (σ × η)}
    (reading : ∀ count, Respects open_ (read count : Action (σ × η) Bytes)) (count : Nat) :
    Respects open_ (readExact count : Action (σ × η) Bytes) :=
  respects_readUpTo reading count count []

theorem respects_readToEnd {open_ : FrameCondition (σ × η)}
    (reading : ∀ count, Respects open_ (read count : Action (σ × η) Bytes)) :
    Respects open_ (readToEnd : Action (σ × η) Bytes) :=
  fun s => respects_readChunks reading (size s.1 s.2 + 1) [] s

/-- Only what is done to the record just opened matters. -/
theorem respects_withRecord {access : Access} {work : Action (σ × η) α}
    (opening : Respects frame (openRecord name access : Action σ η))
    (working : ∀ s record s₁, Runs (openRecord name access) s (.ok record) s₁ →
      frame.allows s₁ (stateAfter work (s₁, record)).1)
    (closing : ∀ record : η, Respects frame (close record : Action σ Unit)) :
    Respects frame (withRecord name access work) := by
  intro s
  obtain ⟨result, opened⟩ := exists_runs (openRecord name access : Action σ η) s
  cases result with
  | error e =>
    rw [(runs_withRecord_of_unopened opened).stateAfter_eq]
    exact opening s
  | ok record =>
    have worked := frame.trans (opening s) (working _ _ _ opened)
    obtain ⟨done, run⟩ := exists_runs work (stateAfter (openRecord name access) s, record)
    obtain ⟨closed, close⟩ := exists_runs (close (stateAfter work
      (stateAfter (openRecord name access) s, record)).2 : Action σ Unit) (stateAfter work
      (stateAfter (openRecord name access) s, record)).1
    cases done with
    | ok a =>
      rw [(runs_withRecord_of_closed opened run close).stateAfter_eq]
      exact frame.trans worked (closing _ _)
    | error e =>
      rw [(runs_withRecord_of_failed opened run close).stateAfter_eq]
      exact frame.trans worked (closing _ _)

theorem respects_takeAll (record : η)
    (reading : ∀ count, Respects frame.onFirst (read count : Action (σ × η) Bytes))
    (closing : ∀ record : η, Respects frame (close record : Action σ Unit)) :
    Respects frame (takeAll record : Action σ Bytes) := by
  intro s
  have read : frame.allows s (stateAfter readToEnd (s, record)).1 :=
    respects_readToEnd reading (s, record)
  obtain ⟨result, run⟩ := exists_runs (readToEnd : Action (σ × η) Bytes) (s, record)
  generalize stateAfter readToEnd (s, record) = last at read run
  obtain ⟨closed, close⟩ := exists_runs (close last.2 : Action σ Unit) last.1
  have whole := frame.trans read (closing last.2 last.1)
  unfold Runs at run close
  unfold stateAfter takeAll
  rw [run]
  cases result with
  | error e => exact read
  | ok bytes =>
    dsimp only
    rw [close]
    cases closed <;> exact whole

end Device

end GlyphShelf

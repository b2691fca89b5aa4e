import GlyphShelf.Proofs.Frames

/-!
# Failures that are reported

A trap is a failure that waits in a state. An action that runs into it may come back with another
failure, or with none at all if it drops the failure of one of its parts on the way. The two
notions below exclude the latter. An action tells of the trap if it fails with exactly what the
trap says. It reports the trap if it may also fail with what it would have failed with anyway:
then the trap was met while cleaning up.

Reporting is kept by all ways of putting actions together. Where a failure of a certain kind is
taken for a success, as the absence of a record may be, the part has to tell of the trap, and the
trap must not say that a record is absent.
-/

namespace GlyphShelf

variable {ε σ τ η α β : Type}

/-- A failure that waits in some states. -/
structure Trap (σ : Type) where
  armed : σ → Prop
  /-- The state with the failure taken away. -/
  disarm : σ → σ

namespace Trap

def onFirst (trap : Trap σ) : Trap (σ × τ) where
  armed s := trap.armed s.1
  disarm s := (trap.disarm s.1, s.2)

/-- The failure still waits, and so far all went as it does without it. -/
def Spares (trap : Trap σ) (act : EStateM ε σ α) (s : σ) (result : Except ε α) (s' : σ) : Prop :=
  trap.armed s' ∧ Runs act (trap.disarm s) result (trap.disarm s')

def TellsFrom (trap : Trap σ) (told : ε) (s : σ) (act : EStateM ε σ α) : Prop :=
  ∀ result s', Runs act s result s' → trap.Spares act s result s' ∨ result = .error told

/-- Wherever the trap is armed, the action is spared or fails with what the trap says. -/
def Tells (trap : Trap σ) (told : ε) (act : EStateM ε σ α) : Prop :=
  ∀ s, trap.armed s → trap.TellsFrom told s act

/-- Wherever the trap is armed, the action is spared or fails, with what the trap says or with
what it fails with anyway. -/
def Reports (trap : Trap σ) (told : ε) (act : EStateM ε σ α) : Prop :=
  ∀ s, trap.armed s → ∀ result s', Runs act s result s' →
    trap.Spares act s result s' ∨ result = .error told ∨
      ∃ e t, result = .error e ∧ Runs act (trap.disarm s) (.error e) t

variable {trap : Trap σ} {told : ε} {act : EStateM ε σ α} {next : α → EStateM ε σ β} {s : σ}

/-! ## Telling -/

namespace TellsFrom

theorem pure (armed : trap.armed s) (a : α) :
    trap.TellsFrom told s (Pure.pure a : EStateM ε σ α) := by
  intro result s' run
  obtain ⟨rfl, rfl⟩ := run.deterministic (.pure a s)
  exact .inl ⟨armed, .pure a _⟩

theorem bind (first : trap.TellsFrom told s act)
    (rest : ∀ a s₁, trap.armed s₁ → Runs act (trap.disarm s) (.ok a) (trap.disarm s₁) →
      trap.TellsFrom told s₁ (next a)) : trap.TellsFrom told s (act >>= next) := by
  intro last s' run
  rcases run.bind_cases with ⟨a, s₁, begun, ended⟩ | ⟨e, failing, rfl⟩
  · rcases first _ _ begun with ⟨armed₁, free⟩ | failed
    · exact (rest a s₁ armed₁ free _ _ ended).imp_left
        fun spared => ⟨spared.1, free.bind spared.2⟩
    · cases failed
  · rcases first _ _ failing with ⟨armed', free⟩ | failed
    · exact .inl ⟨armed', free.bind_error⟩
    · exact .inr (congrArg _ (Except.error.inj failed))

/-- What the first action fails with anyway, both of them fail with. -/
theorem bind_of_failed {e : ε} {t : σ} (first : trap.TellsFrom told s act)
    (free : Runs act (trap.disarm s) (.error e) t) : trap.TellsFrom told s (act >>= next) :=
  first.bind fun _ _ _ succeeding => nomatch (succeeding.deterministic free).1

/-- An action that is refused before anything is done is spared. -/
theorem of_refused {e : ε} (armed : trap.armed s) (refused : ∀ s, Runs act s (.error e) s) :
    trap.TellsFrom told s act := by
  intro result s' run
  obtain ⟨rfl, rfl⟩ := run.deterministic (refused s)
  exact .inl ⟨armed, refused _⟩

end TellsFrom

/-- Where the action succeeds without the trap it cannot fail with anything but what the trap
says. -/
theorem Reports.tellsFrom (reports : trap.Reports told act) (armed : trap.armed s) {a : α} {t : σ}
    (free : Runs act (trap.disarm s) (.ok a) t) : trap.TellsFrom told s act := by
  intro result s' run
  rcases reports s armed result s' run with spared | failed | ⟨e, t', rfl, failing⟩
  · exact .inl spared
  · exact .inr failed
  · cases (failing.deterministic free).1

namespace Tells

theorem reports (tells : trap.Tells told act) : trap.Reports told act :=
  fun s armed result s' run => (tells s armed result s' run).imp_right .inl

theorem pure (a : α) : trap.Tells told (Pure.pure a : EStateM ε σ α) :=
  fun _ armed => .pure armed a

theorem throw (e : ε) : trap.Tells told (MonadExcept.throw e : EStateM ε σ α) := by
  intro s armed result s' run
  obtain ⟨rfl, rfl⟩ := run.deterministic (.throw e s)
  exact .inl ⟨armed, .throw e _⟩

theorem bind (first : trap.Tells told act) (rest : ∀ a, trap.Tells told (next a)) :
    trap.Tells told (act >>= next) :=
  fun s armed => (first s armed).bind fun a s₁ armed₁ _ => rest a s₁ armed₁

theorem ite {condition : Prop} [Decidable condition] {act' : EStateM ε σ α}
    (positive : trap.Tells told act) (negative : trap.Tells told act') :
    trap.Tells told (if condition then act else act') := by
  split
  · exact positive
  · exact negative

/-- An action may depend on what the trap has no part in. -/
theorem depending {f : β → EStateM ε σ α} (g : σ → β) (same : ∀ s, g (trap.disarm s) = g s)
    (each : ∀ b, trap.Tells told (f b)) : trap.Tells told fun s => f (g s) s := by
  intro s armed result s' run
  rcases each (g s) s armed result s' run with ⟨armed', free⟩ | failed
  · refine .inl ⟨armed', ?_⟩
    rw [← same s] at free
    exact free
  · exact .inr failed

end Tells

/-! ## Reporting -/

namespace Reports

theorem pure (a : α) : trap.Reports told (Pure.pure a : EStateM ε σ α) := (Tells.pure a).reports

theorem throw (e : ε) : trap.Reports told (MonadExcept.throw e : EStateM ε σ α) :=
  (Tells.throw e).reports

theorem throw_bind (e : ε) (next : α → EStateM ε σ β) :
    trap.Reports told (MonadExcept.throw e >>= next) := by
  intro s armed result s' run
  have failing : Runs (MonadExcept.throw e >>= next) s (.error e) s := (Runs.throw e s).bind_error
  obtain ⟨rfl, rfl⟩ := run.deterministic failing
  exact .inl ⟨armed, (Runs.throw e _).bind_error⟩

theorem bind (first : trap.Reports told act) (rest : ∀ a, trap.Reports told (next a)) :
    trap.Reports told (act >>= next) := by
  intro s armed last s' run
  rcases run.bind_cases with ⟨a, s₁, begun, ended⟩ | ⟨e, failing, rfl⟩
  · rcases first s armed _ _ begun with ⟨armed₁, free⟩ | failed | ⟨e, t, failed, -⟩
    · rcases rest a s₁ armed₁ _ _ ended with ⟨armed', free'⟩ | failed | ⟨e, t, failed, free'⟩
      · exact .inl ⟨armed', free.bind free'⟩
      · exact .inr (.inl failed)
      · exact .inr (.inr ⟨e, t, failed, free.bind free'⟩)
    · cases failed
    · cases failed
  · rcases first s armed _ _ failing with ⟨armed', free⟩ | failed | ⟨e', t, failed, free⟩
    · exact .inl ⟨armed', free.bind_error⟩
    · exact .inr (.inl (congrArg _ (Except.error.inj failed)))
    · exact .inr (.inr ⟨e', t, congrArg _ (Except.error.inj failed), free.bind_error⟩)

theorem ite {condition : Prop} [Decidable condition] {act' : EStateM ε σ α}
    (positive : trap.Reports told act) (negative : trap.Reports told act') :
    trap.Reports told (if condition then act else act') := by
  split
  · exact positive
  · exact negative

theorem depending {f : β → EStateM ε σ α} (g : σ → β) (same : ∀ s, g (trap.disarm s) = g s)
    (each : ∀ b, trap.Reports told (f b)) : trap.Reports told fun s => f (g s) s := by
  intro s armed result s' run
  rcases each (g s) s armed result s' run with ⟨armed', free⟩ | failed | ⟨e, t, failed, free⟩
  · refine .inl ⟨armed', ?_⟩
    rw [← same s] at free
    exact free
  · exact .inr (.inl failed)
  · refine .inr (.inr ⟨e, t, failed, ?_⟩)
    rw [← same s] at free
    exact free

/-- So an action that reports the trap cannot succeed and have run into it. -/
theorem exists_error (reports : trap.Reports told act) (armed : trap.armed s)
    {result : Except ε α} {s' : σ} (run : Runs act s result s') (sprung : ¬ trap.armed s') :
    ∃ e, result = .error e := by
  rcases reports s armed result s' run with spared | failed | ⟨e, -, failed, -⟩
  · exact absurd spared.1 sprung
  · exact ⟨told, failed⟩
  · exact ⟨e, failed⟩

end Reports

end Trap

/-! ## Ways of putting actions together -/

section

variable {trap : Trap σ} {told : Failure} {act : Action σ α} {s : σ}

theorem tells_ofExcept (result : Except Failure α) :
    trap.Tells told (Action.ofExcept result) := by
  cases result with
  | ok a => exact .pure a
  | error e => exact .throw e

theorem tellsFrom_onFirst (tells : trap.TellsFrom told s act) (t : τ) :
    trap.onFirst.TellsFrom told (s, t) (Action.onFirst act) := by
  rintro result ⟨s', t'⟩ run
  obtain ⟨first, same⟩ := run.of_onFirst
  obtain rfl : t' = t := same
  exact (tells result s' first).imp_left fun spared => ⟨spared.1, Action.runs_onFirst spared.2 t'⟩

theorem tells_onFirst (tells : trap.Tells told act) :
    trap.onFirst.Tells told (Action.onFirst (τ := τ) act) :=
  fun s armed => tellsFrom_onFirst (tells s.1 armed) s.2

theorem reports_onFirst (reports : trap.Reports told act) :
    trap.onFirst.Reports told (Action.onFirst (τ := τ) act) := by
  rintro ⟨s, t⟩ armed result ⟨s', t'⟩ run
  obtain ⟨first, same⟩ := run.of_onFirst
  obtain rfl : t' = t := same
  rcases reports s armed result s' first with ⟨armed', free⟩ | failed | ⟨e, u, failed, free⟩
  · exact .inl ⟨armed', Action.runs_onFirst free t'⟩
  · exact .inr (.inl failed)
  · exact .inr (.inr ⟨e, (u, t'), failed, Action.runs_onFirst free t'⟩)

/-- Looking at the second component or changing it has nothing to do with the trap. -/
theorem tells_second (f : τ → α) (g : τ → τ) :
    (trap.onFirst (τ := τ)).Tells told
      (fun s => .ok (f s.2) (s.1, g s.2) : Action (σ × τ) α) := by
  intro s armed result s' run
  have here : Runs (fun s => .ok (f s.2) (s.1, g s.2) : Action (σ × τ) α) s (.ok (f s.2))
    (s.1, g s.2) := rfl
  obtain ⟨rfl, rfl⟩ := run.deterministic here
  exact .inl ⟨armed, rfl⟩

/-- The trap does not say that a record is absent, so it is not taken for a success. -/
theorem tells_allowAbsence {act : Action σ Unit} (distinct : told ≠ .notFound)
    (tells : trap.Tells told act) : trap.Tells told (Action.allowAbsence act) := by
  intro s armed result s' run
  obtain ⟨result', acting⟩ := exists_runs act s
  rcases tells s armed _ _ acting with ⟨armed', free⟩ | rfl
  · left
    cases result' with
    | ok _ =>
      obtain ⟨rfl, rfl⟩ := run.deterministic (Action.runs_allowAbsence acting)
      exact ⟨armed', Action.runs_allowAbsence free⟩
    | error e =>
      by_cases absent : e = .notFound
      · subst absent
        obtain ⟨rfl, rfl⟩ := run.deterministic (Action.runs_allowAbsence_of_absent acting)
        exact ⟨armed', Action.runs_allowAbsence_of_absent free⟩
      · obtain ⟨rfl, rfl⟩ := run.deterministic (Action.runs_allowAbsence_of_error absent acting)
        exact ⟨armed', Action.runs_allowAbsence_of_error absent free⟩
  · exact .inr (run.deterministic (Action.runs_allowAbsence_of_error distinct acting)).1

/-- What cleaning up runs into is not reported, but the failure that made it necessary is. -/
theorem reports_orCleanUp {cleanUp : Action σ Unit} (reports : trap.Reports told act)
    (cleaning : trap.Reports told cleanUp) : trap.Reports told (Action.orCleanUp act cleanUp) := by
  intro s armed result s' run
  obtain ⟨result', acting⟩ := exists_runs act s
  cases result' with
  | ok a =>
    obtain ⟨rfl, rfl⟩ := run.deterministic (Action.runs_orCleanUp acting)
    rcases reports s armed _ _ acting with ⟨armed', free⟩ | failed | ⟨e, t, failed, -⟩
    · exact .inl ⟨armed', Action.runs_orCleanUp free⟩
    · cases failed
    · cases failed
  | error e =>
    obtain ⟨cleaned, clean⟩ := exists_runs cleanUp (stateAfter act s)
    obtain ⟨rfl, rfl⟩ := run.deterministic (Action.runs_orCleanUp_of_error acting clean)
    have doomed {t : σ} (free : Runs act (trap.disarm s) (.error e) t) :
        ∃ u, Runs (Action.orCleanUp act cleanUp) (trap.disarm s) (.error e) u := by
      obtain ⟨_, clean'⟩ := exists_runs cleanUp t
      exact ⟨_, Action.runs_orCleanUp_of_error free clean'⟩
    rcases reports s armed _ _ acting with ⟨armed₁, free⟩ | failed | ⟨e', t, failed, free⟩
    · rcases cleaning _ armed₁ _ _ clean with ⟨armed', free'⟩ | _ | _
      · exact .inl ⟨armed', Action.runs_orCleanUp_of_error free free'⟩
      all_goals
        obtain ⟨u, free'⟩ := doomed free
        exact .inr (.inr ⟨e, u, rfl, free'⟩)
    · exact .inr (.inl (congrArg _ (Except.error.inj failed)))
    · obtain rfl := Except.error.inj failed
      obtain ⟨u, free'⟩ := doomed free
      exact .inr (.inr ⟨e, u, rfl, free'⟩)

theorem reports_keeping {act : Action (σ × τ) α} (reports : trap.onFirst.Reports told act) (t : τ) :
    trap.Reports told (act.keeping t) := by
  intro s armed result s' run
  obtain ⟨result', acting⟩ := exists_runs act (s, t)
  obtain ⟨rfl, rfl⟩ := run.deterministic (Action.runs_keeping acting)
  rcases reports (s, t) armed _ _ acting with ⟨armed', free⟩ | rfl | ⟨e, last, rfl, free⟩
  · exact .inl ⟨armed', Action.runs_keeping free⟩
  · exact .inr (.inl rfl)
  · exact .inr (.inr ⟨e, last.1, rfl, Action.runs_keeping free⟩)

theorem reports_ofAction (reports : trap.Reports told act) :
    trap.Reports (.failed told) (Examination.ofAction act) := by
  intro s armed result s' run
  obtain ⟨result', acting⟩ := exists_runs act s
  obtain ⟨rfl, rfl⟩ := run.deterministic (Examination.runs_ofAction_mapError acting)
  rcases reports s armed _ _ acting with ⟨armed', free⟩ | rfl | ⟨e, t, rfl, free⟩
  · exact .inl ⟨armed', Examination.runs_ofAction_mapError free⟩
  · exact .inr (.inl rfl)
  · exact .inr (.inr ⟨.failed e, t, rfl, Examination.runs_ofAction_mapError free⟩)

end

/-! ## Records -/

namespace Device

variable [Device σ η] {trap : Trap σ} {told : Failure} {name : String} {access : Access}
variable {opened record : η} {bytes : Bytes} {e : Failure} {s s₁ s₂ : σ}

theorem tells_hasRecord (distinct : told ≠ .notFound)
    (opening : trap.Tells told (openRecord name .readOnly : Action σ η))
    (closing : ∀ record : η, trap.Tells told (close record : Action σ Unit)) :
    trap.Tells told (hasRecord name : Action σ Bool) := by
  intro s armed result s' run
  obtain ⟨result', opened⟩ := exists_runs (openRecord name .readOnly : Action σ η) s
  rcases opening s armed _ _ opened with ⟨armed₁, free⟩ | rfl
  · cases result' with
    | ok record =>
      obtain ⟨closed, close⟩ :=
        exists_runs (close record : Action σ Unit) (stateAfter (openRecord name .readOnly) s)
      obtain ⟨rfl, rfl⟩ := run.deterministic (runs_hasRecord_of_present opened close)
      rcases closing record _ armed₁ _ _ close with ⟨armed', free'⟩ | rfl
      · exact .inl ⟨armed', runs_hasRecord_of_present free free'⟩
      · exact .inr rfl
    | error e =>
      left
      by_cases absent : e = .notFound
      · subst absent
        obtain ⟨rfl, rfl⟩ := run.deterministic (runs_hasRecord_of_absent opened)
        exact ⟨armed₁, runs_hasRecord_of_absent free⟩
      · obtain ⟨rfl, rfl⟩ := run.deterministic (runs_hasRecord_of_error opened absent)
        exact ⟨armed₁, runs_hasRecord_of_error free absent⟩
  · exact .inr (run.deterministic (runs_hasRecord_of_error opened distinct)).1

theorem tells_readUpTo {open_ : Trap (σ × η)}
    (reading : ∀ count, open_.Tells told (read count : Action (σ × η) Bytes)) (wanted reads : Nat)
    (filled : Bytes) : open_.Tells told (readUpTo wanted reads filled : Action (σ × η) Bytes) := by
  induction reads generalizing filled with
  | zero => exact .pure filled
  | succ reads ih =>
    unfold readUpTo
    exact .ite (.pure filled) (.bind (reading _) fun more => .ite (.throw _) (ih _))

theorem tells_readChunks {open_ : Trap (σ × η)}
    (reading : ∀ count, open_.Tells told (read count : Action (σ × η) Bytes)) (reads : Nat)
    (chunks : List Bytes) : open_.Tells told (readChunks reads chunks : Action (σ × η) Bytes) := by
  induction reads generalizing chunks with
  | zero => exact .pure _
  | succ reads ih =>
    unfold readChunks
    exact .bind (reading _) fun chunk => .ite (.pure _) (ih _)

/-- How many reads are enough does not depend on the trap if the size of a record does not. -/
theorem tells_readToEnd (sizing : ∀ s (record : η), size (trap.disarm s) record = size s record)
    (reading : ∀ count, trap.onFirst.Tells told (read count : Action (σ × η) Bytes)) :
    trap.onFirst.Tells told (readToEnd : Action (σ × η) Bytes) :=
  .depending (f := fun reads => readChunks reads []) (fun s => size s.1 s.2 + 1)
    (fun s => congrArg (· + 1) (sizing s.1 s.2)) fun reads => tells_readChunks reading reads []

/-- A record that cannot be opened anyway is not closed either. -/
theorem tellsFrom_withRecord_of_unopened {work : Action (σ × η) α} {t : σ}
    (opening : trap.TellsFrom told s (openRecord name access : Action σ η))
    (free : Runs (openRecord name access : Action σ η) (trap.disarm s) (.error e) t) :
    trap.TellsFrom told s (withRecord name access work) := by
  intro result s' run
  obtain ⟨result', opened⟩ := exists_runs (openRecord name access : Action σ η) s
  rcases opening _ _ opened with ⟨armed', free'⟩ | rfl
  · obtain ⟨rfl, -⟩ := free'.deterministic free
    obtain ⟨rfl, rfl⟩ := run.deterministic (runs_withRecord_of_unopened opened)
    exact .inl ⟨armed', runs_withRecord_of_unopened free'⟩
  · exact .inr (run.deterministic (runs_withRecord_of_unopened opened)).1

/-- A record is closed also after a failure; what closing it says then is not reported. -/
theorem reports_withRecord {work : Action (σ × η) α}
    (opening : trap.Tells told (openRecord name access : Action σ η))
    (working : trap.onFirst.Reports told work)
    (closing : ∀ record : η, trap.Tells told (close record : Action σ Unit)) :
    trap.Reports told (withRecord name access work) := by
  intro s armed result s' run
  obtain ⟨result', opened⟩ := exists_runs (openRecord name access : Action σ η) s
  generalize stateAfter (openRecord name access) s = s₁ at opened
  rcases (opening s armed _ _ opened).symm with rfl | ⟨armed₁, free₁⟩
  · exact .inr (.inl (run.deterministic (runs_withRecord_of_unopened opened)).1)
  cases result' with
  | error e =>
    obtain ⟨rfl, rfl⟩ := run.deterministic (runs_withRecord_of_unopened opened)
    exact .inl ⟨armed₁, runs_withRecord_of_unopened free₁⟩
  | ok record =>
    obtain ⟨done, worked⟩ := exists_runs work (s₁, record)
    generalize stateAfter work (s₁, record) = last at worked
    obtain ⟨s₂, record'⟩ := last
    obtain ⟨closed, close⟩ := exists_runs (close record' : Action σ Unit) s₂
    have told_or_spared := working (s₁, record) armed₁ _ _ worked
    cases done with
    | ok a =>
      obtain ⟨rfl, rfl⟩ := run.deterministic (runs_withRecord_of_closed opened worked close)
      rcases told_or_spared with ⟨armed₂, free₂⟩ | failed | ⟨e, t, failed, -⟩
      · rcases closing record' s₂ armed₂ _ _ close with ⟨armed', free'⟩ | rfl
        · exact .inl ⟨armed', runs_withRecord_of_closed free₁ free₂ free'⟩
        · exact .inr (.inl rfl)
      · cases failed
      · cases failed
    | error e =>
      obtain ⟨rfl, rfl⟩ := run.deterministic (runs_withRecord_of_failed opened worked close)
      have doomed {t : σ × η} (free : Runs work (trap.disarm s₁, record) (.error e) t) :
          ∃ u, Runs (withRecord name access work) (trap.disarm s) (.error e) u := by
        obtain ⟨_, close'⟩ := exists_runs (Device.close t.2 : Action σ Unit) t.1
        exact ⟨_, runs_withRecord_of_failed free₁ free close'⟩
      rcases told_or_spared with ⟨armed₂, free₂⟩ | failed | ⟨e', t, failed, free₂⟩
      · rcases closing record' s₂ armed₂ _ _ close with ⟨armed', free'⟩ | _
        · exact .inl ⟨armed', runs_withRecord_of_failed free₁ free₂ free'⟩
        · obtain ⟨u, free'⟩ := doomed free₂
          exact .inr (.inr ⟨e, u, rfl, free'⟩)
      · exact .inr (.inl (congrArg _ (Except.error.inj failed)))
      · obtain rfl := Except.error.inj failed
        obtain ⟨u, free'⟩ := doomed free₂
        exact .inr (.inr ⟨e, u, rfl, free'⟩)

theorem runs_takeAll_of_read {closed : Except Failure Unit}
    (reading : Runs readToEnd (s, opened) (.ok bytes) (s₁, record))
    (closing : Runs (close record) s₁ closed s₂) :
    Runs (takeAll opened) s (closed.map fun _ => bytes) s₂ := by
  unfold Runs at *
  rw [takeAll, reading]
  dsimp only
  rw [closing]
  cases closed <;> rfl

/-- A record that cannot be read is not closed. -/
theorem runs_takeAll_of_unread (reading : Runs readToEnd (s, opened) (.error e) (s₁, record)) :
    Runs (takeAll opened) s (.error e) s₁ := by
  unfold Runs at *
  rw [takeAll, reading]

theorem tells_takeAll (record : η)
    (reading : trap.onFirst.Tells told (readToEnd : Action (σ × η) Bytes))
    (closing : ∀ record : η, trap.Tells told (close record : Action σ Unit)) :
    trap.Tells told (takeAll record : Action σ Bytes) := by
  intro s armed result s' run
  obtain ⟨done, read⟩ := exists_runs (readToEnd : Action (σ × η) Bytes) (s, record)
  generalize stateAfter readToEnd (s, record) = last at read
  obtain ⟨s₁, record'⟩ := last
  have told_or_spared := reading (s, record) armed _ _ read
  cases done with
  | ok bytes =>
    obtain ⟨closed, close⟩ := exists_runs (close record' : Action σ Unit) s₁
    obtain ⟨rfl, rfl⟩ := run.deterministic (runs_takeAll_of_read read close)
    rcases told_or_spared with ⟨armed₁, free⟩ | failed
    · rcases closing record' s₁ armed₁ _ _ close with ⟨armed', free'⟩ | rfl
      · exact .inl ⟨armed', runs_takeAll_of_read free free'⟩
      · exact .inr rfl
    · cases failed
  | error e =>
    obtain ⟨rfl, rfl⟩ := run.deterministic (runs_takeAll_of_unread read)
    rcases told_or_spared with ⟨armed₁, free⟩ | failed
    · exact .inl ⟨armed₁, runs_takeAll_of_unread free⟩
    · exact .inr (congrArg _ (Except.error.inj failed))

end Device

end GlyphShelf

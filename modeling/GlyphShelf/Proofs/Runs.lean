import GlyphShelf.Breach
import GlyphShelf.Device

/-!
# Runs

`Runs act s result s'` says how an action or an examination started in `s` ends: with a value
or a failure, and in the state `s'`. Every action has exactly one run from every state, so a
statement about runs also says that the action ends.

The rules below compose runs along the ways in which actions are put together. They do not
mention a device; what a device does enters only through the runs of its operations. At the
end, steps are taken one after the other: `outcomes` are their answers and the last state, and
two kinds of steps that agree one by one agree in all of them. The answers are a history, and
`Stands` is what a history says of something that some entries set and others clear.
-/

namespace GlyphShelf

variable {ε σ τ α β : Type}

/-- Started in `s`, the action ends with `result` in the state `s'`. -/
def Runs (act : EStateM ε σ α) (s : σ) (result : Except ε α) (s' : σ) : Prop :=
  act s =
    match result with
    | .ok a => .ok a s'
    | .error e => .error e s'

namespace Runs

variable {act : EStateM ε σ α} {next : α → EStateM ε σ β}
variable {a : α} {e : ε} {result : Except ε α} {s s₁ s₂ : σ}

/-- An action has one run from a state. -/
theorem deterministic {result' : Except ε α} (first : Runs act s result s₁)
    (second : Runs act s result' s₂) : result = result' ∧ s₁ = s₂ := by
  unfold Runs at first second
  rw [first] at second
  cases result <;> cases result' <;> simp_all

theorem ok_eq (run : Runs act s (.ok a) s₁) : act s = .ok a s₁ := run

theorem error_eq (run : Runs act s (.error e) s₁) : act s = .error e s₁ := run

theorem pure (a : α) (s : σ) : Runs (Pure.pure a : EStateM ε σ α) s (.ok a) s := rfl

theorem throw (e : ε) (s : σ) : Runs (MonadExcept.throw e : EStateM ε σ α) s (.error e) s := rfl

theorem bind {last : Except ε β} (first : Runs act s (.ok a) s₁) (rest : Runs (next a) s₁ last s₂) :
    Runs (act >>= next) s last s₂ := by
  unfold Runs at *
  change EStateM.bind act next s = _
  rw [EStateM.bind, first]
  exact rest

theorem bind_error (first : Runs act s (.error e) s₁) : Runs (act >>= next) s (.error e) s₁ := by
  unfold Runs at *
  change EStateM.bind act next s = _
  rw [EStateM.bind, first]

theorem bind_pure (first : Runs act s result s₁) (f : α → β) :
    Runs (do let a ← act; Pure.pure (f a)) s (result.map f) s₁ := by
  cases result with
  | ok a => exact first.bind (.pure (f a) s₁)
  | error e => exact first.bind_error

end Runs

namespace Action

variable {act cleanUp : Action σ α} {result : Except Failure α} {s s₁ s₂ : σ} {e : Failure}

theorem runs_ofExcept (result : Except Failure α) (s : σ) : Runs (ofExcept result) s result s := by
  cases result <;> rfl

theorem runs_requireGlyph {key : Key} (glyph : ¬ key.IsAnchor) (s : σ) :
    Runs (ofExcept key.requireGlyph) s (.ok ()) s := by
  rw [Key.requireGlyph, if_neg glyph]
  exact runs_ofExcept _ s

theorem runs_requireGlyph_of_anchor {key : Key} (anchor : key.IsAnchor) (s : σ) :
    Runs (ofExcept key.requireGlyph) s (.error (.reservedKey key)) s := by
  rw [Key.requireGlyph, if_pos anchor]
  exact runs_ofExcept _ s

/-- For a glyph the question costs nothing. -/
theorem requireGlyph_bind {key : Key} (glyph : ¬ key.IsAnchor) (act : Unit → Action σ α) :
    (ofExcept key.requireGlyph >>= act) = act () := by
  rw [Key.requireGlyph, if_neg glyph]
  rfl

theorem refuses_anchor {key : Key} (anchor : key.IsAnchor) (act : Unit → Action σ α) (s : σ) :
    Runs (ofExcept key.requireGlyph >>= act) s (.error (.reservedKey key)) s :=
  (runs_requireGlyph_of_anchor anchor s).bind_error

theorem runs_onFirst (run : Runs act s result s₁) (t : τ) :
    Runs (onFirst act) (s, t) result (s₁, t) := by
  unfold Runs at *
  rw [onFirst, run]
  cases result <;> rfl

theorem runs_allowAbsence {act : Action σ Unit} (run : Runs act s (.ok ()) s₁) :
    Runs (allowAbsence act) s (.ok ()) s₁ := by
  unfold Runs at *
  rw [allowAbsence, run]

theorem runs_allowAbsence_of_absent {act : Action σ Unit}
    (run : Runs act s (.error .notFound) s₁) : Runs (allowAbsence act) s (.ok ()) s₁ := by
  unfold Runs at *
  rw [allowAbsence, run]

theorem runs_allowAbsence_of_error {act : Action σ Unit} {e : Failure} (other : e ≠ .notFound)
    (run : Runs act s (.error e) s₁) : Runs (allowAbsence act) s (.error e) s₁ := by
  unfold Runs at *
  rw [allowAbsence, run]
  cases e <;> first | rfl | exact absurd rfl other

theorem runs_orCleanUp {a : α} {cleanUp : Action σ Unit} (run : Runs act s (.ok a) s₁) :
    Runs (orCleanUp act cleanUp) s (.ok a) s₁ := by
  unfold Runs at *
  rw [orCleanUp, run]

/-- The failure reported is the one that made the cleaning necessary. -/
theorem runs_orCleanUp_of_error {cleaned : Except Failure Unit} {cleanUp : Action σ Unit}
    (run : Runs act s (.error e) s₁) (clean : Runs cleanUp s₁ cleaned s₂) :
    Runs (orCleanUp act cleanUp) s (.error e) s₂ := by
  unfold Runs at *
  rw [orCleanUp, run]
  dsimp only
  rw [clean]
  cases cleaned <;> rfl

end Action

theorem Examination.runs_ofAction {act : Action σ α} {a : α} {s s' : σ}
    (run : Runs act s (.ok a) s') : Runs (Examination.ofAction act) s (.ok a) s' := by
  unfold Runs at *
  rw [ofAction, run]

theorem Examination.runs_ofAction_mapError {act : Action σ α} {result : Except Failure α} {s s' : σ}
    (run : Runs act s result s') :
    Runs (Examination.ofAction act) s (result.mapError .failed) s' := by
  unfold Runs at *
  rw [ofAction, run]
  cases result <;> rfl

theorem Examination.of_ofAction {act : Action σ α} {a : α} {s s' : σ}
    (run : Runs (Examination.ofAction act) s (.ok a) s') : Runs act s (.ok a) s' := by
  unfold Runs ofAction at *
  split at run
  · rename_i acting
    cases run
    exact acting
  · cases run

namespace Device

variable {η : Type} [Device σ η] {name : String} {access : Access} {work : Action (σ × η) α}
variable {record opened : η} {a : α} {e : Failure} {s s₁ s₂ s₃ : σ}

theorem runs_withRecord_of_closed {closed : Except Failure Unit}
    (opening : Runs (openRecord name access) s (.ok opened) s₁)
    (working : Runs work (s₁, opened) (.ok a) (s₂, record))
    (closing : Runs (close record) s₂ closed s₃) :
    Runs (withRecord name access work) s (closed.map fun _ => a) s₃ := by
  unfold Runs at *
  rw [withRecord, opening]
  dsimp only
  rw [working]
  dsimp only
  rw [closing]
  cases closed <;> rfl

/-- A record that could not be opened is neither worked on nor closed. -/
theorem runs_withRecord_of_unopened (opening : Runs (openRecord name access) s (.error e) s₁) :
    Runs (withRecord name access work) s (.error e) s₁ := by
  unfold Runs at *
  rw [withRecord, opening]

/-- A record is closed after a failure too, and that failure is the one reported. -/
theorem runs_withRecord_of_failed {closed : Except Failure Unit}
    (opening : Runs (openRecord name access) s (.ok opened) s₁)
    (working : Runs work (s₁, opened) (.error e) (s₂, record))
    (closing : Runs (close record) s₂ closed s₃) :
    Runs (withRecord name access work) s (.error e) s₃ := by
  unfold Runs at *
  rw [withRecord, opening]
  dsimp only
  rw [working]
  dsimp only
  rw [closing]
  cases closed <;> rfl

theorem runs_hasRecord_of_present {closed : Except Failure Unit}
    (opening : Runs (openRecord name .readOnly) s (.ok opened) s₁)
    (closing : Runs (close opened) s₁ closed s₂) :
    Runs (hasRecord name) s (closed.map fun _ => true) s₂ := by
  unfold Runs at *
  rw [hasRecord, opening]
  dsimp only
  rw [closing]
  cases closed <;> rfl

theorem runs_hasRecord_of_absent
    (opening : Runs (openRecord name .readOnly) s (.error .notFound) s₁) :
    Runs (hasRecord name) s (.ok false) s₁ := by
  unfold Runs at *
  rw [hasRecord, opening]

theorem runs_hasRecord_of_error (opening : Runs (openRecord name .readOnly) s (.error e) s₁)
    (present : e ≠ .notFound) : Runs (hasRecord name) s (.error e) s₁ := by
  unfold Runs at *
  rw [hasRecord, opening]
  cases e with
  | notFound => exact absurd rfl present
  | _ => rfl

theorem runs_takeAll {bytes : Bytes} (reading : Runs readToEnd (s, opened) (.ok bytes) (s₁, record))
    (closing : Runs (close record) s₁ (.ok ()) s₂) : Runs (takeAll opened) s (.ok bytes) s₂ := by
  unfold Runs at *
  rw [takeAll, reading]
  dsimp only
  rw [closing]

end Device

/-! ## One step after the other -/

/-- The answer of an action and the state it leaves, also after a failure. -/
def Action.step (act : Action σ α) (s : σ) : Except Failure α × σ :=
  match act s with
  | .ok a s' => (.ok a, s')
  | .error e s' => (.error e, s')

theorem Runs.step_eq {act : Action σ α} {result : Except Failure α} {s s' : σ}
    (run : Runs act s result s') : act.step s = (result, s') := by
  unfold Runs at run
  rw [Action.step, run]
  cases result <;> rfl

section

variable {ι : Type} {step : ι → σ → β × σ} {step' : ι → τ → β × τ} {inputs later : List ι}
variable {s : σ} {t : τ} {related : σ → τ → Prop}

/-- The answers of steps taken one after the other, and the state after the last of them. -/
def outcomes (step : ι → σ → β × σ) : List ι → σ → List β × σ
  | [], s => ([], s)
  | input :: inputs, s =>
    ((step input s).1 :: (outcomes step inputs (step input s).2).1,
      (outcomes step inputs (step input s).2).2)

theorem outcomes_append (step : ι → σ → β × σ) (inputs later : List ι) (s : σ) :
    outcomes step (inputs ++ later) s =
      ((outcomes step inputs s).1 ++ (outcomes step later (outcomes step inputs s).2).1,
        (outcomes step later (outcomes step inputs s).2).2) := by
  induction inputs generalizing s with
  | nil => rfl
  | cons input inputs ih =>
    rw [List.cons_append, outcomes, ih]
    rfl

theorem length_outcomes (step : ι → σ → β × σ) (inputs : List ι) (s : σ) :
    (outcomes step inputs s).1.length = inputs.length := by
  induction inputs generalizing s with
  | nil => rfl
  | cons input inputs ih => rw [outcomes, List.length_cons, ih, List.length_cons]

/-- What every step keeps, every sequence of steps keeps; `note` follows the steps beside it. -/
theorem outcomes_keep {κ : Type} {note : κ → ι → κ} {keeps : σ → κ → Prop}
    (kept : ∀ input s noted, keeps s noted → keeps (step input s).2 (note noted input))
    (inputs : List ι) {noted : κ} (start : keeps s noted) :
    keeps (outcomes step inputs s).2 (inputs.foldl note noted) := by
  induction inputs generalizing s noted with
  | nil => exact start
  | cons input inputs ih => exact ih (kept input s noted start)

/-- The same with the answers: they are the history, and each step adds its own at the end. -/
theorem outcomes_log (keeps : σ → List β → Prop) {history : List β}
    (kept : ∀ input s history, keeps s history →
      keeps (step input s).2 (history ++ [(step input s).1]))
    (inputs : List ι) (start : keeps s history) :
    keeps (outcomes step inputs s).2 (history ++ (outcomes step inputs s).1) := by
  induction inputs generalizing s history with
  | nil => simpa only [outcomes, List.append_nil] using start
  | cons input inputs ih =>
    have rest := ih (kept input s history start)
    rwa [List.append_assoc] at rest

/-- What is said of the state alone needs nothing beside it. -/
theorem outcomes_preserve (keeps : σ → Prop) (kept : ∀ input s, keeps s → keeps (step input s).2)
    (inputs : List ι) (start : keeps s) : keeps (outcomes step inputs s).2 := by
  induction inputs generalizing s with
  | nil => exact start
  | cons input inputs ih => exact ih (kept input s start)

/-- Steps that agree one by one agree in all their answers and end in related states; nothing is
asked of steps that are not taken. -/
theorem outcomes_agree_of_mem
    (agree : ∀ input ∈ inputs, ∀ s t, related s t →
      (step input s).1 = (step' input t).1 ∧ related (step input s).2 (step' input t).2)
    (start : related s t) :
    (outcomes step inputs s).1 = (outcomes step' inputs t).1 ∧
      related (outcomes step inputs s).2 (outcomes step' inputs t).2 := by
  induction inputs generalizing s t with
  | nil => exact ⟨rfl, start⟩
  | cons input inputs ih =>
    obtain ⟨same, next⟩ := agree input List.mem_cons_self s t start
    obtain ⟨rest, last⟩ := ih (fun later member => agree later (List.mem_cons_of_mem _ member)) next
    exact ⟨by rw [outcomes, outcomes, same, rest], last⟩

theorem outcomes_agree
    (agree : ∀ input s t, related s t →
      (step input s).1 = (step' input t).1 ∧ related (step input s).2 (step' input t).2)
    (inputs : List ι) (start : related s t) :
    (outcomes step inputs s).1 = (outcomes step' inputs t).1 ∧
      related (outcomes step inputs s).2 (outcomes step' inputs t).2 :=
  outcomes_agree_of_mem (fun input _ => agree input) start

end

/-! ## What a history leaves standing -/

section

variable {sets clears : α → Prop} {history : List α}

/-- Some entry of the history sets it, and no entry after that one clears it. -/
def Stands (sets clears : α → Prop) (history : List α) : Prop :=
  ∃ earlier entry later, history = earlier ++ entry :: later ∧ sets entry ∧
    ∀ other ∈ later, ¬ clears other

theorem not_stands_nil : ¬ Stands sets clears [] := by
  rintro ⟨earlier, entry, later, split, -, -⟩
  cases earlier <;> cases split

/-- The last entry sets it, or leaves it standing. -/
theorem stands_concat (sets clears : α → Prop) (history : List α) (entry : α) :
    Stands sets clears (history ++ [entry]) ↔
      sets entry ∨ Stands sets clears history ∧ ¬ clears entry := by
  constructor
  · rintro ⟨earlier, setting, later, split, set, uncleared⟩
    rcases List.eq_nil_or_concat later with rfl | ⟨between, last, rfl⟩
    · obtain ⟨rfl, same⟩ := List.append_inj' split rfl
      obtain rfl := List.singleton_inj.1 same
      exact .inl set
    · rw [List.concat_eq_append] at split uncleared
      rw [← List.cons_append, ← List.append_assoc] at split
      obtain ⟨rfl, same⟩ := List.append_inj' split rfl
      obtain rfl := List.singleton_inj.1 same
      obtain ⟨before, here⟩ := List.forall_mem_append.1 uncleared
      exact .inr ⟨⟨earlier, setting, between, rfl, set, before⟩, here _ (List.mem_singleton_self _)⟩
  · rintro (set | ⟨⟨earlier, setting, later, rfl, set, uncleared⟩, still⟩)
    · exact ⟨history, entry, [], rfl, set, nofun⟩
    · refine ⟨earlier, setting, later ++ [entry], by simp, set, ?_⟩
      exact List.forall_mem_append.2 ⟨uncleared, List.forall_mem_singleton.2 still⟩

end

end GlyphShelf

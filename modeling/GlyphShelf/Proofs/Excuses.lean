import GlyphShelf.Proofs.Agreement

/-!
# Devices that agree unless one is excused

Where one device refuses what another one would do, and may do so, nothing is to be compared. So two
actions end alike if the second one ends with an excuse, whatever the first one does then, or if
their results match and the states that they leave are related again.

An excuse ends whatever it is a part of. Therefore the rules are those for devices that agree, with
one more case each.
-/

namespace GlyphShelf

variable {σ τ η θ α β α' β' : Type}

/-- Both actions end, with results that match and in related states. -/
def EndsTogether (told : Failure → Failure → Prop) (related : σ → τ → Prop) (values : α → β → Prop)
    (act : Action σ α) (act' : Action τ β) (s : σ) (t : τ) : Prop :=
  ∃ result result' s' t', Runs act s result s' ∧ Runs act' t result' t' ∧ related s' t' ∧
    Matched told values result result'

/-- The second action is excused, or both end together. -/
def EndsAlike (excuse : Failure → Prop) (told : Failure → Failure → Prop) (related : σ → τ → Prop)
    (values : α → β → Prop) (act : Action σ α) (act' : Action τ β) (s : σ) (t : τ) : Prop :=
  (∃ e t', Runs act' t (.error e) t' ∧ excuse e) ∨ EndsTogether told related values act act' s t

namespace EndsTogether

variable {told : Failure → Failure → Prop} {related : σ → τ → Prop} {values : α → β → Prop}
variable {act : Action σ α} {act' : Action τ β} {result : Except Failure α}
variable {result' : Except Failure β} {s s' : σ} {t t' : τ}

theorem of_runs (run : Runs act s result s') (run' : Runs act' t result' t') (after : related s' t')
    (matched : Matched told values result result') :
    EndsTogether told related values act act' s t :=
  ⟨result, result', s', t', run, run', after, matched⟩

/-- There is no other way for the actions to end. -/
theorem related_of_runs (ending : EndsTogether told related values act act' s t)
    (run : Runs act s result s') (run' : Runs act' t result' t') : related s' t' := by
  obtain ⟨_, _, _, _, ran, ran', after, -⟩ := ending
  obtain ⟨-, rfl⟩ := run.deterministic ran
  obtain ⟨-, rfl⟩ := run'.deterministic ran'
  exact after

end EndsTogether

namespace EndsAlike

variable {excuse : Failure → Prop} {told : Failure → Failure → Prop} {related : σ → τ → Prop}
variable {values : α → β → Prop} {last : α' → β' → Prop} {s s' : σ} {t t' : τ}

theorem of_runs {act : Action σ α} {act' : Action τ β} {result : Except Failure α}
    {result' : Except Failure β} (run : Runs act s result s') (run' : Runs act' t result' t')
    (after : related s' t') (matched : Matched told values result result') :
    EndsAlike excuse told related values act act' s t :=
  .inr ⟨result, result', s', t', run, run', after, matched⟩

theorem of_excuse {act : Action σ α} {act' : Action τ β} {e : Failure}
    (run : Runs act' t (.error e) t') (excused : excuse e) :
    EndsAlike excuse told related values act act' s t :=
  .inl ⟨e, t', run, excused⟩

theorem pure {a : α} {b : β} (before : related s t) (same : values a b) :
    EndsAlike excuse told related values (Pure.pure a) (Pure.pure b) s t :=
  of_runs (.pure a s) (.pure b t) before (.ok same)

theorem throw {e e' : Failure} (before : related s t) (alike : told e e') :
    EndsAlike excuse told related values (MonadExcept.throw e : Action σ α)
      (MonadExcept.throw e' : Action τ β) s t :=
  of_runs (.throw e s) (.throw e' t) before (.error alike)

theorem bind {act : Action σ α} {act' : Action τ β} {next : α → Action σ α'}
    {next' : β → Action τ β'} (first : EndsAlike excuse told related values act act' s t)
    (rest : ∀ a b s₁ t₁, related s₁ t₁ → values a b →
      EndsAlike excuse told related last (next a) (next' b) s₁ t₁) :
    EndsAlike excuse told related last (act >>= next) (act' >>= next') s t := by
  obtain ⟨e, t₁, run, excused⟩ | ⟨result, result', s₁, t₁, run, run', after, matched⟩ := first
  · exact of_excuse run.bind_error excused
  · cases matched with
    | error alike => exact of_runs run.bind_error run'.bind_error after (.error alike)
    | ok same =>
      obtain ⟨e, t₂, ended, excused⟩ | ⟨final, final', s₂, t₂, ended, ended', after', matched⟩ :=
        rest _ _ s₁ t₁ after same
      · exact of_excuse (run'.bind ended) excused
      · exact of_runs (run.bind ended) (run'.bind ended') after' matched

/-- What is made of the values is alike as well. -/
theorem map {act : Action σ α} {act' : Action τ β}
    (first : EndsAlike excuse told related values act act' s t) (f : α → α') (g : β → β')
    (same : ∀ a b, values a b → last (f a) (g b)) :
    EndsAlike excuse told related last (act >>= fun a => Pure.pure (f a))
      (act' >>= fun b => Pure.pure (g b)) s t :=
  first.bind fun a b _ _ after alike => .pure after (same a b alike)

theorem ite {condition : Prop} [Decidable condition] {act other : Action σ α}
    {act' other' : Action τ β}
    (positive : condition → EndsAlike excuse told related values act act' s t)
    (negative : ¬ condition → EndsAlike excuse told related values other other' s t) :
    EndsAlike excuse told related values (if condition then act else other)
      (if condition then act' else other') s t := by
  split
  · exact positive ‹_›
  · exact negative ‹_›

/-- Work on the first component of a state, beside which the second lasts. -/
theorem onFirst {ρ ρ' : Type} {r : ρ} {r' : ρ'} {within : σ × ρ → τ × ρ' → Prop}
    {act : Action σ α} {act' : Action τ β}
    (acting : EndsAlike excuse told related values act act' s t)
    (lasting : ∀ s t, related s t → within (s, r) (t, r')) :
    EndsAlike excuse told within values (Action.onFirst act) (Action.onFirst act') (s, r)
      (t, r') := by
  obtain ⟨e, t', run, excused⟩ | ⟨result, result', s', t', run, run', after, matched⟩ := acting
  · exact of_excuse (Action.runs_onFirst run r') excused
  · exact of_runs (Action.runs_onFirst run r) (Action.runs_onFirst run' r') (lasting s' t' after)
      matched

/-! ## Records -/

open Device

variable [Device σ η] [Device τ θ] {within : σ × η → τ × θ → Prop} {p : σ × η} {q : τ × θ}

/-- Both see in the same way whether a record exists, if it is opened and closed alike. -/
theorem hasRecord {name : String} {opened : η → θ → Prop}
    (opening : EndsAlike excuse told related opened (openRecord name .readOnly)
      (openRecord name .readOnly) s t)
    (closing : ∀ h k s₁ t₁, related s₁ t₁ →
      EndsAlike excuse told related (fun _ _ => True) (close h : Action σ Unit)
        (close k : Action τ Unit) s₁ t₁)
    (absence : ∀ {e e'}, told e e' → (e = .notFound ↔ e' = .notFound))
    (excusing : ∀ e, excuse e → e ≠ .notFound) :
    EndsAlike excuse told related Eq (Device.hasRecord name : Action σ Bool)
      (Device.hasRecord name : Action τ Bool) s t := by
  obtain ⟨e, t₁, run, excused⟩ | ⟨_, _, s₁, t₁, run, run', after, matched⟩ := opening
  · exact of_excuse (runs_hasRecord_of_error run (excusing e excused)) excused
  · cases matched with
    | @ok h k _ =>
      obtain ⟨e, t₂, closed, excused⟩ | ⟨_, _, s₂, t₂, closed, closed', after', matched⟩ :=
        closing h k s₁ t₁ after
      · exact of_excuse (runs_hasRecord_of_present run' closed) excused
      · refine of_runs (runs_hasRecord_of_present run closed)
          (runs_hasRecord_of_present run' closed') after' ?_
        cases matched with
        | ok _ => exact .ok rfl
        | error alike => exact .error alike
    | @error e e' alike =>
      by_cases absent : e = .notFound
      · obtain rfl := (absence alike).1 absent
        subst absent
        exact of_runs (runs_hasRecord_of_absent run) (runs_hasRecord_of_absent run') after (.ok rfl)
      · exact of_runs (runs_hasRecord_of_error run absent)
          (runs_hasRecord_of_error run' (mt (absence alike).2 absent)) after (.error alike)

section

variable (reading : ∀ count p q, within p q →
  EndsAlike excuse told within Eq (read count : Action (σ × η) Bytes)
    (read count : Action (τ × θ) Bytes) p q)
include reading

theorem readUpTo (raising : ∀ e, told e e) (wanted reads : Nat) (filled : Bytes)
    (before : within p q) :
    EndsAlike excuse told within Eq (Device.readUpTo wanted reads filled : Action (σ × η) Bytes)
      (Device.readUpTo wanted reads filled : Action (τ × θ) Bytes) p q := by
  induction reads generalizing filled p q with
  | zero => exact .pure before rfl
  | succ reads ih =>
    unfold Device.readUpTo
    refine .ite (fun _ => .pure before rfl) fun _ => (reading _ p q before).bind ?_
    rintro more _ p₁ q₁ after rfl
    exact .ite (fun _ => .throw after (raising _)) fun _ => ih _ after

theorem readChunks (reads : Nat) (chunks : List Bytes) (before : within p q) :
    EndsAlike excuse told within Eq (Device.readChunks reads chunks : Action (σ × η) Bytes)
      (Device.readChunks reads chunks : Action (τ × θ) Bytes) p q := by
  induction reads generalizing chunks p q with
  | zero => exact .pure before rfl
  | succ reads ih =>
    unfold Device.readChunks
    refine (reading _ p q before).bind ?_
    rintro chunk _ p₁ q₁ after rfl
    exact .ite (fun _ => .pure after rfl) fun _ => ih _ after

/-- Both are read with the same number of reads, because their sizes agree. -/
theorem readToEnd (sizing : size p.1 p.2 = size q.1 q.2) (before : within p q) :
    EndsAlike excuse told within Eq (Device.readToEnd : Action (σ × η) Bytes)
      (Device.readToEnd : Action (τ × θ) Bytes) p q := by
  have chunks := readChunks reading (size p.1 p.2 + 1) [] before
  obtain ⟨e, q', run, excused⟩ | ⟨result, result', p', q', run, run', rest⟩ := chunks
  · rw [sizing] at run
    exact .inl ⟨e, q', run, excused⟩
  · rw [sizing] at run'
    exact .inr ⟨result, result', p', q', run, run', rest⟩

end

end EndsAlike

end GlyphShelf

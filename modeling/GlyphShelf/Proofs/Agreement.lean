import Mathlib.Data.Option.Basic
import Mathlib.Logic.Function.Basic
import GlyphShelf.Proofs.Reporting

/-!
# Devices that agree

Two devices are compared by running the same actions on both. Which of their states agree, and
what lasts from a pair of states to a later pair, is a `Comparison`. Two actions agree if from
states that agree both succeed with related values, or both fail and their failures may stand for
each other, and if the states they leave agree again. Nothing is asked of states that do not
agree, and nothing is assumed about failures: an action that fails half-way has to leave agreeing
states too.

The rules follow the ways in which actions are put together. A `Likeness` adds what it means for
two open records to agree, which has to last while other records are worked on. Where more records
are open, each is under a number, and they agree number by number.

A device may be compared with itself. Then what is said of two failures is said of the one
failure of a single run.
-/

namespace GlyphShelf

variable {ε σ τ ρ ρ' η θ α α' β β' : Type}

/-- Both succeed with related values, or both fail with related failures. -/
inductive Matched (told : ε → ε → Prop) (values : α → β → Prop) :
    Except ε α → Except ε β → Prop
  | ok {a : α} {b : β} (related : values a b) : Matched told values (.ok a) (.ok b)
  | error {e e' : ε} (related : told e e') : Matched told values (.error e) (.error e')

theorem Matched.eq {result result' : Except ε α} (matched : Matched Eq Eq result result') :
    result = result' := by
  cases matched with
  | ok related => exact congrArg _ related
  | error related => exact congrArg _ related

theorem Matched.mono {told told' : ε → ε → Prop} {values values' : α → β → Prop}
    {result : Except ε α} {result' : Except ε β} (matched : Matched told values result result')
    (failures : ∀ e e', told e e' → told' e e') (weaker : ∀ a b, values a b → values' a b) :
    Matched told' values' result result' := by
  cases matched with
  | ok related => exact .ok (weaker _ _ related)
  | error related => exact .error (failures _ _ related)

/-- Which states of two kinds agree, and what lasts from two states to two later ones. -/
structure Comparison (σ τ : Type) where
  agree : σ → τ → Prop
  later : FrameCondition (σ × τ)

namespace Comparison

/-- Values that have to be the same whatever the states are. -/
def Same (a b : α) (_ : σ) (_ : τ) : Prop := a = b

/-- The same comparison with something beside the states that has to be related as well. -/
def beside (c : Comparison σ τ) (related : α → β → σ → τ → Prop) :
    Comparison (σ × α) (τ × β) where
  agree p q := c.agree p.1 q.1 ∧ related p.2 q.2 p.1 q.1
  later :=
    { allows := fun pair pair' =>
        c.later.allows (pair.1.1, pair.2.1) (pair'.1.1, pair'.2.1)
      refl := fun _ => c.later.refl _
      trans := c.later.trans }

abbrev sharing (c : Comparison σ τ) (ρ : Type) : Comparison (σ × ρ) (τ × ρ) := c.beside Same

/-- From these two states the actions end alike: the values are related in the states that
they leave, or the failures may stand for each other. -/
def AgreesFrom (c : Comparison σ τ) (told : ε → ε → Prop) (values : α → β → σ → τ → Prop)
    (act : EStateM ε σ α) (act' : EStateM ε τ β) (s : σ) (t : τ) : Prop :=
  ∃ result result' s' t', Runs act s result s' ∧ Runs act' t result' t' ∧ c.agree s' t' ∧
    c.later.allows (s, t) (s', t') ∧ Matched told (fun a b => values a b s' t') result result'

/-- From all states that agree the actions end alike. -/
def Agrees (c : Comparison σ τ) (told : ε → ε → Prop) (values : α → β → σ → τ → Prop)
    (act : EStateM ε σ α) (act' : EStateM ε τ β) : Prop :=
  ∀ s t, c.agree s t → c.AgreesFrom told values act act' s t

variable {c : Comparison σ τ} {told : ε → ε → Prop} {values : α → β → σ → τ → Prop}
variable {last : α' → β' → σ → τ → Prop} {act : EStateM ε σ α} {act' : EStateM ε τ β}
variable {next : α → EStateM ε σ α'} {next' : β → EStateM ε τ β'} {s : σ} {t : τ}

namespace AgreesFrom

theorem pure {a : α} {b : β} (agree : c.agree s t) (related : values a b s t) :
    c.AgreesFrom told values (Pure.pure a : EStateM ε σ α) (Pure.pure b) s t :=
  ⟨_, _, s, t, .pure a s, .pure b t, agree, c.later.refl _, .ok related⟩

theorem throw {e e' : ε} (agree : c.agree s t) (related : told e e') :
    c.AgreesFrom told values (MonadExcept.throw e : EStateM ε σ α) (MonadExcept.throw e') s t :=
  ⟨_, _, s, t, .throw e s, .throw e' t, agree, c.later.refl _, .error related⟩

theorem bind (first : c.AgreesFrom told values act act' s t)
    (rest : ∀ a b s₁ t₁, c.agree s₁ t₁ → c.later.allows (s, t) (s₁, t₁) → values a b s₁ t₁ →
      c.AgreesFrom told last (next a) (next' b) s₁ t₁) :
    c.AgreesFrom told last (act >>= next) (act' >>= next') s t := by
  obtain ⟨result, result', s₁, t₁, run, run', agree, lasted, matched⟩ := first
  cases matched with
  | ok related =>
    obtain ⟨final, final', s₂, t₂, ended, ended', agree', lasted', matched'⟩ :=
      rest _ _ s₁ t₁ agree lasted related
    exact ⟨final, final', s₂, t₂, run.bind ended, run'.bind ended', agree',
      c.later.trans lasted lasted', matched'⟩
  | error related =>
    exact ⟨_, _, s₁, t₁, run.bind_error, run'.bind_error, agree, lasted, .error related⟩

theorem mono {values' : α → β → σ → τ → Prop} (agrees : c.AgreesFrom told values act act' s t)
    (weaker : ∀ a b s t, values a b s t → values' a b s t) :
    c.AgreesFrom told values' act act' s t := by
  obtain ⟨result, result', s', t', run, run', agree, lasted, matched⟩ := agrees
  exact ⟨result, result', s', t', run, run', agree, lasted,
    matched.mono (fun _ _ => id) fun a b => weaker a b s' t'⟩

end AgreesFrom

namespace Agrees

theorem pure (a : α) : c.Agrees told Same (Pure.pure a : EStateM ε σ α) (Pure.pure a) :=
  fun _ _ agree => .pure agree rfl

theorem throw {e : ε} (related : told e e) :
    c.Agrees told values (MonadExcept.throw e : EStateM ε σ α) (MonadExcept.throw e) :=
  fun _ _ agree => .throw agree related

theorem throw_bind {e : ε} (related : told e e) :
    c.Agrees told last (MonadExcept.throw e >>= next) (MonadExcept.throw e >>= next') := by
  intro s t agree
  exact ⟨_, _, s, t, (Runs.throw e s).bind_error, (Runs.throw e t).bind_error, agree,
    c.later.refl _, .error related⟩

/-- Whatever the first actions give has to be related when the second ones start. -/
theorem bindRelated (first : c.Agrees told values act act')
    (rest : ∀ a b s t, c.agree s t → values a b s t →
      c.AgreesFrom told last (next a) (next' b) s t) :
    c.Agrees told last (act >>= next) (act' >>= next') :=
  fun s t agree => (first s t agree).bind fun a b s₁ t₁ agree₁ _ => rest a b s₁ t₁ agree₁

/-- The first actions give the same value. -/
theorem bind {act : EStateM ε σ α} {act' : EStateM ε τ α} {next : α → EStateM ε σ α'}
    {next' : α → EStateM ε τ β'} (first : c.Agrees told Same act act')
    (rest : ∀ a, c.Agrees told last (next a) (next' a)) :
    c.Agrees told last (act >>= next) (act' >>= next') := by
  refine first.bindRelated fun a b s t agree same => ?_
  obtain rfl : a = b := same
  exact rest a s t agree

/-- What is made of the value is the same as well. -/
theorem map {act : EStateM ε σ α} {act' : EStateM ε τ α} (agrees : c.Agrees told Same act act')
    (f : α → ρ) : c.Agrees told Same (act >>= fun a => Pure.pure (f a))
      (act' >>= fun a => Pure.pure (f a)) :=
  agrees.bind fun a => .pure (f a)

theorem ite {condition : Prop} [Decidable condition] {other : EStateM ε σ α}
    {other' : EStateM ε τ β} (positive : condition → c.Agrees told values act act')
    (negative : ¬ condition → c.Agrees told values other other') :
    c.Agrees told values (if condition then act else other)
      (if condition then act' else other') := by
  split
  · exact positive ‹_›
  · exact negative ‹_›

end Agrees

/-! ## Ways of putting actions together -/

section

variable {told : Failure → Failure → Prop}

theorem agrees_ofExcept {result : Except Failure α}
    (raising : ∀ e, result = .error e → told e e) :
    c.Agrees told Same (Action.ofExcept result) (Action.ofExcept result) := by
  cases result with
  | ok a => exact .pure a
  | error e => exact .throw (raising e rfl)

/-- What is beside the states is left alone, so it only has to last. -/
theorem agreesFrom_onFirst {related : ρ → ρ' → σ → τ → Prop} {r : ρ} {r' : ρ'} {act : Action σ α}
    {act' : Action τ β} (agrees : c.AgreesFrom told values act act' s t)
    (lasting : ∀ {s' t'}, c.later.allows (s, t) (s', t') → related r r' s' t') :
    (c.beside related).AgreesFrom told (fun a b p q => values a b p.1 q.1)
      (Action.onFirst act) (Action.onFirst act') (s, r) (t, r') := by
  obtain ⟨result, result', s', t', run, run', agree, lasted, matched⟩ := agrees
  exact ⟨result, result', (s', r), (t', r'), Action.runs_onFirst run r,
    Action.runs_onFirst run' r', ⟨agree, lasting lasted⟩, lasted, matched⟩

theorem agrees_onFirst {act : Action σ α} {act' : Action τ β}
    (agrees : c.Agrees told values act act') :
    (c.sharing ρ).Agrees told (fun a b p q => values a b p.1 q.1)
      (Action.onFirst act) (Action.onFirst act') := by
  rintro ⟨s, r⟩ ⟨t, r'⟩ ⟨agree, same⟩
  obtain rfl : r = r' := same
  exact agreesFrom_onFirst (agrees s t agree) fun _ => rfl

/-- What looks at the second component alone, or changes it, does the same beside both states. -/
theorem agrees_second (f : ρ → α) (g : ρ → ρ) :
    (c.sharing ρ).Agrees told Same (fun p => .ok (f p.2) (p.1, g p.2) : Action (σ × ρ) α)
      (fun q => .ok (f q.2) (q.1, g q.2) : Action (τ × ρ) α) := by
  rintro ⟨s, r⟩ ⟨t, r'⟩ ⟨agree, same⟩
  obtain rfl : r = r' := same
  exact ⟨.ok (f r), .ok (f r), (s, g r), (t, g r), rfl, rfl, ⟨agree, rfl⟩, c.later.refl _,
    .ok rfl⟩

theorem agrees_allowAbsence {act : Action σ Unit} {act' : Action τ Unit}
    (absence : ∀ {e e'}, told e e' → (e = .notFound ↔ e' = .notFound))
    (agrees : c.Agrees told Same act act') :
    c.Agrees told Same (Action.allowAbsence act) (Action.allowAbsence act') := by
  intro s t agree
  obtain ⟨_, _, s', t', run, run', agree', lasted, matched⟩ := agrees s t agree
  cases matched with
  | ok _ =>
    exact ⟨_, _, s', t', Action.runs_allowAbsence run, Action.runs_allowAbsence run', agree',
      lasted, .ok rfl⟩
  | @error e e' related =>
    by_cases absent : e = .notFound
    · obtain rfl := (absence related).1 absent
      subst absent
      exact ⟨_, _, s', t', Action.runs_allowAbsence_of_absent run,
        Action.runs_allowAbsence_of_absent run', agree', lasted, .ok rfl⟩
    · have present' : e' ≠ .notFound := fun absent' => absent ((absence related).2 absent')
      exact ⟨_, _, s', t', Action.runs_allowAbsence_of_error absent run,
        Action.runs_allowAbsence_of_error present' run', agree', lasted, .error related⟩

theorem agrees_orCleanUp {act : Action σ α} {act' : Action τ β} {cleanUp : Action σ Unit}
    {cleanUp' : Action τ Unit} (agrees : c.Agrees told values act act')
    (cleaning : c.Agrees told Same cleanUp cleanUp') :
    c.Agrees told values (Action.orCleanUp act cleanUp) (Action.orCleanUp act' cleanUp') := by
  intro s t agree
  obtain ⟨_, _, s₁, t₁, run, run', agree₁, lasted, matched⟩ := agrees s t agree
  cases matched with
  | ok related =>
    exact ⟨_, _, s₁, t₁, Action.runs_orCleanUp run, Action.runs_orCleanUp run', agree₁, lasted,
      .ok related⟩
  | error related =>
    obtain ⟨_, _, s₂, t₂, clean, clean', agree₂, lasted', -⟩ := cleaning s₁ t₁ agree₁
    exact ⟨_, _, s₂, t₂, Action.runs_orCleanUp_of_error run clean,
      Action.runs_orCleanUp_of_error run' clean', agree₂, c.later.trans lasted lasted',
      .error related⟩

theorem agrees_ofAction {found : Breach → Breach → Prop} {act : Action σ α} {act' : Action τ β}
    (failing : ∀ e e', told e e' → found (.failed e) (.failed e'))
    (agrees : c.Agrees told values act act') :
    c.Agrees found values (Examination.ofAction act) (Examination.ofAction act') := by
  intro s t agree
  obtain ⟨_, _, s', t', run, run', agree', lasted, matched⟩ := agrees s t agree
  refine ⟨_, _, s', t', Examination.runs_ofAction_mapError run,
    Examination.runs_ofAction_mapError run', agree', lasted, ?_⟩
  cases matched with
  | ok related => exact .ok related
  | error related => exact .error (failing _ _ related)

/-- An action on a second component of its own, for what becomes of that. -/
theorem agrees_keeping {act : Action (σ × ρ) α} {act' : Action (τ × ρ) β}
    {values : α → β → σ × ρ → τ × ρ → Prop} (agrees : (c.sharing ρ).Agrees told values act act')
    (r : ρ) : c.Agrees told Same (act.keeping r) (act'.keeping r) := by
  intro s t agree
  obtain ⟨_, _, ⟨s', r'⟩, ⟨t', r''⟩, run, run', ⟨agree', same⟩, lasted, matched⟩ :=
    agrees (s, r) (t, r) ⟨agree, rfl⟩
  refine ⟨_, _, s', t', Action.runs_keeping run, Action.runs_keeping run', agree', lasted, ?_⟩
  cases matched with
  | ok _ => exact .ok same
  | error related => exact .error related

end

end Comparison

/-! ## Records -/

/-- A comparison of two devices. Two open records may agree in states that agree, and still do
later on. Of their failures only those that say that a record is absent have to be told apart. -/
structure Likeness (σ η τ θ : Type) extends Comparison σ τ where
  /-- Which open records agree. -/
  records : η → θ → σ → τ → Prop
  lasting : ∀ {h k s t s' t'}, records h k s t → later.allows (s, t) (s', t') → records h k s' t'
  /-- Which failures may stand for each other. -/
  told : Failure → Failure → Prop
  absence : ∀ {e e'}, told e e' → (e = .notFound ↔ e' = .notFound)
  /-- Which listings mean the same records. -/
  listings : List String → List String → Prop

namespace Likeness

open Comparison Device

variable [Device σ η] [Device τ θ] {l : Likeness σ η τ θ} {name : String} {access : Access}

abbrev opened (l : Likeness σ η τ θ) : Comparison (σ × η) (τ × θ) := l.beside l.records

/-- Records that agree can be closed. -/
def Closing (l : Likeness σ η τ θ) : Prop :=
  ∀ (h : η) (k : θ) (s : σ) (t : τ), l.agree s t → l.records h k s t →
    l.AgreesFrom l.told Same (close h : Action σ Unit) (close k : Action τ Unit) s t

theorem agrees_hasRecord
    (opening : l.Agrees l.told l.records (openRecord name .readOnly : Action σ η)
      (openRecord name .readOnly : Action τ θ)) (closing : l.Closing) :
    l.Agrees l.told Same (hasRecord name : Action σ Bool) (hasRecord name : Action τ Bool) := by
  intro s t agree
  obtain ⟨_, _, s₁, t₁, opened, opened', agree₁, lasted, matched⟩ := opening s t agree
  cases matched with
  | ok related =>
    obtain ⟨_, _, s₂, t₂, closed, closed', agree₂, lasted', matched'⟩ :=
      closing _ _ s₁ t₁ agree₁ related
    refine ⟨_, _, s₂, t₂, runs_hasRecord_of_present opened closed,
      runs_hasRecord_of_present opened' closed', agree₂, l.later.trans lasted lasted', ?_⟩
    cases matched' with
    | ok _ => exact .ok rfl
    | error related' => exact .error related'
  | @error e e' related =>
    by_cases absent : e = .notFound
    · obtain rfl := (l.absence related).1 absent
      subst absent
      exact ⟨_, _, s₁, t₁, runs_hasRecord_of_absent opened, runs_hasRecord_of_absent opened',
        agree₁, lasted, .ok rfl⟩
    · have present' : e' ≠ .notFound := fun absent' => absent ((l.absence related).2 absent')
      exact ⟨_, _, s₁, t₁, runs_hasRecord_of_error opened absent,
        runs_hasRecord_of_error opened' present', agree₁, lasted, .error related⟩

/-- The work may rely on what is known of records that were opened just now. -/
theorem agrees_withRecord {fresh : η → θ → σ → τ → Prop} {work : Action (σ × η) α}
    {work' : Action (τ × θ) α}
    (opening : l.Agrees l.told fresh (openRecord name access : Action σ η)
      (openRecord name access : Action τ θ))
    (working : ∀ h k s t, l.agree s t → fresh h k s t →
      l.opened.AgreesFrom l.told Same work work' (s, h) (t, k)) (closing : l.Closing) :
    l.Agrees l.told Same (withRecord name access work) (withRecord name access work') := by
  intro s t agree
  obtain ⟨_, _, s₁, t₁, opened, opened', agree₁, lasted₁, matched⟩ := opening s t agree
  cases matched with
  | error related =>
    exact ⟨_, _, s₁, t₁, runs_withRecord_of_unopened opened, runs_withRecord_of_unopened opened',
      agree₁, lasted₁, .error related⟩
  | ok related =>
    obtain ⟨_, _, ⟨s₂, h⟩, ⟨t₂, k⟩, worked, worked', ⟨agree₂, still⟩, lasted₂, done⟩ :=
      working _ _ s₁ t₁ agree₁ related
    obtain ⟨_, _, s₃, t₃, closed, closed', agree₃, lasted₃, closing⟩ :=
      closing h k s₂ t₂ agree₂ still
    have lasted := l.later.trans (l.later.trans lasted₁ lasted₂) lasted₃
    cases done with
    | ok same =>
      refine ⟨_, _, s₃, t₃, runs_withRecord_of_closed opened worked closed,
        runs_withRecord_of_closed opened' worked' closed', agree₃, lasted, ?_⟩
      cases closing with
      | ok _ => exact .ok same
      | error related' => exact .error related'
    | error failed =>
      exact ⟨_, _, s₃, t₃, runs_withRecord_of_failed opened worked closed,
        runs_withRecord_of_failed opened' worked' closed', agree₃, lasted, .error failed⟩

theorem agrees_readUpTo {wanted : Nat}
    (reading : ∀ count ≤ wanted, l.opened.Agrees l.told Same
      (read count : Action (σ × η) Bytes) (read count : Action (τ × θ) Bytes))
    (raising : ∀ filled < wanted, l.told (.corrupt (.endOfRecord filled wanted))
      (.corrupt (.endOfRecord filled wanted))) (reads : Nat) (filled : Bytes) :
    l.opened.Agrees l.told Same (readUpTo wanted reads filled : Action (σ × η) Bytes)
      (readUpTo wanted reads filled : Action (τ × θ) Bytes) := by
  induction reads generalizing filled with
  | zero => exact .pure filled
  | succ reads ih =>
    unfold readUpTo
    refine .ite (fun _ => .pure filled) fun short => ?_
    refine .bind (reading _ (Nat.sub_le _ _)) fun more => ?_
    exact .ite (fun _ => .throw (raising _ (Nat.lt_of_not_le short))) fun _ => ih _

theorem agrees_readChunks
    (reading : l.opened.Agrees l.told Same (read chunkSize : Action (σ × η) Bytes)
      (read chunkSize : Action (τ × θ) Bytes)) (reads : Nat) (chunks : List Bytes) :
    l.opened.Agrees l.told Same (readChunks reads chunks : Action (σ × η) Bytes)
      (readChunks reads chunks : Action (τ × θ) Bytes) := by
  induction reads generalizing chunks with
  | zero => exact .pure _
  | succ reads ih =>
    unfold readChunks
    exact .bind reading fun chunk => .ite (fun _ => .pure _) fun _ => ih _

/-- Both are read with the same number of reads, because their sizes agree. -/
theorem agrees_readToEnd
    (reading : l.opened.Agrees l.told Same (read chunkSize : Action (σ × η) Bytes)
      (read chunkSize : Action (τ × θ) Bytes))
    (sizing : ∀ {h : η} {k : θ} {s t}, l.agree s t → l.records h k s t → size s h = size t k) :
    l.opened.Agrees l.told Same (readToEnd : Action (σ × η) Bytes)
      (readToEnd : Action (τ × θ) Bytes) := by
  rintro ⟨s, h⟩ ⟨t, k⟩ ⟨agree, related⟩
  obtain ⟨result, result', s', t', run, run', rest⟩ :=
    agrees_readChunks reading (size s h + 1) [] (s, h) (t, k) ⟨agree, related⟩
  refine ⟨result, result', s', t', run, ?_, rest⟩
  rw [sizing agree related] at run'
  exact run'

theorem agrees_takeAll
    (reading : l.opened.Agrees l.told Same (readToEnd : Action (σ × η) Bytes)
      (readToEnd : Action (τ × θ) Bytes)) (closing : l.Closing) {h : η} {k : θ} {s : σ} {t : τ}
    (agree : l.agree s t) (related : l.records h k s t) :
    l.AgreesFrom l.told Same (takeAll h : Action σ Bytes) (takeAll k : Action τ Bytes) s t := by
  obtain ⟨_, _, ⟨s₁, h₁⟩, ⟨t₁, k₁⟩, run, run', ⟨agree₁, still⟩, lasted, matched⟩ :=
    reading (s, h) (t, k) ⟨agree, related⟩
  cases matched with
  | error failed =>
    exact ⟨_, _, s₁, t₁, runs_takeAll_of_unread run, runs_takeAll_of_unread run', agree₁, lasted,
      .error failed⟩
  | ok same =>
    obtain ⟨_, _, s₂, t₂, closed, closed', agree₂, lasted', matched'⟩ :=
      closing h₁ k₁ s₁ t₁ agree₁ still
    refine ⟨_, _, s₂, t₂, runs_takeAll_of_read run closed, runs_takeAll_of_read run' closed',
      agree₂, l.later.trans lasted lasted', ?_⟩
    cases matched' with
    | ok _ => exact .ok same
    | error related' => exact .error related'

end Likeness

/-! ## Families of records -/

section

variable {related lasting : η → θ → Prop} {entry : Option η} {entry' : Option θ}
variable {entries : Nat → Option η} {entries' : Nat → Option θ} {number : Nat}

/-- Under a number there is a record on both sides or on none. -/
theorem cases_of_related (both : Option.Rel related entry entry') : entry = none ∧ entry' = none ∨
      ∃ h k, entry = some h ∧ entry' = some k ∧ related h k := by
  cases both with
  | none => exact .inl ⟨rfl, rfl⟩
  | some agree => exact .inr ⟨_, _, rfl, rfl, agree⟩

theorem related_mono (both : Option.Rel related entry entry')
    (weaker : ∀ h k, related h k → lasting h k) : Option.Rel lasting entry entry' := by
  cases both with
  | none => exact .none
  | some agree => exact .some (weaker _ _ agree)

theorem related_update (others : ∀ other, Option.Rel related (entries other) (entries' other))
    (same : Option.Rel related entry entry') (other : Nat) :
    Option.Rel related (Function.update entries number entry other)
      (Function.update entries' number entry' other) := by
  by_cases updated : other = number
  · rw [updated, Function.update_self, Function.update_self]
    exact same
  · rw [Function.update_of_ne updated, Function.update_of_ne updated]
    exact others other

end

end GlyphShelf

import GlyphShelf.Proofs.Ring.Guards
import GlyphShelf.Shelf

/-!
# What keeps a shelf within a frame

Besides its ring a shelf has payloads. It writes one only when a glyph is stored, and otherwise
opens and deletes them. So a frame that changes of links and deletions of payloads respect, as
`Guards` says, is respected by all operations but storing, on any device. Storing respects it if
writing that one payload does.
-/

namespace GlyphShelf.Shelf

variable {σ η α : Type} [Device σ η] {frame : FrameCondition σ} {key : Key} {bytes : Bytes}

/-! ## Single steps -/

theorem respects_tell (event : Tally.Event) :
    Respects frame.onFirst (tell event : Action (σ × Shelf) Unit) :=
  fun s => frame.refl s.1

theorem runs_orMiss_of_absent {act : Action σ α} {s s' : σ}
    (acting : Runs act s (.error .notFound) s') (shelf : Shelf) :
    Runs (orMiss act) (s, shelf) (.error .notFound) (s', shelf.record .miss) := by
  unfold Runs at acting ⊢
  rw [orMiss, acting]

theorem runs_orMiss {act : Action σ α} {s s' : σ} {result : Except Failure α}
    (acting : Runs act s result s') (present : result ≠ .error .notFound) (shelf : Shelf) :
    Runs (orMiss act) (s, shelf) result (s', shelf) := by
  unfold Runs at acting ⊢
  rw [orMiss, acting]
  cases result with
  | ok a => rfl
  | error e =>
    cases e with
    | notFound => exact absurd rfl present
    | _ => rfl

/-- What was told by the action itself is told by it as a read, and only an absence is counted. -/
theorem orMiss_cases {act : Action σ α} {s : σ} {shelf : Shelf} {result : Except Failure α}
    {s' : σ × Shelf} (run : Runs (orMiss act) (s, shelf) result s') :
    Runs act s result s'.1 ∧
      (result = .error .notFound ∧ s'.2 = shelf.record .miss ∨
        result ≠ .error .notFound ∧ s'.2 = shelf) := by
  obtain ⟨result', acting⟩ := exists_runs act s
  by_cases absent : result' = .error .notFound
  · subst absent
    obtain ⟨rfl, rfl⟩ := run.deterministic (runs_orMiss_of_absent acting shelf)
    exact ⟨acting, .inl ⟨rfl, rfl⟩⟩
  · obtain ⟨rfl, rfl⟩ := run.deterministic (runs_orMiss acting absent shelf)
    exact ⟨acting, .inr ⟨absent, rfl⟩⟩

/-- A miss is counted and changes nothing else of the shelf. -/
theorem stateAfter_orMiss (act : Action σ α) (s : σ) (shelf : Shelf) :
    stateAfter (orMiss act) (s, shelf) = (stateAfter act s, shelf) ∨
      stateAfter (orMiss act) (s, shelf) = (stateAfter act s, shelf.record .miss) := by
  obtain ⟨result, acting⟩ := exists_runs act s
  by_cases absent : result = .error .notFound
  · subst absent
    exact .inr (runs_orMiss_of_absent acting shelf).stateAfter_eq
  · exact .inl (runs_orMiss acting absent shelf).stateAfter_eq

theorem respects_orMiss {act : Action σ α} (acting : Respects frame act) :
    Respects frame.onFirst (orMiss act) := by
  rintro ⟨s, shelf⟩
  rcases stateAfter_orMiss act s shelf with same | same
  · rw [same]
    exact acting s
  · rw [same]
    exact acting s

theorem respects_use {act : Action σ α} (acting : Respects frame act)
    (promoting : Respects frame (Ring.promote key : Action σ Bool)) :
    Respects frame.onFirst (use key act) :=
  (respects_orMiss acting).bind fun _ => (respects_onFirst promoting).bind fun _ =>
    (respects_tell .hit).bind fun _ => .pure _

/-- Any frame will do in which the links and the payload of the victim may change. -/
theorem respects_dropOldest (evicting : Respects frame (Ring.evict : Action σ Key))
    (deleting : ∀ victim, Respects frame (Payloads.delete victim : Action σ Unit)) :
    Respects frame.onFirst (dropOldest : Action (σ × Shelf) Unit) := by
  refine (respects_onFirst evicting).bind fun victim => ?_
  refine .bind (fun s => frame.refl s.1) fun _ => ?_
  exact respects_onFirst (respects_allowAbsence (deleting victim))

/-- Nothing is dropped but where the size is beyond the capacity. -/
theorem respects_keepWithin {frame : FrameCondition (σ × Shelf)}
    (dropping : ∀ s, ¬ s.2.size ≤ s.2.capacity →
      frame.allows s (stateAfter (dropOldest : Action (σ × Shelf) Unit) s)) :
    Respects frame (keepWithin : Action (σ × Shelf) Unit) := by
  have all (drops : Nat) : Respects frame (dropExcess drops : Action (σ × Shelf) Unit) := by
    induction drops with
    | zero => exact .pure ()
    | succ drops ih =>
      intro s
      by_cases fits : s.2.size ≤ s.2.capacity
      · have still : Runs (dropExcess (drops + 1)) s (.ok ()) s := dropExcess_of_within _ fits
        rw [still.stateAfter_eq]
        exact frame.refl s
      · rw [stateAfter_congr (dropExcess_of_beyond drops fits)]
        exact frame.allows_bind (dropping s fits) fun _ s₁ _ => ih s₁
  exact fun s => all s.2.size s

theorem openOn_eq (settings : Settings) :
    (openOn settings : Action σ Shelf) = (do
      let size ← recover settings
      reconcile.keeping { capacity := settings.capacity, size }) := by
  unfold openOn Action.keeping
  congr 1
  funext size s
  cases reconcile (s, ({ capacity := settings.capacity, size } : Shelf)) <;> rfl

/-- Opening recovers the number of keys and then keeps within the capacity. -/
theorem openOn_cases {settings : Settings} {s s' : σ} {result : Except Failure Shelf}
    (run : Runs (openOn settings) s result s') :
    (∃ size s₁ shelf answer, Runs (recover settings) s (.ok size) s₁ ∧
      Runs reconcile (s₁, { capacity := settings.capacity, size }) answer (s', shelf) ∧
      ∀ opened, result = .ok opened → opened = shelf) ∨
    ∃ e, Runs (recover settings) s (.error e) s' ∧ result = .error e := by
  rcases run.bind_cases with ⟨size, s₁, recovered, rest⟩ | failed
  · refine .inl ⟨size, s₁, ?_⟩
    unfold Runs at rest
    dsimp only at rest
    cases finished : reconcile (s₁, ({ capacity := settings.capacity, size } : Shelf)) with
    | ok answer last =>
      rw [finished] at rest
      cases result <;> cases rest
      exact ⟨last.2, .ok answer, recovered, finished, fun _ same => by cases same; rfl⟩
    | error e last =>
      rw [finished] at rest
      cases result <;> cases rest
      exact ⟨last.2, .error e, recovered, finished, nofun⟩
  · exact .inr failed

/-! ## Looking -/

theorem respects_contains_of_looks (looks : Ring.Looks frame) (key : Key) :
    Respects frame.onFirst (contains key : Action (σ × Shelf) Bool) :=
  .ite (fun _ => .pure false) fun _ => respects_onFirst (looks.respects_contains key)

theorem respects_keys_of_looks (looks : Ring.Looks frame) :
    Respects frame.onFirst (keys : Action (σ × Shelf) (List Key)) :=
  respects_onFirst looks.respects_walk

/-- What examining a shelf that counts so many keys does with its device. -/
def examination (size : Nat) : Examination σ Unit := do
  Ring.check
  let linked ← Examination.ofAction Ring.walk
  if linked.length = size then pure ()
  else throw (.count size linked.length)

theorem runs_check_of_examined {s s' : σ} {shelf : Shelf} {found : Except Breach Unit}
    (examining : Runs (examination shelf.size) s found s') :
    Runs check (s, shelf) found (s', shelf) := by
  unfold Runs examination at examining
  unfold Runs check
  dsimp only
  rw [examining]
  cases found <;> rfl

theorem respects_check_of_looks (looks : Ring.Looks frame) :
    Respects frame.onFirst (check : Examination (σ × Shelf) Unit) := by
  rintro ⟨s, shelf⟩
  have respects : Respects frame (examination shelf.size : Examination σ Unit) :=
    looks.respects_check.bind fun _ => (respects_ofAction looks.respects_walk).bind
      fun _ => .ite (fun _ => .pure ()) fun _ => .throw _
  obtain ⟨found, examining⟩ := exists_runs (examination shelf.size) s
  rw [(runs_check_of_examined examining).stateAfter_eq]
  exact respects s

/-! ## Storing -/

/-- What is left of storing a glyph once its payload is stored. -/
def settle (key : Key) (linked : Bool) : Action (σ × Shelf) Nat := do
  if linked then
    let _ ← Action.onFirst (Ring.promote key)
    tell .update
  else
    Action.onFirst (Action.orCleanUp (Ring.insert key) (Payloads.delete key))
    fun (s, shelf) => .ok () (s, { shelf with size := shelf.size + 1 }.record .insert)
  reconcile

theorem put_eq_settle (key : Key) (bytes : Bytes) :
    (put key bytes : Action (σ × Shelf) Nat) = (do
      Action.ofExcept key.requireGlyph
      let linked ← Action.onFirst (storePayload key bytes)
      settle key linked) := rfl

/-! ## All operations -/

/-- Whatever becomes of single links, and of payloads that are opened or deleted, respects the
frame. -/
structure Guards (frame : FrameCondition σ) : Prop extends Ring.Changes frame where
  discarding : ∀ key, Respects frame (Payloads.delete key : Action σ Unit)

namespace Guards

variable (guards : Guards frame)

include guards

theorem respects_openPayload (key : Key) :
    Respects frame (Payloads.openPayload key : Action σ η) :=
  (respects_ofExcept _).bind fun _ => guards.opening (.payload key)

theorem respects_read (key : Key) : Respects frame (Payloads.read key : Action σ Bytes) :=
  (guards.respects_openPayload key).bind fun record =>
    Device.respects_takeAll record guards.reading guards.closing

theorem respects_get (key : Key) : Respects frame.onFirst (get key : Action (σ × Shelf) Bytes) :=
  respects_use (guards.respects_read key) (guards.respects_promote key)

theorem respects_openEntry (key : Key) :
    Respects frame.onFirst (openEntry key : Action (σ × Shelf) η) :=
  respects_use (guards.respects_openPayload key) (guards.respects_promote key)

theorem respects_reconcile : Respects frame.onFirst (reconcile : Action (σ × Shelf) Nat) :=
  (respects_keepWithin fun s _ =>
    respects_dropOldest guards.respects_evict guards.discarding s).bind fun _ s => frame.refl s.1

theorem respects_deletePayloads (keys : List Key) :
    Respects frame (deletePayloads keys : Action σ Unit) := by
  induction keys with
  | nil => exact .pure ()
  | cons key keys ih =>
    exact (respects_allowAbsence (guards.discarding key)).bind fun _ => ih

theorem respects_wipe : Respects frame (wipe : Action σ Unit) := by
  refine (guards.listing.bind fun _ => .pure _).bind fun keys => ?_
  exact (guards.respects_deletePayloads keys).bind fun _ => guards.respects_clear

theorem respects_reset : Respects frame.onFirst (reset : Action (σ × Shelf) Unit) :=
  (respects_onFirst guards.respects_wipe).bind fun _ s => frame.refl s.1

theorem respects_recover (settings : Settings) :
    Respects frame (recover settings : Action σ Nat) := by
  refine (respects_ofExcept _).bind fun _ => guards.respects_setUp.bind fun _ => ?_
  refine .ite (fun _ => guards.respects_wipe.bind fun _ => .pure 0) fun _ => ?_
  exact guards.respects_walk.bind fun _ => .pure _

theorem respects_openOn (settings : Settings) :
    Respects frame (openOn settings : Action σ Shelf) := by
  intro s
  obtain ⟨result, run⟩ := exists_runs (openOn settings : Action σ Shelf) s
  have recovering := guards.respects_recover settings
  rcases openOn_cases run with ⟨size, s₁, shelf, answer, recovered, reconciled, -⟩ | ⟨e, failed, -⟩
  · exact frame.trans (recovering.run recovered) (guards.respects_reconcile.run reconciled)
  · exact recovering.run failed

theorem respects_settle (key : Key) (linked : Bool) :
    Respects frame.onFirst (settle key linked : Action (σ × Shelf) Nat) := by
  cases linked with
  | true =>
    exact (respects_onFirst (guards.respects_promote key)).bind fun _ =>
      (respects_tell .update).bind fun _ => guards.respects_reconcile
  | false =>
    have inserting := respects_orCleanUp (guards.respects_insert key) (guards.discarding key)
    exact (respects_onFirst inserting).bind fun _ =>
      .bind (fun s => frame.refl s.1) fun _ => guards.respects_reconcile

theorem respects_put (writing : Respects frame (Payloads.write key bytes : Action σ Unit)) :
    Respects frame.onFirst (put key bytes : Action (σ × Shelf) Nat) := by
  have storing : Respects frame (storePayload key bytes : Action σ Bool) :=
    respects_orCleanUp (writing.bind fun _ => guards.toLooks.respects_contains key)
      (guards.discarding key)
  rw [put_eq_settle]
  exact (respects_ofExcept _).bind fun _ => (respects_onFirst storing).bind fun linked =>
    guards.respects_settle key linked

end Guards

end GlyphShelf.Shelf

import GlyphShelf.Proofs.Ring.Agreement
import GlyphShelf.Proofs.Shelf.Guards

/-!
# Shelves on devices that agree

A shelf does with its device what payloads and a ring do with it, and decides by what it holds in
memory. So on devices that are alike, shelves that start with the same memory end alike: with the
same answers, with failures that may stand for each other, and with the same memory again, also
after a failure. The rings and payloads need not be sound.
-/

namespace GlyphShelf.Alike

open Comparison GlyphShelf.Shelf

variable {σ η τ θ α β : Type} [Device σ η] [Device τ θ] {l : Likeness σ η τ θ} {room : Nat}
variable {values : α → β → σ → τ → Prop} {key : Key} {bytes : Bytes} (alike : Alike l room)

include alike

/-! ## Keeping within the capacity -/

omit [Device σ η] [Device τ θ] alike in
theorem agrees_tell (event : Tally.Event) : (l.sharing Shelf).Agrees l.told Same
    (tell event : Action (σ × Shelf) Unit) (tell event : Action (τ × Shelf) Unit) :=
  agrees_second (fun _ => ()) fun shelf : Shelf => shelf.record event

theorem agrees_dropOldest : (l.sharing Shelf).Agrees l.told Same
    (dropOldest : Action (σ × Shelf) Unit) (dropOldest : Action (τ × Shelf) Unit) := by
  refine Agrees.bind (agrees_onFirst alike.agrees_evict) fun victim => ?_
  refine Agrees.bind (agrees_second (fun _ => ()) fun shelf : Shelf =>
    { shelf with size := shelf.size - 1 }.record .eviction) fun _ => ?_
  exact agrees_onFirst (agrees_allowAbsence l.absence (alike.agrees_delete victim))

theorem agrees_dropExcess (drops : Nat) : (l.sharing Shelf).Agrees l.told Same
    (dropExcess drops : Action (σ × Shelf) Unit) (dropExcess drops : Action (τ × Shelf) Unit) := by
  induction drops with
  | zero => exact .pure ()
  | succ drops ih =>
    rintro ⟨s, shelf⟩ ⟨t, shelf'⟩ ⟨agree, same⟩
    obtain rfl : shelf = shelf' := same
    by_cases fits : shelf.size ≤ shelf.capacity
    · exact ⟨.ok (), .ok (), (s, shelf), (t, shelf), dropExcess_of_within _ fits,
        dropExcess_of_within _ fits, ⟨agree, rfl⟩, l.later.refl _, .ok rfl⟩
    · obtain ⟨result, result', s', t', run, run', rest⟩ :=
        (alike.agrees_dropOldest.bind fun _ => ih) (s, shelf) (t, shelf) ⟨agree, rfl⟩
      exact ⟨result, result', s', t', (dropExcess_of_beyond drops fits).trans run,
        (dropExcess_of_beyond drops fits).trans run', rest⟩

theorem agrees_reconcile : (l.sharing Shelf).Agrees l.told Same
    (reconcile : Action (σ × Shelf) Nat) (reconcile : Action (τ × Shelf) Nat) := by
  have keeping : (l.sharing Shelf).Agrees l.told Same
      (keepWithin : Action (σ × Shelf) Unit) (keepWithin : Action (τ × Shelf) Unit) := by
    rintro ⟨s, shelf⟩ ⟨t, shelf'⟩ ⟨agree, same⟩
    obtain rfl : shelf = shelf' := same
    exact alike.agrees_dropExcess shelf.size (s, shelf) (t, shelf) ⟨agree, rfl⟩
  exact keeping.bind fun _ => agrees_second Shelf.size id

/-! ## Opening and wiping -/

theorem agrees_wipe : l.Agrees l.told Same
    (wipe : Action σ Unit) (wipe : Action τ Unit) := by
  have enumerating : l.Agrees l.told (fun keys keys' _ _ => l.Agrees l.told Same
        (deletePayloads keys : Action σ Unit) (deletePayloads keys' : Action τ Unit))
      (Payloads.enumerate : Action σ (List Key)) (Payloads.enumerate : Action τ (List Key)) := by
    refine alike.listing.bindRelated fun names names' s t agree same => .pure agree ?_
    exact alike.sweepingPayloads names names' same
  refine enumerating.bindRelated fun keys keys' s t agree sweeping => ?_
  exact Agrees.bind sweeping (fun _ => alike.agrees_clear) s t agree

theorem agrees_recover {settings : Settings}
    (refusing : ∀ e, settings.validate = .error e → l.told e e) : l.Agrees l.told Same
      (recover settings : Action σ Nat) (recover settings : Action τ Nat) := by
  refine Agrees.bind (agrees_ofExcept refusing) fun _ => alike.agrees_setUp.bind fun _ => ?_
  refine .ite (fun _ => alike.agrees_wipe.bind fun _ => .pure 0) fun _ => ?_
  exact alike.agrees_walk.bind fun _ => .pure _

theorem agrees_openOn {settings : Settings}
    (refusing : ∀ e, settings.validate = .error e → l.told e e) : l.Agrees l.told Same
      (openOn settings : Action σ Shelf) (openOn settings : Action τ Shelf) := by
  rw [openOn_eq, openOn_eq]
  exact (alike.agrees_recover refusing).bind fun _ => agrees_keeping alike.agrees_reconcile _

theorem agrees_reset : (l.sharing Shelf).Agrees l.told Same
    (reset : Action (σ × Shelf) Unit) (reset : Action (τ × Shelf) Unit) :=
  Agrees.bind (agrees_onFirst alike.agrees_wipe) fun _ =>
    agrees_second (fun _ => ()) fun shelf : Shelf => { capacity := shelf.capacity }

/-! ## Storing -/

theorem agrees_storePayload (key : Key) (fits : bytes.length ≤ room) : l.Agrees l.told Same
    (storePayload key bytes : Action σ Bool) (storePayload key bytes : Action τ Bool) :=
  agrees_orCleanUp ((alike.agrees_write key fits).bind fun _ => alike.agrees_hasLink key)
    (alike.agrees_delete key)

theorem agrees_settle (key : Key) (linked : Bool) : (l.sharing Shelf).Agrees l.told Same
    (settle key linked : Action (σ × Shelf) Nat) (settle key linked : Action (τ × Shelf) Nat) := by
  cases linked with
  | true =>
    refine Agrees.bind (agrees_onFirst (alike.agrees_promote key)) fun _ => ?_
    exact (agrees_tell .update).bind fun _ => alike.agrees_reconcile
  | false =>
    refine Agrees.bind (agrees_onFirst (agrees_orCleanUp (alike.agrees_insert key)
      (alike.agrees_delete key))) fun _ => ?_
    refine Agrees.bind (agrees_second (fun _ => ()) fun shelf : Shelf =>
      { shelf with size := shelf.size + 1 }.record .insert) fun _ => ?_
    exact alike.agrees_reconcile

theorem agrees_put (key : Key) (fits : bytes.length ≤ room) : (l.sharing Shelf).Agrees l.told Same
    (put key bytes : Action (σ × Shelf) Nat) (put key bytes : Action (τ × Shelf) Nat) := by
  rw [put_eq_settle, put_eq_settle]
  have refusing : (l.sharing Shelf).Agrees l.told Same
      (Action.ofExcept key.requireGlyph : Action (σ × Shelf) Unit)
      (Action.ofExcept key.requireGlyph : Action (τ × Shelf) Unit) :=
    agrees_ofExcept fun _ refused => alike.raising _ (.of_requireGlyph refused)
  refine Agrees.bind refusing fun _ => ?_
  exact Agrees.bind (agrees_onFirst (alike.agrees_storePayload key fits)) fun linked =>
    alike.agrees_settle key linked

/-! ## Reading -/

omit [Device σ η] [Device τ θ] alike in
theorem agrees_orMiss {act : Action σ α} {act' : Action τ β}
    (agrees : l.Agrees l.told values act act') :
    (l.sharing Shelf).Agrees l.told (fun a b p q => values a b p.1 q.1)
      (orMiss act) (orMiss act') := by
  rintro ⟨s, shelf⟩ ⟨t, shelf'⟩ ⟨agree, same⟩
  obtain rfl : shelf = shelf' := same
  obtain ⟨result, result', s', t', run, run', agree', lasted, matched⟩ := agrees s t agree
  cases matched with
  | ok related =>
    exact ⟨_, _, (s', shelf), (t', shelf), runs_orMiss run nofun shelf,
      runs_orMiss run' nofun shelf, ⟨agree', rfl⟩, lasted, .ok related⟩
  | @error e e' related =>
    by_cases absent : e = .notFound
    · obtain rfl := (l.absence related).1 absent
      subst absent
      exact ⟨_, _, (s', shelf.record .miss), (t', shelf.record .miss),
        runs_orMiss_of_absent run shelf, runs_orMiss_of_absent run' shelf, ⟨agree', rfl⟩, lasted,
        .error related⟩
    · have present' : e' ≠ .notFound := fun absent' => absent ((l.absence related).2 absent')
      refine ⟨_, _, (s', shelf), (t', shelf), runs_orMiss run ?_ shelf, runs_orMiss run' ?_ shelf,
        ⟨agree', rfl⟩, lasted, .error related⟩
      · exact fun same => absent (Except.error.inj same)
      · exact fun same => present' (Except.error.inj same)

/-- What was read has to be related still when the key was promoted. -/
theorem agrees_use {act : Action σ α} {act' : Action τ β} (key : Key)
    (lasting : ∀ {a b s t s' t'}, values a b s t → l.later.allows (s, t) (s', t') →
      values a b s' t') (agrees : l.Agrees l.told values act act') :
    (l.sharing Shelf).Agrees l.told (fun a b p q => values a b p.1 q.1)
      (use key act) (use key act') := by
  intro p q agree
  refine (agrees_orMiss agrees p q agree).bind fun a b p₁ q₁ agree₁ _ related => ?_
  refine (agrees_onFirst (alike.agrees_promote key) p₁ q₁ agree₁).bind
    fun _ _ p₂ q₂ agree₂ lasted₂ _ => ?_
  refine (agrees_tell .hit p₂ q₂ agree₂).bind fun _ _ p₃ q₃ agree₃ lasted₃ _ => ?_
  exact .pure agree₃ (lasting related (l.later.trans lasted₂ lasted₃))

theorem agrees_get (key : Key) : (l.sharing Shelf).Agrees l.told Same
    (get key : Action (σ × Shelf) Bytes) (get key : Action (τ × Shelf) Bytes) :=
  alike.agrees_use key (fun same _ => same) (alike.agrees_read key)

theorem agrees_openEntry (key : Key) :
    (l.sharing Shelf).Agrees l.told (fun h k p q => l.records h k p.1 q.1)
      (openEntry key : Action (σ × Shelf) η) (openEntry key : Action (τ × Shelf) θ) :=
  alike.agrees_use key l.lasting (alike.agrees_openPayload key)

/-! ## Looking -/

theorem agrees_contains (key : Key) : (l.sharing Shelf).Agrees l.told Same
    (contains key : Action (σ × Shelf) Bool) (contains key : Action (τ × Shelf) Bool) :=
  .ite (fun _ => .pure false) fun _ => agrees_onFirst (alike.agrees_hasLink key)

theorem agrees_keys : (l.sharing Shelf).Agrees l.told Same
    (keys : Action (σ × Shelf) (List Key)) (keys : Action (τ × Shelf) (List Key)) :=
  agrees_onFirst alike.agrees_walk

theorem agrees_checkShelf {found : Breach → Breach → Prop}
    (failing : ∀ e e', l.told e e' → found (.failed e) (.failed e'))
    (finding : ∀ breach, found breach breach) : (l.sharing Shelf).Agrees found Same
      (check : Examination (σ × Shelf) Unit) (check : Examination (τ × Shelf) Unit) := by
  rintro ⟨s, shelf⟩ ⟨t, shelf'⟩ ⟨agree, same⟩
  obtain rfl : shelf = shelf' := same
  have counting (linked : List Key) : l.Agrees found Same
      (if linked.length = shelf.size then pure () else throw (.count shelf.size linked.length) :
        Examination σ Unit)
      (if linked.length = shelf.size then pure () else throw (.count shelf.size linked.length)) :=
    .ite (fun _ => .pure ()) fun _ => .throw (finding _)
  obtain ⟨result, result', s', t', run, run', agree', lasted, matched⟩ :=
    (alike.agrees_check failing finding).bind (fun _ =>
      Agrees.bind (agrees_ofAction failing alike.agrees_walk) counting) s t agree
  exact ⟨result, result', (s', shelf), (t', shelf), runs_check_of_examined run,
    runs_check_of_examined run', ⟨agree', rfl⟩, lasted, matched⟩

end GlyphShelf.Alike

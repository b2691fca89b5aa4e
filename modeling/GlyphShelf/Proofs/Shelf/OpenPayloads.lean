import GlyphShelf.Proofs.Archives

/-!
# Payloads that are open

What storing does to a payload that somebody has open. The record under a key is emptied before it
is written again, and by whoever holds it this is seen. But once storing is over, the record holds
the new payload, or it has lost its name: a payload that could not be written is deleted. So a
record that is found under its name is always whole, and one that lost its name stays as it was.
-/

namespace GlyphShelf.Shelf

variable {σ η ν : Type} [Ord ν] {archive : Archive σ η ν}
variable {s s₁ s' : σ} {key : Key} {bytes content : Bytes} {ref : Cabinet.Ref ν}
variable {whole : Bytes → Prop} {shelf : Shelf}

/-- No payload is under the key. -/
def Vacant (archive : Archive σ η ν) (key : Key) (s : σ) : Prop :=
  ∀ ref, archive.place s (.payload key) = some ref.name → ¬ (archive.cabinet s).Holds ref

/-- The device works, and what is under the key is whole. -/
structure Orderly (archive : Archive σ η ν) (whole : Bytes → Prop) (key : Key) (s : σ) : Prop where
  sound : (archive.cabinet s).Sound
  healthy : archive.Healthy s
  whole : ∀ ref, archive.place s (.payload key) = some ref.name → (archive.cabinet s).Holds ref →
    whole ((archive.cabinet s).read ref).bytes

/-- A reference to a payload of the key shows so many bytes, under its name or without it. -/
structure Shows (archive : Archive σ η ν) (key : Key) (ref : Cabinet.Ref ν) (content : Bytes)
    (s : σ) : Prop where
  placed : archive.place s (.payload key) = some ref.name
  issued : (archive.cabinet s).Issued ref
  read : ((archive.cabinet s).read ref).bytes = content

section

variable (keeps : archive.Keeps (.payload key) s s')

include keeps

theorem Vacant.of_keeps (vacant : Vacant archive key s) : Vacant archive key s' := by
  intro ref placed held
  rw [keeps.place] at placed
  exact vacant ref placed (keeps.spares.stays ref placed held)

theorem Orderly.of_keeps (orderly : Orderly archive whole key s) :
    Orderly archive whole key s' where
  sound := keeps.spares.sound orderly.sound
  healthy := keeps.healthy orderly.healthy
  whole ref placed held := by
    rw [keeps.place] at placed
    have before := keeps.spares.stays ref placed held
    rw [keeps.spares.read ref (orderly.sound ref before) (.inl placed)]
    exact orderly.whole ref placed before

theorem Shows.of_keeps (shows : Shows archive key ref content s) :
    Shows archive key ref content s' where
  placed := keeps.place ▸ shows.placed
  issued := keeps.spares.issued ref shows.issued
  read := by rw [keeps.spares.read ref shows.issued (.inl shows.placed), shows.read]

end

theorem Vacant.orderly (vacant : Vacant archive key s) (sound : (archive.cabinet s).Sound)
    (healthy : archive.Healthy s) : Orderly archive whole key s :=
  ⟨sound, healthy, fun ref placed held => absurd held (vacant ref placed)⟩

/-- A record that is given whole contents is whole, and nothing else changes. -/
theorem orderly_of_refills {contents : Contents} (orderly : Orderly archive whole key s)
    (refills : archive.Refills (.payload key) contents s s') (member : whole contents.bytes) :
    Orderly archive whole key s' := by
  obtain ⟨p, placed, fills⟩ := refills.fills
  refine ⟨(fills.spares none nofun).sound orderly.sound, refills.healthy orderly.healthy,
    fun ref placed' held => ?_⟩
  rw [refills.place, placed] at placed'
  cases placed'
  rw [fills.there ref held]
  exact member

/-- Who has the record open that is given new contents sees them. -/
theorem Shows.refilled {contents : Contents} (shows : Shows archive key ref content s)
    (refills : archive.Refills (.payload key) contents s s')
    (held : (archive.cabinet s).Holds ref) : Shows archive key ref contents.bytes s' := by
  obtain ⟨p, placed, fills⟩ := refills.fills
  obtain rfl := Option.some.inj (shows.placed.symm.trans placed)
  exact ⟨refills.place ▸ shows.placed, (fills.spares none nofun).issued ref shows.issued,
    congrArg Contents.bytes (fills.there ref (fills.keeps ref held))⟩

/-- Who has a record open that lost its name sees nothing of it. -/
theorem Shows.of_refills {contents : Contents} (shows : Shows archive key ref content s)
    (refills : archive.Refills (.payload key) contents s s')
    (lost : ¬ (archive.cabinet s).Holds ref) : Shows archive key ref content s' := by
  obtain ⟨p, placed, fills⟩ := refills.fills
  refine ⟨refills.place ▸ shows.placed, (fills.spares none nofun).issued ref shows.issued, ?_⟩
  rw [(fills.spares none nofun).read ref shows.issued (.inr lost), shows.read]

/-! ## Storing -/

variable [Device σ η]

/-- The device has room for the payload and writes it. -/
def Takes (s : σ) (key : Key) (bytes : Bytes) : Prop :=
  ∃ s', Runs (Payloads.write key bytes) s (.ok ()) s'

instance (s : σ) (key : Key) (bytes : Bytes) : Decidable (Takes s key bytes) :=
  match written : (Payloads.write key bytes : Action σ Unit) s with
  | .ok () s' => .isTrue ⟨s', written⟩
  | .error _ _ => .isFalse fun ⟨_, run⟩ => nomatch written.symm.trans run

variable [Std.TransOrd ν] [Std.LawfulEqOrd ν] [DecidableEq ν] (lawful : archive.Lawful)

include lawful

theorem vacant_of_delete (healthy : archive.Healthy s) (glyph : ¬ key.IsAnchor)
    {result : Except Failure Unit} (run : Runs (Payloads.delete key) s result s') :
    Vacant archive key s' := by
  rw [Payloads.delete, Action.requireGlyph_bind glyph] at run
  have keeps : archive.Keeps (.payload key) s s' := (lawful.respects_delete _).run run
  intro ref placed
  exact lawful.deleted healthy run ref (keeps.place ▸ placed)

/-- Once the payload is written, nothing more is written to it. -/
theorem keeps_of_written {result : Except Failure Bool}
    (writing : Runs (Payloads.write key bytes) s (.ok ()) s₁)
    (run : Runs (storePayload key bytes) s result s') : archive.Keeps (.payload key) s₁ s' := by
  have guards := lawful.guards_keeping key
  obtain ⟨asked, asking⟩ := exists_runs (Ring.contains key : Action σ Bool) s₁
  have looking := guards.toLooks.respects_contains key s₁
  cases asked with
  | ok linked =>
    obtain ⟨-, rfl⟩ := run.deterministic (Action.runs_orCleanUp (writing.bind asking))
    exact looking
  | error e =>
    obtain ⟨cleaned, cleaning⟩ := exists_runs (Payloads.delete key : Action σ Unit)
      (stateAfter (Ring.contains key : Action σ Bool) s₁)
    obtain ⟨-, rfl⟩ := run.deterministic
      (Action.runs_orCleanUp_of_error (writing.bind asking) cleaning)
    exact looking.trans (guards.discarding key _)

/-- Storing a payload leaves the record alone, or it gives it new contents; these are the payload
if the device takes it, and otherwise the record loses its name. -/
theorem cases_of_storePayload (healthy : archive.Healthy s) (glyph : ¬ key.IsAnchor)
    {result : Except Failure Bool} (run : Runs (storePayload key bytes) s result s') :
    archive.Keeps (.payload key) s s' ∨ ∃ s₁ contents,
      archive.Refills (.payload key) contents s s₁ ∧ archive.Keeps (.payload key) s₁ s' ∧
      (Takes s key bytes ∧ contents.bytes = bytes ∨
        ¬ Takes s key bytes ∧ Vacant archive key s') := by
  obtain ⟨written, writing⟩ := exists_runs (Payloads.write key bytes : Action σ Unit) s
  generalize stateAfter (Payloads.write key bytes : Action σ Unit) s = s₁ at writing
  have replacing := writing
  rw [Payloads.write, Action.requireGlyph_bind glyph] at replacing
  cases written with
  | ok _ =>
    rcases lawful.refills_of_replace replacing with ⟨⟨e, failed⟩, -⟩ | ⟨contents, refills, wrote⟩
    · cases failed
    · exact .inr ⟨s₁, contents, refills, keeps_of_written lawful writing run,
        .inl ⟨⟨s₁, writing⟩, wrote rfl⟩⟩
  | error e =>
    have discarding := (lawful.guards_keeping key).discarding key s₁
    obtain ⟨cleaned, cleaning⟩ := exists_runs (Payloads.delete key : Action σ Unit) s₁
    obtain ⟨-, rfl⟩ := run.deterministic
      (Action.runs_orCleanUp_of_error writing.bind_error cleaning)
    have refused : ¬ Takes s key bytes := fun ⟨_, taken⟩ =>
      nomatch (writing.deterministic taken).1
    rcases lawful.refills_of_replace replacing with ⟨-, same⟩ | ⟨contents, refills, -⟩
    · exact .inl (same.keeps_of_same.trans discarding)
    · refine .inr ⟨s₁, contents, refills, discarding, .inr ⟨refused, ?_⟩⟩
      exact vacant_of_delete lawful (refills.healthy healthy) glyph cleaning

/-- After storing, what is under the key is whole. -/
theorem orderly_storePayload (glyph : ¬ key.IsAnchor) (member : Takes s key bytes → whole bytes)
    (orderly : Orderly archive whole key s) :
    Orderly archive whole key (stateAfter (storePayload key bytes) s) := by
  obtain ⟨result, run⟩ := exists_runs (storePayload key bytes : Action σ Bool) s
  rcases cases_of_storePayload lawful orderly.healthy glyph run with keeps |
    ⟨s₁, contents, refills, keeps, ⟨taken, rfl⟩ | ⟨-, vacant⟩⟩
  · exact orderly.of_keeps keeps
  · exact (orderly_of_refills orderly refills (member taken)).of_keeps keeps
  · obtain ⟨p, -, fills⟩ := refills.fills
    have sound := (fills.spares none nofun).sound orderly.sound
    exact vacant.orderly (keeps.spares.sound sound)
      (keeps.healthy (refills.healthy orderly.healthy))

/-- Storing shows the payload to who has the record open that is stored under the key, and nothing
to who has another one open. -/
theorem shows_storePayload (glyph : ¬ key.IsAnchor) (healthy : archive.Healthy s)
    (shows : Shows archive key ref content s)
    (taken : (archive.cabinet s).Holds ref → Takes s key bytes) :
    Shows archive key ref content (stateAfter (storePayload key bytes) s) ∨
      (archive.cabinet s).Holds ref ∧
        Shows archive key ref bytes (stateAfter (storePayload key bytes) s) := by
  obtain ⟨result, run⟩ := exists_runs (storePayload key bytes : Action σ Bool) s
  rcases cases_of_storePayload lawful healthy glyph run with keeps |
    ⟨s₁, contents, refills, keeps, wrote⟩
  · exact .inl (shows.of_keeps keeps)
  · by_cases held : (archive.cabinet s).Holds ref
    · rcases wrote with ⟨-, rfl⟩ | ⟨refused, -⟩
      · exact .inr ⟨held, (shows.refilled refills held).of_keeps keeps⟩
      · exact absurd (taken held) refused
    · exact .inl ((shows.of_refills refills held).of_keeps keeps)

/-- What comes after storing the payload is no concern of who reads it. -/
theorem keeps_of_put (glyph : ¬ key.IsAnchor) (bytes : Bytes) (s : σ) (shelf : Shelf) :
    archive.Keeps (.payload key) (stateAfter (storePayload key bytes) s)
      (stateAfter (put key bytes) (s, shelf)).1 := by
  rw [put_eq_settle, Action.requireGlyph_bind glyph]
  rcases stateAfter_bind (Action.onFirst (storePayload key bytes)) (settle key) (s, shelf) with
    failed | ⟨linked, s₁, run, ended⟩
  · rw [failed, stateAfter_onFirst]
    exact (archive.keeping _).refl _
  · rw [ended, run.of_onFirst.1.stateAfter_eq]
    exact (lawful.guards_keeping key).respects_settle key linked s₁

/-! ## Opening cold -/

theorem vacant_of_deletePayloads {keys : List Key} (glyph : ¬ key.IsAnchor) (member : key ∈ keys)
    (healthy : archive.Healthy s) (run : Runs (deletePayloads keys) s (.ok ()) s') :
    Vacant archive key s' := by
  have guards := lawful.guards_keeping key
  induction keys generalizing s with
  | nil => exact absurd member List.not_mem_nil
  | cons victim keys ih =>
    obtain ⟨_, s₁, deleting, rest⟩ := run.bind_ok
    rcases List.mem_cons.1 member with rfl | later
    · obtain ⟨result, run⟩ := exists_runs (Payloads.delete key : Action σ Unit) s
      rw [← stateAfter_allowAbsence, deleting.stateAfter_eq] at run
      exact (vacant_of_delete lawful healthy glyph run).of_keeps
        ((guards.respects_deletePayloads keys).run rest)
    · have keeps := (respects_allowAbsence (guards.discarding victim)).run deleting
      exact ih later (keeps.healthy healthy) rest

/-- A payload that is not deleted was not there. -/
theorem vacant_of_wipe (glyph : ¬ key.IsAnchor) (healthy : archive.Healthy s)
    (run : Runs wipe s (.ok ()) s') : Vacant archive key s' := by
  have guards := lawful.guards_keeping key
  obtain ⟨keys, s₁, enumerating, rest⟩ := run.bind_ok
  obtain ⟨names, s₂, listing, picking⟩ := enumerating.bind_ok
  obtain ⟨picked, rfl⟩ := picking.deterministic (.pure _ _)
  obtain rfl := Except.ok.inj picked
  obtain ⟨_, s₂, deleting, clearing⟩ := rest.bind_ok
  obtain ⟨same, listed⟩ := lawful.listing listing
  refine Vacant.of_keeps (guards.respects_clear.run clearing) ?_
  by_cases member : key ∈ names.filterMap RecordName.glyph?
  · exact vacant_of_deletePayloads lawful glyph member (same.healthy healthy) deleting
  · refine Vacant.of_keeps ((guards.respects_deletePayloads _).run deleting) ?_
    intro ref placed held
    rw [same.place] at placed
    rw [same.cabinet] at held
    have named := listed names (.payload key) ref rfl placed held
    refine member (List.mem_filterMap.2 ⟨_, named, ?_⟩)
    simp [RecordName.glyph?, glyph]

/-- A shelf that was opened cold starts without payloads. -/
theorem vacant_of_openOn {settings : Settings} {shelf : Shelf} (cold : settings.cold = true)
    (glyph : ¬ key.IsAnchor) (healthy : archive.Healthy s)
    (run : Runs (openOn settings) s (.ok shelf) s') : Vacant archive key s' := by
  have guards := lawful.guards_keeping key
  rcases openOn_cases run with ⟨size, s₁, shelf', answer, recovered, reconciled, -⟩ | ⟨e, -, failed⟩
  · have keeps := guards.respects_reconcile.run reconciled
    refine Vacant.of_keeps keeps ?_
    obtain ⟨_, s₂, checking, setting⟩ := recovered.bind_ok
    obtain ⟨-, rfl⟩ := checking.deterministic (Action.runs_ofExcept _ _)
    obtain ⟨_, s₃, setting, wiping⟩ := setting.bind_ok
    have keeps := guards.respects_setUp.run setting
    rw [if_pos cold] at wiping
    obtain ⟨_, s₄, wiped, ended⟩ := wiping.bind_ok
    obtain ⟨-, rfl⟩ := ended.deterministic (.pure _ _)
    exact vacant_of_wipe lawful glyph (keeps.healthy healthy) wiped
  · cases failed

end GlyphShelf.Shelf

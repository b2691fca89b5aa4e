import GlyphShelf.Proofs.Doubles
import GlyphShelf.Proofs.Mirrors
import GlyphShelf.Proofs.Shelf.Agreement
import GlyphShelf.Proofs.Shelf.Wiping

/-!
# The device in memory and its twin

A device in memory without limits and a directory with a plain folder are twins when the same
records are in both. They answer alike: each operation finds the same record or none, and leaves
twins again. What was opened on both beforehand reads the same afterwards, also if its record was
deleted, created anew or emptied in the meantime. Only the order of a listing tells twins apart,
and what is done with a listing does not depend on its order.

Twins are doubles, whatever further references are kept in mind as a pair, and what an operation
does to doubles it does to twins. It only remains to see that records stay small, so that the
directory refuses no position.
-/

namespace GlyphShelf

open Comparison Device
open Directory (Ordinary safeSize)
open Cabinet (Mirrors Paired Modest)

/-- The records of a device in memory are the files in the folder of a directory. -/
structure Twins (folder : Nat) (m : Memory) (d : Directory) : Prop where
  unlimited : m.quota = none
  faultless : m.fault = none
  plain : d.Plain folder
  mirrors : Mirrors folder m.cabinet d.files

namespace Twins

variable {folder : Nat} {m m' : Memory} {d d' : Directory} {name : String} {bytes : Bytes}
variable {h : Memory.Handle} {k : Directory.Handle}
variable {α β : Type}

/-- Twins agree, and references that were paired stay so. -/
def likeness (folder : Nat) : Likeness Memory Memory.Handle Directory Directory.Handle where
  agree := Twins folder
  later :=
    { allows := fun p p' => ∀ ref ref', Paired folder ref ref' p.1.cabinet p.2.files →
        Paired folder ref ref' p'.1.cabinet p'.2.files
      refl := fun _ _ _ => id
      trans := fun first second ref ref' => second ref ref' ∘ first ref ref' }
  records h k m d := ∃ ref', k = ⟨.file ref', h.pos, h.writable⟩ ∧
    Paired folder h.ref ref' m.cabinet d.files ∧ h.pos ≤ safeSize
  lasting := by
    rintro h k m d m' d' ⟨ref', rfl, paired, within⟩ lasted
    exact ⟨ref', rfl, lasted h.ref ref' paired, within⟩
  told := Eq
  absence := by
    rintro e e' rfl
    exact .rfl
  listings names names' := (∀ name, name ∈ names ↔ name ∈ names') ∧ ∀ name ∈ names, Ordinary name

/-! ## From doubles to twins -/

theorem doubles (twins : Twins folder m d) :
    Doubles folder (Cabinet.Namesakes folder m.cabinet d.files) m d :=
  ⟨twins.unlimited, twins.faultless, twins.plain,
    .of_same twins.mirrors.sound twins.mirrors.sound' twins.mirrors.same⟩

/-- Whatever leaves doubles of doubles leaves twins of twins, if the records stay small. Which pairs
there are must not matter, because any two references may be a pair. -/
theorem after (twins : Twins folder m d) (modest : Modest m.cabinet m'.cabinet)
    (left : ∀ {pairs}, Doubles folder pairs m d →
      ∃ more, (∀ r r', pairs r r' → more r r') ∧ Doubles folder more m' d') :
    Twins folder m' d' ∧ (likeness folder).later.allows (m, d) (m', d') := by
  have doubles := twins.doubles
  obtain ⟨more, -, last⟩ := left doubles
  refine ⟨⟨last.unlimited, last.faultless, last.plain, last.couples.sound, last.couples.sound',
    last.couples.same, modest.usable twins.mirrors.usable⟩, fun ref ref' paired => ?_⟩
  have including := doubles.couples.including paired.toCoupled
  obtain ⟨more, grown, last⟩ :=
    left ⟨doubles.unlimited, doubles.faultless, doubles.plain, including⟩
  exact ⟨last.couples.coupled (grown ref ref' (.inr ⟨rfl, rfl⟩)),
    modest.small ref paired.issued paired.small⟩

/-- Actions that end together on doubles agree on twins. -/
theorem agreesFrom {values : α → β → Memory → Directory → Prop}
    {seen : (Cabinet.Ref String → Cabinet.Ref Place → Prop) → α → β → Prop} {act : Action Memory α}
    {act' : Action Directory β} (twins : Twins folder m d)
    (acting : ∀ {pairs}, Doubles folder pairs m d → ∃ more, (∀ r r', pairs r r' → more r r') ∧
      EndsTogether Eq (Doubles folder more) (seen more) act act' m d)
    (modest : ∀ {result m'}, Runs act m result m' → Modest m.cabinet m'.cabinet)
    (weaker : ∀ {more a b m' d'}, Runs act m (.ok a) m' → Twins folder m' d' →
      Doubles folder more m' d' → seen more a b → values a b m' d') :
    (likeness folder).AgreesFrom Eq values act act' m d := by
  obtain ⟨more, -, result, result', m', d', run, run', doubles, matched⟩ := acting twins.doubles
  obtain ⟨twins', lasted⟩ := twins.after (modest run) fun before => by
    obtain ⟨more, grown, ending⟩ := acting before
    exact ⟨more, grown, ending.related_of_runs run run'⟩
  refine ⟨result, result', m', d', run, run', twins', lasted, ?_⟩
  cases matched with
  | ok same => exact .ok (weaker run twins' doubles same)
  | error same => exact .error same

/-! ## Opening -/

/-- Records that were opened just now: they are under their names still. -/
structure Fresh (folder : Nat) (access : Access) (h : Memory.Handle) (k : Directory.Handle)
    (m : Memory) (d : Directory) : Prop where
  records : (likeness folder).records h k m d
  held : m.cabinet.Holds h.ref
  start : h.pos = 0
  writable : h.writable = access.writes

theorem modest_openRecord {result : Except Failure Memory.Handle} {access : Access}
    (ordinary : Ordinary name) (run : Runs (openRecord name access) m result m') :
    Modest m.cabinet m'.cabinet := by
  cases Memory.opened_of_openRecord run with
  | created missing => exact Cabinet.modest_create ordinary missing (Nat.zero_le _)
  | emptied ref found =>
    obtain ⟨-, held⟩ := Cabinet.holds_of_ref? found
    exact Cabinet.modest_write held (Nat.zero_le _)
  | _ => exact Cabinet.modest_refl m.cabinet

theorem holds_of_openRecord {access : Access} (run : Runs (openRecord name access) m (.ok h) m') :
    m'.cabinet.Holds h.ref := by
  cases Memory.opened_of_openRecord run with
  | created missing => exact (Cabinet.holds_create_iff _).2 (if_pos rfl ▸ rfl)
  | emptied ref found =>
    exact (Cabinet.holds_write_iff _ _ _).2 (Cabinet.holds_of_ref? found).2
  | found ref found => exact (Cabinet.holds_of_ref? found).2

theorem agrees_openRecord (ordinary : Ordinary name) (access : Access) :
    (likeness folder).Agrees Eq (Fresh folder access)
      (openRecord name access : Action Memory Memory.Handle)
      (openRecord name access : Action Directory Directory.Handle) := by
  intro m d twins
  refine twins.agreesFrom (fun doubles => doubles.openRecord ordinary access)
    (modest_openRecord ordinary) ?_
  rintro more h k m' d' run twins' doubles ⟨⟨ref', rfl, pair, -⟩, start, writable⟩
  have held := holds_of_openRecord run
  have small := (twins'.mirrors.usable _ _ (Cabinet.get?_of_holds held)).2
  have paired : Paired folder h.ref ref' m'.cabinet d'.files :=
    ⟨doubles.couples.coupled pair, small⟩
  exact ⟨⟨ref', rfl, paired, start.le.trans (Nat.zero_le _)⟩, held, start, writable⟩

/-! ## Open records -/

/-- Actions on open records that only move the cursor agree. -/
theorem agreesFrom_moved
    {values : α → β → Memory × Memory.Handle → Directory × Directory.Handle → Prop}
    {act : Action (Memory × Memory.Handle) α} {act' : Action (Directory × Directory.Handle) β}
    {result : Except Failure α} {result' : Except Failure β} {ref' : Cabinet.Ref Place} {pos : Nat}
    (twins : Twins folder m d) (paired : Paired folder h.ref ref' m.cabinet d.files)
    (run : Runs act (m, h) result (m', { h with pos }))
    (run' : Runs act' (d, k) result' (d, ⟨.file ref', pos, h.writable⟩))
    (left : m'.Boundless m.cabinet) (within : pos ≤ safeSize)
    (matched : Matched Eq (fun a b => values a b (m', { h with pos })
      (d, ⟨.file ref', pos, h.writable⟩)) result result') :
    (likeness folder).opened.AgreesFrom Eq values act act' (m, h) (d, k) := by
  obtain ⟨same, unlimited, faultless⟩ := left
  have mirrors : Mirrors folder m'.cabinet d.files := same ▸ twins.mirrors
  have lasting (r : Cabinet.Ref String) (r' : Cabinet.Ref Place)
      (other : Paired folder r r' m.cabinet d.files) : Paired folder r r' m'.cabinet d.files :=
    same ▸ other
  exact ⟨result, result', _, _, run, run', ⟨⟨unlimited, faultless, twins.plain, mirrors⟩, ref', rfl,
    lasting h.ref ref' paired, within⟩, lasting, matched⟩

theorem size_eq (related : (likeness folder).records h k m d) : size m h = size d k := by
  obtain ⟨ref', rfl, paired, -⟩ := related
  exact paired.size_eq

theorem agrees_read {count : Nat} (few : count ≤ safeSize) :
    (likeness folder).opened.Agrees Eq Same
      (read count : Action (Memory × Memory.Handle) Bytes)
      (read count : Action (Directory × Directory.Handle) Bytes) := by
  rintro ⟨m, h⟩ ⟨d, k⟩ ⟨twins, ref', rfl, paired, within⟩
  have within : h.pos ≤ safeSize := within
  have small : (m.cabinet.read h.ref).bytes.length ≤ safeSize := paired.small
  have reached : h.pos + count ≤ Directory.maxPosition := by
    unfold safeSize at *
    omega
  obtain ⟨m', reading, left⟩ := twins.doubles.boundless.runs_read h count
  have reading' := Directory.runs_read d ref' h.writable reached
  rw [paired.slice_eq] at reading'
  refine agreesFrom_moved twins paired reading reading' left ?_ (.ok rfl)
  dsimp only
  rw [Contents.slice_eq, Bytes.length_slice]
  omega

/-- Seeking moves the cursor and does nothing else. -/
theorem agreesFrom_seek {pos : Nat} (small : pos ≤ safeSize) (twins : Twins folder m d)
    (related : (likeness folder).records h k m d) :
    (likeness folder).opened.AgreesFrom Eq
      (fun _ _ p _ => p.1.cabinet = m.cabinet ∧ p.2 = { h with pos })
      (seek pos : Action (Memory × Memory.Handle) Unit)
      (seek pos : Action (Directory × Directory.Handle) Unit) (m, h) (d, k) := by
  obtain ⟨ref', rfl, paired, -⟩ := related
  obtain ⟨m', seeking, left⟩ := twins.doubles.boundless.runs_seek h pos
  have reached : pos ≤ Directory.maxPosition := by
    unfold safeSize at small
    omega
  exact agreesFrom_moved twins paired seeking (Directory.runs_seek d _ reached) left small
    (.ok ⟨left.cabinet, rfl⟩)

/-- A record that is still under its name is written to. Writing nothing is not the same as not
writing when the cursor stands behind the end. -/
theorem agreesFrom_write (twins : Twins folder m d) (related : (likeness folder).records h k m d)
    (held : m.cabinet.Holds h.ref) (writable : h.writable = true)
    (some : bytes = [] → h.pos = 0) (small : h.pos + bytes.length ≤ safeSize) :
    (likeness folder).opened.AgreesFrom Eq Same
      (write bytes : Action (Memory × Memory.Handle) Unit)
      (write bytes : Action (Directory × Directory.Handle) Unit) (m, h) (d, k) := by
  obtain ⟨ref', rfl, paired, -⟩ := related
  have reached : h.pos + bytes.length ≤ Directory.maxPosition := by
    unfold safeSize at small
    omega
  have acting {pairs : Cabinet.Ref String → Cabinet.Ref Place → Prop}
      (before : Doubles folder pairs m d) : EndsTogether Eq (Opened folder pairs) (fun _ _ => True)
        (write bytes : Action (Memory × Memory.Handle) Unit)
        (write bytes : Action (Directory × Directory.Handle) Unit) (m, h)
        (d, ⟨.file ref', h.pos, h.writable⟩) := by
    have pair := before.couples.pair_of_holds held (paired.holds.1 held) paired.name
    refine Opened.write_of_reached ⟨before, ref', rfl, pair, ?_⟩ writable reached fun nothing => ?_
    · exact Nat.le_of_add_right_le reached
    · exact (some nothing).le.trans (Nat.zero_le _)
  obtain ⟨m', writing, left⟩ := twins.doubles.boundless.runs_write writable bytes reached
  obtain ⟨result, result', last, ⟨d', k'⟩, run, run', ⟨doubles, ref'', same, pair, -⟩, matched⟩ :=
    acting twins.doubles
  obtain ⟨-, rfl⟩ := writing.deterministic run
  have modest : Modest m.cabinet m'.cabinet := by
    rw [left.cabinet]
    refine Cabinet.modest_write held ?_
    rw [Contents.bytes_overlay, Bytes.length_overlay]
    exact Nat.max_le.2 ⟨paired.small, small⟩
  obtain ⟨twins', lasted⟩ := twins.after modest fun before =>
    ⟨_, fun _ _ => id, ((acting before).related_of_runs run run').1⟩
  have paired' : Paired folder h.ref ref'' m'.cabinet d'.files :=
    ⟨doubles.couples.coupled pair, modest.small h.ref paired.issued paired.small⟩
  exact ⟨result, result', _, _, run, run', ⟨twins', ref'', same, paired', small⟩, lasted,
    matched.mono (fun _ _ => id) fun _ _ _ => rfl⟩

theorem closing : (likeness folder).Closing := by
  intro h k m d twins related
  refine twins.agreesFrom (fun doubles => ⟨_, fun _ _ => id, doubles.close h k⟩) (fun run => ?_)
    fun _ _ _ _ => rfl
  obtain ⟨m', closed, left⟩ := twins.doubles.boundless.runs_close h
  obtain ⟨-, rfl⟩ := run.deterministic closed
  exact left.cabinet ▸ Cabinet.modest_refl m.cabinet

/-! ## Changing records -/

theorem agrees_replace (ordinary : Ordinary name) (small : bytes.length ≤ safeSize) :
    (likeness folder).Agrees Eq Same
      (withRecord name .truncate (write bytes) : Action Memory Unit)
      (withRecord name .truncate (write bytes) : Action Directory Unit) := by
  refine Likeness.agrees_withRecord (agrees_openRecord ordinary .truncate) ?_ closing
  intro h k m d twins fresh
  refine agreesFrom_write twins fresh.records fresh.held fresh.writable (fun _ => fresh.start) ?_
  rw [fresh.start, Nat.zero_add]
  exact small

theorem agrees_overwrite (ordinary : Ordinary name) {pos : Nat} (some : bytes ≠ [])
    (small : pos + bytes.length ≤ safeSize) :
    (likeness folder).Agrees Eq Same
      (withRecord name .readWrite do seek pos; write bytes : Action Memory Unit)
      (withRecord name .readWrite do seek pos; write bytes : Action Directory Unit) := by
  refine Likeness.agrees_withRecord (agrees_openRecord ordinary .readWrite) ?_ closing
  intro h k m d twins fresh
  have within : pos ≤ safeSize := Nat.le_trans (Nat.le_add_right _ _) small
  refine (agreesFrom_seek within twins fresh.records).bind ?_
  rintro _ _ ⟨m₁, h₁⟩ ⟨d₁, k₁⟩ ⟨twins₁, related₁⟩ _ ⟨same, moved⟩
  obtain rfl : h₁ = { h with pos } := moved
  have held : m₁.cabinet.Holds h.ref := by
    rw [show m₁.cabinet = m.cabinet from same]
    exact fresh.held
  exact agreesFrom_write twins₁ related₁ held fresh.writable (fun none => absurd none some) small

/-! ## Deleting and listing -/

theorem agrees_delete (ordinary : Ordinary name) : (likeness folder).Agrees Eq Same
    (delete name : Action Memory Unit) (delete name : Action Directory Unit) := by
  intro m d twins
  refine twins.agreesFrom (fun doubles => ⟨_, fun _ _ => id, doubles.delete ordinary⟩)
    (fun run => ?_) fun _ _ _ _ => rfl
  cases Memory.deleted_of_delete run with
  | done =>
    exact Cabinet.modest_loses twins.mirrors.sound (Cabinet.loses_remove m.cabinet name)
  | _ => exact Cabinet.modest_refl m.cabinet

theorem agrees_list : (likeness folder).Agrees Eq
    (fun names names' _ _ => (likeness folder).listings names names')
    (list : Action Memory (List String)) (list : Action Directory (List String)) := by
  intro m d twins
  obtain ⟨names, m', listed, left, all⟩ := twins.doubles.boundless.runs_list
  refine twins.agreesFrom (fun doubles => ⟨_, fun _ _ => id, doubles.list⟩) (fun run => ?_) ?_
  · obtain ⟨-, rfl⟩ := run.deterministic listed
    exact left.cabinet ▸ Cabinet.modest_refl m.cabinet
  · intro _ _ _ _ _ run _ _ same
    obtain ⟨told, -⟩ := run.deterministic listed
    cases told
    refine ⟨same, fun name member => ?_⟩
    obtain ⟨ref, found⟩ := (all name).1 member
    exact (twins.mirrors.usable name _ (Cabinet.get?_of_ref? found)).1

theorem agrees_deleteAll {names names' : List String} (same : ∀ name, name ∈ names ↔ name ∈ names')
    (ordinary : ∀ name ∈ names, Ordinary name) : (likeness folder).Agrees Eq Same
      (Ring.deleteAll names : Action Memory Unit)
      (Ring.deleteAll names' : Action Directory Unit) := by
  intro m d twins
  obtain ⟨m', c, deleted, left, loses⟩ := twins.doubles.boundless.runs_deleteAll names
  refine twins.agreesFrom (fun doubles => ⟨_, fun _ _ => id, doubles.deleteAll same ordinary⟩)
    (fun run => ?_) fun _ _ _ _ => rfl
  obtain ⟨-, rfl⟩ := run.deterministic deleted
  rw [left.cabinet]
  exact Cabinet.modest_loses twins.mirrors.sound loses

/-- Twins answer alike whatever is asked of them. -/
theorem alike (folder : Nat) : Alike (likeness folder) safeSize where
  opening name m d twins :=
    (agrees_openRecord (Directory.ordinary_text name) .readOnly m d twins).mono
      fun _ _ _ _ fresh => fresh.records
  reading count few := agrees_read (Nat.le_trans few (by decide))
  sizing _ := size_eq
  closing := closing
  replacing name bytes small := agrees_replace (Directory.ordinary_text name) small
  overwriting key field value := by
    refine agrees_overwrite (Directory.ordinary_text (.link key)) (List.cons_ne_nil _ _) ?_
    cases field with
    | prev => exact (by decide : 0 + 2 ≤ safeSize)
    | next => exact (by decide : 2 + 2 ≤ safeSize)
  deleting name := agrees_delete (Directory.ordinary_text name)
  listing := agrees_list
  sweepingPayloads names names' related := by
    have glyphs (names : List String) : ∀ key ∈ names.filterMap RecordName.glyph?,
        ¬ key.IsAnchor := by
      intro key member
      obtain ⟨name, -, read⟩ := List.mem_filterMap.1 member
      exact Shelf.not_isAnchor_of_glyph? read
    rw [Shelf.deletePayloads_eq (glyphs names), Shelf.deletePayloads_eq (glyphs names')]
    refine agrees_deleteAll (fun name => ?_) fun name member => ?_
    · simp only [List.mem_map, List.mem_filterMap, related.1]
    · obtain ⟨key, -, rfl⟩ := List.mem_map.1 member
      exact Directory.ordinary_text (.payload key)
  sweepingLinks names names' related := by
    refine agrees_deleteAll (fun name => ?_) fun name member => ?_
    · rw [List.mem_filter, List.mem_filter, related.1]
    · exact related.2 name (List.mem_filter.1 member).1
  raising _ _ := rfl
  roomy := by decide

/-! ## Placing records -/

/-- Where no file is in the folder, the device in memory without records is a twin. -/
theorem of_vacant (plain : d.Plain folder) (sound : d.files.Sound)
    (vacant : ∀ name, d.files.get? ⟨folder, name⟩ = none) (listing : Listing) :
    Twins folder { listing } d where
  unlimited := rfl
  faultless := rfl
  plain := plain
  mirrors :=
    { sound := Cabinet.sound_empty
      sound' := sound
      same := fun name => (vacant name).symm
      usable := fun _ _ present => nomatch present }

/-- Replacing a file from outside is replacing it, since closing a file does nothing. -/
theorem runs_poke {result : Except Failure Unit} {d' : Directory}
    (run : Runs (withRecord name .truncate (write bytes)) d result d') :
    Runs (Directory.poke name bytes) d result d' := by
  unfold Runs Directory.poke
  cases opened : Directory.openRecord name .truncate d with
  | error e d₁ =>
    have opening : Runs (openRecord name .truncate) d (.error e) d₁ := opened
    obtain ⟨rfl, rfl⟩ := run.deterministic (runs_withRecord_of_unopened opening)
    rfl
  | ok handle d₁ =>
    have opening : Runs (openRecord name .truncate) d (.ok handle) d₁ := opened
    dsimp only
    cases written : Directory.write bytes (d₁, handle) with
    | ok _ last =>
      have writing : Runs (write bytes) (d₁, handle) (.ok ()) last := written
      obtain ⟨rfl, rfl⟩ := run.deterministic
        (runs_withRecord_of_closed opening writing (.pure () last.1))
      rfl
    | error e last =>
      have writing : Runs (write bytes) (d₁, handle) (.error e) last := written
      obtain ⟨rfl, rfl⟩ := run.deterministic
        (runs_withRecord_of_failed opening writing (.pure () last.1))
      rfl

/-- The same record is placed in both. -/
theorem placed (twins : Twins folder m d) (ordinary : Ordinary name)
    (small : bytes.length ≤ safeSize) :
    Twins folder (m.poke name bytes) (stateAfter (Directory.poke name bytes) d) := by
  obtain ⟨m', replacing, sets⟩ := Memory.runs_replace twins.unlimited
    (Memory.allows_of_none twins.faultless 3) name bytes
  obtain ⟨_, _, _, d', replaced, replaced', twins', -, -⟩ := agrees_replace ordinary small m d twins
  obtain ⟨-, rfl⟩ := replacing.deterministic replaced
  rw [(runs_poke replaced').stateAfter_eq]
  have same : (m.poke name bytes).get? = m'.get? := by
    rw [Memory.get?_poke, sets.get?]
  have spares : Cabinet.Spares none m.cabinet (m.poke name bytes).cabinet :=
    Cabinet.spares_put (Option.some_ne_none _).symm _
  refine ⟨twins.unlimited, twins.faultless, twins'.plain, spares.sound twins.mirrors.sound,
    twins'.mirrors.sound', fun name => ?_, fun name bytes present => ?_⟩
  · rw [← twins'.mirrors.same]
    exact congrFun same name
  · exact twins'.mirrors.usable name bytes ((congrFun same name).symm.trans present)

end Twins

end GlyphShelf

import Mathlib.Data.List.Forall2
import GlyphShelf.Proofs.Benches
import GlyphShelf.Proofs.Couples
import GlyphShelf.Proofs.Directory.Folders
import GlyphShelf.Proofs.Excuses
import GlyphShelf.Proofs.Memory.Boundless

/-!
# The device in memory as a double

A device in memory without limits stands in for a directory with a plain folder. Whoever works at
a bench on the one and at a bench on the other is told the same, but for one thing: an empty write
asks nothing of a file, while in memory it is a write like any other. It is refused where a record
was opened for reading, and it moves the end of a record up to the cursor. A bench `Minds` an empty
write where one of the two would happen.

Memory has no greatest position, so nothing is said about runs in which the directory refuses one.
In all others the answers are alike up to the first empty write that is minded, and such a write
always tells the two apart.
-/

namespace GlyphShelf

open Device
open Directory (Ordinary maxPosition)
open Cabinet (Couples)

/-! ## Devices -/

/-- The same records are in a device in memory without limits and in the plain folder of a
directory. -/
structure Counterparts (folder : Nat) (m : Memory) (d : Directory) : Prop where
  unlimited : m.quota = none
  faultless : m.fault = none
  plain : d.Plain folder
  sound : m.cabinet.Sound
  sound' : d.files.Sound
  same : ∀ name, m.get? name = d.files.get? ⟨folder, name⟩

/-- Counterparts with the references that belong together. -/
structure Doubles (folder : Nat) (pairs : Cabinet.Ref String → Cabinet.Ref Place → Prop)
    (m : Memory) (d : Directory) : Prop where
  unlimited : m.quota = none
  faultless : m.fault = none
  plain : d.Plain folder
  couples : Couples folder pairs m.cabinet d.files

/-- Open records that refer to the two of a pair, with their cursors at the same place. -/
def Handles (pairs : Cabinet.Ref String → Cabinet.Ref Place → Prop) (h : Memory.Handle)
    (k : Directory.Handle) : Prop :=
  ∃ ref', k = ⟨.file ref', h.pos, h.writable⟩ ∧ pairs h.ref ref' ∧ h.pos ≤ maxPosition

/-- Failures of the same kind. -/
def Failure.Alike (e e' : Failure) : Prop := e.ctorIdx = e'.ctorIdx

theorem Failure.Alike.absence {e e' : Failure} (alike : e.Alike e') :
    e = .notFound ↔ e' = .notFound := by
  have kind (e : Failure) : e = .notFound ↔ e.ctorIdx = Failure.notFound.ctorIdx := by
    cases e <;> simp [Failure.ctorIdx]
  rw [kind e, kind e', show e.ctorIdx = e'.ctorIdx from alike]

/-- The directory refuses a position, which it may do where memory need not. -/
def RefusesPosition (e : Failure) : Prop := e = .ofSystem .invalidArgument

/-- Two actions end alike unless the directory refuses a position. -/
abbrev Doubled {σ τ α β : Type} (related : σ → τ → Prop) (values : α → β → Prop)
    (act : Action σ α) (act' : Action τ β) (s : σ) (t : τ) : Prop :=
  EndsAlike RefusesPosition Failure.Alike related values act act' s t

/-- Nothing is excused, and the failures are the same. -/
theorem EndsTogether.doubled {σ τ α β : Type} {related : σ → τ → Prop}
    {values values' : α → β → Prop}
    {act : Action σ α} {act' : Action τ β} {s : σ} {t : τ}
    (ending : EndsTogether Eq related values act act' s t)
    (weaker : ∀ a b, values a b → values' a b) : Doubled related values' act act' s t := by
  obtain ⟨result, result', s', t', run, run', after, matched⟩ := ending
  exact .of_runs run run' after
    (matched.mono (fun _ _ same => congrArg Failure.ctorIdx same) weaker)

variable {folder : Nat} {pairs more : Cabinet.Ref String → Cabinet.Ref Place → Prop}
variable {m m' : Memory} {d : Directory} {c : Cabinet String} {c' : Cabinet Place}
variable {h : Memory.Handle} {k : Directory.Handle} {name : String} {names names' : List String}

theorem Handles.mono (handles : Handles pairs h k) (grown : ∀ r r', pairs r r' → more r r') :
    Handles more h k := by
  obtain ⟨ref', rfl, pair, within⟩ := handles
  exact ⟨ref', rfl, grown _ _ pair, within⟩

namespace Doubles

variable (doubles : Doubles folder pairs m d)

include doubles

theorem boundless : m.Boundless m.cabinet := ⟨rfl, doubles.unlimited, doubles.faultless⟩

theorem after (left : m'.Boundless c) (couples : Couples folder more c c') :
    Doubles folder more m' { d with files := c' } := by
  obtain ⟨rfl, unlimited, faultless⟩ := left
  exact ⟨unlimited, faultless, doubles.plain.with_files c', couples⟩

/-- What is opened on both is a pair, maybe one that was created for it. -/
theorem openRecord (ordinary : Ordinary name) (access : Access) :
    ∃ more, (∀ r r', pairs r r' → more r r') ∧ EndsTogether Eq (Doubles folder more)
      (fun h k => Handles more h k ∧ h.pos = 0 ∧ h.writable = access.writes)
      (openRecord name access : Action Memory Memory.Handle)
      (openRecord name access : Action Directory Directory.Handle) m d := by
  have couples := doubles.couples
  have start : 0 ≤ maxPosition := Nat.zero_le _
  cases found : m.cabinet.ref? name with
  | some ref =>
    obtain ⟨ref', found', pair⟩ := couples.exists_pair found
    obtain ⟨m', opened, left⟩ := doubles.boundless.runs_openRecord_of_present access found
    have opened' := doubles.plain.runs_openRecord_of_present access ordinary found'
    have after : Couples folder pairs
        (if access = .truncate then m.cabinet.write ref .empty else m.cabinet)
        (if access = .truncate then d.files.write ref' .empty else d.files) := by
      split
      · exact couples.write pair rfl
      · exact couples
    exact ⟨pairs, fun _ _ => id, .of_runs opened opened' (doubles.after left after)
      (.ok ⟨⟨ref', rfl, pair, start⟩, rfl, rfl⟩)⟩
  | none =>
    have free' := couples.free_iff.1 found
    cases creates : access.creates with
    | false =>
      obtain ⟨m', opened, left⟩ := doubles.boundless.runs_openRecord_of_absent found creates
      have opened' := doubles.plain.runs_openRecord_of_absent ordinary free' creates
      exact ⟨pairs, fun _ _ => id,
        .of_runs opened opened' (doubles.after left couples) (.error rfl)⟩
    | true =>
      obtain ⟨m', opened, left⟩ := doubles.boundless.runs_openRecord_of_created found creates
      have opened' := doubles.plain.runs_openRecord_of_created ordinary free' creates
      exact ⟨_, fun _ _ => .inl, .of_runs opened opened'
        (doubles.after left (couples.create found rfl))
        (.ok ⟨⟨_, rfl, .inr ⟨rfl, rfl⟩, start⟩, rfl, rfl⟩)⟩

theorem close (h : Memory.Handle) (k : Directory.Handle) :
    EndsTogether Eq (Doubles folder pairs) (fun _ _ => True)
      (Device.close h : Action Memory Unit) (Device.close k : Action Directory Unit) m d := by
  obtain ⟨m', closed, left⟩ := doubles.boundless.runs_close h
  exact .of_runs closed (.pure () d) (doubles.after left doubles.couples) (.ok trivial)

theorem hasRecord (ordinary : Ordinary name) :
    ∃ more, (∀ r r', pairs r r' → more r r') ∧ Doubled (Doubles folder more) Eq
      (Device.hasRecord name : Action Memory Bool)
      (Device.hasRecord name : Action Directory Bool) m d := by
  obtain ⟨more, grown, opening⟩ := doubles.openRecord ordinary .readOnly
  have opening := opening.doubled fun _ _ opened => opened.1
  refine ⟨more, grown, opening.hasRecord (fun h k _ _ after => ?_) ?_ ?_⟩
  · exact (after.close h k).doubled fun _ _ => id
  · exact Failure.Alike.absence
  · rintro _ rfl
    exact Failure.noConfusion

theorem delete (ordinary : Ordinary name) :
    EndsTogether Eq (Doubles folder pairs) (fun _ _ => True)
      (Device.delete name : Action Memory Unit)
      (Device.delete name : Action Directory Unit) m d := by
  have couples := doubles.couples
  cases found : m.cabinet.ref? name with
  | some ref =>
    obtain ⟨ref', found', -⟩ := couples.exists_pair found
    obtain ⟨m', deleted, left⟩ := doubles.boundless.runs_delete_of_present found
    exact .of_runs deleted (doubles.plain.runs_delete_of_present ordinary found')
      (doubles.after left (couples.remove name)) (.ok trivial)
  | none =>
    obtain ⟨m', deleted, left⟩ := doubles.boundless.runs_delete_of_absent found
    exact .of_runs deleted
      (doubles.plain.runs_delete_of_absent ordinary (couples.free_iff.1 found))
      (doubles.after left couples) (.error rfl)

/-- Whatever the order in which they are deleted, the same records are left. -/
theorem deleteAll (same : ∀ name, name ∈ names ↔ name ∈ names')
    (ordinary : ∀ name ∈ names, Ordinary name) :
    EndsTogether Eq (Doubles folder pairs) (fun _ _ => True)
      (Ring.deleteAll names : Action Memory Unit)
      (Ring.deleteAll names' : Action Directory Unit) m d := by
  obtain ⟨m', c, deleted, left, loses⟩ := doubles.boundless.runs_deleteAll names
  obtain ⟨c', deleted', loses'⟩ := doubles.plain.runs_deleteAll fun name member =>
    ordinary name ((same name).2 member)
  refine .of_runs deleted deleted' (doubles.after left (doubles.couples.loses loses loses' ?_))
    (.ok trivial)
  intro name
  simp [same]

theorem list :
    EndsTogether Eq (Doubles folder pairs)
      (fun names names' => ∀ name, name ∈ names ↔ name ∈ names')
      (Device.list : Action Memory (List String))
      (Device.list : Action Directory (List String)) m d := by
  have couples := doubles.couples
  obtain ⟨names, m', listed, left, all⟩ := doubles.boundless.runs_list
  obtain ⟨names', listed', all'⟩ := doubles.plain.runs_list
  refine .of_runs listed listed' (doubles.after left couples) (.ok fun name => ?_)
  rw [all, all', ← Option.isSome_iff_exists, ← Option.isSome_iff_exists,
    ← Option.ne_none_iff_isSome, ← Option.ne_none_iff_isSome, ne_eq, ne_eq, couples.free_iff]

end Doubles

/-! ## Open records -/

/-- A device in memory and a directory, each with one of two open records. -/
def Opened (folder : Nat) (pairs : Cabinet.Ref String → Cabinet.Ref Place → Prop)
    (p : Memory × Memory.Handle) (q : Directory × Directory.Handle) : Prop :=
  Doubles folder pairs p.1 q.1 ∧ Handles pairs p.2 q.2

/-- An empty write through a record in memory is refused or makes the record longer. -/
def Memory.Minds (m : Memory) (h : Memory.Handle) : Prop :=
  h.writable = false ∨ size m h < h.pos

instance (m : Memory) (h : Memory.Handle) : Decidable (m.Minds h) :=
  inferInstanceAs (Decidable (_ ∨ _))

namespace Opened

variable {p : Memory × Memory.Handle} {q : Directory × Directory.Handle} {pos : Nat}

theorem size_eq (opened : Opened folder pairs p q) : size p.1 p.2 = size q.1 q.2 := by
  obtain ⟨doubles, ref', same, pair, -⟩ := opened
  rw [show q.2 = _ from same]
  exact (doubles.couples.coupled pair).size_eq

theorem tellSize (opened : Opened folder pairs p q) :
    Doubled (Opened folder pairs) Eq (Bench.tellSize : Action (Memory × Memory.Handle) Nat)
      (Bench.tellSize : Action (Directory × Directory.Handle) Nat) p q :=
  .of_runs (Bench.runs_tellSize _ _) (Bench.runs_tellSize _ _) opened (.ok opened.size_eq)

theorem read (count : Nat) (p : Memory × Memory.Handle) (q : Directory × Directory.Handle)
    (opened : Opened folder pairs p q) :
    Doubled (Opened folder pairs) Eq (Device.read count : Action (Memory × Memory.Handle) Bytes)
      (Device.read count : Action (Directory × Directory.Handle) Bytes) p q := by
  obtain ⟨m, h⟩ := p
  obtain ⟨d, k⟩ := q
  obtain ⟨doubles, ref', rfl, pair, -⟩ := opened
  by_cases reached : h.pos + count ≤ maxPosition
  · obtain ⟨m', reading, left⟩ := doubles.boundless.runs_read h count
    have reading' := Directory.runs_read d ref' h.writable reached
    rw [(doubles.couples.coupled pair).slice_eq] at reading'
    refine .of_runs reading reading' ⟨doubles.after left doubles.couples, ref', rfl, pair, ?_⟩
      (.ok rfl)
    dsimp only
    rw [Contents.slice_eq, Bytes.length_slice]
    omega
  · exact .of_excuse (Directory.runs_read_of_beyond d _ h.writable (Nat.lt_of_not_le reached)) rfl

theorem readExact (opened : Opened folder pairs p q) (count : Nat) :
    Doubled (Opened folder pairs) Eq
      (Device.readExact count : Action (Memory × Memory.Handle) Bytes)
      (Device.readExact count : Action (Directory × Directory.Handle) Bytes) p q :=
  EndsAlike.readUpTo read (fun _ => rfl) count count [] opened

theorem readToEnd (opened : Opened folder pairs p q) :
    Doubled (Opened folder pairs) Eq (Device.readToEnd : Action (Memory × Memory.Handle) Bytes)
      (Device.readToEnd : Action (Directory × Directory.Handle) Bytes) p q :=
  EndsAlike.readToEnd read opened.size_eq opened

theorem seek (opened : Opened folder pairs p q) (pos : Nat) :
    Doubled (Opened folder pairs) (fun _ _ => True)
      (Device.seek pos : Action (Memory × Memory.Handle) Unit)
      (Device.seek pos : Action (Directory × Directory.Handle) Unit) p q := by
  obtain ⟨m, h⟩ := p
  obtain ⟨d, k⟩ := q
  obtain ⟨doubles, ref', rfl, pair, -⟩ := opened
  by_cases reached : pos ≤ maxPosition
  · obtain ⟨m', seeking, left⟩ := doubles.boundless.runs_seek h pos
    exact .of_runs seeking (Directory.runs_seek d _ reached)
      ⟨doubles.after left doubles.couples, ref', rfl, pair, reached⟩ (.ok trivial)
  · exact .of_excuse (Directory.runs_seek_of_beyond d _ (Nat.lt_of_not_le reached)) rfl

/-- A write that may be is carried out on both sides, or it is empty and idle on both. -/
theorem write_of_reached (opened : Opened folder pairs p q) {bytes : Bytes}
    (writable : p.2.writable = true) (reached : p.2.pos + bytes.length ≤ maxPosition)
    (idle : bytes = [] → p.2.pos ≤ size p.1 p.2) :
    EndsTogether Eq (Opened folder pairs) (fun _ _ => True)
      (Device.write bytes : Action (Memory × Memory.Handle) Unit)
      (Device.write bytes : Action (Directory × Directory.Handle) Unit) p q := by
  obtain ⟨m, h⟩ := p
  obtain ⟨d, k⟩ := q
  obtain ⟨doubles, ref', rfl, pair, -⟩ := opened
  obtain ⟨m', writing, left⟩ := doubles.boundless.runs_write writable bytes reached
  by_cases nothing : bytes = []
  · subst nothing
    have unseen :
        ((m.cabinet.read h.ref).overlay h.pos []).bytes = (m.cabinet.read h.ref).bytes := by
      have inside : h.pos ≤ (m.cabinet.read h.ref).bytes.length := by
        rw [Contents.length_bytes]
        exact idle rfl
      rw [Contents.bytes_overlay, Bytes.overlay, Nat.sub_eq_zero_of_le inside]
      simp
    exact .of_runs writing (Directory.runs_write_nothing d _)
      ⟨doubles.after left (doubles.couples.rewrite pair unseen), ref', rfl, pair, reached⟩
      (.ok trivial)
  · have writing' := Directory.runs_write nothing reached d ref'
    rw [← writable] at writing'
    have same := (doubles.couples.coupled pair).overlay_eq h.pos bytes
    exact .of_runs writing writing'
      ⟨doubles.after left (doubles.couples.write pair same), ref', rfl, pair, reached⟩ (.ok trivial)

theorem write (opened : Opened folder pairs p q) {bytes : Bytes}
    (unminded : bytes = [] → ¬ p.1.Minds p.2) :
    Doubled (Opened folder pairs) (fun _ _ => True)
      (Device.write bytes : Action (Memory × Memory.Handle) Unit)
      (Device.write bytes : Action (Directory × Directory.Handle) Unit) p q := by
  have idle (nothing : bytes = []) : p.2.pos ≤ size p.1 p.2 :=
    Nat.le_of_not_lt (not_or.1 (unminded nothing)).2
  obtain ⟨m, h⟩ := p
  obtain ⟨d, k⟩ := q
  by_cases writable : h.writable = true
  · by_cases reached : h.pos + bytes.length ≤ maxPosition
    · exact (opened.write_of_reached writable reached idle).doubled fun _ _ => id
    · obtain ⟨-, ref', rfl, -, within⟩ := opened
      have nothing : bytes ≠ [] := by
        rintro rfl
        exact reached within
      have refusing' := Directory.runs_write_of_beyond nothing (Nat.lt_of_not_le reached) d ref'
      rw [← writable] at refusing'
      exact .of_excuse refusing' rfl
  · obtain ⟨doubles, ref', rfl, pair, within⟩ := opened
    have readOnly := Bool.eq_false_iff.2 writable
    have nothing : bytes ≠ [] := fun nothing => unminded nothing (.inl readOnly)
    obtain ⟨m', refusing, left⟩ := doubles.boundless.runs_write_of_readOnly readOnly bytes
    have refusing' := Directory.runs_write_of_readOnly nothing d ref' h.pos
    rw [← readOnly] at refusing'
    exact .of_runs refusing refusing'
      ⟨doubles.after left doubles.couples, ref', rfl, pair, within⟩ (.error rfl)

/-- An empty write that is minded fails, or it makes the record longer than the file. -/
theorem minded (opened : Opened folder pairs (m, h) (d, k)) (minds : m.Minds h) :
    ∃ m', Runs (Device.write []) (m, h) (.error (.device .readOnly)) (m', h) ∨
      Runs (Device.write []) (m, h) (.ok ()) (m', h) ∧ size m' h ≠ size d k := by
  have same : size m h = size d k := opened.size_eq
  obtain ⟨doubles, ref', -, pair, within⟩ := opened
  by_cases writable : h.writable = true
  · have beyond : size m h < h.pos := minds.resolve_left (ne_false_of_eq_true writable)
    have issued := (doubles.couples.coupled pair).issued
    obtain ⟨m', writing, left⟩ := doubles.boundless.runs_write writable ([] : Bytes) within
    refine ⟨m', .inr ⟨writing, ?_⟩⟩
    have longer : size m' h = h.pos := by
      show (m'.cabinet.read h.ref).size = h.pos
      rw [left.cabinet, Cabinet.read_write_of_issued issued issued, if_pos rfl,
        Contents.size_overlay]
      exact Nat.max_eq_right (Nat.le_of_lt beyond)
    rw [longer, ← same]
    exact Nat.ne_of_gt beyond
  · obtain ⟨m', refusing, -⟩ :=
      doubles.boundless.runs_write_of_readOnly (Bool.eq_false_iff.2 writable) ([] : Bytes)
    exact ⟨m', .inl refusing⟩

end Opened

/-! ## Benches -/

namespace Bench

/-- Doubles with records that are open on both sides, under the same numbers. -/
structure Double (folder : Nat) (pairs : Cabinet.Ref String → Cabinet.Ref Place → Prop)
    (bench : Bench Memory Memory.Handle) (bench' : Bench Directory Directory.Handle) : Prop where
  devices : Doubles folder pairs bench.1 bench'.1
  records : ∀ number, Option.Rel (Handles pairs) (bench.2 number) (bench'.2 number)

def Minds (bench : Bench Memory Memory.Handle) (number : Nat) : Prop :=
  ∃ h, bench.2 number = some h ∧ bench.1.Minds h

instance (bench : Bench Memory Memory.Handle) (number : Nat) : Decidable (bench.Minds number) :=
  inferInstanceAs (Decidable (∃ h ∈ bench.2 number, bench.1.Minds h))

def Step.Ordinary : Step → Prop
  | .openAs _ name _ => Directory.Ordinary name
  | .delete name => Directory.Ordinary name
  | .hasRecord name => Directory.Ordinary name
  | _ => True

instance (step : Step) : Decidable step.Ordinary := by
  unfold Step.Ordinary
  split <;> infer_instance

variable {bench : Bench Memory Memory.Handle} {bench' : Bench Directory Directory.Handle}
variable {number : Nat}

namespace Double

variable (double : Double folder pairs bench bench')

include double

/-- What is done with the devices alone leaves the open records what they are. -/
theorem onFirst {α β : Type} {values : α → β → Prop} {act : Action Memory α}
    {act' : Action Directory β} (grown : ∀ r r', pairs r r' → more r r')
    (acting : Doubled (Doubles folder more) values act act' bench.1 bench'.1) :
    Doubled (Double folder more) values (Action.onFirst act) (Action.onFirst act') bench
      bench' := by
  refine EndsAlike.onFirst acting fun _ _ devices => ⟨devices, fun number => ?_⟩
  exact related_mono (double.records number) fun _ _ handles => handles.mono grown

/-- What is done with an open record leaves the others what they are. -/
theorem onRecord {act : Action (Memory × Memory.Handle) Report}
    {act' : Action (Directory × Directory.Handle) Report} (number : Nat)
    (acting : ∀ h k, bench.2 number = some h → Opened folder pairs (bench.1, h) (bench'.1, k) →
      Doubled (Opened folder pairs) Report.Alike act act' (bench.1, h) (bench'.1, k)) :
    Doubled (Double folder pairs) Report.Alike (onRecord .done number act)
      (onRecord .done number act') bench bench' := by
  obtain ⟨none, none'⟩ | ⟨h, k, kept, kept', handles⟩ := cases_of_related (double.records number)
  · exact .of_runs (runs_onRecord_of_none _ act none) (runs_onRecord_of_none _ act' none') double
      (.ok (.refl _))
  obtain ⟨e, q, run, excused⟩ | ⟨_, _, p, q, run, run', ⟨devices, still⟩, matched⟩ :=
    acting h k kept ⟨double.devices, handles⟩
  · exact .of_excuse (runs_onRecord _ kept' run) excused
  · exact .of_runs (runs_onRecord _ kept run) (runs_onRecord _ kept' run')
      ⟨devices, related_update double.records (.some still)⟩ matched

theorem release (number : Nat) :
    Doubled (Double folder pairs) (fun _ _ => True) (release number Device.close)
      (release number Device.close) bench bench' := by
  obtain ⟨none, none'⟩ | ⟨h, k, kept, kept', handles⟩ := cases_of_related (double.records number)
  · exact .of_runs (runs_release_of_none _ none) (runs_release_of_none _ none') double
      (.ok trivial)
  obtain ⟨e, d, run, excused⟩ | ⟨_, _, m, d, run, run', devices, matched⟩ :=
    (double.devices.close h k).doubled fun _ _ => id
  · exact .of_excuse (runs_release kept' run) excused
  · exact .of_runs (runs_release kept run) (runs_release kept' run')
      ⟨devices, related_update double.records .none⟩ matched

theorem keep {h : Memory.Handle} {k : Directory.Handle} (handles : Handles pairs h k)
    (number : Nat) :
    Doubled (Double folder pairs) (fun _ _ => True) (Bench.keep number h) (Bench.keep number k)
      bench bench' := by
  have keeping : Runs (Bench.keep number h) bench (.ok ())
      (bench.1, Function.update bench.2 number (some h)) := rfl
  have keeping' : Runs (Bench.keep number k) bench' (.ok ())
      (bench'.1, Function.update bench'.2 number (some k)) := rfl
  exact .of_runs keeping keeping' ⟨double.devices, related_update double.records (.some handles)⟩
    (.ok trivial)

/-- Every step ends alike on both sides, and afterwards there are at least the pairs that there
were. -/
theorem perform (step : Step) (ordinary : step.Ordinary)
    (idle : ∀ number, step = .write number [] → ¬ bench.Minds number) :
    ∃ more, Doubled (Double folder more) Report.Alike step.perform step.perform bench bench' := by
  have devices := double.devices
  cases step with
  | openAs number name access =>
    obtain ⟨more, grown, opening⟩ := devices.openRecord ordinary access
    have opening := opening.doubled fun _ _ opened => opened.1
    refine ⟨more, (double.onFirst grown opening).bind ?_⟩
    intro h k _ _ after handles
    exact (after.keep handles number).map _ _ fun _ _ _ => .refl _
  | read number count =>
    exact ⟨pairs, double.onRecord number fun _ _ _ opened =>
      (opened.read count).map _ _ fun _ _ same => same ▸ .refl _⟩
  | readExact number count =>
    exact ⟨pairs, double.onRecord number fun _ _ _ opened =>
      (opened.readExact count).map _ _ fun _ _ same => same ▸ .refl _⟩
  | readToEnd number =>
    exact ⟨pairs, double.onRecord number fun _ _ _ opened =>
      opened.readToEnd.map _ _ fun _ _ same => same ▸ .refl _⟩
  | seek number pos =>
    exact ⟨pairs, double.onRecord number fun _ _ _ opened =>
      (opened.seek pos).map _ _ fun _ _ _ => .refl _⟩
  | write number bytes =>
    refine ⟨pairs, double.onRecord number fun h _ kept opened => ?_⟩
    have unminded : bytes = [] → ¬ bench.1.Minds h := by
      rintro rfl minds
      exact idle number rfl ⟨h, kept, minds⟩
    exact (opened.write unminded).map _ _ fun _ _ _ => .refl _
  | size number =>
    exact ⟨pairs, double.onRecord number fun _ _ _ opened =>
      opened.tellSize.map _ _ fun _ _ same => same ▸ .refl _⟩
  | close number =>
    exact ⟨pairs, (double.release number).map _ _ fun _ _ _ => .refl _⟩
  | delete name =>
    have deleting := (devices.delete ordinary).doubled fun _ _ => id
    exact ⟨pairs, (double.onFirst (fun _ _ => id) deleting).map _ _ fun _ _ _ => .refl _⟩
  | hasRecord name =>
    obtain ⟨more, grown, asking⟩ := devices.hasRecord ordinary
    exact ⟨more, (double.onFirst grown asking).map _ _ fun _ _ same => same ▸ .refl _⟩
  | list =>
    have listing := devices.list.doubled fun _ _ => id
    exact ⟨pairs, (double.onFirst (fun _ _ => id) listing).map _ _ fun _ _ same => same⟩

end Double

/-! ## Runs -/

variable {steps : List Step}

/-- Steps are answered alike and leave doubles, as long as the directory refuses no position and no
empty write is minded. -/
theorem Double.outcomes (double : Double folder pairs bench bench')
    (ordinary : ∀ step ∈ steps, step.Ordinary)
    (calm : .error (.ofSystem .invalidArgument) ∉ (outcomes Step.take steps bench').1)
    (idle : ∀ before number later, steps = before ++ .write number [] :: later →
      ¬ (outcomes Step.take before bench).2.Minds number) :
    ∃ more, List.Forall₂ (Matched Failure.Alike Report.Alike) (outcomes Step.take steps bench).1
        (outcomes Step.take steps bench').1 ∧
      Double folder more (outcomes Step.take steps bench).2
        (outcomes Step.take steps bench').2 := by
  induction steps generalizing pairs bench bench' with
  | nil => exact ⟨pairs, .nil, double⟩
  | cons step steps ih =>
    obtain ⟨first, rest⟩ := List.forall_mem_cons.1 ordinary
    have refused := List.ne_of_not_mem_cons calm
    have still := List.not_mem_of_not_mem_cons calm
    have unminded : ∀ number, step = .write number [] → ¬ bench.Minds number := by
      rintro number rfl
      exact idle [] number steps rfl
    obtain ⟨more, ending⟩ := double.perform step first unminded
    obtain ⟨_, next', run', rfl⟩ | ⟨answer, answer', next, next', run, run', after, matched⟩ :=
      ending
    · rw [Step.take, run'.step_eq] at refused
      exact absurd rfl refused
    have taken : step.take bench = (answer, next) := run.step_eq
    have taken' : step.take bench' = (answer', next') := run'.step_eq
    rw [taken'] at still
    have spared : ∀ before number later, steps = before ++ .write number [] :: later →
        ¬ (GlyphShelf.outcomes Step.take before next).2.Minds number := by
      intro before number later split minds
      refine idle (step :: before) number later (congrArg (step :: ·) split) ?_
      rw [GlyphShelf.outcomes, taken]
      exact minds
    obtain ⟨final, answers, last⟩ := ih after rest still spared
    refine ⟨final, ?_, ?_⟩
    · rw [GlyphShelf.outcomes, GlyphShelf.outcomes, taken, taken']
      exact .cons matched answers
    · rw [GlyphShelf.outcomes, GlyphShelf.outcomes, taken, taken']
      exact last

/-- An empty write that is minded shows, at the latest when the size is asked for. -/
theorem Double.parts (double : Double folder pairs bench bench') (minds : bench.Minds number) :
    ¬ List.Forall₂ (Matched Failure.Alike Report.Alike)
      (GlyphShelf.outcomes Step.take [.write number [], .size number] bench).1
      (GlyphShelf.outcomes Step.take [.write number [], .size number] bench').1 := by
  intro alike
  obtain ⟨first, rest⟩ := List.forall₂_cons.1 alike
  obtain ⟨second, -⟩ := List.forall₂_cons.1 rest
  obtain ⟨h, kept, minds⟩ := minds
  obtain ⟨none, -⟩ | ⟨_, k, kept', there, handles⟩ := cases_of_related (double.records number)
  · cases kept.symm.trans none
  cases kept.symm.trans kept'
  have nothing : Runs (write []) (bench'.1, k) (.ok ()) (bench'.1, k) :=
    Directory.runs_write_nothing bench'.1 k
  obtain ⟨m', refusing | ⟨writing, longer⟩⟩ :=
    Opened.minded (k := k) ⟨double.devices, handles⟩ minds
  · rw [Step.take_write kept refusing, Step.take_write there nothing] at first
    cases first
  · rw [Step.take_write kept writing, Step.take_write there nothing,
      Step.take_size (Function.update_self number _ _),
      Step.take_size (Function.update_self number _ _)] at second
    cases second with
    | ok same => exact longer (Report.number.inj same)

end Bench

/-! ## Counterparts -/

theorem Counterparts.exists_doubles (counterparts : Counterparts folder m d) :
    ∃ pairs, Doubles folder pairs m d :=
  ⟨_, counterparts.unlimited, counterparts.faultless, counterparts.plain,
    .of_same counterparts.sound counterparts.sound' counterparts.same⟩

open Bench in
/-- Whatever is done at a bench on a device in memory and at one on its counterpart, step by step
the reports are the same and the failures of the same kind, and the same records are there in the
end, provided that the directory refuses no position and that no empty write is minded. The latter
cannot be dropped: wherever an empty write is minded, the answer to it differs, or the size that is
told next. -/
theorem counterparts_answer_alike {steps : List Step} (counterparts : Counterparts folder m d)
    (ordinary : ∀ step ∈ steps, step.Ordinary)
    (calm : .error (.ofSystem .invalidArgument) ∉ (outcomes Step.take steps (atStart d)).1)
    (idle : ∀ before number later, steps = before ++ .write number [] :: later →
      ¬ (outcomes Step.take before (atStart m)).2.Minds number) :
    let last := (outcomes Step.take steps (atStart m)).2
    let last' := (outcomes Step.take steps (atStart d)).2
    List.Forall₂ (Matched Failure.Alike Report.Alike) (outcomes Step.take steps (atStart m)).1
      (outcomes Step.take steps (atStart d)).1 ∧
    (∀ name, last.1.get? name = last'.1.files.get? ⟨folder, name⟩) ∧
    ∀ number, last.Minds number → ¬ List.Forall₂ (Matched Failure.Alike Report.Alike)
      (outcomes Step.take [.write number [], .size number] last).1
      (outcomes Step.take [.write number [], .size number] last').1 := by
  obtain ⟨pairs, doubles⟩ := counterparts.exists_doubles
  have start : Double folder pairs (atStart m) (atStart d) := ⟨doubles, fun _ => .none⟩
  obtain ⟨more, answers, double⟩ := start.outcomes ordinary calm idle
  exact ⟨answers, double.devices.couples.same, fun number => double.parts⟩

open Bench in
/-- A record is opened twice and written to. The empty write at its end is idle; one behind the end,
or through the record opened for reading, tells the two apart. -/
theorem empty_write_told_apart :
    let steps : List Step :=
      [.openAs 0 "a" .create, .write 0 [1, 2], .write 0 [], .openAs 1 "a" .readOnly, .write 1 [3],
        .seek 0 5]
    let last := (outcomes Step.take steps (atStart ({} : Memory))).2
    let last' := (outcomes Step.take steps (atStart ({} : Directory))).2
    List.Forall₂ (Matched Failure.Alike Report.Alike)
      (outcomes Step.take steps (atStart ({} : Memory))).1
      (outcomes Step.take steps (atStart ({} : Directory))).1 ∧
    last.1.get? "a" = last'.1.files.get? ⟨0, "a"⟩ ∧
    ∀ number, number = 0 ∨ number = 1 → ¬ List.Forall₂ (Matched Failure.Alike Report.Alike)
      (outcomes Step.take [.write number [], .size number] last).1
      (outcomes Step.take [.write number [], .size number] last').1 := by
  intro steps last last'
  have counterparts : Counterparts 0 ({} : Memory) ({} : Directory) :=
    { unlimited := rfl
      faultless := rfl
      plain := ⟨rfl, by decide, fun _ => by simp⟩
      sound := Cabinet.sound_empty
      sound' := Cabinet.sound_empty
      same := fun _ => rfl }
  have ordinary : ∀ step ∈ steps, step.Ordinary := by decide +kernel
  have calm : .error (.ofSystem .invalidArgument) ∉
      (outcomes Step.take steps (atStart ({} : Directory))).1 := by decide +kernel
  have idle : ∀ before number later, steps = before ++ .write number [] :: later →
      ¬ (outcomes Step.take before (atStart ({} : Memory))).2.Minds number := by
    intro before number later split
    obtain ⟨rfl, rfl, -⟩ := by simpa [steps, List.cons_eq_append_iff] using split
    decide +kernel
  have minds : last.Minds 0 ∧ last.Minds 1 := by decide +kernel
  obtain ⟨answers, same, parts⟩ := counterparts_answer_alike counterparts ordinary calm idle
  refine ⟨answers, same "a", ?_⟩
  rintro _ (rfl | rfl)
  · exact parts 0 minds.1
  · exact parts 1 minds.2

end GlyphShelf

import GlyphShelf.Proofs.Ring.Reporting

/-!
# Absent records

That a record is not found is an answer of the device to being asked to open it or to delete it.
What becomes of the answer is up to who asked: where the ring says that a link must be there, it is
damage. So when reading a payload, or bringing a key to the front, is answered in this way, only one
record can have been asked for, the payload in the one case and the link of the key in the other.

`AbsentOnly` says in which states an action may give the answer, and an action that never gives it
`Finds` whatever it asks for. An action that first asks for one record and then does what finds all
it asks for, or that first does something which leaves that record alone, can be told from its parts.
-/

namespace GlyphShelf

variable {σ τ η α β : Type}

/-- The action answers that something is not found in such states only. -/
def AbsentOnly (absent : σ → Prop) (act : Action σ α) : Prop :=
  ∀ s s', Runs act s (.error .notFound) s' → absent s

/-- The action never answers that something is not found. -/
abbrev Finds (act : Action σ α) : Prop := AbsentOnly (fun _ => False) act

/-! ## Ways of putting actions together -/

section

variable {absent : σ → Prop} {act : Action σ α} {next : α → Action σ β}

theorem finds_pure (a : α) : Finds (pure a : Action σ α) := by
  intro s s' run
  cases run

theorem finds_throw {e : Failure} (other : e ≠ .notFound) : Finds (throw e : Action σ α) := by
  intro s s' run
  cases run
  exact other rfl

theorem finds_ofExcept {result : Except Failure α} (other : result ≠ .error .notFound) :
    Finds (Action.ofExcept result : Action σ α) := by
  intro s s' run
  exact other (run.deterministic (Action.runs_ofExcept result s)).1.symm

theorem AbsentOnly.bind (first : AbsentOnly absent act) (rest : ∀ a, Finds (next a)) :
    AbsentOnly absent (act >>= next) := by
  intro s s' run
  rcases run.bind_cases with ⟨a, s₁, -, ended⟩ | ⟨e, failing, same⟩
  · exact (rest a s₁ s' ended).elim
  · cases same
    exact first s s' failing

/-- What is absent after the first action has to be absent before. -/
theorem Finds.bind_absentOnly (first : Finds act)
    (still : ∀ s a s₁, Runs act s (.ok a) s₁ → absent s₁ → absent s)
    (rest : ∀ a, AbsentOnly absent (next a)) : AbsentOnly absent (act >>= next) := by
  intro s s' run
  rcases run.bind_cases with ⟨a, s₁, begun, ended⟩ | ⟨e, failing, same⟩
  · exact still s a s₁ begun (rest a s₁ s' ended)
  · cases same
    exact (first s s' failing).elim

theorem AbsentOnly.onFirst (only : AbsentOnly absent act) :
    AbsentOnly (fun s => absent s.1) (Action.onFirst act : Action (σ × τ) α) :=
  fun s s' run => only s.1 s'.1 run.of_onFirst.1

/-- An anchor is refused in another way. -/
theorem absentOnly_of_glyph (key : Key) {act : Unit → Action σ α}
    (only : AbsentOnly absent (act ())) :
    AbsentOnly absent (Action.ofExcept key.requireGlyph >>= act) := by
  refine (finds_ofExcept ?_).bind_absentOnly (fun s _ s₁ begun gone => ?_) fun _ => only
  · unfold Key.requireGlyph
    split <;> nofun
  · rwa [(begun.deterministic (Action.runs_ofExcept _ s)).2] at gone

end

/-! ## Records -/

namespace Device

variable [Device σ η] {absent : σ → Prop} {name : String} {access : Access}

theorem absentOnly_withRecord {work : Action (σ × η) α}
    (opening : AbsentOnly absent (openRecord name access : Action σ η)) (working : Finds work)
    (closing : ∀ record : η, Finds (close record : Action σ Unit)) :
    AbsentOnly absent (withRecord name access work) := by
  intro s s' run
  obtain ⟨result, opened⟩ := exists_runs (openRecord name access : Action σ η) s
  cases result with
  | error e =>
    obtain ⟨same, -⟩ := run.deterministic (runs_withRecord_of_unopened opened)
    cases same
    exact opening s _ opened
  | ok record =>
    generalize stateAfter (openRecord name access) s = s₁ at opened
    obtain ⟨done, worked⟩ := exists_runs work (s₁, record)
    generalize stateAfter work (s₁, record) = last at worked
    obtain ⟨closed, close⟩ := exists_runs (close last.2 : Action σ Unit) last.1
    cases done with
    | error e =>
      obtain ⟨same, -⟩ := run.deterministic (runs_withRecord_of_failed opened worked close)
      cases same
      exact (working _ _ worked).elim
    | ok a =>
      obtain ⟨same, -⟩ := run.deterministic (runs_withRecord_of_closed opened worked close)
      cases closed <;> cases same
      exact (closing _ _ _ close).elim

section

variable (reading : ∀ count, Finds (read count : Action (σ × η) Bytes))

include reading

theorem finds_readUpTo (wanted reads : Nat) (filled : Bytes) :
    Finds (readUpTo wanted reads filled : Action (σ × η) Bytes) := by
  induction reads generalizing filled with
  | zero => exact finds_pure filled
  | succ reads ih =>
    unfold readUpTo
    split
    · exact finds_pure filled
    · refine (reading _).bind fun more => ?_
      split
      · exact finds_throw Failure.noConfusion
      · exact ih _

theorem finds_readChunks (reads : Nat) (chunks : List Bytes) :
    Finds (readChunks reads chunks : Action (σ × η) Bytes) := by
  induction reads generalizing chunks with
  | zero => exact finds_pure _
  | succ reads ih =>
    unfold readChunks
    refine (reading _).bind fun chunk => ?_
    split
    · exact finds_pure _
    · exact ih _

theorem finds_takeAll (closing : ∀ record : η, Finds (close record : Action σ Unit)) (record : η) :
    Finds (takeAll record : Action σ Bytes) := by
  intro s s' run
  obtain ⟨done, read⟩ := exists_runs (readToEnd : Action (σ × η) Bytes) (s, record)
  generalize stateAfter readToEnd (s, record) = last at read
  cases done with
  | error e =>
    obtain ⟨same, -⟩ := run.deterministic (runs_takeAll_of_unread read)
    cases same
    exact finds_readChunks reading (size s record + 1) [] (s, record) last read
  | ok bytes =>
    obtain ⟨closed, close⟩ := exists_runs (close last.2 : Action σ Unit) last.1
    obtain ⟨same, -⟩ := run.deterministic (runs_takeAll_of_read read close)
    cases closed <;> cases same
    exact closing _ _ _ close

end

end Device

/-! ## A device in memory -/

namespace Memory

variable {m m' : Memory} {handle : Handle} {name : String} {access : Access}

theorem finds_tick : Finds tick := by
  intro m m' run
  unfold Runs tick at run
  split at run <;> cases run

theorem finds_close (handle : Handle) : Finds (Device.close handle : Action Memory Unit) :=
  finds_tick

theorem finds_read (count : Nat) : Finds (Device.read count : Action (Memory × Handle) Bytes) :=
  finds_tick.onFirst.bind fun _ _ _ run => by cases run

theorem finds_write (bytes : Bytes) :
    Finds (Device.write bytes : Action (Memory × Handle) Unit) := by
  refine finds_tick.onFirst.bind fun _ s s' run => ?_
  dsimp only [Runs] at run
  split at run
  · split at run <;> split at run <;> cases run
  · cases run

/-- Counting an operation leaves the records as they are. -/
theorem get?_of_tick (run : Runs tick m (.ok ()) m') (name : String) : m'.get? name = m.get? name :=
  (respects_tick.run run).get? name (Set.notMem_empty name)

theorem absentOnly_openRecord (name : String) (access : Access) :
    AbsentOnly (fun m : Memory => m.get? name = none)
      (Device.openRecord name access : Action Memory Handle) := by
  refine finds_tick.bind_absentOnly
    (fun m _ m₁ ticked absent => (get?_of_tick ticked name).symm.trans absent) fun _ m m' run => ?_
  dsimp only [Runs] at run
  cases found : m.cabinet.ref? name with
  | some ref =>
    rw [found] at run
    dsimp only at run
    split at run <;> cases run
  | none => exact Cabinet.ref?_eq_none_iff.1 found

theorem finds_openRecord (created : access.creates = true) (name : String) :
    Finds (Device.openRecord name access : Action Memory Handle) := by
  refine finds_tick.bind fun _ m m' run => ?_
  dsimp only [Runs] at run
  split at run
  · split at run <;> cases run
  · rw [if_pos created] at run
    cases run

theorem get?_of_openRecord (existing : access.creates = false)
    (run : Runs (Device.openRecord name access) m (.ok handle) m') : m.get? name ≠ none := by
  intro absent
  obtain ⟨_, m₁, ticked, opened⟩ := run.bind_ok
  have missing : m₁.cabinet.ref? name = none :=
    Cabinet.ref?_eq_none_iff.2 ((get?_of_tick ticked name).trans absent)
  dsimp only [Runs] at opened
  rw [missing] at opened
  dsimp only at opened
  rw [if_neg (by rw [existing]; decide)] at opened
  cases opened

end Memory

/-! ## Payloads -/

namespace Payloads

theorem absentOnly_openPayload (key : Key) :
    AbsentOnly (fun m : Memory => m.get? (payloadName key) = none)
      (openPayload key : Action Memory Memory.Handle) :=
  absentOnly_of_glyph key (Memory.absentOnly_openRecord _ _)

theorem absentOnly_read (key : Key) :
    AbsentOnly (fun m : Memory => m.get? (payloadName key) = none)
      (read key : Action Memory Bytes) :=
  (absentOnly_openPayload key).bind (Device.finds_takeAll Memory.finds_read Memory.finds_close)

theorem get?_of_openPayload {m m' : Memory} {key : Key} {handle : Memory.Handle}
    (run : Runs (openPayload key) m (.ok handle) m') : m.get? (payloadName key) ≠ none := by
  obtain ⟨_, m₁, asking, opening⟩ := run.bind_ok
  rw [(asking.deterministic (Action.runs_ofExcept _ m)).2] at opening
  exact Memory.get?_of_openRecord rfl opening

end Payloads

/-! ## Rings -/

namespace Ring

theorem finds_orDangling (key : Key) (act : Action σ α) : Finds (orDangling key act) := by
  intro s s' run
  obtain ⟨result, acting⟩ := exists_runs act s
  have same := (run.deterministic (runs_orDangling_mapError acting)).1
  cases result with
  | ok a => cases same
  | error e => cases e <;> cases same

theorem decode_ne_notFound (bytes : Bytes) : Link.decode bytes ≠ .error .notFound := by
  unfold Link.decode
  split <;> nofun

theorem absentOnly_readLink (key : Key) :
    AbsentOnly (fun m : Memory => m.get? (linkName key) = none)
      (readLink key : Action Memory Link) :=
  (Device.absentOnly_withRecord (Memory.absentOnly_openRecord _ _)
    (Device.finds_readUpTo Memory.finds_read _ _ _) Memory.finds_close).bind
    fun bytes => finds_ofExcept (decode_ne_notFound bytes)

theorem finds_writeLink (key : Key) (link : Link) :
    Finds (writeLink key link : Action Memory Unit) :=
  Device.absentOnly_withRecord (Memory.finds_openRecord rfl _) (Memory.finds_write _)
    Memory.finds_close

/-- Bringing a key to the front asks for its link; all other links have to be there. -/
theorem absentOnly_promote (key : Key) :
    AbsentOnly (fun m : Memory => m.get? (linkName key) = none)
      (promote key : Action Memory Bool) := by
  refine absentOnly_of_glyph key ((absentOnly_readLink key).bind fun link => ?_)
  have patching (key : Key) (field : Link.Field) (value : Key) :
      Finds (patch key field value : Action Memory Unit) := finds_orDangling key _
  split
  · exact finds_pure false
  · have detaching : Finds (detach link : Action Memory Unit) :=
      (patching _ _ _).bind fun _ => patching _ _ _
    refine detaching.bind fun _ => (finds_orDangling .head (readLink .head)).bind fun head => ?_
    have linking : Finds (linkInFront key head.next : Action Memory Unit) :=
      (finds_writeLink _ _).bind fun _ => patching _ _ _
    exact linking.bind fun _ => (patching _ _ _).bind fun _ => finds_pure true

end Ring

end GlyphShelf

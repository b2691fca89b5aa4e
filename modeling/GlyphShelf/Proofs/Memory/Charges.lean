import GlyphShelf.Proofs.Benches
import GlyphShelf.Proofs.Cabinets
import GlyphShelf.Proofs.Memory.Space

/-!
# What the memory device charges

The device counts the bytes that it charges as it goes. It adds what a write grows a record by and
takes off what a record held that is emptied, deleted or replaced from outside. So the count ought
to be the number of bytes in the records. It is, but for writes through a record whose name is
gone: they are charged too, and no deletion gives these bytes back.

`Evenly` is the conservation law. Whatever is charged besides the bytes stored stays as it is in
every operation but one, and `strayed` is what that one, a write, adds to it. No hypothesis on
quotas, failures or open records is needed, because what strays is never negative.
-/

namespace GlyphShelf.Memory

variable {m m' m₁ : Memory} {handle handle' : Handle} {name : String} {value : Option Bytes}
variable {bytes : Bytes} {stray : Nat} {α : Type}

/-- The number of bytes in all records that have a name. -/
def stored (m : Memory) : Nat := (m.cabinet.names.map fun name => extent (m.get? name)).sum

theorem load_get? (m : Memory) : load m.get? = m.stored := by
  have named : (Function.support fun name => extent (m.get? name)) ⊆
      ↑m.cabinet.names.toFinset := by
    intro name nonempty
    rw [Finset.mem_coe, List.mem_toFinset, Cabinet.mem_names]
    cases present : m.cabinet.get? name with
    | some bytes => rfl
    | none =>
      rw [Function.mem_support, Memory.get?, present] at nonempty
      exact absurd extent_none nonempty
  rw [load, finsum_eq_sum_of_support_subset _ named, List.sum_toFinset _ m.nodup_names, stored]

/-! ## What stays even -/

/-- What is charged exceeds what is stored by as much as before. -/
def Evenly (m m' : Memory) : Prop :=
  ∀ stray, m.used = load m.get? + stray → m'.used = load m'.get? + stray

/-- The frame in which the records may differ, and what is charged differs with them. -/
def evenly : FrameCondition Memory where
  allows := Evenly
  refl _ _ := id
  trans first second stray := second stray ∘ first stray

theorem evenly_of_same (same : m'.used = m.used ∧ m'.cabinet = m.cabinet) : Evenly m m' := by
  intro stray balanced
  have unread : m'.get? = m.get? := by
    funext name
    rw [Memory.get?, same.2, Memory.get?]
  rw [same.1, unread, balanced]

/-- A record is exchanged, and the bytes of the old one are given back for those of the new one. -/
theorem evenly_of_exchange (name : String) (value : Option Bytes)
    (get : m'.get? = Function.update m.get? name value)
    (used : m'.used = m.used - extent (m.get? name) + extent value) : Evenly m m' := by
  intro stray balanced
  have exchanged := load_update (finite_support m) name value
  have covered := extent_le_load m name
  rw [get]
  omega

theorem evenly_tick : Respects evenly tick :=
  .of_runs fun run => evenly_of_same (used_of_tick run)

theorem evenly_openRecord (name : String) (access : Access) :
    Respects evenly (Device.openRecord name access : Action Memory Handle) := by
  refine .of_runs fun {m result m'} run => ?_
  cases opened_of_openRecord run with
  | due => exact evenly_of_same ⟨rfl, rfl⟩
  | absent => exact evenly_of_same ⟨rfl, rfl⟩
  | created missing =>
    refine evenly_of_exchange name (some []) ?_ ?_
    · funext other
      simp only [Memory.get?, afterCreating, Cabinet.get?_create, Function.update_apply,
        Contents.bytes_empty, eq_comm]
    · rw [Memory.get?, Cabinet.ref?_eq_none_iff.1 missing]
      rfl
  | emptied ref found =>
    refine evenly_of_exchange name (some []) ?_ ?_
    · funext other
      simp only [Memory.get?, afterEmptying, Cabinet.get?_write_of_ref? found,
        Function.update_apply, Contents.bytes_empty, eq_comm]
    · rw [Memory.get?, Cabinet.get?_of_ref? found, extent_some, Contents.length_bytes]
      rfl
  | found => exact evenly_of_same ⟨rfl, rfl⟩

theorem evenly_delete (name : String) :
    Respects evenly (Device.delete name : Action Memory Unit) := by
  refine .of_runs fun {m result m'} run => ?_
  cases deleted_of_delete run with
  | due => exact evenly_of_same ⟨rfl, rfl⟩
  | absent => exact evenly_of_same ⟨rfl, rfl⟩
  | done contents found =>
    refine evenly_of_exchange name none ?_ ?_
    · funext other
      simp only [Memory.get?, afterDeleting, Cabinet.get?_remove, Function.update_apply, eq_comm]
    · rw [Memory.get?, Cabinet.get?, found, Option.map_some, extent_some, Contents.length_bytes]
      rfl

/-- Replacing a record from outside charges its new bytes for the old ones. -/
theorem used_poke (m : Memory) (name : String) (bytes : Bytes) :
    (m.poke name bytes).used = m.used - extent (m.get? name) + bytes.length := by
  rw [poke]
  cases found : m.cabinet.contents? name with
  | some contents =>
    rw [Memory.get?, Cabinet.get?, found, Option.map_some, extent_some, Contents.length_bytes]
    rfl
  | none =>
    rw [Memory.get?, Cabinet.get?, found]
    rfl

theorem evenly_poke (m : Memory) (name : String) (bytes : Bytes) :
    Evenly m (m.poke name bytes) :=
  evenly_of_exchange name (some bytes) (get?_poke m name bytes) (used_poke m name bytes)

/-! ## What strays -/

/-- The bytes by which the record of a handle has grown, if no name leads to it. -/
def strayed (handle : Handle) (m m' : Memory) : Nat :=
  if m.cabinet.ref? handle.ref.name = some handle.ref then 0 else m'.size handle - m.size handle

theorem strayed_of_same (same : m'.cabinet = m.cabinet) (handle : Handle) :
    strayed handle m m' = 0 := by
  unfold strayed Memory.size
  rw [same, Nat.sub_self, ite_self]

/-- Where nothing changes nothing strays. -/
theorem used_of_same (same : m'.used = m.used ∧ m'.cabinet = m.cabinet) (handle : Handle)
    (balanced : m.used = load m.get? + stray) :
    m'.used = load m'.get? + (stray + strayed handle m m') := by
  rw [strayed_of_same same.2]
  exact evenly_of_same same stray balanced

/-- A write that goes through is charged for what its record grows by. If a name leads to the
record, so much more is stored; otherwise nothing that is stored changes. -/
theorem used_of_growth (contents : Contents)
    (larger : (m.cabinet.read handle.ref).size ≤ contents.size)
    (cabinet : m'.cabinet = m.cabinet.write handle.ref contents)
    (used : m'.used = m.used + (contents.size - (m.cabinet.read handle.ref).size))
    (balanced : m.used = load m.get? + stray) :
    m'.used = load m'.get? + (stray + strayed handle m m') := by
  by_cases held : m.cabinet.ref? handle.ref.name = some handle.ref
  · have get : m'.get? = Function.update m.get? handle.ref.name (some contents.bytes) := by
      funext other
      rw [Memory.get?, cabinet, Cabinet.get?_write_of_ref? held, Function.update_apply]
      simp only [Memory.get?, eq_comm]
    have exchanged := load_update (finite_support m) handle.ref.name (some contents.bytes)
    rw [← get, Memory.get?, Cabinet.get?_of_holds held, extent_some, extent_some,
      Contents.length_bytes, Contents.length_bytes] at exchanged
    rw [strayed, if_pos held]
    omega
  · have get : m'.get? = m.get? := by
      funext other
      rw [Memory.get?, cabinet, Cabinet.write_of_not_holds held]
      rfl
    have grown : m'.size handle = contents.size := by
      rw [Memory.size, cabinet, Cabinet.read_write_self]
    rw [strayed, if_neg held, grown, get, Memory.size]
    omega

theorem used_of_write {result : Except Failure Unit}
    (run : Runs (Device.write bytes) (m, handle) result (m', handle'))
    (balanced : m.used = load m.get? + stray) :
    m'.used = load m'.get? + (stray + strayed handle m m') := by
  cases written_of_write run with
  | due => exact used_of_same ⟨rfl, rfl⟩ handle balanced
  | refused => exact used_of_same ⟨rfl, rfl⟩ handle balanced
  | full => exact used_of_same ⟨rfl, rfl⟩ handle balanced
  | halted =>
    rcases m.afterOverrun_cases handle bytes with ⟨-, same⟩ | ⟨-, made⟩
    · rw [same]
      exact used_of_same ⟨rfl, rfl⟩ handle balanced
    · have larger := Contents.size_overlay (m.cabinet.read handle.ref) (handle.stop bytes) []
      rw [List.length_nil, Nat.add_zero] at larger
      rw [made]
      refine used_of_growth ((m.cabinet.read handle.ref).overlay (handle.stop bytes) []) ?_ rfl ?_
        balanced
      · rw [larger]
        exact Nat.le_max_left _ _
      · rw [larger]
        dsimp only [spend]
        omega
  | done =>
    have larger := Contents.size_overlay (m.cabinet.read handle.ref) handle.pos bytes
    refine used_of_growth _ ?_ rfl ?_ balanced
    · rw [larger]
      exact Nat.le_max_left _ _
    · rw [larger, used_afterWrite, growth]
      omega

/-! ## Everything that happens to a device -/

section

variable {frame : FrameCondition Memory} (ticking : Respects frame tick)

include ticking

theorem respects_read (count : Nat) :
    Respects frame.onFirst (Device.read count : Action (Memory × Handle) Bytes) :=
  (respects_onFirst ticking).bind fun _ s => frame.refl s.1

/-- A step respects a frame that counting respects, if what it does to records does. -/
theorem respects_perform (step : Bench.Step)
    (looking : ∀ name, Respects frame (Device.openRecord name .readOnly : Action Memory Handle))
    (opening : ∀ number name access, step = .openAs number name access →
      Respects frame (Device.openRecord name access : Action Memory Handle))
    (writing : ∀ number bytes, step = .write number bytes →
      Respects frame.onFirst (Device.write bytes : Action (Memory × Handle) Unit))
    (deleting : ∀ name, step = .delete name →
      Respects frame (Device.delete name : Action Memory Unit)) :
    Respects frame.onFirst (step.perform : Action (Bench Memory Handle) Report) := by
  cases step with
  | openAs number name access =>
    refine (respects_onFirst (opening number name access rfl)).bind fun record => ?_
    exact .bind (fun bench => frame.refl bench.1) fun _ => .pure _
  | read number count =>
    exact Bench.respects_onRecord ((respects_read ticking count).bind fun _ => .pure _) _ number
  | readExact number count =>
    have reading := Device.respects_readExact (respects_read ticking) count
    exact Bench.respects_onRecord (reading.bind fun _ => .pure _) _ number
  | readToEnd number =>
    have reading := Device.respects_readToEnd (respects_read ticking)
    exact Bench.respects_onRecord (reading.bind fun _ => .pure _) _ number
  | seek number pos =>
    have seeking : Respects frame.onFirst (Device.seek pos : Action (Memory × Handle) Unit) :=
      (respects_onFirst ticking).bind fun _ s => frame.refl s.1
    exact Bench.respects_onRecord (seeking.bind fun _ => .pure _) _ number
  | write number bytes =>
    have respects := writing number bytes rfl
    exact Bench.respects_onRecord (respects.bind fun _ => .pure _) _ number
  | size number =>
    exact Bench.respects_onRecord (Bench.respects_tellSize.bind fun _ => .pure _) _ number
  | close number =>
    exact (Bench.respects_release (fun _ => ticking) number).bind fun _ => .pure _
  | delete name => exact (respects_onFirst (deleting name rfl)).bind fun _ => .pure _
  | hasRecord name =>
    refine (respects_onFirst (Device.respects_hasRecord (looking name)
      fun _ => ticking)).bind fun _ => .pure _
  | list =>
    refine (respects_onFirst (ticking.bind fun _ m => ?_)).bind fun _ => .pure _
    exact frame.refl m

end

/-- Every step but a write keeps the device even. -/
theorem evenly_perform (step : Bench.Step) (reads : ∀ number bytes, step ≠ .write number bytes) :
    Respects evenly.onFirst (step.perform : Action (Bench Memory Handle) Report) :=
  respects_perform evenly_tick step (evenly_openRecord · .readOnly)
    (fun _ name access _ => evenly_openRecord name access)
    (fun number bytes same => absurd same (reads number bytes))
    (fun name _ => evenly_delete name)

/-! ## What is overcharged -/

/-- The frame in which nothing is charged that no record could get. -/
def holding : FrameCondition Memory where
  allows m m' := m'.overcharge = m.overcharge
  refl _ := rfl
  trans first second := second.trans first

/-- Only a write overcharges, and it stops the program. -/
theorem overcharge_of_write {result : Except Failure Unit}
    (run : Runs (Device.write bytes) (m, handle) result (m', handle'))
    (going : result ≠ .error .halted) : m'.overcharge = m.overcharge := by
  cases written_of_write run with
  | halted => exact absurd rfl going
  | _ => rfl

theorem holding_perform (step : Bench.Step) (reads : ∀ number bytes, step ≠ .write number bytes) :
    Respects holding.onFirst (step.perform : Action (Bench Memory Handle) Report) := by
  have ticking : Respects holding tick := by
    refine .of_runs fun run => ?_
    obtain ⟨-, rfl⟩ | ⟨-, rfl, -⟩ := tick_cases run <;> rfl
  have opening (name : String) (access : Access) :
      Respects holding (Device.openRecord name access : Action Memory Handle) := by
    refine .of_runs fun run => ?_
    cases opened_of_openRecord run <;> rfl
  refine respects_perform ticking step (opening · .readOnly)
    (fun _ name access _ => opening name access)
    (fun number bytes same => absurd same (reads number bytes)) fun name _ => ?_
  refine .of_runs fun run => ?_
  cases deleted_of_delete run <;> rfl

/-- What happens to a device in memory: a step at its bench, or a change from outside. -/
inductive Move
  | work (step : Bench.Step)
  | poke (name : String) (bytes : Bytes)
  | failAfter (left : Nat)
  | clearFault

namespace Move

def take : Move → Bench Memory Handle → Except Failure Report × Bench Memory Handle
  | work step, bench => step.take bench
  | poke name bytes, bench => (.ok .done, (bench.1.poke name bytes, bench.2))
  | failAfter left, bench => (.ok .done, (bench.1.failAfter left, bench.2))
  | clearFault, bench => (.ok .done, (bench.1.clearFault, bench.2))

theorem overcharge_of_take {bench : Bench Memory Handle} (move : Move)
    (going : ∀ number bytes, move = work (.write number bytes) →
      (move.take bench).1 ≠ .error .halted) :
    (move.take bench).2.1.overcharge = bench.1.overcharge := by
  cases move with
  | work step =>
    by_cases writes : ∃ number bytes, step = .write number bytes
    · obtain ⟨number, bytes, rfl⟩ := writes
      have going := going number bytes rfl
      obtain ⟨m, handles⟩ := bench
      obtain ⟨-, taken⟩ | ⟨handle, result, m', handle', -, run, taken⟩ :=
        Bench.Step.take_write_cases number bytes m handles
      · rw [take, taken]
      · rw [take, taken] at going ⊢
        refine overcharge_of_write run ?_
        rintro rfl
        exact going rfl
    · rw [not_exists] at writes
      rw [take, Bench.Step.take, step_snd]
      exact holding_perform step (fun number bytes same => writes number ⟨bytes, same⟩) bench
  | _ => rfl

/-- As long as no move stops the program, nothing is overcharged. -/
theorem overcharge_of_moves (moves : List Move) (bench : Bench Memory Handle)
    (going : .error .halted ∉ (outcomes take moves bench).1) :
    (outcomes take moves bench).2.1.overcharge = bench.1.overcharge := by
  induction moves generalizing bench with
  | nil => rfl
  | cons move moves ih =>
    rw [outcomes, List.mem_cons, not_or] at going
    exact (ih (move.take bench).2 going.2).trans 
      (overcharge_of_take move fun _ _ _ => Ne.symm going.1)

def strays : Move → Bench Memory Handle → Nat
  | work (.write number bytes), bench =>
    match bench.2 number with
    | some handle => strayed handle bench.1 (Bench.Step.take (.write number bytes) bench).2.1
    | none => 0
  | _, _ => 0

def straysOf : List Move → Bench Memory Handle → Nat
  | [], _ => 0
  | move :: moves, bench => move.strays bench + straysOf moves (move.take bench).2

theorem used_of_step (step : Bench.Step) (bench : Bench Memory Handle)
    (balanced : bench.1.used = load bench.1.get? + stray) :
    (step.take bench).2.1.used =
      load (step.take bench).2.1.get? + (stray + (Move.work step).strays bench) := by
  by_cases writes : ∃ number bytes, step = .write number bytes
  · obtain ⟨number, bytes, rfl⟩ := writes
    obtain ⟨m, handles⟩ := bench
    obtain ⟨none, taken⟩ | ⟨handle, result, m', handle', kept, run, taken⟩ :=
      Bench.Step.take_write_cases number bytes m handles
    · simp only [strays, none, taken]
      exact balanced
    · simp only [strays, kept, taken]
      exact used_of_write run balanced
  · rw [not_exists] at writes
    have even := evenly_perform step (fun number bytes same => writes number ⟨bytes, same⟩) bench
    have quiet : (Move.work step).strays bench = 0 := by
      cases step with
      | write number bytes => exact absurd ⟨bytes, rfl⟩ (writes number)
      | _ => rfl
    rw [quiet, Nat.add_zero, Bench.Step.take, step_snd]
    exact even stray balanced

theorem used_of_take (move : Move) (bench : Bench Memory Handle)
    (balanced : bench.1.used = load bench.1.get? + stray) :
    (move.take bench).2.1.used =
      load (move.take bench).2.1.get? + (stray + move.strays bench) := by
  cases move with
  | work step => exact used_of_step step bench balanced
  | poke name bytes => exact evenly_poke bench.1 name bytes stray balanced
  | failAfter left => exact balanced
  | clearFault => exact balanced

/-- From any bench at which so many bytes have strayed already. -/
theorem used_of_moves (moves : List Move) (bench : Bench Memory Handle)
    (balanced : bench.1.used = load bench.1.get? + stray) :
    (outcomes take moves bench).2.1.used =
      load (outcomes take moves bench).2.1.get? + (stray + straysOf moves bench) := by
  induction moves generalizing bench stray with
  | nil => exact balanced
  | cons move moves ih =>
    have next := ih (move.take bench).2 (used_of_take move bench balanced)
    rw [Nat.add_assoc] at next
    exact next

end Move

/-! ## The main statement -/

/-- What is charged are the bytes of the records that have a name, and besides these the bytes by
which writes have made other records grow: no others, and all of them, whatever becomes of those
records later. The count shows it as long as no write has stopped the program. -/
theorem used_eq_stored_add_strays (empty : ∀ name, m.get? name = none) (unused : m.used = 0)
    (moves : List Move) :
    let last := (outcomes Move.take moves (Bench.atStart m)).2.1
    last.used = last.stored + Move.straysOf moves (Bench.atStart m) ∧
      (m.overcharge = 0 → .error .halted ∉ (outcomes Move.take moves (Bench.atStart m)).1 →
        last.count = last.used) := by
  have start : m.used = load m.get? + 0 := by rw [unused, load_of_absent empty]
  have balanced := Move.used_of_moves moves (Bench.atStart m) start
  rw [Nat.zero_add, load_get?] at balanced
  exact ⟨balanced, fun held going =>
    count_of_held ((Move.overcharge_of_moves moves _ going).trans held)⟩

/-- Two bytes are charged for good that a record was given after it had been deleted. -/
theorem deleted_record_charged :
    let moves := [.work (.openAs 0 "a" .create), .work (.delete "a"), .work (.write 0 [1, 2])]
    let last := (outcomes Move.take moves (Bench.atStart ({} : Memory))).2.1
    (∀ name, ({} : Memory).get? name = none) ∧ last.stored = 0 ∧ last.count = 2 := by
  intro moves last
  have empty : ∀ name, ({} : Memory).get? name = none := fun _ => rfl
  have nothing : last.stored = 0 := by decide +kernel
  have both : Move.straysOf moves (Bench.atStart ({} : Memory)) = 2 := by decide +kernel
  obtain ⟨balanced, shown⟩ := used_eq_stored_add_strays empty rfl moves
  have going : .error .halted ∉ (outcomes Move.take moves (Bench.atStart ({} : Memory))).1 := by
    decide +kernel
  refine ⟨empty, nothing, (shown rfl going).trans ?_⟩
  rw [balanced, nothing, both]

end GlyphShelf.Memory

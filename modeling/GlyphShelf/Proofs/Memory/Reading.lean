import Mathlib.Control.Monad.Basic
import GlyphShelf.Proofs.Memory.Records

/-!
# Reading in pieces

An open record is read in pieces of any size, and at last to its end. A piece may come out shorter
than was asked for, nothing comes out behind the end, and whoever insists on a number of bytes is
told how many there were. What is `ahead` of the cursor is all that matters: each call takes its
bytes from the front of it and leaves the others. So the pieces one after the other are what was
ahead at first, wherever the cursor stood and however the pieces fall upon the chunks in which the
end is looked for.
-/

namespace GlyphShelf.Memory

variable {m : Memory} {handle : Handle} {bytes : Bytes} {count : Nat}

/-- The bytes from the cursor on; none if it stands behind the end. -/
def ahead (m : Memory) (handle : Handle) : Bytes := (m.contents handle).drop handle.pos

theorem length_ahead (m : Memory) (handle : Handle) :
    (m.ahead handle).length = (m.contents handle).length - handle.pos := List.length_drop

/-- An open record after so many bytes have been read from it. -/
def Handle.advance (handle : Handle) (count : Nat) : Handle :=
  { handle with pos := handle.pos + count }

theorem advance_advance (handle : Handle) (count more : Nat) :
    (handle.advance count).advance more = handle.advance (count + more) := by
  rw [Handle.advance, Handle.advance, Handle.advance, Nat.add_assoc]

theorem ahead_advance (m : Memory) (handle : Handle) (spent count : Nat) :
    (m.spend spent).ahead (handle.advance count) = (m.ahead handle).drop count := by
  rw [ahead, ahead, List.drop_drop]
  rfl

/-- Who has read all that was ahead stands at the end, or where they stood behind it. -/
theorem advance_ahead (m : Memory) (handle : Handle) :
    handle.advance (m.ahead handle).length =
      { handle with pos := max handle.pos (m.contents handle).length } := by
  have stop : handle.pos + (m.ahead handle).length =
      max handle.pos (m.contents handle).length := by
    rw [length_ahead]
    omega
  rw [Handle.advance, stop]

/-! ## Single calls -/

inductive Reading
  /-- As many bytes as there are, but no more than asked for. -/
  | upTo (count : Nat)
  /-- Exactly so many bytes. -/
  | exactly (count : Nat)

namespace Reading

def perform : Reading → Action (Memory × Handle) Bytes
  | upTo count => Device.read count
  | exactly count => Device.readExact count

def take (call : Reading) (s : Memory × Handle) : Except Failure Bytes × (Memory × Handle) :=
  call.perform.step s

variable (quiet : m.fault = none)

include quiet

theorem runs_upTo (handle : Handle) (count : Nat) :
    Runs (upTo count).perform (m, handle) (.ok ((m.ahead handle).take count))
      (m.spend 1, handle.advance ((m.ahead handle).take count).length) :=
  runs_read (allows_of_none quiet 1) handle count

theorem runs_exactly (enough : count ≤ (m.ahead handle).length) :
    Runs (exactly count).perform (m, handle) (.ok ((m.ahead handle).take count))
      (m.spend (min count 1), handle.advance count) := by
  cases count with
  | zero =>
    rw [List.take_zero, Nat.zero_min, spend_zero]
    rfl
  | succ count =>
    rw [length_ahead] at enough
    rw [Nat.min_eq_right (Nat.le_add_left 1 count)]
    exact runs_readExact (allows_of_none quiet 1) handle (Nat.succ_pos count) enough

theorem runs_exactly_of_short (short : (m.ahead handle).length < count) :
    ∃ spent, Runs (exactly count).perform (m, handle)
      (.error (.corrupt (.endOfRecord (m.ahead handle).length count)))
      (m.spend spent, handle.advance (m.ahead handle).length) := by
  rw [length_ahead] at short ⊢
  exact runs_readExact_of_short quiet handle short

/-- A call that succeeds has its bytes from the front of what is ahead, and the cursor is moved
behind them. -/
theorem advances (call : Reading) (succeeds : (call.take (m, handle)).1 = .ok bytes) :
    bytes <+: m.ahead handle ∧
      ∃ spent, (call.take (m, handle)).2 = (m.spend spent, handle.advance bytes.length) := by
  cases call with
  | upTo count =>
    rw [take, (runs_upTo quiet handle count).step_eq] at succeeds ⊢
    cases succeeds
    exact ⟨List.take_prefix _ _, _, rfl⟩
  | exactly count =>
    by_cases enough : count ≤ (m.ahead handle).length
    · have length := List.length_take_of_le enough
      rw [take, (runs_exactly quiet enough).step_eq] at succeeds ⊢
      cases succeeds
      rw [length]
      exact ⟨List.take_prefix _ _, _, rfl⟩
    · obtain ⟨spent, failing⟩ := runs_exactly_of_short quiet (Nat.lt_of_not_le enough)
      rw [take, failing.step_eq] at succeeds
      cases succeeds

end Reading

/-! ## One call after the other -/

theorem advances_outcomes (quiet : m.fault = none) (calls : List Reading) {chunks : List Bytes}
    (succeed : (outcomes Reading.take calls (m, handle)).1 = chunks.map .ok) :
    chunks.flatten <+: m.ahead handle ∧
      ∃ spent, (outcomes Reading.take calls (m, handle)).2 =
        (m.spend spent, handle.advance chunks.flatten.length) := by
  induction calls generalizing m handle chunks with
  | nil =>
    obtain rfl : chunks = [] := List.map_eq_nil_iff.1 succeed.symm
    exact ⟨List.nil_prefix, 0, by rw [spend_zero]; rfl⟩
  | cons call calls ih =>
    cases chunks with
    | nil => cases succeed
    | cons chunk chunks =>
      rw [outcomes, List.map_cons, List.cons.injEq] at succeed
      obtain ⟨front, spent, first⟩ := Reading.advances quiet call succeed.1
      rw [first] at succeed
      obtain ⟨further, more, last⟩ := ih (fault_spend quiet spent) succeed.2
      rw [ahead_advance] at further
      rw [outcomes, first, List.flatten_cons, List.length_append]
      refine ⟨?_, spent + more, ?_⟩
      · rw [← List.prefix_iff_eq_append.1 front]
        exact (List.prefix_append_right_inj chunk).2 further
      · rw [last, spend_spend, advance_advance]

/-- However many reads may be made, the end is found by one for each chunk and one more. -/
theorem runs_readChunks_of_quiet (quiet : m.fault = none) (handle : Handle) {reads : Nat}
    (enough : (m.ahead handle).length < reads) :
    Runs (Device.readChunks reads []) (m, handle) (.ok (m.ahead handle))
      (m.spend (chunkReads (m.ahead handle).length), handle.advance (m.ahead handle).length) := by
  rw [length_ahead] at enough ⊢
  exact runs_readChunks handle [] (allows_of_none quiet _) enough

theorem runs_readToEnd_of_quiet (quiet : m.fault = none) (handle : Handle) :
    Runs Device.readToEnd (m, handle) (.ok (m.ahead handle))
      (m.spend (chunkReads (m.ahead handle).length), handle.advance (m.ahead handle).length) := by
  rw [length_ahead]
  exact runs_readToEnd handle (allows_of_none quiet _)

/-- After calls that succeeded, reading to the end yields what they left. -/
theorem runs_readToEnd_of_outcomes (quiet : m.fault = none) (handle : Handle)
    (calls : List Reading) {chunks : List Bytes}
    (succeed : (outcomes Reading.take calls (m, handle)).1 = chunks.map .ok) :
    ∃ rest spent, Runs Device.readToEnd (outcomes Reading.take calls (m, handle)).2 (.ok rest)
        (m.spend spent, handle.advance (m.ahead handle).length) ∧
      chunks.flatten ++ rest = m.ahead handle := by
  obtain ⟨front, spent, last⟩ := advances_outcomes quiet calls succeed
  have whole := List.prefix_iff_eq_append.1 front
  have reading := runs_readToEnd_of_quiet (fault_spend quiet spent)
    (handle.advance chunks.flatten.length)
  rw [ahead_advance, spend_spend] at reading
  have stop : chunks.flatten.length + ((m.ahead handle).drop chunks.flatten.length).length =
      (m.ahead handle).length := by
    rw [← List.length_append, whole]
  rw [last, ← stop, ← advance_advance]
  exact ⟨_, _, reading, whole⟩

/-! ## The main statement -/

/-- Whatever a record holds and wherever its cursor stands, what calls that succeed bring and what
is read to the end after them is every byte from the cursor on, once. Looking for the end takes
the reads that find it and no others, however many may be made. Only a call that insists on more
bytes than are left fails; it tells how many these were, and it leaves the cursor at the end, or
where it was behind the end. -/
theorem reads_every_byte_once (quiet : m.fault = none) (handle : Handle) :
    let left := (m.contents handle).drop handle.pos
    let ended : Handle := { handle with pos := max handle.pos (m.contents handle).length }
    (∀ (calls : List Reading) (chunks : List Bytes),
      (outcomes Reading.take calls (m, handle)).1 = chunks.map .ok →
      ∃ rest spent, Runs Device.readToEnd (outcomes Reading.take calls (m, handle)).2 (.ok rest)
        (m.spend spent, ended) ∧ chunks.flatten ++ rest = left) ∧
    (∀ reads, left.length < reads → Runs (Device.readChunks reads []) (m, handle) (.ok left)
      (m.spend (chunkReads left.length), ended)) ∧
    (∀ count, Runs (Device.read count) (m, handle) (.ok (left.take count))
      (m.spend 1, handle.advance (min count left.length))) ∧
    ∀ count,
      (count ≤ left.length → Runs (Device.readExact count) (m, handle)
        (.ok (left.take count)) (m.spend (min count 1), handle.advance count)) ∧
      (left.length < count → ∃ spent, Runs (Device.readExact count) (m, handle)
        (.error (.corrupt (.endOfRecord left.length count))) (m.spend spent, ended)) := by
  intro left ended
  have stop : handle.advance left.length = ended := advance_ahead m handle
  rw [← stop]
  refine ⟨fun calls chunks => runs_readToEnd_of_outcomes quiet handle calls,
    fun reads => runs_readChunks_of_quiet quiet handle, fun count => ?_,
    fun count => ⟨Reading.runs_exactly quiet, Reading.runs_exactly_of_short quiet⟩⟩
  rw [← List.length_take]
  exact Reading.runs_upTo quiet handle count

/-- The five bytes of a record are read from the second one on, in three pieces. -/
theorem five_bytes_read :
    let m := ({} : Memory).poke "a" [1, 2, 3, 4, 5]
    let handle : Handle := ⟨⟨"a", 0⟩, 1, false⟩
    let next := outcomes Reading.take [.upTo 2, .exactly 1] (m, handle)
    m.fault = none ∧ next.1 = [.ok [2, 3], .ok [4]] ∧
      ∃ spent, Runs Device.readToEnd next.2 (.ok [5])
        (m.spend spent, { handle with pos := 5 }) := by
  intro m handle next
  have quiet : m.fault = none := rfl
  have succeed : next.1 = [.ok [2, 3], .ok [4]] := by decide +kernel
  obtain ⟨rest, spent, reading, whole⟩ :=
    (reads_every_byte_once quiet handle).1 [.upTo 2, .exactly 1] [[2, 3], [4]] succeed
  have holds : (m.contents handle).drop handle.pos = [2, 3, 4, 5] := by decide +kernel
  have length : (m.contents handle).length = 5 := by decide +kernel
  rw [holds] at whole
  rw [length] at reading
  have split : [2, 3, 4] ++ rest = [2, 3, 4] ++ [5] := whole
  obtain rfl := List.append_cancel_left split
  exact ⟨quiet, succeed, spent, reading⟩

end GlyphShelf.Memory

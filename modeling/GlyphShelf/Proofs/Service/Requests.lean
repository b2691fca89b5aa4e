import GlyphShelf.Proofs.Runs
import GlyphShelf.Service.RequestQueue

/-!
# Requests, once and in order

A queue of requests is asked for keys, told of arrivals, and emptied by whoever sends what waits in
it, and these calls may come in any order. Arrivals decide what is asked for again, and emptying
decides what is sent; neither looks at what the other changed. So the history of the calls says two
things that do not depend on each other: which keys are awaited, and that each request that was
accepted is sent, or waits to be sent, once and in its place.
-/

namespace GlyphShelf.RequestQueue

/-! ## Histories -/

inductive Call
  | ask (key : Key)
  | arrived (key : Key)
  | flush

inductive Entry
  /-- Whether the key was asked for now. -/
  | ask (key : Key) (accepted : Bool)
  | arrived (key : Key)
  /-- The requests that were taken out. -/
  | flush (frames : List Frame)
deriving DecidableEq

def log (call : Call) (queue : RequestQueue) : Entry × RequestQueue :=
  match call with
  | .ask key => (.ask key (queue.ask key).1, (queue.ask key).2)
  | .arrived key => (.arrived key, queue.arrived key)
  | .flush => (.flush queue.flush.1, queue.flush.2)

def Entry.request? : Entry → Option Frame
  | .ask key true => some (.request key)
  | _ => none

def Entry.frames : Entry → List Frame
  | .flush frames => frames
  | _ => []

/-- A request for each call that asked for a key and was accepted, in the order of the calls. -/
def accepted (history : List Entry) : List Frame := history.filterMap Entry.request?

def sent (history : List Entry) : List Frame := history.flatMap Entry.frames

/-- The key was asked for, and has not arrived since. -/
def Awaited (history : List Entry) (key : Key) : Prop :=
  Stands (· = .ask key true) (· = .arrived key) history

theorem accepted_concat (history : List Entry) (entry : Entry) :
    accepted (history ++ [entry]) = accepted history ++ entry.request?.toList := by
  rw [accepted, List.filterMap_append]
  cases found : entry.request? <;> simp [accepted, found]

theorem sent_concat (history : List Entry) (entry : Entry) :
    sent (history ++ [entry]) = sent history ++ entry.frames := by
  rw [sent, List.flatMap_append, List.flatMap_singleton]
  rfl

/-! ## One call -/

variable {queue : RequestQueue} {history : List Entry}

/-- What a call takes out and what waits after it is what waited before, and behind that the request
that the call brought about. -/
theorem frames_append_waiting (call : Call) (queue : RequestQueue) :
    (log call queue).1.frames ++ (log call queue).2.flush.1 =
      queue.flush.1 ++ (log call queue).1.request?.toList := by
  cases call with
  | ask key =>
    by_cases here : key ∈ queue.awaited <;>
      simp [log, ask, here, flush, Entry.frames, Entry.request?]
  | arrived key => simp [log, arrived, flush, Entry.frames, Entry.request?]
  | flush => simp [log, flush, Entry.frames, Entry.request?]

/-- A key is awaited after a call if the call asked for it, or if it was before and has not arrived
with the call. -/
theorem mem_awaited_log (call : Call) (queue : RequestQueue) (key : Key) :
    key ∈ (log call queue).2.awaited ↔ (log call queue).1 = .ask key true ∨
      key ∈ queue.awaited ∧ (log call queue).1 ≠ .arrived key := by
  cases call with
  | ask other =>
    rw [log, mem_awaited_ask]
    by_cases here : other ∈ queue.awaited
    · have known (same : key = other) : key ∈ queue.awaited := same ▸ here
      simpa [here] using known
    · simp [here, eq_comm]
  | arrived other =>
    rw [log, mem_awaited_arrived]
    simp [and_comm, eq_comm]
  | flush => simp [log]

/-! ## Any number of calls -/

/-- The queue is as the history says. -/
structure Tracks (queue : RequestQueue) (history : List Entry) : Prop where
  awaited : ∀ key, key ∈ queue.awaited ↔ Awaited history key
  frames : sent history ++ queue.flush.1 = accepted history

theorem tracks_nil : Tracks {} [] where
  awaited _ := iff_of_false Std.TreeSet.not_mem_emptyc not_stands_nil
  frames := rfl

theorem Tracks.log (tracks : Tracks queue history) (call : Call) :
    Tracks (log call queue).2 (history ++ [(log call queue).1]) where
  awaited key := by
    rw [mem_awaited_log, Awaited, stands_concat, tracks.awaited key]
    rfl
  frames := by
    rw [sent_concat, accepted_concat, List.append_assoc, frames_append_waiting,
      ← List.append_assoc, tracks.frames]

/-- Whatever was done with a queue that was new: a call that asks for a key is accepted exactly if
no earlier one was, or the key has arrived since the last that was. At every point the requests
taken out so far, followed by those that wait to be taken out, are one for each call that asked and
was accepted, in the order of these calls. -/
theorem requests_sent_once_in_order (calls : List Call) :
    let history := (outcomes log calls {}).1
    let queue := (outcomes log calls {}).2
    (∀ key, (queue.ask key).1 = true ↔ ¬ Awaited history key) ∧
      sent history ++ queue.flush.1 = accepted history := by
  intro history queue
  have tracks : Tracks queue history :=
    outcomes_log Tracks (fun call _ _ tracks => tracks.log call) calls tracks_nil
  refine ⟨fun key => ?_, tracks.frames⟩
  rw [ask_fst, Bool.not_eq_true', decide_eq_false_iff_not, tracks.awaited key]

/-- A key that arrives while the request for it still waits is asked for twice. -/
example : (outcomes log [.ask ⟨7⟩, .ask ⟨7⟩, .arrived ⟨7⟩, .ask ⟨7⟩, .flush] {}).1 =
    [.ask ⟨7⟩ true, .ask ⟨7⟩ false, .arrived ⟨7⟩, .ask ⟨7⟩ true,
      .flush [.request ⟨7⟩, .request ⟨7⟩]] := by
  decide +kernel

end GlyphShelf.RequestQueue

import GlyphShelf.Bytes

/-!
# Contents

What a record holds. A cursor can be moved far behind the end before something is written
there, and the gap then reads as zeros; so contents are kept as runs, and a run of zeros
takes no room. `Contents.bytes` is the view: size, reading and writing are described by
what they do to the list of bytes, and how the bytes are cut into runs shows nowhere.
-/

namespace GlyphShelf

inductive Run
  /-- Bytes as they were written. -/
  | data (bytes : Array UInt8)
  /-- Zeros that were never written. -/
  | zeros (count : Nat)

namespace Run

def bytes : Run → Bytes
  | data bytes => bytes.toList
  | zeros count => List.replicate count 0

def size : Run → Nat
  | data bytes => bytes.size
  | zeros count => count

def take (count : Nat) : Run → Run
  | data bytes => data (bytes.extract 0 count)
  | zeros size => zeros (min count size)

def slice (pos count : Nat) : Run → Bytes
  | data bytes => (bytes.extract pos (pos + count)).toList
  | zeros size => List.replicate (min count (size - pos)) 0

def drop (count : Nat) : Run → Run
  | data bytes => data (bytes.extract count bytes.size)
  | zeros size => zeros (size - count)

@[simp] theorem length_bytes (run : Run) : run.bytes.length = run.size := by
  cases run <;> simp [bytes, size]

@[simp] theorem bytes_take (count : Nat) (run : Run) :
    (run.take count).bytes = run.bytes.take count := by
  cases run <;> simp [bytes, take]

theorem slice_eq (pos count : Nat) (run : Run) :
    run.slice pos count = Bytes.slice run.bytes pos count := by
  cases run <;> simp [slice, bytes, Bytes.slice, List.extract_eq_take_drop]

@[simp] theorem bytes_drop (count : Nat) (run : Run) :
    (run.drop count).bytes = run.bytes.drop count := by
  cases run with
  | data bytes =>
    simp only [drop, Run.bytes, Array.toList_extract, List.extract_eq_take_drop]
    exact List.take_of_length_le (by simp)
  | zeros size => simp [bytes, drop]

/-- Up to this size neighbouring runs of data are put together. -/
def smallSize : Nat := 4096

/-- Puts a run in front of others: an empty one is left out, and a small one is joined to the
one behind it. -/
def before (run : Run) (runs : List Run) : List Run :=
  match run, runs with
  | data first, data second :: rest =>
    if first.size + second.size ≤ smallSize then data (first ++ second) :: rest
    else if first.isEmpty then runs
    else run :: runs
  | _, _ => if run.size = 0 then runs else run :: runs

theorem bytes_of_size_eq_zero {run : Run} (h : run.size = 0) : run.bytes = [] := by
  rw [← length_bytes, List.length_eq_zero_iff] at h
  exact h

@[simp] theorem flatMap_before (run : Run) (runs : List Run) :
    (run.before runs).flatMap bytes = run.bytes ++ runs.flatMap bytes := by
  unfold before
  split
  · split
    · simp [bytes]
    · split
      · rename_i none
        simp only [Array.isEmpty_iff] at none
        simp [bytes, none]
      · simp
  · split
    · rename_i none
      simp [bytes_of_size_eq_zero none]
    · simp

end Run

/-- What a record holds, run after run. -/
structure Contents where
  runs : List Run := []

namespace Contents

/-- The view: the bytes one after the other. -/
def bytes (contents : Contents) : Bytes := contents.runs.flatMap Run.bytes

def empty : Contents := {}

def ofBytes (bytes : Bytes) : Contents := ⟨[.data bytes.toArray]⟩

def sizeOfRuns : List Run → Nat
  | [] => 0
  | run :: runs => run.size + sizeOfRuns runs

def size (contents : Contents) : Nat := sizeOfRuns contents.runs

def takeRuns (count : Nat) : List Run → List Run
  | [] => []
  | run :: runs =>
    if count ≤ run.size then [run.take count]
    else run :: takeRuns (count - run.size) runs

def dropRuns (count : Nat) : List Run → List Run
  | [] => []
  | run :: runs =>
    if count < run.size then run.drop count :: runs
    else dropRuns (count - run.size) runs

def sliceRuns (pos count : Nat) : List Run → Bytes
  | [] => []
  | run :: runs =>
    if count = 0 then []
    else if run.size ≤ pos then sliceRuns (pos - run.size) count runs
    else run.slice pos count ++ sliceRuns 0 (count - (run.size - pos)) runs

/-- At most `count` bytes from position `pos`; none past the end. -/
def slice (contents : Contents) (pos count : Nat) : Bytes := sliceRuns pos count contents.runs

/-- The contents with `patch` written at `pos`, and with zeros between the end and `pos`. -/
def overlay (contents : Contents) (pos : Nat) (patch : Bytes) : Contents where
  runs :=
    (takeRuns pos contents.runs ++ .zeros (pos - contents.size) :: .data patch.toArray ::
      dropRuns (pos + patch.length) contents.runs).foldr Run.before []

/-! ## The view -/

@[simp] theorem bytes_empty : empty.bytes = [] := rfl

@[simp] theorem bytes_ofBytes (bytes : Bytes) : (ofBytes bytes).bytes = bytes := by
  simp [ofBytes, Contents.bytes, Run.bytes]

theorem length_flatMap_bytes (runs : List Run) :
    (runs.flatMap Run.bytes).length = sizeOfRuns runs := by
  induction runs with
  | nil => rfl
  | cons run runs ih =>
    rw [List.flatMap_cons, List.length_append, Run.length_bytes, ih, sizeOfRuns]

@[simp] theorem length_bytes (contents : Contents) : contents.bytes.length = contents.size :=
  length_flatMap_bytes contents.runs

theorem flatMap_takeRuns (count : Nat) (runs : List Run) :
    (takeRuns count runs).flatMap Run.bytes = (runs.flatMap Run.bytes).take count := by
  induction runs generalizing count with
  | nil => simp [takeRuns]
  | cons run runs ih =>
    unfold takeRuns
    split
    · rename_i within
      simp [List.take_append, Nat.sub_eq_zero_of_le within]
    · rename_i beyond
      have whole : run.bytes.take count = run.bytes :=
        List.take_of_length_le (by rw [Run.length_bytes]; omega)
      simp only [List.flatMap_cons, List.take_append, Run.length_bytes, ih, whole]

theorem flatMap_dropRuns (count : Nat) (runs : List Run) :
    (dropRuns count runs).flatMap Run.bytes = (runs.flatMap Run.bytes).drop count := by
  induction runs generalizing count with
  | nil => simp [dropRuns]
  | cons run runs ih =>
    unfold dropRuns
    split
    · rename_i within
      simp [List.drop_append, Nat.sub_eq_zero_of_le (Nat.le_of_lt within)]
    · rename_i beyond
      have nothing : run.bytes.drop count = [] :=
        List.drop_of_length_le (by rw [Run.length_bytes]; omega)
      simp only [List.flatMap_cons, List.drop_append, Run.length_bytes, ih, nothing,
        List.nil_append]

theorem sliceRuns_eq (pos count : Nat) (runs : List Run) :
    sliceRuns pos count runs = Bytes.slice (runs.flatMap Run.bytes) pos count := by
  induction runs generalizing pos count with
  | nil => simp [sliceRuns, Bytes.slice]
  | cons run runs ih =>
    unfold sliceRuns
    split
    · rename_i none
      simp [Bytes.slice, none]
    · split
      · rename_i beyond
        have nothing : run.bytes.drop pos = [] :=
          List.drop_of_length_le (by rw [Run.length_bytes]; omega)
        simp [ih, Bytes.slice, List.drop_append, nothing]
      · rename_i within
        have start : pos - run.size = 0 := by omega
        simp [ih, Run.slice_eq, Bytes.slice, List.drop_append, List.take_append, start]

theorem slice_eq (contents : Contents) (pos count : Nat) :
    contents.slice pos count = Bytes.slice contents.bytes pos count :=
  sliceRuns_eq pos count contents.runs

theorem flatMap_foldr_before (runs : List Run) :
    (runs.foldr Run.before []).flatMap Run.bytes = runs.flatMap Run.bytes := by
  induction runs with
  | nil => rfl
  | cons run runs ih => simp [ih]

@[simp] theorem bytes_overlay (contents : Contents) (pos : Nat) (patch : Bytes) :
    (contents.overlay pos patch).bytes = Bytes.overlay contents.bytes pos patch := by
  simp only [overlay, Bytes.overlay, bytes, flatMap_foldr_before, List.flatMap_append,
    List.flatMap_cons, flatMap_takeRuns, flatMap_dropRuns, Run.bytes]
  rw [← length_bytes]
  simp [bytes]

theorem size_overlay (contents : Contents) (pos : Nat) (patch : Bytes) :
    (contents.overlay pos patch).size = max contents.size (pos + patch.length) := by
  simp [← length_bytes]

end Contents

end GlyphShelf

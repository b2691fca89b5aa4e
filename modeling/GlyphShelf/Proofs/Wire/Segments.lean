import GlyphShelf.Proofs.Wire.Codec

/-!
# Segments of a stream

A stream is cut into segments by the length fields alone: a header, and a body as long as
the header says. What a segment contains plays no part in where the next one starts. Cutting
off frames follows the segments, and does so no matter in which portions the stream comes.
-/

namespace GlyphShelf.Frame

/-- The segments of a stream. One that is incomplete at the end is dropped. -/
def segments (stream : Bytes) : List Bytes :=
  if _whole : 3 ≤ stream.length ∧ 3 + declared stream ≤ stream.length then
    stream.take (3 + declared stream) :: segments (stream.drop (3 + declared stream))
  else []
termination_by stream.length
decreasing_by
  simp only [List.length_drop]
  omega

/-- What a segment says: the first byte tells the kind, and the body follows the header. -/
def reading (segment : Bytes) : Except Problem Frame :=
  ofOpcode (segment.headD 0) (segment.drop 3)

/-- A header and a body of the length that it gives. -/
def IsSegment (bytes : Bytes) : Prop := 3 ≤ bytes.length ∧ bytes.length = 3 + declared bytes

instance (bytes : Bytes) : Decidable (IsSegment bytes) :=
  inferInstanceAs (Decidable (3 ≤ bytes.length ∧ bytes.length = 3 + declared bytes))

variable {stream segment rest : Bytes}

theorem declared_append (header : 3 ≤ stream.length) (more : Bytes) :
    declared (stream ++ more) = declared stream := by
  match stream, header with
  | _ :: _ :: _ :: _, _ => rfl

theorem segments_of_short (short : stream.length < 3 ∨ stream.length < 3 + declared stream) :
    segments stream = [] := by
  rw [segments, dif_neg]
  omega

theorem IsSegment.segments_append (h : IsSegment segment) (rest : Bytes) :
    segments (segment ++ rest) = segment :: segments rest := by
  have sizes := declared_append h.1 rest
  rw [segments, dif_pos, sizes, ← h.2, List.take_left, List.drop_left]
  have := h.2
  rw [sizes, List.length_append]
  omega

/-- What is cut off is a segment, and it is cut off for what it says. -/
theorem take_eq_some_iff_segment {result : Except Problem Frame} :
    take stream = some (result, rest) ↔
      ∃ segment, IsSegment segment ∧ stream = segment ++ rest ∧ result = reading segment := by
  rw [take_eq_some_iff]
  constructor
  · rintro ⟨opcode, high, low, body, size, rfl, rfl⟩
    refine ⟨opcode :: high :: low :: body, ⟨?_, ?_⟩, rfl, rfl⟩
    · simp
    · have whole : declared (opcode :: high :: low :: body) = body.length := size.symm
      simp [whole, Nat.add_comm 3]
  · rintro ⟨segment, ⟨header, size⟩, rfl, rfl⟩
    match segment, header with
    | opcode :: high :: low :: body, _ =>
      refine ⟨opcode, high, low, body, ?_, rfl, rfl⟩
      have whole : body.length + 3 = 3 + (Bytes.word high low).toNat := size
      omega

/-- More bytes behind it change nothing in what is cut off. -/
theorem take_append {result : Except Problem Frame} (cut : take stream = some (result, rest))
    (more : Bytes) : take (stream ++ more) = some (result, rest ++ more) := by
  obtain ⟨segment, whole, rfl, rfl⟩ := take_eq_some_iff_segment.mp cut
  exact take_eq_some_iff_segment.mpr ⟨segment, whole, List.append_assoc .., rfl⟩

/-- A stream that comes in two portions: first what the first portion completes, then what the
second one completes with the rest of the first. -/
theorem takeAll_append (first second : Bytes) :
    takeAll (first ++ second) =
      ((takeAll first).1 ++ (takeAll ((takeAll first).2 ++ second)).1,
        (takeAll ((takeAll first).2 ++ second)).2) := by
  induction h : first.length using Nat.strongRecOn generalizing first with
  | ind length ih =>
    subst h
    rw [takeAll_eq first]
    cases cut : take first with
    | none => simp
    | some cutting =>
      obtain ⟨result, rest⟩ := cutting
      have later := ih rest.length (length_lt_of_take cut) rest rfl
      rw [takeAll_eq (first ++ second), take_append cut]
      simp [later]

/-- What is cut off a stream is what its segments say, and what is left comes after them. -/
theorem takeAll_eq_segments (stream : Bytes) :
    (takeAll stream).1 = (segments stream).map reading ∧
      stream = (segments stream).flatten ++ (takeAll stream).2 := by
  induction h : stream.length using Nat.strongRecOn generalizing stream with
  | ind length ih =>
    subst h
    rw [takeAll_eq stream]
    cases cut : take stream with
    | none => simp [segments_of_short (take_eq_none_iff_short.mp cut)]
    | some cutting =>
      obtain ⟨result, rest⟩ := cutting
      obtain ⟨read, left⟩ := ih rest.length (length_lt_of_take cut) rest rfl
      obtain ⟨segment, whole, rfl, rfl⟩ := take_eq_some_iff_segment.mp cut
      rw [whole.segments_append]
      constructor
      · simp [read]
      · simpa using left

/-- Behind whole segments the segments of what follows are found. -/
theorem segments_append {before : List Bytes} (whole : ∀ segment ∈ before, IsSegment segment)
    (after : Bytes) : segments (before.flatten ++ after) = before ++ segments after := by
  induction before with
  | nil => simp
  | cons segment before ih =>
    rw [List.flatten_cons, List.append_assoc,
      (whole segment List.mem_cons_self).segments_append,
      ih fun other member => whole other (List.mem_cons_of_mem segment member)]
    rfl

end GlyphShelf.Frame

import GlyphShelf.Proofs.Ring.Guards
import GlyphShelf.Proofs.Ring.Ways

/-!
# Patches of any record

A splice of the ring overwrites half of a link where it is stored, and does not look at the other
half. Whoever reads the link afterwards decodes all four bytes at once. That the two agree is a
fact about bytes, whatever bytes they are: in a record that is long enough a patch replaces one
field and nothing else. A record that is too short is made long enough by a patch of the second
field, with zeros in the gap, and stays too short after one of the first.
-/

namespace GlyphShelf.Ring

variable {m : Memory} {key : Key} {link : Link} {bytes : Bytes}

/-! ## Bytes -/

/-- Any two bytes are the code of a key. -/
theorem exists_encode_eq {code : Bytes} (two : code.length = 2) :
    ∃ key : Key, key.encode = code := by
  obtain ⟨low, high, rfl⟩ := List.length_eq_two.1 two
  refine ⟨⟨Bytes.word high low⟩, ?_⟩
  rw [Key.encode, Bytes.lowByte_word, Bytes.highByte_word]

/-- The decoder finds in a patched record the value that was written, and the other field as it
was. -/
theorem decode_overlay (decoded : Link.decode bytes = .ok link) (field : Link.Field) (value : Key) :
    Link.decode (Bytes.overlay bytes field.offset value.encode) = .ok (link.set field value) := by
  obtain ⟨rest, rfl⟩ := exists_rest_of_decode decoded
  rw [overlay_encode_append, Link.decode_encode_append]

/-- The second field of a short record is written behind two bytes: those that are there, and zeros
for those that are not. -/
theorem overlay_next_of_short (short : bytes.length < Link.size) (value : Key) :
    ∃ prev : Key, prev.encode = bytes.take 2 ++ List.replicate (2 - bytes.length) 0 ∧
      Bytes.overlay bytes Link.Field.next.offset value.encode = Link.encode ⟨prev, value⟩ := by
  have two : (bytes.take 2 ++ List.replicate (2 - bytes.length) 0).length = 2 := by
    rw [List.length_append, List.length_take, List.length_replicate]
    omega
  obtain ⟨prev, first⟩ := exists_encode_eq two
  have nothing : bytes.drop (2 + 2) = [] := List.drop_eq_nil_of_le (Nat.le_of_lt short)
  refine ⟨prev, first, ?_⟩
  rw [Bytes.overlay, Link.Field.offset, Key.length_encode, nothing, List.append_nil, ← first,
    Link.encode]

/-- The first field of a short record is written over what is there, and ends before the second. -/
theorem overlay_prev (bytes : Bytes) (value : Key) :
    Bytes.overlay bytes Link.Field.prev.offset value.encode = value.encode ++ bytes.drop 2 := by
  rw [Bytes.overlay, Link.Field.offset, Key.length_encode, List.take_zero, Nat.zero_sub,
    List.replicate_zero, List.append_nil, List.nil_append]

theorem length_overlay_prev_of_short (short : bytes.length < Link.size) (value : Key) :
    (Bytes.overlay bytes Link.Field.prev.offset value.encode).length < Link.size := by
  rw [Bytes.length_overlay, Key.length_encode]
  exact Nat.max_lt.2 ⟨short, by decide⟩

/-! ## Records -/

theorem runs_readLink_of_decoded (quiet : m.fault = none)
    (stored : m.get? (linkName key) = some bytes) (decoded : Link.decode bytes = .ok link) :
    Runs (readLink key) m (.ok link) (m.spend 3) := by
  obtain ⟨rest, rfl⟩ := exists_rest_of_decode decoded
  exact runs_readLink_of_stored (Memory.allows_of_none quiet 3) stored

/-- Only a link that is there can be patched. -/
theorem runs_patch_of_absent (quiet : m.fault = none) (absent : m.get? (linkName key) = none)
    (field : Link.Field) (value : Key) :
    Runs (patch key field value) m (.error (.corrupt (.missingLink key))) (m.spend 1) :=
  runs_orDangling_mapError (Device.runs_withRecord_of_unopened
    (Memory.runs_openRecord_of_absent .readWrite (Memory.allows_of_none quiet 1) absent rfl))

/-! ## The main statement -/

/-- A patch changes no record but that of the link. If the record is long enough for a link,
whatever its bytes are, reading it afterwards gives the link that was read before with one field
replaced, and every byte outside of the field is as it was. If it is too short, a patch of the
second field keeps its first two bytes, puts zeros for those that are missing and makes a link of
it; after a patch of the first field it still cannot be read. Where there is no record the patch
reports damage, and nothing changes but the count of operations. -/
theorem patches_agree_with_decoder (unlimited : m.quota = none) (quiet : m.fault = none) (key : Key)
    (field : Link.Field) (value : Key) :
    (m.get? (linkName key) = none →
      Runs (patch key field value) m (.error (.corrupt (.missingLink key))) (m.spend 1)) ∧
    ∀ bytes, m.get? (linkName key) = some bytes → ∃ patched m',
      Runs (patch key field value) m (.ok ()) m' ∧
      m'.get? = Function.update m.get? (linkName key) (some patched) ∧
      (Link.size ≤ bytes.length → ∃ link,
        Runs (readLink key) m (.ok link) (m.spend 3) ∧
        Runs (readLink key) m' (.ok (link.set field value)) (m'.spend 3) ∧
        patched.length = bytes.length ∧
        ∀ i, i < field.offset ∨ field.offset + 2 ≤ i → patched[i]? = bytes[i]?) ∧
      (bytes.length < Link.size → field = .next → ∃ prev : Key,
        prev.encode = bytes.take 2 ++ List.replicate (2 - bytes.length) 0 ∧
        patched = Link.encode ⟨prev, value⟩ ∧
        Runs (readLink key) m' (.ok ⟨prev, value⟩) (m'.spend 3)) ∧
      (bytes.length < Link.size → field = .prev →
        patched = value.encode ++ bytes.drop 2 ∧ patched.length < Link.size ∧
        ∃ m'', Runs (readLink key) m'
          (.error (.corrupt (.endOfRecord patched.length Link.size))) m'') := by
  refine ⟨fun absent => runs_patch_of_absent quiet absent field value, fun bytes stored => ?_⟩
  obtain ⟨m', patching, sets⟩ :=
    runs_patch_of_stored unlimited (Memory.allows_of_none quiet 4) stored field value
  have quiet' : m'.fault = none := sets.fault_eq_none quiet
  have stored' := sets.get?_same
  refine ⟨_, m', patching, sets.get?, fun enough => ?_, fun short second => ?_,
    fun short first => ?_⟩
  · obtain ⟨link, decoded⟩ := exists_decode_of_size_le enough
    have inside := Nat.le_trans field.offset_add_two_le enough
    refine ⟨link, runs_readLink_of_decoded quiet stored decoded,
      runs_readLink_of_decoded quiet' stored' (decode_overlay decoded field value), ?_, ?_⟩
    · rw [Bytes.length_overlay, Key.length_encode, Nat.max_eq_left inside]
    · intro i outside
      rw [← value.length_encode] at outside
      exact Bytes.getElem?_overlay_of_outside (Nat.le_of_add_right_le inside) outside
  · subst second
    obtain ⟨prev, kept, patched⟩ := overlay_next_of_short short value
    refine ⟨prev, kept, patched, ?_⟩
    rw [patched] at stored'
    exact runs_readLink_of_decoded quiet' stored' (Link.decode_encode _)
  · subst first
    have still := length_overlay_prev_of_short short value
    exact ⟨overlay_prev bytes value, still, runs_readLink_of_short quiet' stored' still⟩

/-- A record of a single byte becomes a link. -/
theorem single_byte_becomes_link :
    let m := ({} : Memory).poke (linkName ⟨7⟩) [9]
    m.quota = none ∧ m.fault = none ∧ m.get? (linkName ⟨7⟩) = some [9] ∧
      ∃ prev m', Runs (patch ⟨7⟩ .next ⟨0x1234⟩) m (.ok ()) m' ∧
        m'.get? (linkName ⟨7⟩) = some [9, 0, 0x34, 0x12] ∧
        Runs (readLink ⟨7⟩) m' (.ok ⟨prev, ⟨0x1234⟩⟩) (m'.spend 3) := by
  intro m
  have stored : m.get? (linkName ⟨7⟩) = some [9] := by
    rw [Memory.get?_poke, Function.update_self]
  obtain ⟨patched, m', patching, sets, -, second, -⟩ :=
    (patches_agree_with_decoder (m := m) rfl rfl ⟨7⟩ .next ⟨0x1234⟩).2 [9] stored
  obtain ⟨prev, kept, rfl, reading⟩ := second (by decide) rfl
  refine ⟨rfl, rfl, stored, prev, m', patching, ?_, reading⟩
  rw [sets, Function.update_self, Link.encode, kept]
  dsimp only
  decide

end GlyphShelf.Ring

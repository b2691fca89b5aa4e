import Mathlib.Data.Nat.Digits.Lemmas
import Mathlib.Tactic.Ring
import GlyphShelf.RecordName

/-!
# The grammar of record names

A name is split at its first character that is no digit, and its number is read digit by digit up
to the first one with which it gets too large. Here the names that are read are described without
either: a numeral is a run of ASCII digits with its decimal value, and a name is the numeral of a
key, with or without the suffix. Reading accepts exactly these names, each as what it is written
for, however many zeros the numeral begins with.
-/

namespace GlyphShelf

/-! ## Numerals -/

namespace Numeral

variable {run : List Char} {n limit : Nat}

def digit (c : Char) : Nat := c.toNat - '0'.toNat

/-- At least one character, all of them ASCII digits, with the given decimal value. The last digit
counts ones. -/
structure Writes (run : List Char) (n : Nat) : Prop where
  nonempty : run ≠ []
  ascii : ∀ c ∈ run, '0' ≤ c ∧ c ≤ '9'
  value : Nat.ofDigits 10 (run.reverse.map digit) = n

theorem isDigit_iff {c : Char} : c.isDigit = true ↔ '0' ≤ c ∧ c ≤ '9' := by
  rw [Char.isDigit, Bool.and_eq_true, decide_eq_true_iff, decide_eq_true_iff]
  exact .rfl

/-- Reading on from a value moves it up by one place for each digit. -/
theorem ofDigitChars_eq (run : List Char) (start : Nat) :
    Nat.ofDigitChars 10 run start =
      10 ^ run.length * start + Nat.ofDigits 10 (run.reverse.map digit) := by
  induction run generalizing start with
  | nil => simp
  | cons c rest ih =>
    rw [Nat.ofDigitChars_cons, ih, List.reverse_cons, List.map_append, Nat.ofDigits_append,
      List.length_map, List.length_reverse, List.length_cons, List.map_singleton,
      Nat.ofDigits_singleton, digit]
    ring

theorem ofDigits?_eq_some_iff : ofDigits? run = some n ↔ Writes run n := by
  have value : Nat.ofDigitChars 10 run 0 = Nat.ofDigits 10 (run.reverse.map digit) := by
    rw [ofDigitChars_eq, Nat.mul_zero, Nat.zero_add]
  have ascii : run.all Char.isDigit = true ↔ ∀ c ∈ run, '0' ≤ c ∧ c ≤ '9' := by
    simp only [List.all_eq_true, isDigit_iff]
  rw [ofDigits?, value]
  constructor
  · intro read
    split at read
    · cases read
    · rename_i nonempty
      split at read
      · rename_i digits
        exact ⟨fun none => nonempty (List.isEmpty_iff.2 none), ascii.1 digits, Option.some.inj read⟩
      · cases read
  · intro writes
    have nonempty : ¬ run.isEmpty = true := fun none => writes.nonempty (List.isEmpty_iff.1 none)
    rw [if_neg nonempty, if_pos (ascii.2 writes.ascii), writes.value]

/-- Giving up as soon as the limit is reached loses no number below the limit. -/
theorem ofDigitsBelow?_eq_some_iff (positive : 0 < limit) :
    ofDigitsBelow? limit run = some n ↔ Writes run n ∧ n < limit := by
  rw [ofDigitsBelow?_eq positive, Option.filter_eq_some_iff, ofDigits?_eq_some_iff,
    decide_eq_true_iff]

theorem Writes.all_isDigit (writes : Writes run n) : ∀ c ∈ run, c.isDigit = true :=
  fun c member => isDigit_iff.2 (writes.ascii c member)

end Numeral

/-! ## Names -/

namespace RecordName

open Numeral (Writes)

variable {name : String} {digits : List Char} {key : Key}

theorem keyOfDigits?_eq_some_iff : keyOfDigits? digits = some key ↔ Writes digits key.number := by
  rw [keyOfDigits?, Option.bind_eq_some_iff]
  constructor
  · rintro ⟨n, read, numbered⟩
    rw [Key.ofNumber?_eq_some_iff.1 numbered]
    exact ((Numeral.ofDigitsBelow?_eq_some_iff (by decide)).1 read).1
  · intro writes
    have read := (Numeral.ofDigitsBelow?_eq_some_iff (by decide)).2 ⟨writes, key.number_lt⟩
    exact ⟨key.number, read, Key.ofNumber?_number key⟩

/-- Where a run of digits ends is no question if no digit comes after it. -/
theorem span_digits (all : ∀ c ∈ digits, c.isDigit = true) (rest : List Char)
    (ended : rest.takeWhile Char.isDigit = []) :
    (digits ++ rest).takeWhile Char.isDigit = digits ∧
      (digits ++ rest).dropWhile Char.isDigit = rest := by
  have before : (digits ++ rest).takeWhile Char.isDigit =
      digits ++ rest.takeWhile Char.isDigit := List.takeWhile_append_of_pos all
  rw [ended, List.append_nil] at before
  have whole := List.takeWhile_append_dropWhile (p := Char.isDigit) (l := digits ++ rest)
  rw [before] at whole
  exact ⟨before, List.append_cancel_left whole⟩

theorem ofText?_of_writes (writes : Writes name.toList key.number) :
    ofText? name = some (payload key) := by
  obtain ⟨before, after⟩ := span_digits writes.all_isDigit [] rfl
  rw [List.append_nil] at before after
  rw [ofText?, before, after, if_pos rfl, keyOfDigits?_eq_some_iff.2 writes, Option.map_some]

theorem ofText?_of_writes_suffix (writes : Writes digits key.number)
    (split : name.toList = digits ++ ".lnk".toList) : ofText? name = some (link key) := by
  obtain ⟨before, after⟩ := span_digits writes.all_isDigit ".lnk".toList (by decide)
  rw [ofText?, split, before, after, if_neg (by decide), if_pos rfl,
    keyOfDigits?_eq_some_iff.2 writes, Option.map_some]

/-- A name that is read is a run of digits with the suffix or without it. -/
theorem cases_of_ofText? {read : RecordName} (reads : ofText? name = some read) :
    (∃ key, read = payload key ∧ Writes name.toList key.number) ∨
    ∃ key digits, read = link key ∧ Writes digits key.number ∧
      name.toList = digits ++ ".lnk".toList := by
  have whole := List.takeWhile_append_dropWhile (p := Char.isDigit) (l := name.toList)
  rw [ofText?] at reads
  split at reads
  · rename_i ended
    obtain ⟨key, found, rfl⟩ := Option.map_eq_some_iff.1 reads
    rw [ended, List.append_nil] at whole
    rw [whole] at found
    exact .inl ⟨key, rfl, keyOfDigits?_eq_some_iff.1 found⟩
  · split at reads
    · rename_i ended
      obtain ⟨key, found, rfl⟩ := Option.map_eq_some_iff.1 reads
      rw [ended] at whole
      exact .inr ⟨key, _, rfl, keyOfDigits?_eq_some_iff.1 found, whole.symm⟩
    · cases reads

/-- No name has both forms: a numeral has no character of the suffix. -/
theorem not_writes_append_suffix (digits : List Char) (n : Nat) :
    ¬ Writes (digits ++ ".lnk".toList) n := by
  intro writes
  have digit : ('.' : Char).isDigit = true :=
    writes.all_isDigit '.' (List.mem_append_right _ (by decide))
  exact absurd digit (by decide)

theorem ofText?_eq_payload_iff :
    ofText? name = some (payload key) ↔ Writes name.toList key.number := by
  constructor
  · intro reads
    rcases cases_of_ofText? reads with ⟨_, same, writes⟩ | ⟨_, _, other, -⟩
    · cases same
      exact writes
    · cases other
  · exact ofText?_of_writes

theorem ofText?_eq_link_iff : ofText? name = some (link key) ↔
    ∃ digits, Writes digits key.number ∧ name.toList = digits ++ ".lnk".toList := by
  constructor
  · intro reads
    rcases cases_of_ofText? reads with ⟨_, other, -⟩ | ⟨_, digits, same, writes, split⟩
    · cases other
    · cases same
      exact ⟨digits, writes, split⟩
  · rintro ⟨digits, writes, split⟩
    exact ofText?_of_writes_suffix writes split

/-- Reading accepts exactly the numerals of keys, alone for payloads and with the suffix for
links, and refuses every other name. Each canonical name is read as what it was written for, and
no name has both forms. -/
theorem reads_numerals_of_keys (name : String) :
    (∀ key, ofText? name = some (payload key) ↔ Writes name.toList key.number) ∧
    (∀ key, ofText? name = some (link key) ↔
      ∃ digits, Writes digits key.number ∧ name.toList = digits ++ ".lnk".toList) ∧
    (ofText? name = none ↔ ∀ n ≤ 65535, ¬ Writes name.toList n ∧
      ∀ digits, Writes digits n → name.toList ≠ digits ++ ".lnk".toList) ∧
    (∀ key, ofText? (payload key).text = some (payload key) ∧
      ofText? (link key).text = some (link key)) ∧
    ∀ digits n, name.toList = digits ++ ".lnk".toList → ¬ Writes name.toList n := by
  refine ⟨fun key => ofText?_eq_payload_iff, fun key => ofText?_eq_link_iff, ?_,
    fun key => ⟨ofText?_text _, ofText?_text _⟩, ?_⟩
  · constructor
    · intro unread n most
      obtain ⟨key, rfl⟩ : ∃ key : Key, key.number = n :=
        ⟨⟨UInt16.ofNat n⟩, UInt16.toNat_ofNat_of_lt' (Nat.lt_succ_of_le most)⟩
      refine ⟨fun writes => ?_, fun digits writes split => ?_⟩
      · rw [ofText?_of_writes writes] at unread
        cases unread
      · rw [ofText?_of_writes_suffix writes split] at unread
        cases unread
    · intro unwritten
      apply Option.eq_none_iff_forall_ne_some.2
      intro read reads
      rcases cases_of_ofText? reads with ⟨key, -, writes⟩ | ⟨key, digits, -, writes, split⟩
      · exact (unwritten key.number (Nat.le_of_lt_succ key.number_lt)).1 writes
      · exact (unwritten key.number (Nat.le_of_lt_succ key.number_lt)).2 digits writes split
  · intro digits n split
    rw [split]
    exact not_writes_append_suffix digits n

example : ofText? "0065535.lnk" = some (link .tail) := by decide +kernel

end RecordName

end GlyphShelf

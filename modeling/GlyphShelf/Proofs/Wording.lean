import Mathlib.Algebra.Group.Nat.Defs
import GlyphShelf.Proofs.Ring.Agreement
import GlyphShelf.Service.Answer

/-!
# How long messages are

A refusal and a report are sent as text in the body of a frame, which holds a limited number of
bytes. So that an answer can always be sent, every text that is built here has to fit: numbers
have few digits, since they are words or sizes of what is in memory, and a ratio is written in
few digits whatever it is. The bounds are generous; four bytes for each character are enough for
any character.
-/

namespace GlyphShelf

def Fits (text : String) : Prop := (Text.encode text).length ≤ Frame.maxBody

theorem fits_iff {text : String} : Fits text ↔ text.utf8ByteSize ≤ 65535 := by
  simp [Fits, Text.encode, Frame.maxBody]

/-! ## Pieces -/

/-- The text is no longer than so many pieces of eighty bytes. -/
def Pieces (count : Nat) (text : String) : Prop := text.utf8ByteSize ≤ 80 * count

theorem Pieces.one {text : String} (short : text.utf8ByteSize ≤ 80) : Pieces 1 text := short

theorem Pieces.append {text more : String} {count others : Nat} (pieces : Pieces count text)
    (after : Pieces others more) : Pieces (count + others) (text ++ more) := by
  unfold Pieces at *
  rw [String.utf8ByteSize_append]
  omega

theorem Pieces.fits {text : String} {count : Nat} (pieces : Pieces count text)
    (few : count ≤ 800) : Fits text := by
  unfold Pieces at pieces
  rw [fits_iff]
  omega

/-! ## Numbers -/

theorem utf8ByteSize_ofList_le (chars : List Char) :
    (String.ofList chars).utf8ByteSize ≤ 4 * chars.length := by
  induction chars with
  | nil => simp
  | cons c chars ih =>
    rw [String.ofList_cons, String.utf8ByteSize_append, String.utf8ByteSize_singleton,
      List.length_cons]
    have := c.utf8Size_le_four
    omega

theorem utf8ByteSize_toString_le {n digits : Nat} (small : n < 10 ^ digits) (some : 0 < digits) :
    (toString n).utf8ByteSize ≤ 4 * digits := by
  rw [Nat.toString_eq_ofList_toDigits]
  have few := (Nat.length_toDigits_le_iff (by decide) some).2 small
  have := utf8ByteSize_ofList_le (Nat.toDigits 10 n)
  omega

/-- A word of 64 bits has at most twenty digits. -/
theorem pieces_word {n : Nat} (word : n < 2 ^ 64) : Pieces 1 (toString n) :=
  utf8ByteSize_toString_le (Nat.lt_trans word (show 2 ^ 64 < 10 ^ 20 by decide)) (by decide)

theorem pieces_number (key : Key) : Pieces 1 (toString key.number) :=
  pieces_word (Nat.lt_trans key.number_lt (by decide))

theorem pieces_keyText (key : Key) : Pieces 1 key.text := by
  unfold Key.text
  split
  · exact .one (by decide)
  · split
    · exact .one (by decide)
    · exact pieces_number key

theorem pieces_hex {width : Nat} (narrow : width ≤ 20) (value : Nat) :
    Pieces 1 (Numeral.hex width value) := by
  have := utf8ByteSize_ofList_le (Numeral.hexDigits width value)
  rw [Numeral.length_hexDigits] at this
  unfold Pieces Numeral.hex
  omega

/-! ## Ratios -/

namespace Decimal

variable {interval : Interval}

theorem placesFor_le (interval : Interval) (count zeros places : Nat) :
    placesFor interval count zeros places ≤ places + zeros := by
  induction zeros generalizing places with
  | zero => exact Nat.le_refl _
  | succ zeros ih =>
    unfold placesFor
    split
    · omega
    · have := ih (places + 1)
      omega

/-- A fraction that is hardly above one, with a limited number of places. -/
structure Fraction.Short (fraction : Fraction) (places : Nat) : Prop where
  digits_le : fraction.digits ≤ 10 ^ places + 1
  places_le : fraction.places ≤ places

theorem Fraction.Short.mono {fraction : Fraction} {places more : Nat}
    (short : fraction.Short places) (le : places ≤ more) : fraction.Short more :=
  ⟨Nat.le_trans short.digits_le (by have := Nat.pow_le_pow_right (show 0 < 10 by decide) le; omega),
    Nat.le_trans short.places_le le⟩

/-- Of a value up to one no more is seen at so many places. -/
theorem scaled_le (whole : interval.value ≤ interval.denominator) (places : Nat) :
    interval.value * 10 ^ places / interval.denominator ≤ 10 ^ places :=
  Nat.div_le_of_le_mul (Nat.mul_le_mul_right _ whole)

theorem short_of_candidate? {fraction : Fraction} {count : Nat}
    (whole : interval.value ≤ interval.denominator)
    (found : candidate? interval count = some fraction) : fraction.Short (count + 400) := by
  have places := placesFor_le interval count 400 (count - 1)
  unfold candidate? at found
  generalize placesFor interval count 400 (count - 1) = here at places found
  have scaled := scaled_le whole here
  have below :
      Fraction.Short ⟨interval.value * Nat.pow 10 here / interval.denominator, here⟩ here :=
    ⟨Nat.le_succ_of_le scaled, Nat.le_refl _⟩
  have above :
      Fraction.Short ⟨interval.value * Nat.pow 10 here / interval.denominator + 1, here⟩ here :=
    ⟨Nat.succ_le_succ scaled, Nat.le_refl _⟩
  suffices short : fraction.Short here from short.mono (by omega)
  dsimp only at found
  split at found
  · cases found
  · cases found
    exact below
  · cases found
    exact above
  · split at found
    · cases found
      exact below
    · split at found
      · cases found
        exact above
      · split at found
        · cases found
          exact below
        · cases found
          exact above

theorem short_shortestFrom (whole : interval.value ≤ interval.denominator) (more count : Nat) :
    (shortestFrom interval more count).Short (more + count + 400) := by
  induction more generalizing count with
  | zero =>
    exact Fraction.Short.mono
      ⟨Nat.le_succ_of_le (scaled_le whole count), Nat.le_refl _⟩ (by omega)
  | succ more ih =>
    unfold shortestFrom
    split
    · rename_i fraction found
      exact (short_of_candidate? whole found).mono (by omega)
    · exact (ih (count + 1)).mono (by omega)

theorem trim_le (places digits : Nat) :
    (trim places digits).digits ≤ digits ∧ (trim places digits).places ≤ places := by
  induction places generalizing digits with
  | zero => exact ⟨Nat.le_refl _, Nat.le_refl _⟩
  | succ places ih =>
    unfold trim
    split
    · obtain ⟨fewer, less⟩ := ih (digits / 10)
      exact ⟨Nat.le_trans fewer (Nat.div_le_self _ _), Nat.le_succ_of_le less⟩
    · exact ⟨Nat.le_refl _, Nat.le_refl _⟩

theorem short_shortest (whole : interval.value ≤ interval.denominator) :
    (shortest interval).Short (17 + 1 + 400) := by
  have short := short_shortestFrom whole 17 1
  obtain ⟨digits, places⟩ :=
    trim_le (shortestFrom interval 17 1).places (shortestFrom interval 17 1).digits
  exact ⟨Nat.le_trans digits short.digits_le, Nat.le_trans places short.places_le⟩

theorem Fraction.utf8ByteSize_text_le {fraction : Fraction} {places : Nat}
    (short : fraction.Short places) (few : places ≤ 418) : fraction.text.utf8ByteSize ≤ 1720 := by
  have many : (Nat.toDigits 10 fraction.digits).length ≤ 419 := by
    suffices count : (Nat.toDigits 10 fraction.digits).length ≤ places + 1 by omega
    rw [Nat.length_toDigits_le_iff (by decide) (by omega), Nat.pow_succ]
    have digits := short.digits_le
    have : 0 < 10 ^ places := Nat.pow_pos (by decide)
    omega
  have places := short.places_le
  have exponent (zeros : Nat) (le : zeros ≤ 418) : (Nat.toDigits 10 (zeros + 1)).length ≤ 3 :=
    (Nat.length_toDigits_le_iff (by decide) (by decide)).2 (by omega)
  -- whichever way it is written, the digits are there once and little else is
  have listed (chars : List Char) (le : chars.length ≤ 430) :
      (String.ofList chars).utf8ByteSize ≤ 1720 :=
    Nat.le_trans (utf8ByteSize_ofList_le chars) (Nat.mul_le_mul_left 4 le)
  unfold Fraction.text
  dsimp only
  split
  · apply listed
    simp
    omega
  · split
    · split
      · apply listed
        simp
        omega
      · apply listed
        have := exponent (fraction.places - (Nat.toDigits 10 fraction.digits).length) (by omega)
        split <;> rename_i shape <;> rw [shape] at many this ⊢ <;>
          simp at many this ⊢ <;> omega
    · apply listed
      simp
      omega

end Decimal

namespace Ratio

/-- Rounding does not pass an integer. -/
theorem roundQuotient_le {numerator denominator limit : Nat} (some : 0 < denominator)
    (le : numerator ≤ limit * denominator) : roundQuotient numerator denominator ≤ limit := by
  have split := Nat.div_add_mod numerator denominator
  have quotient : numerator / denominator ≤ limit := Nat.div_le_of_le_mul (by rwa [Nat.mul_comm])
  rcases Nat.lt_or_eq_of_le quotient with below | exact
  · unfold roundQuotient
    dsimp only
    split
    · exact quotient
    · split
      · exact below
      · split
        · exact quotient
        · exact below
  · have nothing : numerator % denominator = 0 := by
      rw [exact, Nat.mul_comm] at split
      omega
    unfold roundQuotient
    simp only [nothing, Nat.mul_zero, if_pos some]
    exact quotient

/-- The ratio of a part to the whole is at most one. -/
theorem significand_ofCounts_le {part whole : Nat} (le : part ≤ whole) :
    (ofCounts part whole).significand ≤ 2 ^ (ofCounts part whole).scale := by
  unfold ofCounts
  split
  · exact Nat.zero_le _
  · rename_i counted
    have some : 0 < whole := by
      simp only [Bool.or_eq_true, decide_eq_true_eq, not_or] at counted
      omega
    have rounded : roundQuotient (part * Nat.pow 2 (scaleOf part whole)) whole ≤
        2 ^ scaleOf part whole :=
      roundQuotient_le some (by rw [Nat.mul_comm]; exact Nat.mul_le_mul_left _ le)
    dsimp only
    split
    · rename_i carried
      have scale : 53 ≤ scaleOf part whole := by
        rw [carried] at rounded
        exact (Nat.pow_le_pow_iff_right (by decide)).1 rounded
      exact Nat.pow_le_pow_right (by decide) (Nat.le_sub_one_of_lt scale)
    · exact rounded

theorem utf8ByteSize_text_le {ratio : Ratio} (whole : ratio.significand ≤ 2 ^ ratio.scale) :
    ratio.text.utf8ByteSize ≤ 1720 := by
  unfold text
  split
  · decide
  · have value : ratio.interval.value ≤ ratio.interval.denominator := by
      show 4 * ratio.significand ≤ 2 ^ (ratio.scale + 2)
      rw [Nat.pow_add]
      omega
    exact Decimal.Fraction.utf8ByteSize_text_le (Decimal.short_shortest value) (by decide)

end Ratio

/-! ## Reports -/

namespace Tally

theorem utf8ByteSize_shown_le (count : Nat) : (toString (shown count)).utf8ByteSize ≤ 80 :=
  pieces_word count.toUInt64.toNat_lt

theorem utf8ByteSize_hitRatio_le (tally : Tally) : tally.hitRatio.text.utf8ByteSize ≤ 1720 :=
  Ratio.utf8ByteSize_text_le (Ratio.significand_ofCounts_le (Nat.le_add_right _ _))

theorem utf8ByteSize_member (name value : String) :
    (member name value).utf8ByteSize = name.utf8ByteSize + value.utf8ByteSize + 3 := by
  simp only [member, String.utf8ByteSize_append]
  have quote : "\"".utf8ByteSize = 1 := by decide
  have colon : "\":".utf8ByteSize = 2 := by decide
  omega

theorem utf8ByteSize_object_le {limit : Nat} {members : List String}
    (each : ∀ text ∈ members, text.utf8ByteSize ≤ limit) :
    (object members).utf8ByteSize ≤ 2 + members.length * (limit + 1) := by
  have opening : "\x7b".utf8ByteSize = 1 := by decide
  have closing : "\x7d".utf8ByteSize = 1 := by decide
  have comma : ",".utf8ByteSize = 1 := by decide
  suffices listed : (",".intercalate members).utf8ByteSize ≤ members.length * (limit + 1) by
    simp only [object, String.utf8ByteSize_append]
    omega
  induction members with
  | nil => simp
  | cons first rest ih =>
    obtain ⟨small, others⟩ := List.forall_mem_cons.1 each
    cases rest with
    | nil =>
      rw [String.intercalate_singleton, List.length_singleton]
      omega
    | cons second rest =>
      have := ih others
      rw [String.intercalate_cons_cons, String.utf8ByteSize_append, String.utf8ByteSize_append,
        comma, List.length_cons, Nat.succ_mul]
      omega

/-- Whatever is counted, a report fits a frame. -/
theorem fits_shelfJson (tally : Tally) (size capacity : Nat) :
    Fits (tally.shelfJson size capacity) := by
  have counters (name : String) (short : name.utf8ByteSize ≤ 9) (count : Nat) :
      (counter name count).utf8ByteSize ≤ 1732 := by
    have := utf8ByteSize_shown_le count
    rw [counter, utf8ByteSize_member]
    omega
  have ratio : (member "hit_ratio" tally.hitRatio.text).utf8ByteSize ≤ 1732 := by
    have := tally.utf8ByteSize_hitRatio_le
    rw [utf8ByteSize_member, show "hit_ratio".utf8ByteSize = 9 by decide]
    omega
  rw [fits_iff, shelfJson]
  refine Nat.le_trans (utf8ByteSize_object_le (show ∀ text ∈ _, _ ≤ 12000 from ?_)) (by simp)
  simp only [List.forall_mem_cons]
  refine ⟨?_, ?_, ?_, nofun⟩
  · exact Nat.le_trans (counters "capacity" (by decide) _) (by decide)
  · exact Nat.le_trans (counters "size" (by decide) _) (by decide)
  · have inner := utf8ByteSize_object_le (show ∀ text ∈ [
        counter "evictions" tally.evictions, member "hit_ratio" tally.hitRatio.text,
        counter "hits" tally.hits, counter "inserts" tally.inserts,
        counter "misses" tally.misses, counter "updates" tally.updates], _ ≤ 1732 by
      simp only [List.forall_mem_cons]
      exact ⟨counters _ (by decide) _, ratio, counters _ (by decide) _, counters _ (by decide) _,
        counters _ (by decide) _, counters _ (by decide) _, nofun⟩)
    rw [utf8ByteSize_member, show "stats".utf8ByteSize = 5 by decide]
    simp only [List.length_cons, List.length_nil] at inner
    omega

end Tally

/-! ## Failures -/

def Failure.Fits (e : Failure) : Prop := GlyphShelf.Fits e.text

/-- All failures that do not come from the device fit. -/
theorem Failure.Raised.fits {e : Failure} (raised : e.Raised) : e.Fits := by
  have corrupt {damage : Damage} {count : Nat} (pieces : Pieces count damage.text)
      (few : 1 + count ≤ 800) : (Failure.corrupt damage).Fits :=
    ((Pieces.one (show "Corrupt record: ".utf8ByteSize ≤ 80 by decide)).append pieces).fits few
  have size {n : Nat} (short : n < Link.size) : Pieces 1 (toString n) :=
    pieces_word (Nat.lt_trans short (by decide))
  cases raised with
  | reservedKey key =>
    exact (((Pieces.one (by decide)).append (pieces_hex (by decide) _)).append
      (.one (by decide))).fits (by decide)
  | alreadyLinked key =>
    exact (((Pieces.one (by decide)).append (pieces_number key)).append
      (.one (by decide))).fits (by decide)
  | nothingToEvict => exact (Pieces.one (by decide)).fits (by decide)
  | endOfLink short =>
    exact corrupt (((((Pieces.one (by decide)).append (size short)).append
      (.one (by decide))).append (.one (by decide))).append (.one (by decide))) (by decide)
  | shortLink short =>
    exact corrupt (((Pieces.one (by decide)).append (size short)).append (.one (by decide)))
      (by decide)
  | missingLink key =>
    exact corrupt (((Pieces.one (by decide)).append (pieces_keyText key)).append (.one (by decide)))
      (by decide)
  | unclosedRing start goal =>
    exact corrupt ((((Pieces.one (by decide)).append (pieces_keyText start)).append
      (.one (by decide))).append (pieces_keyText goal)) (by decide)
  | lastIsAnchor key =>
    exact corrupt ((Pieces.one (by decide)).append (pieces_keyText key)) (by decide)

/-! ## Malformed frames -/

namespace Text

/-- A character, or what is none, takes no more than so many bytes. -/
def Start.Within (limit : Nat) : Start → Prop
  | .whole length => length ≤ limit
  | .broken length => length ≤ limit
  | .cut => True

theorem Start.Within.mono {limit more : Nat} {start : Start} (within : start.Within limit)
    (le : limit ≤ more) : start.Within more := by
  cases start with
  | cut => trivial
  | whole | broken => exact Nat.le_trans within le

theorem continuations_within (count : Nat) (low high : UInt8) (passed : Nat) (bytes : Bytes) :
    (continuations count low high passed bytes).Within (passed + count) := by
  induction count generalizing low high passed bytes with
  | zero => exact Nat.le_refl _
  | succ count ih =>
    cases bytes with
    | nil => trivial
    | cons byte rest =>
      unfold continuations
      split
      · exact (ih 0x80 0xBF (passed + 1) rest).mono (by omega)
      · exact Nat.le_add_right _ _

/-- No character takes more than four bytes, and neither does what is no character. -/
theorem start_within (bytes : Bytes) : (start bytes).Within 4 := by
  have one : Start.Within 4 (.whole 1) ∧ Start.Within 4 (.broken 1) :=
    ⟨show 1 ≤ 4 by decide, show 1 ≤ 4 by decide⟩
  have more (count : Nat) (few : count ≤ 3) (low high : UInt8) (rest : Bytes) :
      (continuations count low high 1 rest).Within 4 :=
    (continuations_within count low high 1 rest).mono (by omega)
  cases bytes with
  | nil => trivial
  | cons lead rest =>
    rw [start]
    split
    · exact one.1
    split
    · exact one.2
    repeat
      split
      · exact more _ (by decide) _ _ _
    exact one.2

/-- The numbers in a problem are bounded by the bytes looked at. -/
theorem pieces_firstProblem (characters index : Nat) (bytes : Bytes)
    (few : index + 4 * characters < 2 ^ 64) :
    Pieces 4 (firstProblem characters index bytes).text := by
  have incomplete {index : Nat} (word : index < 2 ^ 64) :
      Pieces 4 (Problem.incomplete index).text := by
    have pieces : Pieces (1 + 1) (Problem.incomplete index).text :=
      (Pieces.one (by decide)).append (pieces_word word)
    unfold Pieces at *
    omega
  induction characters generalizing index bytes with
  | zero => exact incomplete (by omega)
  | succ characters ih =>
    unfold firstProblem
    have within := start_within bytes
    generalize start bytes = found at within ⊢
    cases found with
    | cut => exact incomplete (by omega)
    | whole length =>
      have : length ≤ 4 := within
      exact ih _ _ (by omega)
    | broken length =>
      have : length ≤ 4 := within
      exact (((Pieces.one (by decide)).append (pieces_word (by omega))).append
        (.one (by decide))).append (pieces_word (by omega))

end Text

namespace Frame

theorem exists_of_map_eq_error {α β ε : Type} {f : α → β} {result : Except ε α} {e : ε}
    (h : result.map f = .error e) : result = .error e := by
  cases result with
  | error e' => exact congrArg _ (Except.error.inj h)
  | ok a => cases h

/-- Why a body is refused fits a frame, because the body came in one. -/
theorem fits_of_ofOpcode {opcode : UInt8} {body : Bytes} {problem : Problem}
    (refused : ofOpcode opcode body = .error problem) (small : body.length ≤ maxBody) :
    Fits problem.text := by
  have few : 0 + 4 * body.length < 2 ^ 64 := by
    have : 4 * maxBody < 2 ^ 64 := by decide
    omega
  have sized : Pieces 1 (toString body.length) := pieces_word (by omega)
  have word (h : readWord body = .error problem) :
      Fits problem.text := by
    unfold readWord at h
    split at h
    · cases h
    · cases h
      exact (((Pieces.one (by decide)).append sized).append (.one (by decide))).fits (by decide)
  have payload (h : readPayload body = .error problem) : Fits problem.text := by
    unfold readPayload at h
    split at h
    · cases h
    · cases h
      exact (Pieces.one (by decide)).fits (by decide)
  have empty {frame : Frame} (h : readEmpty frame body = .error problem) : Fits problem.text := by
    unfold readEmpty at h
    split at h
    · cases h
    · cases h
      exact (((Pieces.one (by decide)).append sized).append (.one (by decide))).fits (by decide)
  have text (h : readText body = .error problem) : Fits problem.text := by
    unfold readText Text.decode at h
    split at h
    · cases h
    · cases h
      exact (Text.pieces_firstProblem _ 0 _ few).fits (by decide)
  unfold ofOpcode at refused
  split at refused
  · rename_i kind _
    cases kind with
    | request | lookup | missing =>
      exact word (exists_of_map_eq_error (exists_of_map_eq_error refused))
    | stored => exact word (exists_of_map_eq_error refused)
    | download | glyph => exact payload (exists_of_map_eq_error refused)
    | stats | reset | done => exact empty refused
    | report | refused => exact text (exists_of_map_eq_error refused)
  · cases refused
    exact ((Pieces.one (by decide)).append (pieces_hex (by decide) _)).fits (by decide)

end Frame

end GlyphShelf

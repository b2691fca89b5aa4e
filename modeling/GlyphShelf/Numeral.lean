/-!
# Numerals

Reading unsigned decimal numerals of any length and writing fixed-width hexadecimal ones.
Only the ASCII digits count as digits.
-/

namespace GlyphShelf.Numeral

/-- The value of a non-empty run of ASCII digits, leading zeros allowed. -/
def ofDigits? (digits : List Char) : Option Nat :=
  if digits.isEmpty then none
  else if digits.all Char.isDigit then some (Nat.ofDigitChars 10 digits 0)
  else none

/-- Reads on in a run of digits after those of `value`, as long as the value stays below `limit`. -/
def extendBelow? (limit value : Nat) : List Char → Option Nat
  | [] => some value
  | c :: rest =>
    if c.isDigit then
      let next := 10 * value + (c.toNat - '0'.toNat)
      if next < limit then extendBelow? limit next rest else none
    else none

/-- The value of a non-empty run of ASCII digits if it is below `limit`. The first digit with
which the value reaches the limit ends the reading, however long the run is. -/
def ofDigitsBelow? (limit : Nat) (digits : List Char) : Option Nat :=
  if digits.isEmpty then none else extendBelow? limit 0 digits

/-- The hexadecimal digit of a value below sixteen, in lower case. -/
def hexDigit (value : Nat) : Char := (Nat.digitChar (value % 16))

/-- The last `width` hexadecimal digits of `value`, most significant first. -/
def hexDigits : (width : Nat) → (value : Nat) → List Char
  | 0, _ => []
  | width + 1, value => hexDigits width (value / 16) ++ [hexDigit value]

def hex (width value : Nat) : String := String.ofList (hexDigits width value)

@[simp] theorem length_hexDigits (width value : Nat) : (hexDigits width value).length = width := by
  induction width generalizing value with
  | zero => rfl
  | succ width ih => simp [hexDigits, ih]

private theorem le_ofDigitChars (value : Nat) (digits : List Char) :
    value ≤ Nat.ofDigitChars 10 digits value := by
  induction digits generalizing value with
  | nil => simp
  | cons c rest ih =>
    rw [Nat.ofDigitChars_cons]
    have := ih (10 * value + (c.toNat - '0'.toNat))
    omega

private theorem extendBelow?_eq (limit value : Nat) (digits : List Char) (h : value < limit) :
    extendBelow? limit value digits =
      if digits.all Char.isDigit ∧ Nat.ofDigitChars 10 digits value < limit then
        some (Nat.ofDigitChars 10 digits value)
      else none := by
  induction digits generalizing value with
  | nil => simp [extendBelow?, h]
  | cons c rest ih =>
    unfold extendBelow?
    split
    · rename_i digit
      dsimp only
      split
      · rename_i below
        rw [ih _ below, Nat.ofDigitChars_cons, List.all_cons, digit, Bool.true_and]
      · rename_i reached
        have grows := le_ofDigitChars (10 * value + (c.toNat - '0'.toNat)) rest
        rw [if_neg]
        rw [Nat.ofDigitChars_cons]
        omega
    · rename_i other
      simp [other]

/-- Stopping early finds the same values as reading all digits and comparing then. -/
theorem ofDigitsBelow?_eq {limit : Nat} (h : 0 < limit) (digits : List Char) :
    ofDigitsBelow? limit digits = (ofDigits? digits).filter (· < limit) := by
  unfold ofDigitsBelow? ofDigits?
  split
  · rfl
  · rw [extendBelow?_eq limit 0 digits h]
    by_cases all : digits.all Char.isDigit <;>
      by_cases below : Nat.ofDigitChars 10 digits 0 < limit <;>
      simp [all, below, Option.filter]

theorem ofDigits?_toDigits (n : Nat) : ofDigits? (Nat.toDigits 10 n) = some n := by
  have digits : (Nat.toDigits 10 n).all Char.isDigit = true := by
    rw [List.all_eq_true]
    exact fun c hc => Nat.isDigit_of_mem_toDigits (by decide) (by decide) hc
  simp [ofDigits?, digits]

end GlyphShelf.Numeral

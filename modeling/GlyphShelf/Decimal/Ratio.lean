import GlyphShelf.Decimal.Shortest

/-!
# Ratios of counts

The quotient of two counts, rounded to the nearest binary number of 53 digits as a double
holds it, ties to the even one. Everything is computed with natural numbers.
-/

namespace GlyphShelf

/-- A number between zero and one with a 53-bit significand: `significand / 2 ^ scale`. -/
structure Ratio where
  significand : Nat
  scale : Nat
deriving DecidableEq

namespace Ratio

/-- Zero has no leading digit and is kept as such. -/
def zero : Ratio := ⟨0, 0⟩

/-- `numerator / denominator` rounded to an integer, a half to the even one. -/
def roundQuotient (numerator denominator : Nat) : Nat :=
  let quotient := numerator / denominator
  let twice := 2 * (numerator % denominator)
  if twice < denominator then quotient
  else if denominator < twice then quotient + 1
  else if quotient % 2 = 0 then quotient
  else quotient + 1

/-- The power of two by which `part / whole` is scaled so that its integer part has 53 bits. -/
def scaleOf (part whole : Nat) : Nat :=
  let scale := 52 + Nat.log2 whole - Nat.log2 part
  if part * Nat.pow 2 scale / whole < Nat.pow 2 52 then scale + 1 else scale

/-- The nearest ratio to `part / whole`, where `part` is at most `whole`; zero of zero is zero. -/
def ofCounts (part whole : Nat) : Ratio :=
  if part = 0 || whole = 0 then zero
  else
    let scale := scaleOf part whole
    let rounded := roundQuotient (part * Nat.pow 2 scale) whole
    if rounded = Nat.pow 2 53 then ⟨Nat.pow 2 52, scale - 1⟩ else ⟨rounded, scale⟩

/-- The 64 bits of the double: biased exponent, then the significand without its first bit. -/
def bits (ratio : Ratio) : Nat :=
  if ratio.significand = 0 then 0
  else (1075 - ratio.scale) * Nat.pow 2 52 + (ratio.significand - Nat.pow 2 52)

/-- The open or closed interval of numbers that round to the ratio, as multiples of
`1 / 2 ^ (scale + 2)`. Below a power of two the numbers lie twice as close. -/
def interval (ratio : Ratio) : Decimal.Interval where
  low := 4 * ratio.significand - (if ratio.significand = Nat.pow 2 52 then 1 else 2)
  value := 4 * ratio.significand
  high := 4 * ratio.significand + 2
  denominator := Nat.pow 2 (ratio.scale + 2)
  closed := ratio.significand % 2 = 0

/-- The ratio in the fewest digits that still mean this ratio and no other. -/
def text (ratio : Ratio) : String :=
  if ratio.significand = 0 then "0.0"
  else (Decimal.shortest ratio.interval).text

end Ratio

end GlyphShelf

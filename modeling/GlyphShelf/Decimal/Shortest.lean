/-!
# Shortest decimals

Of the decimals inside an interval of rationals the ones with the fewest digits, and of
those the one nearest to a given value inside. Candidates of a given number of digits are
the two neighbours of the value on that decimal grid, so the search is over the number of
digits alone.
-/

namespace GlyphShelf.Decimal

/-- The rationals between `low` and `high` over a common denominator, around `value`. -/
structure Interval where
  low : Nat
  value : Nat
  high : Nat
  denominator : Nat
  /-- Whether the ends belong to the interval. -/
  closed : Bool

def Interval.contains (interval : Interval) (numerator denominator : Nat) : Bool :=
  let inside := numerator * interval.denominator
  let low := interval.low * denominator
  let high := interval.high * denominator
  if interval.closed then low ≤ inside && inside ≤ high else low < inside && inside < high

/-- The decimal `digits / 10 ^ places`. -/
structure Fraction where
  digits : Nat
  places : Nat
deriving DecidableEq

/-- The number of places after the point at which a number below ten first has `count` digits;
`zeros` more places are tried. -/
def placesFor (interval : Interval) (count : Nat) : (zeros : Nat) → (places : Nat) → Nat
  | 0, places => places
  | zeros + 1, places =>
    if Nat.pow 10 (count - 1) * interval.denominator ≤ interval.value * Nat.pow 10 places then
      places
    else placesFor interval count zeros (places + 1)

/-- The decimal with `count` digits nearest to the value, if it or its other neighbour lies in
the interval. -/
def candidate? (interval : Interval) (count : Nat) : Option Fraction :=
  let places := placesFor interval count 400 (count - 1)
  let scaled := interval.value * Nat.pow 10 places
  let below := scaled / interval.denominator
  let above := below + 1
  let belowIn := interval.contains below (Nat.pow 10 places)
  let aboveIn := interval.contains above (Nat.pow 10 places)
  let toBelow := scaled - below * interval.denominator
  let toAbove := above * interval.denominator - scaled
  match belowIn, aboveIn with
  | false, false => none
  | true, false => some ⟨below, places⟩
  | false, true => some ⟨above, places⟩
  | true, true =>
    if toBelow < toAbove then some ⟨below, places⟩
    else if toAbove < toBelow then some ⟨above, places⟩
    else if below % 2 = 0 then some ⟨below, places⟩
    else some ⟨above, places⟩

/-- The first candidate with at least `count` digits, tried up to so many times more. -/
def shortestFrom (interval : Interval) : (more : Nat) → (count : Nat) → Fraction
  | 0, count => ⟨interval.value * Nat.pow 10 count / interval.denominator, count⟩
  | more + 1, count =>
    match candidate? interval count with
    | some fraction => fraction
    | none => shortestFrom interval more (count + 1)

/-- Zeros at the end say nothing. -/
def trim : (places : Nat) → (digits : Nat) → Fraction
  | 0, digits => ⟨digits, 0⟩
  | places + 1, digits =>
    if digits % 10 = 0 then trim places (digits / 10) else ⟨digits, places + 1⟩

/-- The decimal of fewest digits in the interval; seventeen always suffice for a double. -/
def shortest (interval : Interval) : Fraction :=
  let fraction := shortestFrom interval 17 1
  trim fraction.places fraction.digits

/-- A fraction below ten as text. From a hundred-thousandth on it is written with a point and
at least one digit behind it; smaller fractions are written as a number from one to ten and a
power of ten. -/
def Fraction.text (fraction : Fraction) : String :=
  let digits := Nat.toDigits 10 fraction.digits
  let count := digits.length
  if fraction.places = 0 then String.ofList (digits ++ ".0".toList)
  else if count ≤ fraction.places then
    let zeros := fraction.places - count
    if zeros < 5 then String.ofList ("0.".toList ++ List.replicate zeros '0' ++ digits)
    else
      let mantissa := match digits with
        | [] => []
        | [digit] => [digit]
        | digit :: rest => digit :: '.' :: rest
      String.ofList (mantissa ++ "e-".toList ++ Nat.toDigits 10 (zeros + 1))
  else
    String.ofList (digits.take (count - fraction.places) ++ '.' ::
      digits.drop (count - fraction.places))

end GlyphShelf.Decimal

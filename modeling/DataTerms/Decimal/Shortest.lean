/-
# The shortest decimal that reads back

The decimal text of a binary number has the fewest digits that still round to that
number, and of those the nearest to it. For one digit, two and so on the two
neighbours of the number on that decimal grid are tried in exact arithmetic; the first
grid on which one of them rounds to the number wins, of two the nearer, and of two
equally near the even one. The ends of the interval of reals that round to the number
belong to it just when the significand is even.

Key definitions: `Decimal`, `Decimal.Rounding`, `Decimal.shortest`.
-/
import DataTerms.Decimal.Binary

namespace DataTerms

/-- A whole number times a power of ten. -/
structure Decimal where
  digits : Nat
  exponent : Int
  deriving DecidableEq, Repr

namespace Decimal

/-- The reals that round to a number, by numerators over one denominator: the number, the
two ends about it, and whether the ends belong to them. -/
structure Rounding where
  low : Nat
  middle : Nat
  high : Nat
  denominator : Nat
  closed : Bool
  deriving DecidableEq, Repr

/-- The reals that round to a binary number. -/
def Rounding.of (x : Binary) : Rounding :=
  let (quarter, denominator) := Binary.scaled 1 (x.exponent - 2)
  { low := (4 * x.significand - if x.closerBelow then 1 else 2) * quarter
    middle := 4 * x.significand * quarter
    high := (4 * x.significand + 2) * quarter
    denominator
    closed := x.significand % 2 = 0 }

/-- The real with the numerator, over the interval's denominator, rounds to the number. -/
def Rounding.holds (r : Rounding) (numerator : Nat) : Bool :=
  if r.closed then r.low ≤ numerator && numerator ≤ r.high
  else r.low < numerator && numerator < r.high

/-- The interval in units of `10 ^ exponent`. -/
def Rounding.inUnits (r : Rounding) (exponent : Int) : Rounding :=
  if 0 ≤ exponent then { r with denominator := r.denominator * Nat.pow 10 exponent.toNat }
  else
    let unit := Nat.pow 10 (-exponent).toNat
    { r with low := r.low * unit, middle := r.middle * unit, high := r.high * unit }

/-- The multiple of `10 ^ exponent` that rounds to the number and is nearest to it. -/
def onGrid? (r : Rounding) (exponent : Int) : Option Decimal :=
  let r := r.inUnits exponent
  let below := r.middle / r.denominator
  let above := below + 1
  let fromBelow := r.middle - below * r.denominator
  let toAbove := above * r.denominator - r.middle
  match r.holds (below * r.denominator), r.holds (above * r.denominator) with
  | true, false => some ⟨below, exponent⟩
  | false, true => some ⟨above, exponent⟩
  | true, true =>
    if fromBelow < toAbove ∨ fromBelow = toAbove ∧ below % 2 = 0 then some ⟨below, exponent⟩
    else some ⟨above, exponent⟩
  | false, false => none

/-- The number of places that a fraction has to be moved to be no less than one. -/
def leadingPlaces (numerator denominator : Nat) : Nat → Nat
  | 0 => 0
  | bound + 1 =>
    if denominator ≤ numerator then 0
    else leadingPlaces (numerator * 10) denominator bound + 1

/-- The power of ten of the number's first digit. -/
def leadingExponent (r : Rounding) : Int :=
  if r.denominator ≤ r.middle then (Nat.toDigits 10 (r.middle / r.denominator)).length - 1
  else -leadingPlaces r.middle r.denominator r.denominator.log2.succ

/-- The first hit of ever finer grids. -/
def firstHit (r : Rounding) (exponent : Int) : Nat → Decimal
  | 0 => ⟨0, 0⟩
  | grids + 1 =>
    match onGrid? r exponent with
    | some decimal => decimal
    | none => firstHit r (exponent - 1) grids

/-- The same number without zeros at the end of its digits. -/
def stripped (decimal : Decimal) : Nat → Decimal
  | 0 => decimal
  | bound + 1 =>
    if decimal.digits ≠ 0 ∧ decimal.digits % 10 = 0 then
      stripped ⟨decimal.digits / 10, decimal.exponent + 1⟩ bound
    else decimal

/-- The shortest decimal that rounds to the number, without its sign. Seventeen digits
always suffice. -/
def shortest (x : Binary) : Decimal :=
  if x.significand = 0 then ⟨0, 0⟩
  else
    let r := Rounding.of x
    stripped (firstHit r (leadingExponent r) 17) 2

end Decimal
end DataTerms

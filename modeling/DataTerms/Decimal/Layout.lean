/-
# The layout of a decimal

A decimal is written with a point among its digits where the power of ten of its first
digit is within bounds, and there always with a digit on both sides of the point; else
with one digit before the point, no point if there is no other digit, and the power of
ten after an `e` and its sign.

Key definitions: `Decimal.Layout`, `Decimal.Layout.double`, `Decimal.Layout.single`,
`Decimal.Layout.chars`, `Binary.text`.
-/
import DataTerms.Decimal.Shortest

namespace DataTerms
namespace Decimal

/-- The powers of ten of a first digit between which decimals are written with a point
alone. -/
structure Layout where
  least : Int
  greatest : Int

/-- The layout of numbers of 64 bits: from `0.00001` to sixteen digits before the point. -/
def Layout.double : Layout := ⟨-5, 15⟩

/-- The layout of numbers of 32 bits: from `0.000001` to thirteen digits before the
point. -/
def Layout.single : Layout := ⟨-6, 12⟩

/-- The digits with a point among them. -/
def positional (digits : List Char) (exponent : Int) : List Char :=
  if 0 ≤ exponent then digits ++ List.replicate exponent.toNat '0' ++ ['.', '0']
  else
    let places := (-exponent).toNat
    if places < digits.length then
      digits.take (digits.length - places) ++ '.' :: digits.drop (digits.length - places)
    else '0' :: '.' :: List.replicate (places - digits.length) '0' ++ digits

/-- The digits with a point after the first, and a power of ten. -/
def scientific (digits : List Char) (power : Int) : List Char :=
  (match digits with
    | first :: second :: rest => first :: '.' :: second :: rest
    | _ => digits) ++
  'e' :: (if power < 0 then '-' else '+') :: Nat.toDigits 10 power.natAbs

/-- A decimal in a layout. -/
def Layout.chars (layout : Layout) (negative : Bool) (decimal : Decimal) : List Char :=
  let digits := Nat.toDigits 10 decimal.digits
  let power := decimal.exponent + digits.length - 1
  (if negative then ['-'] else []) ++
    if layout.least ≤ power ∧ power ≤ layout.greatest then positional digits decimal.exponent
    else scientific digits power

end Decimal

/-- The text of a finite number in a layout. -/
def Binary.text (layout : Decimal.Layout) (x : Binary) : String :=
  String.ofList (layout.chars x.negative (Decimal.shortest x))

end DataTerms

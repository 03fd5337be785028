/-
# Ranges of code points

A set of characters given by its ranges of code points, least and greatest member
of each. The tables of the character properties are written in this form.

Key definitions: `Text.Ranges`, `Text.Ranges.holds`.
-/
namespace DataTerms
namespace Text

/-- Ranges of code points: the least and the greatest member of each. -/
abbrev Ranges := List (Nat × Nat)

/-- The character's code point lies in one of the ranges. -/
def Ranges.holds (ranges : Ranges) (c : Char) : Bool :=
  ranges.any fun range => range.1 ≤ c.toNat && c.toNat ≤ range.2

end Text
end DataTerms

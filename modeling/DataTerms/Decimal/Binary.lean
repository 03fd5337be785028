/-
# Finite binary numbers

A finite number of a binary floating-point format is a significand times a power of
two, with a sign. The reals that round to it form an interval about it: half the
distance to the next number above, and half the distance to the one below, which is
closer where the significand is the least of its power of two.

Key definitions: `Binary`, `Binary.ofBits`, `Binary.ofFloat?`, `Binary.ofFloat32?`.
-/
namespace DataTerms

/-- A finite number of a binary format. -/
structure Binary where
  /-- The number has a minus sign, which zero may have too. -/
  negative : Bool
  /-- The whole number that the power of two multiplies. -/
  significand : Nat
  /-- The power of two. -/
  exponent : Int
  /-- The number below is at half the distance of the number above. -/
  closerBelow : Bool
  deriving DecidableEq, Repr

namespace Binary

/-- The number that a word stands for, with `fractionBits` bits of fraction below
`exponentBits` bits of exponent and the sign. A word for an infinity or no number stands for
none. -/
def ofBits (fractionBits exponentBits bits : Nat) : Option Binary :=
  let fraction := bits % (1 <<< fractionBits)
  let biased := (bits >>> fractionBits) % (1 <<< exponentBits)
  let negative := (bits >>> (fractionBits + exponentBits)) % 2 = 1
  let least : Int := 2 - (1 <<< (exponentBits - 1) : Nat) - fractionBits
  if biased = (1 <<< exponentBits) - 1 then none
  else if biased = 0 then some ⟨negative, fraction, least, false⟩
  else
    some ⟨negative, (1 <<< fractionBits) + fraction, least + biased - 1, fraction = 0 ∧ 1 < biased⟩

/-- The numerator and the denominator of `n * 2 ^ e`. -/
def scaled (n : Nat) (e : Int) : Nat × Nat :=
  if 0 ≤ e then (n <<< e.toNat, 1) else (n, 1 <<< (-e).toNat)

/-- The number of 64 bits, unless it is an infinity or no number. -/
def ofFloat? (x : Float) : Option Binary :=
  ofBits 52 11 x.toBits.toNat

/-- The number of 32 bits, unless it is an infinity or no number. -/
def ofFloat32? (x : Float32) : Option Binary :=
  ofBits 23 8 x.toBits.toNat

end Binary
end DataTerms

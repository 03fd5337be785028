/-
# Reading the start of a text

A reader takes what it reads from the start of a text and leaves the text after it, or
refuses the text. Digits are read here, which every format has.

Key definitions: `Text.Reader`, `Text.hexValue?`, `Text.readHex`.
-/
namespace DataTerms
namespace Text

/-- Reads what a text starts with; with it comes the text after it. -/
abbrev Reader (α : Type) := List Char → Option (α × List Char)

/-- The value of a hexadecimal digit in either case. -/
def hexValue? (c : Char) : Option Nat :=
  if '0' ≤ c ∧ c ≤ '9' then some (c.toNat - '0'.toNat)
  else if 'a' ≤ c ∧ c ≤ 'f' then some (c.toNat - 'a'.toNat + 10)
  else if 'A' ≤ c ∧ c ≤ 'F' then some (c.toNat - 'A'.toNat + 10)
  else none

/-- Appends so many hexadecimal digits to a number. -/
def readHexOnto : (digits number : Nat) → Reader Nat
  | 0, number, text => some (number, text)
  | _ + 1, _, [] => none
  | digits + 1, number, c :: rest => do
    readHexOnto digits (number * 16 + (← hexValue? c)) rest

/-- The value of so many hexadecimal digits. -/
def readHex (digits : Nat) : Reader Nat := readHexOnto digits 0

end Text
end DataTerms

/-
# Numerals in JSON text

A numeral is read in two steps. Its spelling is a sign, whole digits without a leading
zero, and perhaps a fraction and a power of ten. Its value is the whole number spelled,
if there is neither fraction nor power of ten and it has 64 bits, unsigned or with a
minus sign signed; otherwise a binary number. That one is made of as many leading
digits as fit in 64 bits, converted, and then multiplied or divided by a power of ten:
each step rounds, so the result need not be the nearest to what is spelled. A numeral
beyond the greatest finite number has no value, and one too close to zero has the value
zero.

Key definitions: `Json.Numeral`, `Json.Numeral.read`, `Json.Numeral.value?`.
-/
import DataTerms.Json.Basic

namespace DataTerms
namespace Json

/-- The spelling of a number. -/
structure Numeral where
  negative : Bool
  whole : List Char
  fraction : Option (List Char)
  /-- A minus sign and the digits of the power of ten. -/
  power : Option (Bool × List Char)

namespace Numeral

/-- The digits that a text starts with, and the text after them. -/
def spanDigits (text : List Char) : List Char × List Char :=
  (text.takeWhile Char.isDigit, text.dropWhile Char.isDigit)

/-- The fraction that a text may start with. -/
def readFraction : List Char → Option (Option (List Char) × List Char)
  | '.' :: rest =>
    match spanDigits rest with
    | ([], _) => none
    | (digits, rest) => some (some digits, rest)
  | text => some (none, text)

/-- The sign that a power of ten may start with. -/
def readSign : List Char → Bool × List Char
  | '-' :: rest => (true, rest)
  | '+' :: rest => (false, rest)
  | text => (false, text)

/-- The power of ten that a text may start with. -/
def readPower : List Char → Option (Option (Bool × List Char) × List Char)
  | c :: rest =>
    if c = 'e' ∨ c = 'E' then
      let (negative, rest) := readSign rest
      match spanDigits rest with
      | ([], _) => none
      | (digits, rest) => some (some (negative, digits), rest)
    else some (none, c :: rest)
  | [] => some (none, [])

/-- The numeral without its sign. -/
def readUnsigned (negative : Bool) (text : List Char) : Option (Numeral × List Char) :=
  match spanDigits text with
  | ([], _) => none
  | ('0' :: _ :: _, _) => none
  | (whole, rest) => do
    let (fraction, rest) ← readFraction rest
    let (power, rest) ← readPower rest
    return (⟨negative, whole, fraction, power⟩, rest)

/-- The numeral that a text starts with, and the text after it. -/
def read : List Char → Option (Numeral × List Char)
  | '-' :: rest => readUnsigned true rest
  | text => readUnsigned false text

/-- Appends digits to a number while it has 64 bits; with it the number of digits that were
left out. -/
def gather (number : Nat) : List Char → Nat × Nat
  | [] => (number, 0)
  | d :: rest =>
    let next := number * 10 + (d.toNat - '0'.toNat)
    if next < UInt64.size then gather next rest else (number, (d :: rest).length)

/-- The binary number nearest to a power of ten. -/
def powerOfTen (n : Nat) : Float := Float.ofScientific 1 false n

/-- A number divided by `10 ^ n`, in steps that a binary number can hold. -/
def dividedBy (x : Float) (n : Nat) : Float :=
  if n ≤ 308 then x / powerOfTen n
  else if x == 0 then x
  else dividedBy (x / powerOfTen 308) (n - 308)
termination_by n

/-- `number * 10 ^ exponent`, unless it is beyond the greatest finite number. -/
def scale (number : Nat) (exponent : Int) : Option Float :=
  let x := number.toUInt64.toFloat
  if exponent < 0 then some (dividedBy x exponent.natAbs)
  else if exponent ≤ 308 then
    let product := x * powerOfTen exponent.natAbs
    if product.isInf then none else some product
  else if number = 0 then some x
  else none

/-- The value of digits. -/
def natOf (digits : List Char) : Nat := Nat.ofDigitChars 10 digits 0

/-- A number with or without a minus sign. -/
def signed (negative : Bool) (x : Float) : Float := if negative then -x else x

/-- The value of a numeral with 64 bits and no fraction or power of ten. Zero with a minus
sign is no whole number. -/
def wholeValue (negative : Bool) (number : Nat) : Number :=
  if negative = false then .int number
  else if number = 0 ∨ UInt64.size / 2 < number then .float (-number.toUInt64.toFloat)
  else .int (-number)

/-- The value of a numeral. -/
def value? (numeral : Numeral) : Option Number :=
  let (leading, dropped) := gather 0 numeral.whole
  match numeral.fraction, numeral.power, dropped with
  | none, none, 0 => some (wholeValue numeral.negative leading)
  | _, _, _ =>
    let fraction := numeral.fraction.getD []
    let (significand, unused) := gather leading fraction
    let exponent : Int := dropped - (fraction.length - unused : Nat)
    let value :=
      match numeral.power with
      | none => scale significand exponent
      | some (negative, digits) =>
        let power := natOf digits
        if power < UInt32.size / 2 then
          scale significand (if negative then exponent - power else exponent + power)
        else if significand = 0 ∨ negative then some 0
        else none
    value.map fun x => .float (signed numeral.negative x)

end Numeral
end Json
end DataTerms

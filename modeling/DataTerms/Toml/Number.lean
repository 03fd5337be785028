/-
# Numbers in TOML

A whole number is decimal, with or without a sign, or without one hexadecimal, octal or
binary; it has 64 bits with a sign. A decimal one has no leading zero. A number with a
fraction or a power of ten is a binary one, the nearest to what is written, and may not
be greater than the greatest finite number; infinity and the absence of a number have
names. Between two digits may stand an underscore.

Key definitions: `Toml.readNumber`.
-/
import DataTerms.Text.Reader
import DataTerms.Toml.Basic

namespace DataTerms
namespace Toml

open Text (Reader)

/-- The digits that a text goes on with after a digit, an underscore allowed before each,
and the text after them. -/
def moreDigits (isDigit : Char → Bool) : List Char → List Char × List Char
  | '_' :: d :: rest =>
    if isDigit d then
      let (digits, rest) := moreDigits isDigit rest
      (d :: digits, rest)
    else ([], '_' :: d :: rest)
  | d :: rest =>
    if isDigit d then
      let (digits, rest) := moreDigits isDigit rest
      (d :: digits, rest)
    else ([], d :: rest)
  | [] => ([], [])

/-- One digit or more. -/
def readDigits (isDigit : Char → Bool) : Reader (List Char)
  | d :: rest =>
    if isDigit d then
      let (digits, rest) := moreDigits isDigit rest
      some (d :: digits, rest)
    else none
  | [] => none

/-- The digits of a decimal whole number: zero alone, or a row that starts with another
digit. -/
def readDecimal : Reader (List Char)
  | '0' :: rest => some (['0'], rest)
  | text => readDigits Char.isDigit text

/-- The value of digits to a base. -/
def natOf (base : Nat) (digits : List Char) : Nat :=
  digits.foldl (fun number d => number * base + (Text.hexValue? d).getD 0) 0

/-- The whole number of 64 bits with a sign. -/
def intOf? (value : Int) : Option Toml :=
  if Int64.minValue.toInt ≤ value ∧ value ≤ Int64.maxValue.toInt then some (.integer (Int64.ofInt value))
  else none

/-- A whole number to a base, after the letter that tells it. -/
def readBased (base : Nat) (text : List Char) : Option (Toml × List Char) := do
  let isDigit (c : Char) : Bool := (Text.hexValue? c).any (· < base)
  let (digits, rest) ← readDigits isDigit text
  return (← intOf? (natOf base digits), rest)

/-- The fraction that a text may start with. -/
def readFraction : Reader (Option (List Char))
  | '.' :: rest => do
    let (digits, rest) ← readDigits Char.isDigit rest
    return (some digits, rest)
  | text => some (none, text)

/-- The sign that a text may start with: whether it is a minus sign. -/
def readSign : List Char → Bool × List Char
  | '-' :: rest => (true, rest)
  | '+' :: rest => (false, rest)
  | text => (false, text)

/-- The power of ten that a text may start with. -/
def readPower : Reader (Option Int)
  | c :: rest =>
    if c = 'e' ∨ c = 'E' then do
      let (negative, rest) := readSign rest
      let (digits, rest) ← readDigits Char.isDigit rest
      let power : Int := natOf 10 digits
      return (some (if negative then -power else power), rest)
    else some (none, c :: rest)
  | [] => some (none, [])

/-- The binary number nearest to `number * 10 ^ exponent`. Far beyond the finite numbers, or
close to zero, no power of ten need be taken. -/
def floatOf (number : Nat) (exponent : Int) : Float :=
  if number = 0 then 0
  else if 400 < exponent then Float.ofScientific 1 false 400
  else if exponent < -400 - (number.log2 : Int) then 0
  else Float.ofScientific number (exponent < 0) exponent.natAbs

/-- The number of a fraction or a power of ten, unless it is too great. -/
def floatOf? (negative : Bool) (number : Nat) (exponent : Int) : Option Toml :=
  let value := floatOf number exponent
  if negative then some (.float (-value))
  else if value.isInf then none
  else some (.float value)

/-- A decimal number after its sign. -/
def readUnsigned (negative : Bool) (text : List Char) : Option (Toml × List Char) := do
  let (whole, rest) ← readDecimal text
  let (fraction, rest) ← readFraction rest
  let (power, rest) ← readPower rest
  match fraction, power with
  | none, none =>
    let value : Int := natOf 10 whole
    return (← intOf? (if negative then -value else value), rest)
  | _, _ =>
    let fraction := fraction.getD []
    let number := natOf 10 (whole ++ fraction)
    return (← floatOf? negative number (power.getD 0 - fraction.length), rest)

/-- Infinity. -/
def infinity : Float := 1 / 0

/-- The absence of a number. -/
def notANumber : Float := 0 / 0

/-- A number. -/
def readNumber : Reader Toml
  | '0' :: 'x' :: rest => readBased 16 rest
  | '0' :: 'o' :: rest => readBased 8 rest
  | '0' :: 'b' :: rest => readBased 2 rest
  | text =>
    match readSign text with
    | (negative, 'i' :: 'n' :: 'f' :: rest) =>
      some (.float (if negative then -infinity else infinity), rest)
    | (_, 'n' :: 'a' :: 'n' :: rest) => some (.float notANumber, rest)
    | (negative, rest) => readUnsigned negative rest

end Toml
end DataTerms

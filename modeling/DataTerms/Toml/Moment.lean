/-
# Days and times in TOML

A day is written `1979-05-27` and has to be one of the calendar. A time of the day is
written `07:32:00` with as many digits of a fraction as one likes, of which nine count.
Both are written with a `T` or a space between them, and then perhaps with `Z` or the
hours and minutes by which the clock is ahead or behind.

Key definitions: `Toml.readMoment`.
-/
import DataTerms.Text.Reader
import DataTerms.Toml.Basic

namespace DataTerms
namespace Toml

open Text (Reader)

/-- Appends so many decimal digits to a number. -/
def readDigitsOnto : (digits number : Nat) → Reader Nat
  | 0, number, text => some (number, text)
  | _ + 1, _, [] => none
  | digits + 1, number, c :: rest =>
    if c.isDigit then readDigitsOnto digits (number * 10 + (c.toNat - '0'.toNat)) rest else none

/-- A number of so many decimal digits, between bounds. -/
def readBetween (digits least greatest : Nat) (text : List Char) : Option (Nat × List Char) := do
  let (n, rest) ← readDigitsOnto digits 0 text
  if least ≤ n ∧ n ≤ greatest then return (n, rest) else none

/-- The text after a character. -/
def readChar (c : Char) : List Char → Option (List Char)
  | [] => none
  | d :: rest => if d = c then some rest else none

/-- The number of days of a month. -/
def daysOf (year month : Nat) : Nat :=
  if month = 2 then
    if year % 4 = 0 ∧ (year % 100 ≠ 0 ∨ year % 400 = 0) then 29 else 28
  else if month = 4 ∨ month = 6 ∨ month = 9 ∨ month = 11 then 30
  else 31

/-- A day. -/
def readDate (text : List Char) : Option (Date × List Char) := do
  let (year, rest) ← readBetween 4 0 9999 text
  let rest ← readChar '-' rest
  let (month, rest) ← readBetween 2 1 12 rest
  let rest ← readChar '-' rest
  let (day, rest) ← readBetween 2 1 (daysOf year month) rest
  return (⟨year, month, day⟩, rest)

/-- The nanoseconds of the fraction of a second, if there is one. -/
def readNanoseconds : Reader Nat
  | '.' :: rest =>
    match rest.takeWhile Char.isDigit with
    | [] => none
    | digits =>
      let counted := digits.take 9
      some (Nat.ofDigitChars 10 counted 0 * Nat.pow 10 (9 - counted.length), rest.dropWhile Char.isDigit)
  | text => some (0, text)

/-- A time of the day. A minute may have a leap second. -/
def readTime (text : List Char) : Option (Time × List Char) := do
  let (hour, rest) ← readBetween 2 0 23 text
  let rest ← readChar ':' rest
  let (minute, rest) ← readBetween 2 0 59 rest
  let rest ← readChar ':' rest
  let (second, rest) ← readBetween 2 0 60 rest
  let (nanosecond, rest) ← readNanoseconds rest
  return (⟨hour, minute, second, nanosecond⟩, rest)

/-- The hours and minutes by which a clock is ahead, as minutes. -/
def readAhead (text : List Char) : Option (Int × List Char) := do
  let (hours, rest) ← readBetween 2 0 23 text
  let rest ← readChar ':' rest
  let (minutes, rest) ← readBetween 2 0 59 rest
  return ((hours * 60 + minutes : Nat), rest)

/-- The offset of a clock, if one is written. -/
def readOffset : Reader (Option Int)
  | 'Z' :: rest | 'z' :: rest => some (some 0, rest)
  | '+' :: rest => do
    let (minutes, rest) ← readAhead rest
    return (some minutes, rest)
  | '-' :: rest => do
    let (minutes, rest) ← readAhead rest
    return (some (-minutes), rest)
  | text => some (none, text)

/-- A time of the day and an offset. -/
def readTimeAndOffset (text : List Char) : Option ((Time × Option Int) × List Char) := do
  let (time, rest) ← readTime text
  let (offset, rest) ← readOffset rest
  return ((time, offset), rest)

/-- What may follow a day: a time of the day and an offset. -/
def readMore (date : Date) : List Char → Moment × List Char
  | [] => (⟨some date, none, none⟩, [])
  | c :: rest =>
    if c = 'T' ∨ c = 't' ∨ c = ' ' then
      match readTimeAndOffset rest with
      | some ((time, offset), rest) => (⟨some date, some time, offset⟩, rest)
      | none => (⟨some date, none, none⟩, c :: rest)
    else (⟨some date, none, none⟩, c :: rest)

/-- A day with or without a time, or a time. -/
def readMoment (text : List Char) : Option (Moment × List Char) :=
  match readDate text with
  | some (date, rest) => some (readMore date rest)
  | none => do
    let (time, rest) ← readTime text
    return (⟨none, some time, none⟩, rest)

end Toml
end DataTerms

/-
# Values in TOML text

A value is a string, a number, a truth value, a day or a time, an array between brackets,
or a table between braces. An array may go over several lines and end with a comma; a
table stays on one line, and its last entry has no comma after it.

Key definitions: `Toml.readAssignment`, `Toml.readValue`, `Toml.valueReader`.
-/
import DataTerms.Toml.Moment
import DataTerms.Toml.Number
import DataTerms.Toml.Table
import DataTerms.Toml.Text

namespace DataTerms
namespace Toml

open Text (Reader)

/-- The items of an array from a place where an item or the closing bracket may stand. Each
step takes at least one character, so as many steps as there are characters suffice. -/
def readItems (value : Reader Toml) : Nat → Reader (List Toml)
  | 0, _ => none
  | steps + 1, text =>
    match skipLines text with
    | ']' :: rest => some ([], rest)
    | start => do
      let (item, rest) ← value start
      match skipLines rest with
      | ']' :: rest => return ([item], rest)
      | ',' :: rest => do
        let (items, rest) ← readItems value steps rest
        return (item :: items, rest)
      | _ => none

/-- A key, the sign of equality and a value, with the blanks about them. -/
def readAssignment (value : Reader Toml) (text : List Char) :
    Option ((Key × Toml) × List Char) := do
  let (key, rest) ← readKey text
  match rest with
  | '=' :: rest => do
    let (value, rest) ← value (skipBlanks rest)
    return ((key, value), skipBlanks rest)
  | _ => none

/-- The entries of a table between braces, of which one stands here. -/
def readPairs (value : Reader Toml) : Nat → Reader (List (Key × Toml))
  | 0, _ => none
  | steps + 1, text => do
    let (pair, rest) ← readAssignment value text
    match rest with
    | '}' :: rest => return ([pair], rest)
    | ',' :: rest => do
      let (pairs, rest) ← readPairs value steps rest
      return (pair :: pairs, rest)
    | _ => none

/-- The entries of a table after its opening brace. -/
def readTable (value : Reader Toml) (text : List Char) : Option (Toml × List Char) :=
  match skipBlanks text with
  | '}' :: rest => some (.table .inline [], rest)
  | start => do
    let (pairs, rest) ← readPairs value start.length start
    return (.table .inline (← entriesOf? pairs), rest)

/-- A day, a time or a number. -/
def readMomentOrNumber (text : List Char) : Option (Toml × List Char) :=
  match readMoment text with
  | some (value, rest) => some (.moment value, rest)
  | none => readNumber text

/-- A value, the parts of which are read by `inner`; arrays and tables are refused where
`inner` is absent. -/
def readValue (inner : Option (Reader Toml)) : Reader Toml
  | 't' :: 'r' :: 'u' :: 'e' :: rest => some (.boolean true, rest)
  | 'f' :: 'a' :: 'l' :: 's' :: 'e' :: rest => some (.boolean false, rest)
  | '[' :: rest => do
    let (items, rest) ← readItems (← inner) (rest.length + 1) rest
    return (.array items, rest)
  | '{' :: rest => do readTable (← inner) rest
  | text =>
    match readString text with
    | some (value, rest) => some (.string value, rest)
    | none => readMomentOrNumber text

/-- Reads a value with no more than `nesting` arrays and tables within each other. -/
def valueReader : Nat → Reader Toml
  | 0 => readValue none
  | nesting + 1 => readValue (some (valueReader nesting))

end Toml
end DataTerms

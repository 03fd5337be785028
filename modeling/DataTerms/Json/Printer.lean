/-
# Writing JSON text

A value is written on one line without blanks, or over several lines with two blanks for
each container about a line. A string escapes the quote mark, the backslash and the
control characters below the space, five of them by a letter and the others by their code
point in four digits; every other character stands for itself.

Key definitions: `Json.quote`, `Json.compact`, `Json.pretty`.
-/
import DataTerms.Json.Basic

namespace DataTerms
namespace Json

/-- A character within a string. -/
def escape (c : Char) : List Char :=
  if c = '"' then ['\\', '"']
  else if c = '\\' then ['\\', '\\']
  else if c = '\x08' then ['\\', 'b']
  else if c = '\x0c' then ['\\', 'f']
  else if c = '\n' then ['\\', 'n']
  else if c = '\r' then ['\\', 'r']
  else if c = '\t' then ['\\', 't']
  else if c < ' ' then
    ['\\', 'u', '0', '0', Nat.digitChar (c.toNat / 16), Nat.digitChar (c.toNat % 16)]
  else [c]

/-- A string. -/
def quote (text : List Char) : List Char :=
  '"' :: text.flatMap escape ++ ['"']

mutual

/-- A value on one line. -/
def compactChars : Json → List Char
  | .null => ['n', 'u', 'l', 'l']
  | .bool true => ['t', 'r', 'u', 'e']
  | .bool false => ['f', 'a', 'l', 's', 'e']
  | .number value => value.text.toList
  | .string value => quote value.toList
  | .array items => '[' :: compactItems true items ++ [']']
  | .object members => '{' :: compactMembers true members ++ ['}']

/-- Items with commas between them; `first` says that none stands before them. -/
def compactItems (first : Bool) : List Json → List Char
  | [] => []
  | item :: rest =>
    (if first then [] else [',']) ++ compactChars item ++ compactItems false rest

/-- Members with commas between them; `first` says that none stands before them. -/
def compactMembers (first : Bool) : List (String × Json) → List Char
  | [] => []
  | (name, value) :: rest =>
    (if first then [] else [',']) ++ quote name.toList ++ ':' :: compactChars value ++
      compactMembers false rest

end

/-- The start of a line within `containers` containers. -/
def newLine (containers : Nat) : List Char :=
  '\n' :: List.replicate (2 * containers) ' '

mutual

/-- A value over several lines, within `containers` containers. -/
def prettyChars (containers : Nat) : Json → List Char
  | .null => ['n', 'u', 'l', 'l']
  | .bool true => ['t', 'r', 'u', 'e']
  | .bool false => ['f', 'a', 'l', 's', 'e']
  | .number value => value.text.toList
  | .string value => quote value.toList
  | .array [] => ['[', ']']
  | .array (item :: rest) =>
    '[' :: newLine (containers + 1) ++ prettyChars (containers + 1) item ++
      prettyItems (containers + 1) rest ++ newLine containers ++ [']']
  | .object [] => ['{', '}']
  | .object ((name, value) :: rest) =>
    '{' :: newLine (containers + 1) ++ quote name.toList ++
      ':' :: ' ' :: prettyChars (containers + 1) value ++
      prettyMembers (containers + 1) rest ++ newLine containers ++ ['}']

/-- The items that follow an item. -/
def prettyItems (containers : Nat) : List Json → List Char
  | [] => []
  | item :: rest =>
    ',' :: newLine containers ++ prettyChars containers item ++ prettyItems containers rest

/-- The members that follow a member. -/
def prettyMembers (containers : Nat) : List (String × Json) → List Char
  | [] => []
  | (name, value) :: rest =>
    ',' :: newLine containers ++ quote name.toList ++ ':' :: ' ' :: prettyChars containers value ++
      prettyMembers containers rest

end

/-- The text of a value on one line. -/
def compact (value : Json) : String := String.ofList (compactChars value)

/-- The text of a value over several lines. -/
def pretty (value : Json) : String := String.ofList (prettyChars 0 value)

end Json
end DataTerms

/-
# TOML documents

A document is a row of lines: blank ones, and headers and assignments with perhaps a
comment after them. An assignment goes into the table that the header before it names.

Key definitions: `Toml.Statement`, `Toml.readStatement`, `Toml.ofStatements?`,
`Toml.parse?`.
-/
import DataTerms.Toml.Value

namespace DataTerms
namespace Toml

open Text (Reader)

/-- What a line says. -/
inductive Statement where
  /-- The table that a key names follows. -/
  | table (key : Key)
  /-- An element of the array of tables that a key names follows. -/
  | element (key : Key)
  /-- A key has a value. -/
  | assignment (key : Key) (value : Toml)

/-- The key of a header, after which the text has to go on in the given way. -/
def readHeader (close : List Char → Option (List Char)) (text : List Char) :
    Option (Key × List Char) := do
  let (key, rest) ← readKey text
  return (key, ← close rest)

/-- The text after a closing bracket. -/
def closeOne : List Char → Option (List Char)
  | ']' :: rest => some rest
  | _ => none

/-- The text after two closing brackets. -/
def closeTwo : List Char → Option (List Char)
  | ']' :: ']' :: rest => some rest
  | _ => none

/-- What a line says, without its end. -/
def readStatement : Reader Statement
  | '[' :: '[' :: rest => do
    let (key, rest) ← readHeader closeTwo rest
    return (.element key, rest)
  | '[' :: rest => do
    let (key, rest) ← readHeader closeOne rest
    return (.table key, rest)
  | text => do
    let ((key, value), rest) ← readAssignment (valueReader nestingLimit) text
    return (.assignment key value, rest)

/-- What the lines say. Each step takes at least one character, so as many steps as there
are characters, and one for the end of the text, suffice. -/
def readStatements : Nat → List Char → Option (List Statement)
  | 0, _ => none
  | steps + 1, text =>
    match skipBlanks text with
    | [] => some []
    | start =>
      match endOfLine start with
      | some rest => readStatements steps rest
      | none =>
        if start.head? = some '#' then do readStatements steps (← endLine start)
        else do
          let (statement, rest) ← readStatement start
          let statements ← readStatements steps (← endLine rest)
          return statement :: statements

/-- A document that is being put together: its entries, and the path of the table that
assignments go into. -/
structure Draft where
  entries : Entries
  path : List String

/-- Takes in what a line says. -/
def Draft.take (draft : Draft) : Statement → Option Draft
  | .table key => do
    let entries ← atPath (openTable key.name) key.parents draft.entries
    return ⟨entries, key.parents ++ [key.name]⟩
  | .element key => do
    let entries ← atPath (openElement key.name) key.parents draft.entries
    return ⟨entries, key.parents ++ [key.name]⟩
  | .assignment key value => do
    let entries ← atPath (addValue key.name value key.parents) draft.path draft.entries
    return { draft with entries }

/-- The table that lines make. -/
def ofStatements? (statements : List Statement) : Option Entries := do
  return (← statements.foldlM Draft.take ⟨[], []⟩).entries

/-- The text without the mark of its encoding that it may start with. -/
def skipMark : List Char → List Char
  | '\uFEFF' :: rest => rest
  | text => text

/-- The table that a text is. -/
def parse? (text : String) : Option Entries := do
  let text := skipMark text.toList
  ofStatements? (← readStatements (text.length + 1) text)

end Toml
end DataTerms

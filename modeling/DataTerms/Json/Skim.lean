/-
# Passing over JSON text

A value that nobody asked for is passed over rather than read: its spelling is checked
and nothing else. So here containers may nest without a limit, an escape may be half a
surrogate pair, and a number may be as large as it likes.

Key definitions: `Json.skim`.
-/
import DataTerms.Json.Parser

namespace DataTerms
namespace Json

/-- Passes over the start of a text, and gives the text after it. -/
abbrev Skimmer := List Char → Option (List Char)

/-- Passes over an escape, after its backslash. -/
def skimEscape : Skimmer
  | 'u' :: rest => (Text.readHex 4 rest).map (·.2)
  | text => (readEscape text).map (·.2)

/-- Passes over a string, after its opening quote mark. -/
def skimString : Nat → Skimmer
  | 0, _ => none
  | _ + 1, [] => none
  | steps + 1, c :: rest =>
    if c = '"' then some rest
    else if c = '\\' then do skimString steps (← skimEscape rest)
    else if c < ' ' then none
    else skimString steps rest

mutual

/-- Passes over a value. -/
def skimValue : Nat → Skimmer
  | 0, _ => none
  | steps + 1, text =>
    match skipSpace text with
    | 'n' :: 'u' :: 'l' :: 'l' :: rest => some rest
    | 't' :: 'r' :: 'u' :: 'e' :: rest => some rest
    | 'f' :: 'a' :: 'l' :: 's' :: 'e' :: rest => some rest
    | '"' :: rest => skimString rest.length rest
    | '[' :: rest =>
      match skipSpace rest with
      | ']' :: rest => some rest
      | _ => do skimItems steps (← skimValue steps rest)
    | '{' :: rest =>
      match skipSpace rest with
      | '}' :: rest => some rest
      | _ => do skimMembers steps (← skimMember steps rest)
    | start => (Numeral.read start).map (·.2)

/-- Passes over what follows an item of an array. -/
def skimItems : Nat → Skimmer
  | 0, _ => none
  | steps + 1, text =>
    match skipSpace text with
    | ']' :: rest => some rest
    | ',' :: rest => do skimItems steps (← skimValue steps rest)
    | _ => none

/-- Passes over a member of an object. -/
def skimMember : Nat → Skimmer
  | 0, _ => none
  | steps + 1, text =>
    match skipSpace text with
    | '"' :: rest => do
      match skipSpace (← skimString rest.length rest) with
      | ':' :: rest => skimValue steps rest
      | _ => none
    | _ => none

/-- Passes over what follows a member of an object. -/
def skimMembers : Nat → Skimmer
  | 0, _ => none
  | steps + 1, text =>
    match skipSpace text with
    | '}' :: rest => some rest
    | ',' :: rest => do skimMembers steps (← skimMember steps rest)
    | _ => none

end

/-- Passes over a value. Every step but the last takes at least one character. -/
def skim (text : List Char) : Option (List Char) :=
  skimValue (text.length + 1) text

end Json
end DataTerms

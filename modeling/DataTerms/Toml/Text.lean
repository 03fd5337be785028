/-
# Blanks, comments, strings and keys in TOML

Within a line blanks are spaces and tabs. A line may end in a comment, and ends at a line
feed, perhaps after a carriage return, or at the end of the text. No control character
but the tab stands anywhere else.

A string stands between quote marks, with escapes, or between apostrophes, without; and
between three of either over several lines, where up to two more marks before the closing
three belong to the string. A key is made of names with dots between them, each a string
on one line, or a word of ASCII letters, digits, dashes and underscores.

Key definitions: `Toml.endLine`, `Toml.skipLines`, `Toml.readString`, `Toml.readKey`.
-/
import DataTerms.Text.Reader
import DataTerms.Toml.Basic

namespace DataTerms
namespace Toml

open Text (Reader readHex)

/-! ### Blanks and comments -/

/-- A blank within a line. -/
def isBlank (c : Char) : Bool := c == ' ' || c == '\t'

/-- A character that may stand in a line: no control character of ASCII but the tab. -/
def isShown (c : Char) : Bool := c == '\t' || ' ' ≤ c && c != '\x7f'

/-- The text without the blanks that it starts with. -/
def skipBlanks (text : List Char) : List Char := text.dropWhile isBlank

/-- The text after the end of a line. -/
def endOfLine : List Char → Option (List Char)
  | '\n' :: rest => some rest
  | '\r' :: '\n' :: rest => some rest
  | _ => none

/-- The text without the comment that it may start with. -/
def skipComment : List Char → List Char
  | '#' :: rest => rest.dropWhile isShown
  | text => text

/-- The text after the rest of a line on which only blanks and a comment are left. -/
def endLine (text : List Char) : Option (List Char) :=
  match skipComment (skipBlanks text) with
  | [] => some []
  | rest => endOfLine rest

/-- The text without the blanks and line ends that it starts with. -/
def skipBlankLines : List Char → List Char
  | '\r' :: '\n' :: rest => skipBlankLines rest
  | c :: rest => if isBlank c || c == '\n' then skipBlankLines rest else c :: rest
  | [] => []

/-- The text without the blanks, comments and line ends that it starts with. Each step but
the last takes at least one character, so as many steps as there are characters suffice. -/
def skipLinesIn : Nat → List Char → List Char
  | 0, text => text
  | steps + 1, text =>
    match skipBlankLines text with
    | '#' :: rest => skipLinesIn steps (rest.dropWhile isShown)
    | rest => rest

/-- The text without the blanks, comments and line ends that it starts with. -/
def skipLines (text : List Char) : List Char := skipLinesIn text.length text

/-! ### Strings -/

/-- The character with a code point, unless that is a surrogate or too great. -/
def charOf? (code : Nat) : Option Char :=
  if code < 0xD800 ∨ 0xDFFF < code ∧ code < 0x110000 then some (Char.ofNat code) else none

/-- The character of an escape with so many hexadecimal digits. -/
def readCode (digits : Nat) (text : List Char) : Option (Char × List Char) := do
  let (code, rest) ← readHex digits text
  return (← charOf? code, rest)

/-- The character of an escape, after its backslash. -/
def readEscape : Reader Char
  | '"' :: rest => some ('"', rest)
  | '\\' :: rest => some ('\\', rest)
  | 'b' :: rest => some ('\x08', rest)
  | 'f' :: rest => some ('\x0c', rest)
  | 'n' :: rest => some ('\n', rest)
  | 'r' :: rest => some ('\r', rest)
  | 't' :: rest => some ('\t', rest)
  | 'u' :: rest => readCode 4 rest
  | 'U' :: rest => readCode 8 rest
  | _ => none

/-- The characters of a string after its opening quote mark. Here and below each step takes
at least one character, so as many steps as there are characters suffice. -/
def readBasicChars : Nat → Reader (List Char)
  | 0, _ => none
  | _ + 1, [] => none
  | steps + 1, c :: rest =>
    if c = '"' then some ([], rest)
    else if c = '\\' then do
      let (c, rest) ← readEscape rest
      let (chars, rest) ← readBasicChars steps rest
      return (c :: chars, rest)
    else if isShown c then do
      let (chars, rest) ← readBasicChars steps rest
      return (c :: chars, rest)
    else none

/-- The string after its opening quote mark. -/
def readBasic (text : List Char) : Option (String × List Char) := do
  let (chars, rest) ← readBasicChars text.length text
  return (String.ofList chars, rest)

/-- The string after its opening apostrophe. -/
def readLiteral (text : List Char) : Option (String × List Char) :=
  let inside (c : Char) : Bool := isShown c && c != '\''
  match text.dropWhile inside with
  | '\'' :: rest => some (String.ofList (text.takeWhile inside), rest)
  | _ => none

/-- The text without the end of a line that it may start with. -/
def skipEndOfLine (text : List Char) : List Char := (endOfLine text).getD text

/-- The marks that belong to a string over several lines before its closing three, the
three having been found, and the text after them. -/
def closing (mark : Char) : List Char → List Char × List Char
  | c :: d :: rest =>
    if c = mark then if d = mark then ([mark, mark], rest) else ([mark], d :: rest)
    else ([], c :: d :: rest)
  | [c] => if c = mark then ([mark], []) else ([], [c])
  | [] => ([], [])

/-- The characters of a string over several lines with escapes, after its opening. A
backslash at the end of a line takes away the blanks and lines that follow. -/
def readLongBasicChars : Nat → Reader (List Char)
  | 0, _ => none
  | _ + 1, [] => none
  | _ + 1, '"' :: '"' :: '"' :: rest => some (closing '"' rest)
  | steps + 1, '\\' :: rest =>
    match endOfLine (skipBlanks rest) with
    | some rest => readLongBasicChars steps (skipBlankLines rest)
    | none => do
      let (c, rest) ← readEscape rest
      let (chars, rest) ← readLongBasicChars steps rest
      return (c :: chars, rest)
  | steps + 1, c :: rest =>
    match endOfLine (c :: rest) with
    | some rest => do
      let (chars, rest) ← readLongBasicChars steps rest
      return ('\n' :: chars, rest)
    | none =>
      if isShown c then do
        let (chars, rest) ← readLongBasicChars steps rest
        return (c :: chars, rest)
      else none

/-- The characters of a string over several lines without escapes, after its opening. -/
def readLongLiteralChars : Nat → Reader (List Char)
  | 0, _ => none
  | _ + 1, [] => none
  | _ + 1, '\'' :: '\'' :: '\'' :: rest => some (closing '\'' rest)
  | steps + 1, c :: rest =>
    match endOfLine (c :: rest) with
    | some rest => do
      let (chars, rest) ← readLongLiteralChars steps rest
      return ('\n' :: chars, rest)
    | none =>
      if isShown c then do
        let (chars, rest) ← readLongLiteralChars steps rest
        return (c :: chars, rest)
      else none

/-- A string of any of the four kinds. A line end right after the opening of one over
several lines does not belong to it. -/
def readString : Reader String
  | '"' :: '"' :: '"' :: rest => do
    let (chars, rest) ← readLongBasicChars rest.length (skipEndOfLine rest)
    return (String.ofList chars, rest)
  | '"' :: rest => readBasic rest
  | '\'' :: '\'' :: '\'' :: rest => do
    let (chars, rest) ← readLongLiteralChars rest.length (skipEndOfLine rest)
    return (String.ofList chars, rest)
  | '\'' :: rest => readLiteral rest
  | _ => none

/-! ### Keys -/

/-- A character of a name without quote marks. -/
def isNameChar (c : Char) : Bool := c.isAlphanum || c == '-' || c == '_'

/-- A name. -/
def readName : Reader String
  | '"' :: rest => readBasic rest
  | '\'' :: rest => readLiteral rest
  | text =>
    match text.takeWhile isNameChar with
    | [] => none
    | name => some (String.ofList name, text.dropWhile isNameChar)

/-- A key of no more than so many names, with the blanks about it. -/
def readNames : Nat → Reader Key
  | 0, _ => none
  | names + 1, text => do
    let (name, rest) ← readName (skipBlanks text)
    match skipBlanks rest with
    | '.' :: rest => do
      let (key, rest) ← readNames names rest
      return (⟨name :: key.parents, key.name⟩, rest)
    | rest => return (⟨[], name⟩, rest)

/-- The greatest number of names in a key, and of arrays and tables within each other. -/
def nestingLimit : Nat := 79

/-- A key. -/
def readKey : Reader Key := readNames nestingLimit

end Toml
end DataTerms

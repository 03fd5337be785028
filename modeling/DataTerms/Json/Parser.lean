/-
# Reading JSON text

A text is one JSON value between blanks: spaces, tabs, line feeds and carriage returns.
Nothing is added to the format and nothing left out, but three things are refused that
it permits: an escape that is half a surrogate pair, a number beyond the greatest
finite one, and containers within containers beyond a limit. Of members with one name
the last counts.

Key definitions: `Json.readString`, `Json.reader`, `Json.parseBy?`, `Json.parse?`.
-/
import DataTerms.Json.Numeral
import DataTerms.Text.Reader

namespace DataTerms
namespace Json

open Text (Reader readHex)

/-- A blank between tokens. -/
def isSpace (c : Char) : Bool := c == ' ' || c == '\t' || c == '\n' || c == '\r'

/-- The text without the blanks that it starts with. -/
def skipSpace (text : List Char) : List Char := text.dropWhile isSpace

/-- The character of a code unit that is no surrogate, or of two that are a pair. -/
def readUnit (text : List Char) : Option (Char × List Char) := do
  let (unit, rest) ← readHex 4 text
  if unit < 0xD800 ∨ 0xDFFF < unit then return (Char.ofNat unit, rest)
  else if 0xDC00 ≤ unit then none
  else
    match rest with
    | '\\' :: 'u' :: rest => do
      let (low, rest) ← readHex 4 rest
      if 0xDC00 ≤ low ∧ low ≤ 0xDFFF then
        return (Char.ofNat (0x10000 + (unit - 0xD800) * 0x400 + (low - 0xDC00)), rest)
      else none
    | _ => none

/-- The character of an escape, after its backslash. -/
def readEscape : Reader Char
  | '"' :: rest => some ('"', rest)
  | '\\' :: rest => some ('\\', rest)
  | '/' :: rest => some ('/', rest)
  | 'b' :: rest => some ('\x08', rest)
  | 'f' :: rest => some ('\x0c', rest)
  | 'n' :: rest => some ('\n', rest)
  | 'r' :: rest => some ('\r', rest)
  | 't' :: rest => some ('\t', rest)
  | 'u' :: rest => readUnit rest
  | _ => none

/-- The characters of a string after its opening quote mark. Each step takes at least one
character, so as many steps as there are characters suffice. -/
def readChars : Nat → Reader (List Char)
  | 0, _ => none
  | _ + 1, [] => none
  | steps + 1, c :: rest =>
    if c = '"' then some ([], rest)
    else if c = '\\' then do
      let (c, rest) ← readEscape rest
      let (chars, rest) ← readChars steps rest
      return (c :: chars, rest)
    else if c < ' ' then none
    else do
      let (chars, rest) ← readChars steps rest
      return (c :: chars, rest)

/-- The string after its opening quote mark. -/
def readString (text : List Char) : Option (String × List Char) := do
  let (chars, rest) ← readChars text.length text
  return (String.ofList chars, rest)

/-- The items that follow the first item of an array, to its closing bracket. -/
def readMoreItems (value : Reader Json) : Nat → Reader (List Json)
  | 0, _ => none
  | steps + 1, text =>
    match skipSpace text with
    | ']' :: rest => some ([], rest)
    | ',' :: rest => do
      let (item, rest) ← value rest
      let (items, rest) ← readMoreItems value steps rest
      return (item :: items, rest)
    | _ => none

/-- The items of an array after its opening bracket. -/
def readItems (value : Reader Json) (text : List Char) : Option (List Json × List Char) :=
  match skipSpace text with
  | ']' :: rest => some ([], rest)
  | start => do
    let (item, rest) ← value start
    let (items, rest) ← readMoreItems value rest.length rest
    return (item :: items, rest)

/-- A member of an object: its name, a colon and its value. -/
def readMember (value : Reader Json) (text : List Char) :
    Option ((String × Json) × List Char) :=
  match skipSpace text with
  | '"' :: rest => do
    let (name, rest) ← readString rest
    match skipSpace rest with
    | ':' :: rest => do
      let (value, rest) ← value rest
      return ((name, value), rest)
    | _ => none
  | _ => none

/-- The members that follow the first member of an object, to its closing brace. -/
def readMoreMembers (value : Reader Json) : Nat → Reader (List (String × Json))
  | 0, _ => none
  | steps + 1, text =>
    match skipSpace text with
    | '}' :: rest => some ([], rest)
    | ',' :: rest => do
      let (member, rest) ← readMember value rest
      let (members, rest) ← readMoreMembers value steps rest
      return (member :: members, rest)
    | _ => none

/-- The members of an object after its opening brace. -/
def readMembers (value : Reader Json) (text : List Char) :
    Option (List (String × Json) × List Char) :=
  match skipSpace text with
  | '}' :: rest => some ([], rest)
  | start => do
    let (member, rest) ← readMember value start
    let (members, rest) ← readMoreMembers value rest.length rest
    return (member :: members, rest)

/-- A number. -/
def readNumber (text : List Char) : Option (Json × List Char) := do
  let (numeral, rest) ← Numeral.read text
  return (.number (← numeral.value?), rest)

/-- A value, the containers among whose parts are read by `inner`; there are none where
`inner` is absent. What an object becomes is made of its members, as they are written, by
`object`. -/
def readValue (object : List (String × Json) → Json) (inner : Option (Reader Json))
    (text : List Char) : Option (Json × List Char) :=
  match skipSpace text with
  | 'n' :: 'u' :: 'l' :: 'l' :: rest => some (.null, rest)
  | 't' :: 'r' :: 'u' :: 'e' :: rest => some (.bool true, rest)
  | 'f' :: 'a' :: 'l' :: 's' :: 'e' :: rest => some (.bool false, rest)
  | '"' :: rest => do
    let (text, rest) ← readString rest
    return (.string text, rest)
  | '[' :: rest => do
    let inner ← inner
    let (items, rest) ← readItems inner rest
    return (.array items, rest)
  | '{' :: rest => do
    let inner ← inner
    let (members, rest) ← readMembers inner rest
    return (object members, rest)
  | start => readNumber start

/-- Reads a value with no more than `nesting` containers within each other, whose objects are
made by `object`. -/
def reader (object : List (String × Json) → Json) : Nat → Reader Json
  | 0 => readValue object none
  | nesting + 1 => readValue object (some (reader object nesting))

/-- The value of a whole text whose containers nest no deeper than a limit, and whose objects are
made by `object`. -/
def parseBy? (object : List (String × Json) → Json) (nesting : Nat) (text : String) :
    Option Json := do
  let (value, rest) ← reader object nesting text.toList
  if skipSpace rest = [] then return value else none

/-- The value of a text whose containers nest no deeper than a limit. -/
def parse? (nesting : Nat) (text : String) : Option Json := parseBy? ofMembers nesting text

/-- The greatest number of containers within each other in a text from outside. -/
def nestingLimit : Nat := 127

end Json
end DataTerms

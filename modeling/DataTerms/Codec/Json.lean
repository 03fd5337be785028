/-
# Codecs in JSON text

A codec is given by an object whose member `max_depth` is its limit, or by an array with
at most that one item. Without it the codec is the common one. Other members are passed
over; the limit may not be given twice.

Key definitions: `Codec.ofJsonText?`.
-/
import DataTerms.Codec
import DataTerms.Json.Skim

namespace DataTerms
namespace Codec

open Json (skipSpace)
open Text (Reader)

/-- Reads a limit: a whole number of 64 bits without a sign. -/
def readLimit (text : List Char) : Option (Nat × List Char) := do
  let (value, rest) ← Json.readNumber (skipSpace text)
  match value with
  | .number (.int n) => if 0 ≤ n ∧ n < UInt64.size then return (n.toNat, rest) else none
  | _ => none

/-- Reads a member of the object, after those that gave a limit or none. -/
def readMember (limit : Option Nat) (text : List Char) : Option (Option Nat × List Char) :=
  match skipSpace text with
  | '"' :: rest => do
    let (name, rest) ← Json.readString rest
    match skipSpace rest with
    | ':' :: rest =>
      if name ≠ "max_depth" then return (limit, ← Json.skim rest)
      else if limit.isSome then none
      else do
        let (n, rest) ← readLimit rest
        return (some n, rest)
    | _ => none
  | _ => none

/-- Reads what follows a member, to the closing brace. Every member takes at least one
character, so as many steps as there are characters suffice. -/
def readMoreMembers : Nat → Option Nat → Reader (Option Nat)
  | 0, _, _ => none
  | steps + 1, limit, text =>
    match skipSpace text with
    | '}' :: rest => some (limit, rest)
    | ',' :: rest => do
      let (limit, rest) ← readMember limit rest
      readMoreMembers steps limit rest
    | _ => none

/-- Reads the members after the opening brace. -/
def readMembers (text : List Char) : Option (Option Nat × List Char) :=
  match skipSpace text with
  | '}' :: rest => some (none, rest)
  | start => do
    let (limit, rest) ← readMember none start
    readMoreMembers rest.length limit rest

/-- Reads the items after the opening bracket: a limit or nothing. -/
def readItems (text : List Char) : Option (Option Nat × List Char) :=
  match skipSpace text with
  | ']' :: rest => some (none, rest)
  | start => do
    let (limit, rest) ← readLimit start
    match skipSpace rest with
    | ']' :: rest => return (some limit, rest)
    | _ => none

/-- Reads the limit of a codec. -/
def readCodec (text : List Char) : Option (Option Nat × List Char) :=
  match skipSpace text with
  | '{' :: rest => readMembers rest
  | '[' :: rest => readItems rest
  | _ => none

/-- The codec with a limit, or the common one. -/
def ofLimit (limit : Option Nat) : Codec :=
  match limit with
  | some maxDepth => { maxDepth }
  | none => {}

/-- The codec that a text gives. -/
def ofJsonText? (text : String) : Option Codec := do
  let (limit, rest) ← readCodec text.toList
  if skipSpace rest = [] then return ofLimit limit else none

end Codec
end DataTerms

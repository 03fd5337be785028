/-
# The text of a term

A term is written the way processes are read: literals as in JSON, lists between
brackets, the sends of a map as `@"key"!(value)` with bars between them, and the empty
process, like no sends at all, as `Nil`. A send has to have a text literal as its channel
and one term as its payload.

Key definitions: `Term.charsAt`, `Term.text?`.
-/
import DataTerms.Error
import DataTerms.Json.Printer

namespace DataTerms
namespace Term

/-- The characters of a literal. -/
def literalChars : Literal → List Char
  | .bool true => ['t', 'r', 'u', 'e']
  | .bool false => ['f', 'a', 'l', 's', 'e']
  | .int value => (toString value.toInt).toList
  | .str value => Json.quote value.toList

/-- The characters of the empty process. -/
def nilChars : List Char := ['N', 'i', 'l']

/-- The characters of a send, of its channel's text and its payload's characters. -/
def sendChars (key : String) (payload : List Char) : List Char :=
  '@' :: Json.quote key.toList ++ '!' :: '(' :: payload ++ [')']

/-- The key that the channel of the send at a path is. -/
def keyOfChannel (path : Path) : Term → Except TermError String
  | .literal (.str key) => .ok key
  | channel => .error (.malformed path (.channelIs channel.kind))

mutual

/-- The characters of the term at a path. -/
def charsAt (path : Path) : Term → Except TermError (List Char)
  | .literal value => .ok (literalChars value)
  | .list items => do return '[' :: (← itemsChars path 0 items) ++ [']']
  | .sends [] => .ok nilChars
  | .sends (send :: rest) => entriesChars path 0 (send :: rest)
  | .nil => .ok nilChars

/-- The characters of the items of the list at a path, from the one with the index `i`
on. -/
def itemsChars (path : Path) (i : Nat) : List Term → Except TermError (List Char)
  | [] => .ok []
  | item :: rest => do
    let first ← item.charsAt (path.index i)
    let others ← itemsChars path (i + 1) rest
    return (if i = 0 then [] else [',', ' ']) ++ first ++ others

/-- The characters of the sends at a path, from the one with the index `i` on. -/
def entriesChars (path : Path) (i : Nat) : List Send → Except TermError (List Char)
  | [] => .ok []
  | ⟨channel, payload⟩ :: rest => do
    let key ← keyOfChannel (path.index i) channel
    let value ← payloadChars (path.key key) payload
    let others ← entriesChars path (i + 1) rest
    return (if i = 0 then [] else [' ', '|', ' ']) ++ sendChars key value ++ others

/-- The characters of the only term of a payload. -/
def payloadChars (path : Path) : List Term → Except TermError (List Char)
  | [single] => single.charsAt path
  | payload => .error (.malformed path (.payloadSize payload.length))

end

/-- The text of a term. -/
def text? (term : Term) : Except TermError String := do
  return String.ofList (← term.charsAt .root)

end Term
end DataTerms

/-
# Terms as JSON

A term as JSON shows its shape: an object that names the kind and, but for the empty
process, holds what is in it. A literal within a term is such an object too, with kinds
of its own, and a send is an object with its channel and its payload. Reading takes the
members of an object in any order, disregards those that the shape does not have, and
takes the empty process also with no value as its content. In the place of each object
it takes an array with the kind and the content, or the channel and the payload, and
nothing else.

Key definitions: `Term.toJson`, `Term.ofJsonTree?`.
-/
import DataTerms.Json.Basic
import DataTerms.Term.Basic

namespace DataTerms
namespace Term

/-- An object that names a kind and holds what is in it. -/
def tagged (kind : String) (content : Json) : Json :=
  .object [("kind", .string kind), ("value", content)]

/-- A literal as JSON. -/
def literalToJson : Literal → Json
  | .bool value => tagged "Bool" (.bool value)
  | .int value => tagged "Int" (.int value.toInt)
  | .str value => tagged "Str" (.string value)

mutual

/-- The term as JSON. -/
def toJson : Term → Json
  | .literal value => tagged "Literal" (literalToJson value)
  | .list items => tagged "ListLiteral" (.array (itemsToJson items))
  | .sends entries => tagged "ParallelSends" (.array (entriesToJson entries))
  | .nil => .object [("kind", .string "Nil")]

/-- Terms as JSON. -/
def itemsToJson : List Term → List Json
  | [] => []
  | item :: rest => item.toJson :: itemsToJson rest

/-- Sends as JSON. -/
def entriesToJson : List Send → List Json
  | [] => []
  | ⟨channel, payload⟩ :: rest =>
    .object [("channel", channel.toJson), ("payload", .array (itemsToJson payload))] ::
      entriesToJson rest

end

/-- The literal that a kind and what is in it make. -/
def literalOfParts? : String → Json → Option Literal
  | "Bool", .bool value => some (.bool value)
  | "Int", .number (.int value) =>
    if Int64.minValue.toInt ≤ value ∧ value ≤ Int64.maxValue.toInt then some (.int (Int64.ofInt value))
    else none
  | "Str", .string value => some (.str value)
  | _, _ => none

/-- The kind that members name: by a text, or by an object with that only name and no value
for it. -/
def kindIn? (members : List (String × Json)) : Option String :=
  match Keyed.find? "kind" members with
  | some (.string kind) => some kind
  | some (.object [(kind, .null)]) => some kind
  | _ => none

/-- The literal of JSON that shows its shape. -/
def literalOfJson? : Json → Option Literal
  | .object members => do
    literalOfParts? (← kindIn? members) (← Keyed.find? "value" members)
  | .array [.string kind, content] => literalOfParts? kind content
  | _ => none

mutual

/-- The term of JSON that shows its shape. -/
def ofJsonTree? : Json → Option Term
  | .object members =>
    match kindIn? members with
    | some kind => ofMembers? kind members
    | none => none
  | .array [.string kind, content] => ofParts? kind content
  | _ => none

/-- The term of a kind whose content is among members. The empty process needs none. -/
def ofMembers? (kind : String) : List (String × Json) → Option Term
  | [] => if kind = "Nil" then some .nil else none
  | (name, member) :: rest =>
    if name = "value" then ofParts? kind member else ofMembers? kind rest

/-- The term that a kind and what is in it make. -/
def ofParts? (kind : String) : Json → Option Term
  | .null => if kind = "Nil" then some .nil else none
  | .array items =>
    if kind = "ListLiteral" then do return .list (← itemsOfJsons? items)
    else if kind = "ParallelSends" then do return .sends (← entriesOfJsons? items)
    else if kind = "Literal" then do return .literal (← literalOfJson? (.array items))
    else none
  | content =>
    if kind = "Literal" then do return .literal (← literalOfJson? content) else none

/-- The terms of JSON values. -/
def itemsOfJsons? : List Json → Option (List Term)
  | [] => some []
  | item :: rest => do
    let term ← ofJsonTree? item
    let terms ← itemsOfJsons? rest
    return term :: terms

/-- The sends of JSON values. -/
def entriesOfJsons? : List Json → Option (List Send)
  | [] => some []
  | item :: rest => do
    let send ← entryOfJson? item
    let sends ← entriesOfJsons? rest
    return send :: sends

/-- The send of JSON: its channel and its payload, by their names or one after the other. -/
def entryOfJson? : Json → Option Send
  | .object members => do
    return ⟨← termIn? "channel" members, ← itemsIn? "payload" members⟩
  | .array [channel, .array payload] => do
    return ⟨← ofJsonTree? channel, ← itemsOfJsons? payload⟩
  | _ => none

/-- The term that is the member with a name. -/
def termIn? (name : String) : List (String × Json) → Option Term
  | [] => none
  | (name', member) :: rest => if name = name' then ofJsonTree? member else termIn? name rest

/-- The terms in the array that is the member with a name. -/
def itemsIn? (name : String) : List (String × Json) → Option (List Term)
  | [] => none
  | (name', member) :: rest =>
    if name = name' then itemsOfJson? member else itemsIn? name rest

/-- The terms in an array. -/
def itemsOfJson? : Json → Option (List Term)
  | .array items => itemsOfJsons? items
  | _ => none

end

end Term
end DataTerms

/-
# Values as JSON

Every value is written as JSON, and JSON is read as a value where each of its numbers is
whole and has 64 bits with a sign. The first number that has not is the error, at its
path; the items of an array are taken in their order and the members of an object in the
order of their names.

Key definitions: `Value.toJson`, `Value.ofJson?`.
-/
import DataTerms.Error

namespace DataTerms
namespace Value

mutual

/-- The value as JSON. -/
def toJson : Value → Json
  | .null => .null
  | .bool value => .bool value
  | .int value => .int value.toInt
  | .str value => .string value
  | .list items => .array (itemsToJson items)
  | .map entries => .object (entriesToJson entries)

/-- Values as JSON. -/
def itemsToJson : List Value → List Json
  | [] => []
  | item :: rest => item.toJson :: itemsToJson rest

/-- Entries as the members of an object. -/
def entriesToJson : List (String × Value) → List (String × Json)
  | [] => []
  | (key, value) :: rest => (key, value.toJson) :: entriesToJson rest

end

/-- The whole number of 64 bits with a sign that a number is. -/
def intOfNumber (path : Path) : Json.Number → Except TermError Int64
  | .int value =>
    if Int64.minValue.toInt ≤ value ∧ value ≤ Int64.maxValue.toInt then .ok (Int64.ofInt value)
    else .error (.unsupported path (.tooGreat value))
  | .float value => .error (.unsupported path (.notWhole (.float value)))

mutual

/-- The value of JSON at a path. -/
def ofJsonAt (path : Path) : Json → Except TermError Value
  | .null => .ok .null
  | .bool value => .ok (.bool value)
  | .number value => do return .int (← intOfNumber path value)
  | .string value => .ok (.str value)
  | .array items => do return .list (← ofItemsAt path 0 items)
  | .object members => do return .map (← ofMembersAt path members)

/-- The values of the items of the array at a path, from the one with the index `i` on. -/
def ofItemsAt (path : Path) (i : Nat) : List Json → Except TermError (List Value)
  | [] => .ok []
  | item :: rest => do
    let value ← ofJsonAt (path.index i) item
    let values ← ofItemsAt path (i + 1) rest
    return value :: values

/-- The entries for the members of the object at a path. -/
def ofMembersAt (path : Path) : List (String × Json) → Except TermError (List (String × Value))
  | [] => .ok []
  | (name, member) :: rest => do
    let value ← ofJsonAt (path.key name) member
    let entries ← ofMembersAt path rest
    return (name, value) :: entries

end

/-- The value of JSON. -/
def ofJson? (json : Json) : Except TermError Value := ofJsonAt .root json

end Value
end DataTerms

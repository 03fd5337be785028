/-
# JSON values

A JSON value. A number is a whole number or a binary one: the text it was read from
decides which. The members of an object are a keyed list, so an object has each name
once and its names ascend.

Key definitions: `Json`, `Json.Number`, `Json.Number.text`, `Json.member?`, `Json.Ordered`.
-/
import DataTerms.Decimal.Layout
import DataTerms.Keyed

namespace DataTerms

/-- A number in JSON: whole, or a binary one. That is what a number with a fraction or a power of
ten is, and also `-0` and a whole number beyond 64 bits. -/
inductive Json.Number where
  | int (value : Int)
  | float (value : Float)

inductive Json where
  | null
  | bool (value : Bool)
  | number (value : Json.Number)
  | string (value : String)
  | array (items : List Json)
  | object (members : List (String × Json))

namespace Json

/-- The text of a number. One that is not finite has none, and is written as no value. -/
def Number.text : Number → String
  | .int value => toString value
  | .float value =>
    match Binary.ofFloat? value with
    | some value => value.text .double
    | none => "null"

/-- A whole number. -/
def int (value : Int) : Json := .number (.int value)

/-- The object of a list of members, of which the later counts where names agree. -/
def ofMembers (members : List (String × Json)) : Json :=
  .object (Keyed.ofList members)

/-- The member of an object with a name. -/
def member? (name : String) : Json → Option Json
  | .object members => Keyed.find? name members
  | _ => none

mutual

/-- The names of every object ascend. -/
def Ordered : Json → Prop
  | .array items => OrderedItems items
  | .object members => Keyed.Ascending members ∧ OrderedMembers members
  | _ => True

/-- Every item has its names in order. -/
def OrderedItems : List Json → Prop
  | [] => True
  | item :: rest => item.Ordered ∧ OrderedItems rest

/-- Every member's value has its names in order. -/
def OrderedMembers : List (String × Json) → Prop
  | [] => True
  | (_, value) :: rest => value.Ordered ∧ OrderedMembers rest

end

end Json
end DataTerms

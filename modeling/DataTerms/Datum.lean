/-
# Objects that become data

An object tells its shape, and the shape decides what data it becomes: nothing becomes no
value, a type about one value becomes that value, an alternative becomes its name, or a
map from its name to what it holds. The keys of a map have to have a text. An object is
turned into JSON first, which can fail by an obstacle, and the first one met ends the
work; only then are the numbers looked at.

Key definitions: `Datum`, `Datum.toJson?`, `Datum.keyText?`, `Datum.toValue?`,
`Value.toDatum`.
-/
import DataTerms.Value.Json

namespace DataTerms

/-- The shapes of objects. -/
inductive Datum where
  /-- An object without content, or an optional one that is not there. -/
  | nothing
  /-- An optional object that is there. -/
  | present (inner : Datum)
  | bool (value : Bool)
  /-- A whole number of any width. -/
  | int (value : Int)
  /-- A number of 32 bits. -/
  | single (value : Float32)
  /-- A number of 64 bits. -/
  | double (value : Float)
  | char (value : Char)
  | text (value : String)
  | bytes (value : List UInt8)
  | sequence (items : List Datum)
  | map (entries : List (Datum × Datum))
  /-- An object with named fields. -/
  | record (fields : List (String × Datum))
  /-- An object of a type about one value. -/
  | wrapped (inner : Datum)
  /-- An alternative without content. -/
  | choice (name : String)
  /-- An alternative with content. -/
  | choiceOf (name : String) (inner : Datum)
  /-- An object that will not be turned into data. -/
  | refusal (words : String)

namespace Datum

open TermError (Obstacle)

/-- The text of a finite number in a layout, as a key. -/
def floatKey? (layout : Decimal.Layout) : Option Binary → Except Obstacle String
  | some value => .ok (value.text layout)
  | none => .error .keyNotFinite

/-- The text of an object as the key of a map. -/
def keyText? : Datum → Except Obstacle String
  | .bool true => .ok "true"
  | .bool false => .ok "false"
  | .int value => .ok (toString value)
  | .single value => floatKey? .single (Binary.ofFloat32? value)
  | .double value => floatKey? .double (Binary.ofFloat? value)
  | .char value => .ok (String.singleton value)
  | .text value => .ok value
  | .choice name => .ok name
  | .wrapped inner => inner.keyText?
  | .refusal words => .error (.refused words)
  | .nothing | .present _ | .bytes _ | .sequence _ | .map _ | .record _ | .choiceOf _ _ =>
    .error .keyNotText

/-- A number of 64 bits as JSON: no value, if it is not finite. -/
def floatToJson (value : Float) : Json :=
  if value.isFinite then .number (.float value) else .null

mutual

/-- The object as JSON. -/
def toJson? : Datum → Except Obstacle Json
  | .nothing => .ok .null
  | .present inner => inner.toJson?
  | .bool value => .ok (.bool value)
  | .int value =>
    if Int64.minValue.toInt ≤ value ∧ value < UInt64.size then .ok (.int value)
    else .error .numberOutOfRange
  | .single value => .ok (floatToJson value.toFloat)
  | .double value => .ok (floatToJson value)
  | .char value => .ok (.string (String.singleton value))
  | .text value => .ok (.string value)
  | .bytes value => .ok (.array (value.map fun b => .int b.toNat))
  | .sequence items => do return .array (← itemsToJson? items)
  | .map entries => do return Json.ofMembers (← entriesToJson? entries)
  | .record fields => do return Json.ofMembers (← fieldsToJson? fields)
  | .wrapped inner => inner.toJson?
  | .choice name => .ok (.string name)
  | .choiceOf name inner => do return .object [(name, ← inner.toJson?)]
  | .refusal words => .error (.refused words)

/-- Objects as JSON. -/
def itemsToJson? : List Datum → Except Obstacle (List Json)
  | [] => .ok []
  | item :: rest => do
    let item ← item.toJson?
    let items ← itemsToJson? rest
    return item :: items

/-- The entries of a map as members, of each entry the key first. -/
def entriesToJson? : List (Datum × Datum) → Except Obstacle (List (String × Json))
  | [] => .ok []
  | (key, value) :: rest => do
    let name ← key.keyText?
    let member ← value.toJson?
    let members ← entriesToJson? rest
    return (name, member) :: members

/-- Fields as members. -/
def fieldsToJson? : List (String × Datum) → Except Obstacle (List (String × Json))
  | [] => .ok []
  | (name, value) :: rest => do
    let member ← value.toJson?
    let members ← fieldsToJson? rest
    return (name, member) :: members

end

/-- The value that an object becomes. -/
def toValue? (datum : Datum) : Except TermError Value :=
  match datum.toJson? with
  | .ok json => Value.ofJson? json
  | .error obstacle => .error (.unsupported .root (.notSerializable obstacle))

end Datum

namespace Value

mutual

/-- The shape that a value has as an object. -/
def toDatum : Value → Datum
  | .null => .nothing
  | .bool value => .bool value
  | .int value => .int value.toInt
  | .str value => .text value
  | .list items => .sequence (itemsToDatum items)
  | .map entries => .map (entriesToDatum entries)

/-- The shapes of values. -/
def itemsToDatum : List Value → List Datum
  | [] => []
  | item :: rest => item.toDatum :: itemsToDatum rest

/-- The shapes of entries. -/
def entriesToDatum : List (String × Value) → List (Datum × Datum)
  | [] => []
  | (key, value) :: rest => (.text key, value.toDatum) :: entriesToDatum rest

end

end Value
end DataTerms

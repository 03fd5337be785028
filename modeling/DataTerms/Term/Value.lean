/-
# Terms and the values they carry

A value becomes a term: nothing the empty process, a map one send for each entry in the
order of the keys. A term is read back as a value where every channel stands for a text
and every payload is one term; of several sends with one key the last counts, and each
of the others that it replaces leaves an event.

A channel is read like any other term, and where it stands for something else than a
text, it is the send that is at fault.

Key definitions: `Value.toTerm`, `Value.encode`, `Term.ofJson?`, `Term.ofDatum?`,
`Term.toValueAt`, `Term.decode`.
-/
import DataTerms.Datum
import DataTerms.Report

namespace DataTerms
namespace Value

mutual

/-- The term that carries a value. -/
def toTerm : Value → Term
  | .null => .nil
  | .bool value => .literal (.bool value)
  | .int value => .literal (.int value)
  | .str value => .literal (.str value)
  | .list items => .list (itemsToTerm items)
  | .map entries => .sends (entriesToTerm entries)

/-- The terms that carry values. -/
def itemsToTerm : List Value → List Term
  | [] => []
  | item :: rest => item.toTerm :: itemsToTerm rest

/-- The sends that carry entries. -/
def entriesToTerm : List (String × Value) → List Send
  | [] => []
  | (key, value) :: rest => Send.entry key value.toTerm :: entriesToTerm rest

end

theorem entriesToTerm_eq_map (entries : List (String × Value)) :
    entriesToTerm entries = entries.map fun entry => Send.entry entry.1 entry.2.toTerm := by
  induction entries with
  | nil => rfl
  | cons entry rest ih => rw [entriesToTerm, ih, List.map_cons]

/-- The term that carries a value, with the event of its making. -/
def encode (value : Value) : Report TermError Term := do
  Report.log (.encoding value.kind)
  return value.toTerm

end Value

namespace Term

/-- The term that carries the value of JSON. -/
def ofJson? (json : Json) : Report TermError Term := do
  (← Report.ofExcept (Value.ofJson? json)).encode

/-- The term that carries the value an object becomes. -/
def ofDatum? (datum : Datum) : Report TermError Term := do
  (← Report.ofExcept datum.toValue?).encode

/-- The text that a value is, as the key of the send at a path. -/
def keyOfValue (path : Path) : Value → Report TermError String
  | .str key => pure key
  | value => Report.fail (.malformed path (.channelStandsFor value.kind))

/-- Enters a value under a key; where the key has a value already, that is an event. -/
def enter (path : Path) (key : String) (value : Value) (map : List (String × Value)) :
    Report TermError (List (String × Value)) := do
  if (Keyed.find? key map).isSome then Report.log (.duplicate path)
  return Keyed.insert key value map

mutual

/-- The value that the term at a path carries. -/
def toValueAt (path : Path) : Term → Report TermError Value
  | .literal (.bool value) => pure (.bool value)
  | .literal (.int value) => pure (.int value)
  | .literal (.str value) => pure (.str value)
  | .list items => do return .list (← itemsToValue path 0 items)
  | .sends entries => do return .map (← entriesToValue path 0 [] entries)
  | .nil => pure .null

/-- The values that the items of the list at a path carry, from the one with the index `i`
on. -/
def itemsToValue (path : Path) (i : Nat) : List Term → Report TermError (List Value)
  | [] => pure []
  | item :: rest => do
    let value ← item.toValueAt (path.index i)
    let values ← itemsToValue path (i + 1) rest
    return value :: values

/-- The map of the sends at a path, from the one with the index `i` on, into which the
earlier ones are entered already. -/
def entriesToValue (path : Path) (i : Nat) (map : List (String × Value)) :
    List Send → Report TermError (List (String × Value))
  | [] => pure map
  | ⟨channel, payload⟩ :: rest => do
    let key ← keyOfValue (path.index i) (← channel.toValueAt (path.index i))
    let value ← payloadToValue (path.key key) payload
    let map ← enter (path.key key) key value map
    entriesToValue path (i + 1) map rest

/-- The value that the only term of a payload carries. -/
def payloadToValue (path : Path) : List Term → Report TermError Value
  | [single] => single.toValueAt path
  | payload => Report.fail (.malformed path (.payloadSize payload.length))

end

/-- The value that a term carries, with the events of its reading. -/
def decode (term : Term) : Report TermError Value := do
  Report.log (.decoding term.kind)
  term.toValueAt .root

end Term
end DataTerms

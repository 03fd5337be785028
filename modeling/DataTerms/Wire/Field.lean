/-
# Fields of messages

A message is a row of fields, each a key and a value. The key holds the field's number
and the layout of its value, so that a reader can pass over a field that it does not
know. A message is read into a value that the fields are merged into one after the
other, so that a field may come more than once and in any place. What a field of a
message means is given by a `Merge`.

Messages within messages, and the fields of groups that are passed over, are counted
against a nesting budget. The length of a message within a message is held against all
the bytes left, not against the end of the message about it; that its fields stay within
it is seen when they have been read.

Key definitions: `Wire.Key`, `Wire.Merge`, `Wire.mergeFields`, `Wire.mergeMessage`,
`Wire.skip`, `Wire.readBytes`, `Wire.readText`.
-/
import DataTerms.Bytes.Utf8
import DataTerms.Wire.Varint

namespace DataTerms
namespace Wire

/-- The number of a field and the layout of its value. -/
structure Key where
  field : Nat
  layout : WireType
  deriving DecidableEq, Repr

namespace Key

/-- The bytes of a key. -/
def encode (key : Key) : List UInt8 := Varint.encode (8 * key.field + key.layout.number)

/-- Reads a key: a number of 32 bits, the low three of them the layout. -/
def read (input : Input) : Except Fault (Key × Input) := do
  let (n, input) ← Varint.read input
  if UInt32.size ≤ n then .error (Reason.invalidKey n).fault
  else
    match WireType.ofNat? (n % 8) with
    | none => .error (Reason.invalidWireType (n % 8)).fault
    | some layout =>
      if n / 8 = 0 then .error Reason.zeroField.fault
      else return (⟨n / 8, layout⟩, input)

/-- Refuses a value of another layout than its field's. -/
def expect (key : Key) (layout : WireType) : Except Fault Unit :=
  if key.layout = layout then .ok ()
  else .error (Reason.unexpectedWireType key.layout layout).fault

end Key

/-! ### Values without parts -/

/-- Reads a truth value: any number but zero is true. -/
def readBool (key : Key) (input : Input) : Except Fault (Bool × Input) := do
  key.expect .varint
  let (n, input) ← Varint.read input
  return (n != 0, input)

/-- Reads a folded signed number. -/
def readSigned (key : Key) (input : Input) : Except Fault (Int64 × Input) := do
  key.expect .varint
  let (n, input) ← Varint.read input
  return (Int64.ofInt (Varint.unfold n), input)

/-- Reads the number of bytes, and then so many bytes. -/
def readDelimited (input : Input) : Except Fault (List UInt8 × Input) := do
  let (length, input) ← Varint.read input
  match input.take? length with
  | none => .error Reason.underflow.fault
  | some result => return result

/-- Reads a row of bytes. -/
def readBytes (key : Key) (input : Input) : Except Fault (List UInt8 × Input) := do
  key.expect .lengthDelimited
  readDelimited input

/-- Reads a text. -/
def readText (key : Key) (input : Input) : Except Fault (String × Input) := do
  let (bytes, input) ← readBytes key input
  match Utf8.decode bytes with
  | .ok text => return (text, input)
  | .error _ => .error Reason.notUtf8.fault

/-! ### Messages -/

/-- Merges the value of one field, whose key has been read, into a message. -/
abbrev Merge (α : Type) := Key → α → Input → Except Fault (α × Input)

/-- Merges fields while more than `stop` bytes are left. Every field takes at least one
byte, so as many steps as there are bytes suffice. -/
def mergeFields {α : Type} (merge : Merge α) (stop : Nat) :
    Nat → α → Input → Except Fault (α × Input)
  | 0, message, input => .ok (message, input)
  | steps + 1, message, input =>
    if input.size ≤ stop then .ok (message, input)
    else do
      let (key, input) ← Key.read input
      let (message, input) ← merge key message input
      mergeFields merge stop steps message input

/-- Merges a message within a message, whose fields `merge` takes; it is absent where the
nesting budget is used up. -/
def mergeMessage {α : Type} (merge : Option (Merge α)) : Merge α := fun key message input => do
  key.expect .lengthDelimited
  match merge with
  | none => .error Reason.recursionLimit.fault
  | some merge =>
    let (length, input) ← Varint.read input
    if input.size < length then .error Reason.underflow.fault
    else
      let stop := input.size - length
      let (message, input) ← mergeFields merge stop input.size message input
      if input.size = stop then return (message, input) else .error Reason.overrun.fault

/-- Passes over `n` bytes. -/
def skipBytes (n : Nat) (input : Input) : Except Fault Input :=
  match input.take? n with
  | none => .error Reason.underflow.fault
  | some (_, input) => .ok input

/-- Passes over the fields of a group, each by `skipField`, to the end of the group with
the field number. Every field takes at least one byte, so as many steps as there are bytes
suffice. -/
def skipGroup (skipField : Key → Input → Except Fault Input) (field : Nat) :
    Nat → Input → Except Fault Input
  | 0, _ => .error Reason.invalidVarint.fault
  | steps + 1, input => do
    let (key, input) ← Key.read input
    if key.layout = .endGroup then
      if key.field = field then return input else .error Reason.unexpectedEndGroup.fault
    else
      let input ← skipField key input
      skipGroup skipField field steps input

/-- Passes over a field that is not known. -/
def skip : Nat → Key → Input → Except Fault Input
  | 0, _, _ => .error Reason.recursionLimit.fault
  | budget + 1, key, input =>
    match key.layout with
    | .varint => do return (← Varint.read input).2
    | .sixtyFourBit => skipBytes 8 input
    | .thirtyTwoBit => skipBytes 4 input
    | .lengthDelimited => do return (← readDelimited input).2
    | .startGroup => skipGroup (skip budget) key.field (input.size + 1) input
    | .endGroup => .error Reason.unexpectedEndGroup.fault

/-! ### Writing -/

/-- A field that holds a number. -/
def numberField (field n : Nat) : List UInt8 := Key.encode ⟨field, .varint⟩ ++ Varint.encode n

/-- Bytes after their number. -/
def delimited (bytes : List UInt8) : List UInt8 := Varint.encode bytes.length ++ bytes

/-- A field that holds bytes, a text or a message. -/
def bytesField (field : Nat) (bytes : List UInt8) : List UInt8 :=
  Key.encode ⟨field, .lengthDelimited⟩ ++ delimited bytes

/-- A truth value as a number. -/
def boolField (field : Nat) (value : Bool) : List UInt8 := numberField field value.toNat

/-- A truth value, left out if it is false. -/
def flagField (field : Nat) (value : Bool) : List UInt8 :=
  if value then boolField field value else []

/-- Bytes, left out if there are none. -/
def implicitBytesField (field : Nat) (bytes : List UInt8) : List UInt8 :=
  if bytes = [] then [] else bytesField field bytes

/-- A row of fields with one number that each hold bytes. -/
def repeatedBytesField (field : Nat) (rows : List (List UInt8)) : List UInt8 :=
  rows.flatMap (bytesField field)

end Wire
end DataTerms

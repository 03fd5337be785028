/-
# Why bytes are no message

What reading a message can fail by, and the fields that were being read, the innermost
first.

Key definitions: `Wire.WireType`, `Wire.Reason`, `Wire.Fault`, `Wire.Fault.message`.
-/
namespace DataTerms
namespace Wire

/-- How the value of a field is laid out. -/
inductive WireType where
  | varint
  | sixtyFourBit
  | lengthDelimited
  | startGroup
  | endGroup
  | thirtyTwoBit
  deriving DecidableEq, Repr

namespace WireType

/-- The layout with a number. -/
def ofNat? : Nat → Option WireType
  | 0 => some .varint
  | 1 => some .sixtyFourBit
  | 2 => some .lengthDelimited
  | 3 => some .startGroup
  | 4 => some .endGroup
  | 5 => some .thirtyTwoBit
  | _ => none

/-- The number of a layout. -/
def number : WireType → Nat
  | .varint => 0
  | .sixtyFourBit => 1
  | .lengthDelimited => 2
  | .startGroup => 3
  | .endGroup => 4
  | .thirtyTwoBit => 5

theorem ofNat?_number (layout : WireType) : ofNat? layout.number = some layout := by
  cases layout <;> rfl

/-- The name of a layout. -/
def name : WireType → String
  | .varint => "Varint"
  | .sixtyFourBit => "SixtyFourBit"
  | .lengthDelimited => "LengthDelimited"
  | .startGroup => "StartGroup"
  | .endGroup => "EndGroup"
  | .thirtyTwoBit => "ThirtyTwoBit"

end WireType

/-- What reading a message can fail by. -/
inductive Reason where
  /-- The bytes end within a number, or the number has more than 64 bits. -/
  | invalidVarint
  /-- The key of a field has more than 32 bits. -/
  | invalidKey (key : Nat)
  /-- The key of a field names no layout. -/
  | invalidWireType (number : Nat)
  /-- The key of a field has the field number zero. -/
  | zeroField
  /-- A known field has another layout than its own. -/
  | unexpectedWireType (actual expected : WireType)
  /-- Messages nest too deep. -/
  | recursionLimit
  /-- A length is greater than the number of bytes left. -/
  | underflow
  /-- A field of a message reaches beyond the message's end. -/
  | overrun
  /-- A text is not in UTF-8. -/
  | notUtf8
  /-- A group ends that was not begun. -/
  | unexpectedEndGroup
  deriving DecidableEq, Repr

/-- What is said of a reason. -/
def Reason.message : Reason → String
  | .invalidVarint => "invalid varint"
  | .invalidKey key => s!"invalid key value: {key}"
  | .invalidWireType number => s!"invalid wire type value: {number}"
  | .zeroField => "invalid tag value: 0"
  | .unexpectedWireType actual expected =>
    s!"invalid wire type: {actual.name} (expected {expected.name})"
  | .recursionLimit => "recursion limit reached"
  | .underflow => "buffer underflow"
  | .overrun => "delimited length exceeded"
  | .notUtf8 => "invalid string value: data is not UTF-8 encoded"
  | .unexpectedEndGroup => "unexpected end group tag"

/-- A reason and the names of the fields about it, the innermost first. -/
structure Fault where
  fields : List String
  reason : Reason
  deriving DecidableEq, Repr

/-- What is said of a fault. -/
def Fault.message (fault : Fault) : String :=
  "failed to decode Protobuf message: " ++
    fault.fields.foldr (fun field text => field ++ ": " ++ text) fault.reason.message

/-- A fault outside any field. -/
def Reason.fault (reason : Reason) : Fault := ⟨[], reason⟩

/-- Names the field in which a fault was found. -/
def inField {α : Type} (name : String) : Except Fault α → Except Fault α
  | .ok value => .ok value
  | .error fault => .error { fault with fields := fault.fields ++ [name] }

end Wire
end DataTerms

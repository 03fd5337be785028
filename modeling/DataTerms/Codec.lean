/-
# Terms and bytes

A codec turns terms into the bytes of their messages and back. It takes only well-formed
terms of no more levels than its limit; what is beyond that is an error of the term when
writing and of the bytes when reading. A limit can be any number, but one that is checked
lies between one and the ceiling, below which no message nests deeper than a reader goes.

Key definitions: `Codec`, `Codec.ceiling`, `Codec.check`, `Codec.validate`,
`Codec.toBytes`, `Codec.ofBytes`.
-/
import DataTerms.Report
import DataTerms.Term.Par
import DataTerms.Wire.Reading

namespace DataTerms

/-- A codec is a limit to the levels of terms. -/
structure Codec where
  maxDepth : Nat := 32
  deriving DecidableEq, Repr

namespace Codec

/-- The greatest limit whose messages nest no deeper than a reader goes: a list takes three
messages for each level. -/
def ceiling : Nat := 32

/-- Refuses a limit that is zero or beyond the ceiling. -/
def check (codec : Codec) : Except TermError Unit :=
  if codec.maxDepth = 0 then .error (.schema .root .noDepth)
  else if ceiling < codec.maxDepth then
    .error (.schema .root (.depthBeyond codec.maxDepth ceiling))
  else .ok ()

/-- Refuses a node at a level beyond the limit. -/
def checkLevel (limit : Nat) (path : Path) (level : Nat) : Except TermError Unit :=
  if limit < level then .error (.schema path (.tooDeep limit)) else .ok ()

/-- The key that the channel of the send at a path is. -/
def keyOfChannel (path : Path) : Term → Except TermError String
  | .literal (.str key) => .ok key
  | channel => .error (.schema path (.channelIs channel.kind))

mutual

/-- Refuses what is ill-formed or too deep in the term at a path and a level. -/
def validateAt (limit : Nat) (path : Path) (level : Nat) : Term → Except TermError Unit
  | .literal _ | .nil => checkLevel limit path level
  | .list items => do
    checkLevel limit path level
    validateItems limit path 0 (level + 1) items
  | .sends entries => do
    checkLevel limit path level
    validateEntries limit path 0 (level + 1) entries

/-- Refuses what is ill-formed or too deep in the items of the list at a path, from the one
with the index `i` on, which are at a level. -/
def validateItems (limit : Nat) (path : Path) (i level : Nat) :
    List Term → Except TermError Unit
  | [] => .ok ()
  | item :: rest => do
    validateAt limit (path.index i) level item
    validateItems limit path (i + 1) level rest

/-- Refuses what is ill-formed or too deep in the sends at a path, from the one with the
index `i` on, whose payloads are at a level. -/
def validateEntries (limit : Nat) (path : Path) (i level : Nat) :
    List Send → Except TermError Unit
  | [] => .ok ()
  | ⟨channel, payload⟩ :: rest => do
    let key ← keyOfChannel (path.index i) channel
    validatePayload limit (path.key key) level payload
    validateEntries limit path (i + 1) level rest

/-- Refuses a payload that is not one term, and what is ill-formed or too deep in that. -/
def validatePayload (limit : Nat) (path : Path) (level : Nat) :
    List Term → Except TermError Unit
  | [single] => validateAt limit path level single
  | payload => .error (.schema path (.payloadSize payload.length))

end

/-- Refuses a term that is ill-formed or has more levels than the limit. -/
def validate (codec : Codec) (term : Term) : Except TermError Unit :=
  validateAt codec.maxDepth .root 1 term

/-- The bytes of a term. -/
def toBytes (codec : Codec) (term : Term) : Report TermError (List UInt8) := do
  Report.ofExcept (codec.validate term)
  let bytes := term.toPar.encode
  Report.log (.encoded bytes.length term.depth)
  return bytes

/-- The message that bytes are; bytes that are none leave an event. -/
def message (bytes : List UInt8) : Report TermError Wire.Par :=
  match Wire.Par.decode bytes with
  | .ok par => pure par
  | .error fault => do
    Report.log (.rejected bytes.length fault)
    Report.fail (.ofFault fault)

/-- The term of bytes. -/
def ofBytes (codec : Codec) (bytes : List UInt8) : Report TermError Term := do
  let par ← message bytes
  let term ← Report.ofExcept ((Term.ofPar? par).mapError TermError.asDecodeFailure)
  Report.ofExcept ((codec.validate term).mapError TermError.asDecodeFailure)
  Report.log (.decoded bytes.length term.depth)
  return term

end Codec
end DataTerms

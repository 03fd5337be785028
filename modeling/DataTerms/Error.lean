/-
# What can go wrong with a term

An error is of one of four kinds, stands at a path, and has a cause. All its wording is
here.

Key definitions: `TermError`, `TermError.Kind`, `TermError.Cause`, `TermError.message`,
`TermError.asDecodeFailure`.
-/
import DataTerms.Json.Basic
import DataTerms.Path
import DataTerms.Term.Basic
import DataTerms.Value.Basic
import DataTerms.Wire.Fault

namespace DataTerms
namespace TermError

/-- The kinds of error. -/
inductive Kind where
  /-- Data that terms cannot carry. -/
  | unsupportedType
  /-- A term or a message that does not stand for data. -/
  | malformedTerm
  /-- A term or a setting outside what the wire form allows. -/
  | schemaViolation
  /-- Bytes that are not the wire form of data. -/
  | decodeFailure
  deriving DecidableEq, Repr

/-- The words that an error of a kind begins with. -/
def Kind.label : Kind → String
  | .unsupportedType => "Unsupported type"
  | .malformedTerm => "Malformed term"
  | .schemaViolation => "Schema violation"
  | .decodeFailure => "Decode failure"

/-- The parts of a message that a pattern is marked on. -/
inductive Part where
  | node
  | list
  | send
  deriving DecidableEq, Repr

/-- The word for a part. -/
def Part.name : Part → String
  | .node => "node"
  | .list => "list"
  | .send => "send"

/-- Why an object with its own form cannot be turned into data. -/
inductive Obstacle where
  /-- A whole number with more than 64 bits. -/
  | numberOutOfRange
  /-- A map's key that has no text. -/
  | keyNotText
  /-- A map's key that is no finite number. -/
  | keyNotFinite
  /-- The object's own refusal. -/
  | refused (words : String)
  deriving DecidableEq, Repr

/-- What is said of an obstacle. -/
def Obstacle.message : Obstacle → String
  | .numberOutOfRange => "number out of range"
  | .keyNotText => "key must be a string"
  | .keyNotFinite => "float key must be finite (got NaN or +/-inf)"
  | .refused words => words

/-- Why something is an error. -/
inductive Cause where
  /-- A number is not held as a whole one. -/
  | notWhole (value : Json.Number)
  /-- A whole number has more than 64 bits with a sign. -/
  | tooGreat (value : Int)
  /-- An object cannot be turned into data. -/
  | notSerializable (obstacle : Obstacle)
  /-- The channel of a send stands for something else than a text. -/
  | channelStandsFor (kind : Value.Kind)
  /-- The channel of a send is something else than a text literal. -/
  | channelIs (kind : Term.Kind)
  /-- A send has no or several terms as its payload. -/
  | payloadSize (terms : Nat)
  /-- Terms nest deeper than the limit. -/
  | tooDeep (limit : Nat)
  /-- A limit of no level at all. -/
  | noDepth
  /-- A limit beyond what the wire form can nest. -/
  | depthBeyond (limit ceiling : Nat)
  /-- A message holds kinds of process that carry no data. -/
  | unsupportedKinds (names : List String)
  /-- A part is marked to use connectives. -/
  | connectiveUsed (part : Part)
  /-- A part is marked to have free variables. -/
  | locallyFree (part : Part)
  /-- A message holds several expressions. -/
  | manyExpressions (expressions : Nat)
  /-- A message holds expressions and sends. -/
  | blended (expressions sends : Nat)
  /-- A list has a remainder. -/
  | listRemainder
  /-- An expression is a resource name. -/
  | uri
  /-- An expression is a row of bytes. -/
  | byteArray
  /-- An expression is of no kind. -/
  | noInstance
  /-- A send stays after it is received. -/
  | persistentSend
  /-- Bytes are no message. -/
  | unreadable (fault : Wire.Fault)

/-- What is said of a cause. -/
def Cause.message : Cause → String
  | .notWhole value => s!"non-integer number {value.text}"
  | .tooGreat value => s!"integer {value} does not fit in a signed 64-bit literal"
  | .notSerializable obstacle => s!"cannot serialize value: {obstacle.message}"
  | .channelStandsFor kind => s!"send channel decodes to {kind.name}, expected a string"
  | .channelIs kind => s!"send channel is {kind.name}, expected a string literal"
  | .payloadSize terms => s!"send payload has {terms} terms, expected 1"
  | .tooDeep limit => s!"term nesting exceeds the limit of {limit}"
  | .noDepth => "max_depth must be at least 1"
  | .depthBeyond limit ceiling =>
    s!"max_depth {limit} exceeds the wire nesting ceiling of {ceiling}"
  | .unsupportedKinds names => "unsupported process kinds: " ++ ", ".intercalate names
  | .connectiveUsed part => s!"{part.name} is a pattern (connective_used is set)"
  | .locallyFree part => s!"{part.name} has free variables (locally_free is set)"
  | .manyExpressions expressions =>
    s!"node carries {expressions} expressions, expected at most 1"
  | .blended expressions sends =>
    s!"node carries {expressions} expressions and {sends} sends, expected one shape"
  | .listRemainder => "list pattern with a remainder"
  | .uri => "unsupported expression: uri"
  | .byteArray => "unsupported expression: byte array"
  | .noInstance => "expression has no supported instance"
  | .persistentSend => "persistent send does not encode data"
  | .unreadable fault => fault.message

end TermError

/-- An error: its kind, its place and its cause. -/
structure TermError where
  kind : TermError.Kind
  path : Path
  cause : TermError.Cause

namespace TermError

/-- Data that terms cannot carry. -/
def unsupported (path : Path) (cause : Cause) : TermError := ⟨.unsupportedType, path, cause⟩

/-- A term or a message that does not stand for data. -/
def malformed (path : Path) (cause : Cause) : TermError := ⟨.malformedTerm, path, cause⟩

/-- A term or a setting outside what the wire form allows. -/
def schema (path : Path) (cause : Cause) : TermError := ⟨.schemaViolation, path, cause⟩

/-- The error of bytes in which this one was found: its place and cause are kept. -/
def asDecodeFailure (error : TermError) : TermError := { error with kind := .decodeFailure }

/-- The error of bytes that are no message. It stands at the root. -/
def ofFault (fault : Wire.Fault) : TermError := ⟨.decodeFailure, .root, .unreadable fault⟩

/-- What is said of an error. -/
def message (error : TermError) : String :=
  s!"{error.kind.label} at {error.path.text}: {error.cause.message}"

end TermError
end DataTerms

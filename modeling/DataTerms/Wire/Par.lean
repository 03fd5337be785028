/-
# Process messages

The messages in which processes travel. A `Par` is what runs in parallel: sends,
expressions, and kinds of process that carry no data, which are kept as the bytes of
their messages. A `Send` is a message on a channel, an `Expr` an expression of one of
several kinds, an `EList` the body of a list. A field that is not there has its default,
but a channel, a list's remainder and an expression's kind can be absent, which is
another thing than being there with nothing in it.

Key definitions: `Wire.Par`, `Wire.Send`, `Wire.Expr`, `Wire.Instance`, `Wire.EList`,
`Wire.Par.unsupportedKinds`, `Wire.Par.encode`.
-/
import DataTerms.Wire.Field

namespace DataTerms
namespace Wire

mutual

/-- Processes in parallel. -/
structure Par where
  sends : List Send := []
  receives : List (List UInt8) := []
  news : List (List UInt8) := []
  exprs : List Expr := []
  matchers : List (List UInt8) := []
  unforgeables : List (List UInt8) := []
  connectives : List (List UInt8) := []
  locallyFree : List UInt8 := []
  connectiveUsed : Bool := false
  bundles : List (List UInt8) := []

/-- A message on a channel. -/
structure Send where
  chan : Option Par := none
  data : List Par := []
  persistent : Bool := false
  locallyFree : List UInt8 := []
  connectiveUsed : Bool := false

/-- An expression. -/
structure Expr where
  kind : Option Instance := none

/-- The kinds of expression. -/
inductive Instance where
  | bool (value : Bool)
  | int (value : Int64)
  | string (value : String)
  | uri (value : String)
  | list (value : EList)
  | bytes (value : List UInt8)

/-- The body of a list. -/
structure EList where
  ps : List Par := []
  locallyFree : List UInt8 := []
  connectiveUsed : Bool := false
  /-- The rest of the list, in a pattern. -/
  remainder : Option (List UInt8) := none

end

/-- The kinds of process in a message that carry no data. -/
def Par.unsupportedKinds (par : Par) : List String :=
  [("receives", par.receives), ("news", par.news), ("matches", par.matchers),
      ("unforgeables", par.unforgeables), ("connectives", par.connectives),
      ("bundles", par.bundles)].filterMap
    fun kind => if kind.2 = [] then none else some kind.1

mutual

/-- The bytes of a message: its fields by their numbers, without those that have their
default. -/
def Par.encode : Par → List UInt8
  | ⟨sends, receives, news, exprs, matchers, unforgeables, connectives, locallyFree,
      connectiveUsed, bundles⟩ =>
    encodeSends sends ++ repeatedBytesField 2 receives ++ repeatedBytesField 4 news ++
      encodeExprs exprs ++ repeatedBytesField 6 matchers ++ repeatedBytesField 7 unforgeables ++
      repeatedBytesField 8 connectives ++ implicitBytesField 9 locallyFree ++
      flagField 10 connectiveUsed ++ repeatedBytesField 11 bundles

/-- The fields of sends. -/
def encodeSends : List Send → List UInt8
  | [] => []
  | send :: rest => bytesField 1 send.encode ++ encodeSends rest

/-- The fields of expressions. -/
def encodeExprs : List Expr → List UInt8
  | [] => []
  | expr :: rest => bytesField 5 expr.encode ++ encodeExprs rest

/-- The bytes of a message on a channel. -/
def Send.encode : Send → List UInt8
  | ⟨chan, data, persistent, locallyFree, connectiveUsed⟩ =>
    encodeChan chan ++ encodePars 2 data ++ flagField 3 persistent ++
      implicitBytesField 5 locallyFree ++ flagField 6 connectiveUsed

/-- The field of a channel, if there is one. -/
def encodeChan : Option Par → List UInt8
  | none => []
  | some chan => bytesField 1 chan.encode

/-- Fields with one number that each hold processes in parallel. -/
def encodePars (field : Nat) : List Par → List UInt8
  | [] => []
  | par :: rest => bytesField field par.encode ++ encodePars field rest

/-- The bytes of an expression. -/
def Expr.encode : Expr → List UInt8
  | ⟨kind⟩ => encodeKind kind

/-- The field of an expression's kind, if it has one. It is written even if its value is
the default. -/
def encodeKind : Option Instance → List UInt8
  | none => []
  | some kind => kind.encode

/-- The field of a kind of expression. -/
def Instance.encode : Instance → List UInt8
  | .bool value => boolField 1 value
  | .int value => numberField 2 (Varint.fold value.toInt)
  | .string value => bytesField 3 (Utf8.encode value)
  | .uri value => bytesField 4 (Utf8.encode value)
  | .list value => bytesField 20 value.encode
  | .bytes value => bytesField 25 value

/-- The bytes of the body of a list. -/
def EList.encode : EList → List UInt8
  | ⟨ps, locallyFree, connectiveUsed, remainder⟩ =>
    encodePars 1 ps ++ implicitBytesField 3 locallyFree ++ flagField 4 connectiveUsed ++
      (match remainder with
        | none => []
        | some remainder => bytesField 5 remainder)

end
end Wire
end DataTerms

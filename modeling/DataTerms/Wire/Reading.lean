/-
# Reading process messages

What each field of a process message does when it is read. Fields that hold rows take
one more element; a field that holds a single value takes the last; a channel that is
there already is merged with, and so is the list of an expression that is one, while
another kind of expression is replaced. Fields that are not known are passed over.

A message may have a hundred messages within each other below it. `merges budget` reads
messages that have so many levels left.

Key definitions: `Wire.Merges`, `Wire.merges`, `Wire.nestingBudget`, `Wire.Par.decode`.
-/
import DataTerms.Wire.Par

namespace DataTerms
namespace Wire

/-- How the fields of each kind of message are merged. -/
structure Merges where
  par : Merge Par
  send : Merge Send
  expr : Merge Expr
  list : Merge EList

/-- Merges a field of processes in parallel. -/
def Par.merge (budget : Nat) (inner : Option Merges) : Merge Par := fun key par input =>
  match key.field with
  | 1 => inField "Par.sends" do
    let (send, input) ← mergeMessage (inner.map (·.send)) key {} input
    return ({ par with sends := par.sends ++ [send] }, input)
  | 2 => inField "Par.receives" do
    let (bytes, input) ← readBytes key input
    return ({ par with receives := par.receives ++ [bytes] }, input)
  | 4 => inField "Par.news" do
    let (bytes, input) ← readBytes key input
    return ({ par with news := par.news ++ [bytes] }, input)
  | 5 => inField "Par.exprs" do
    let (expr, input) ← mergeMessage (inner.map (·.expr)) key {} input
    return ({ par with exprs := par.exprs ++ [expr] }, input)
  | 6 => inField "Par.matches" do
    let (bytes, input) ← readBytes key input
    return ({ par with matchers := par.matchers ++ [bytes] }, input)
  | 7 => inField "Par.unforgeables" do
    let (bytes, input) ← readBytes key input
    return ({ par with unforgeables := par.unforgeables ++ [bytes] }, input)
  | 8 => inField "Par.connectives" do
    let (bytes, input) ← readBytes key input
    return ({ par with connectives := par.connectives ++ [bytes] }, input)
  | 9 => inField "Par.locally_free" do
    let (bytes, input) ← readBytes key input
    return ({ par with locallyFree := bytes }, input)
  | 10 => inField "Par.connective_used" do
    let (value, input) ← readBool key input
    return ({ par with connectiveUsed := value }, input)
  | 11 => inField "Par.bundles" do
    let (bytes, input) ← readBytes key input
    return ({ par with bundles := par.bundles ++ [bytes] }, input)
  | _ => do return (par, ← skip budget key input)

/-- Merges a field of a message on a channel. -/
def Send.merge (budget : Nat) (inner : Option Merges) : Merge Send := fun key send input =>
  match key.field with
  | 1 => inField "Send.chan" do
    let (chan, input) ← mergeMessage (inner.map (·.par)) key (send.chan.getD {}) input
    return ({ send with chan := some chan }, input)
  | 2 => inField "Send.data" do
    let (par, input) ← mergeMessage (inner.map (·.par)) key {} input
    return ({ send with data := send.data ++ [par] }, input)
  | 3 => inField "Send.persistent" do
    let (value, input) ← readBool key input
    return ({ send with persistent := value }, input)
  | 5 => inField "Send.locally_free" do
    let (bytes, input) ← readBytes key input
    return ({ send with locallyFree := bytes }, input)
  | 6 => inField "Send.connective_used" do
    let (value, input) ← readBool key input
    return ({ send with connectiveUsed := value }, input)
  | _ => do return (send, ← skip budget key input)

/-- The list that an expression is, or an empty one. -/
def Expr.listBody : Expr → EList
  | ⟨some (.list body)⟩ => body
  | _ => {}

/-- Merges a field of an expression. -/
def Expr.merge (budget : Nat) (inner : Option Merges) : Merge Expr := fun key expr input =>
  match key.field with
  | 1 => inField "Expr.expr_instance" do
    let (value, input) ← readBool key input
    return (⟨some (.bool value)⟩, input)
  | 2 => inField "Expr.expr_instance" do
    let (value, input) ← readSigned key input
    return (⟨some (.int value)⟩, input)
  | 3 => inField "Expr.expr_instance" do
    let (value, input) ← readText key input
    return (⟨some (.string value)⟩, input)
  | 4 => inField "Expr.expr_instance" do
    let (value, input) ← readText key input
    return (⟨some (.uri value)⟩, input)
  | 20 => inField "Expr.expr_instance" do
    let (body, input) ← mergeMessage (inner.map (·.list)) key expr.listBody input
    return (⟨some (.list body)⟩, input)
  | 25 => inField "Expr.expr_instance" do
    let (value, input) ← readBytes key input
    return (⟨some (.bytes value)⟩, input)
  | _ => do return (expr, ← skip budget key input)

/-- Merges a field of the body of a list. -/
def EList.merge (budget : Nat) (inner : Option Merges) : Merge EList := fun key list input =>
  match key.field with
  | 1 => inField "EList.ps" do
    let (par, input) ← mergeMessage (inner.map (·.par)) key {} input
    return ({ list with ps := list.ps ++ [par] }, input)
  | 3 => inField "EList.locally_free" do
    let (bytes, input) ← readBytes key input
    return ({ list with locallyFree := bytes }, input)
  | 4 => inField "EList.connective_used" do
    let (value, input) ← readBool key input
    return ({ list with connectiveUsed := value }, input)
  | 5 => inField "EList.remainder" do
    let (bytes, input) ← readBytes key input
    return ({ list with remainder := some bytes }, input)
  | _ => do return (list, ← skip budget key input)

/-- The merges of messages with a nesting budget, the messages within which are merged by
`inner`. -/
def Merges.over (budget : Nat) (inner : Option Merges) : Merges where
  par := Par.merge budget inner
  send := Send.merge budget inner
  expr := Expr.merge budget inner
  list := EList.merge budget inner

/-- The merges of messages with a nesting budget. -/
def merges : Nat → Merges
  | 0 => Merges.over 0 none
  | budget + 1 => Merges.over (budget + 1) (some (merges budget))

/-- The number of messages that may be within each other below a message. -/
def nestingBudget : Nat := 100

/-- The processes in parallel that bytes hold. -/
def Par.decode (bytes : List UInt8) : Except Fault Par := do
  let (par, _) ← mergeFields (merges nestingBudget).par 0 bytes.length {} (.ofList bytes)
  return par

end Wire
end DataTerms

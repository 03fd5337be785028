/-
# Terms and process messages

A term is laid down in a message: a literal or a list as the only expression, sends as
sends, the empty process as nothing. A message is taken up as a term where it has one of
those shapes and no mark of a pattern anywhere; what is wrong is told of the first part,
the part before its parts. A send without a channel has the empty process there.

A list's items and a send's payload are numbered from the path of the list or the send,
and a send's channel has the path of the send.

Key definitions: `Term.toPar`, `Term.ofPar?`.
-/
import DataTerms.Error
import DataTerms.Wire.Par

namespace DataTerms
namespace Term

/-- A message that holds one expression. -/
def parOfInstance (kind : Wire.Instance) : Wire.Par := { exprs := [⟨some kind⟩] }

/-- The expression that a literal is. -/
def instanceOfLiteral : Literal → Wire.Instance
  | .bool value => .bool value
  | .int value => .int value
  | .str value => .string value

mutual

/-- The message of a term. -/
def toPar : Term → Wire.Par
  | .literal value => parOfInstance (instanceOfLiteral value)
  | .list items => parOfInstance (.list { ps := itemsToPar items })
  | .sends entries => { sends := entriesToPar entries }
  | .nil => {}

/-- The messages of terms. -/
def itemsToPar : List Term → List Wire.Par
  | [] => []
  | item :: rest => item.toPar :: itemsToPar rest

/-- The messages of sends. -/
def entriesToPar : List Send → List Wire.Send
  | [] => []
  | ⟨channel, payload⟩ :: rest =>
    { chan := some channel.toPar, data := itemsToPar payload } :: entriesToPar rest

end

open TermError (Part)

/-- Refuses a part with a mark of a pattern. -/
def refusePattern (path : Path) (part : Part) (connectiveUsed : Bool)
    (locallyFree : List UInt8) : Except TermError Unit :=
  if connectiveUsed then .error (.malformed path (.connectiveUsed part))
  else if locallyFree ≠ [] then .error (.malformed path (.locallyFree part))
  else .ok ()

/-- Refuses a message with kinds of process that carry no data. -/
def refuseKinds (path : Path) (names : List String) : Except TermError Unit :=
  if names = [] then .ok () else .error (.malformed path (.unsupportedKinds names))

mutual

/-- The term that the message at a path is. -/
def ofParAt (path : Path) : Wire.Par → Except TermError Term
  | par@⟨messages, _, _, exprs, _, _, _, locallyFree, connectiveUsed, _⟩ => do
    refuseKinds path par.unsupportedKinds
    refusePattern path .node connectiveUsed locallyFree
    match messages, exprs with
    | [], _ => ofExprsAt path exprs
    | _, [] => return .sends (← entriesOfPar path 0 messages)
    | _, _ => .error (.malformed path (.blended exprs.length messages.length))

/-- The term that the expressions at a path are: no more than one. -/
def ofExprsAt (path : Path) : List Wire.Expr → Except TermError Term
  | [] => .ok .nil
  | [expr] => ofExprAt path expr
  | exprs => .error (.malformed path (.manyExpressions exprs.length))

/-- The term that the expression at a path is. -/
def ofExprAt (path : Path) : Wire.Expr → Except TermError Term
  | ⟨some kind⟩ => ofInstanceAt path kind
  | ⟨none⟩ => .error (.malformed path .noInstance)

/-- The term that the kind of the expression at a path is. -/
def ofInstanceAt (path : Path) : Wire.Instance → Except TermError Term
  | .bool value => .ok (.literal (.bool value))
  | .int value => .ok (.literal (.int value))
  | .string value => .ok (.literal (.str value))
  | .uri _ => .error (.malformed path .uri)
  | .list body => do return .list (← itemsOfListAt path body)
  | .bytes _ => .error (.malformed path .byteArray)

/-- The items of the list at a path. -/
def itemsOfListAt (path : Path) : Wire.EList → Except TermError (List Term)
  | ⟨ps, locallyFree, connectiveUsed, remainder⟩ => do
    if remainder.isSome then .error (.malformed path .listRemainder)
    refusePattern path .list connectiveUsed locallyFree
    itemsOfPar path 0 ps

/-- The terms of messages below a path, numbered from `i` on. -/
def itemsOfPar (path : Path) (i : Nat) : List Wire.Par → Except TermError (List Term)
  | [] => .ok []
  | par :: rest => do
    let term ← ofParAt (path.index i) par
    let terms ← itemsOfPar path (i + 1) rest
    return term :: terms

/-- The sends of messages below a path, numbered from `i` on. -/
def entriesOfPar (path : Path) (i : Nat) : List Wire.Send → Except TermError (List Send)
  | [] => .ok []
  | send :: rest => do
    let entry ← entryOfSendAt (path.index i) send
    let entries ← entriesOfPar path (i + 1) rest
    return entry :: entries

/-- The send of the message on a channel at a path. -/
def entryOfSendAt (path : Path) : Wire.Send → Except TermError Send
  | ⟨chan, data, persistent, locallyFree, connectiveUsed⟩ => do
    if persistent then .error (.malformed path .persistentSend)
    refusePattern path .send connectiveUsed locallyFree
    let channel ← channelOfPar path chan
    let payload ← itemsOfPar path 0 data
    return ⟨channel, payload⟩

/-- The channel of the send at a path. -/
def channelOfPar (path : Path) : Option Wire.Par → Except TermError Term
  | some par => ofParAt path par
  | none => .ok .nil

end

/-- The term that a message is. -/
def ofPar? (par : Wire.Par) : Except TermError Term := ofParAt .root par

end Term
end DataTerms

/-
# Messages with all their channels

The channel of a message can be absent, which is taken for an empty process. `fill` puts an
empty process in the place of every absent channel, at any depth of a message, and leaves all
else as it is.

Key definitions: `Wire.Par.fill`.
-/
import DataTerms.Wire.Par

namespace DataTerms
namespace Wire

mutual

/-- The message with an empty one in the place of every absent channel. -/
def Par.fill : Par → Par
  | ⟨sends, receives, news, exprs, matchers, unforgeables, connectives, locallyFree,
      connectiveUsed, bundles⟩ =>
    ⟨fillSends sends, receives, news, fillExprs exprs, matchers, unforgeables, connectives,
      locallyFree, connectiveUsed, bundles⟩

/-- The sends with all their channels. -/
def fillSends : List Send → List Send
  | [] => []
  | send :: rest => send.fill :: fillSends rest

/-- The expressions with all channels. -/
def fillExprs : List Expr → List Expr
  | [] => []
  | expr :: rest => expr.fill :: fillExprs rest

/-- The message on a channel with a channel, and all channels within. -/
def Send.fill : Send → Send
  | ⟨chan, data, persistent, locallyFree, connectiveUsed⟩ =>
    ⟨some (fillChan chan), fillPars data, persistent, locallyFree, connectiveUsed⟩

/-- The channel, which is empty where it is absent. -/
def fillChan : Option Par → Par
  | none => {}
  | some chan => chan.fill

/-- The processes with all channels. -/
def fillPars : List Par → List Par
  | [] => []
  | par :: rest => par.fill :: fillPars rest

/-- The expression with all channels. -/
def Expr.fill : Expr → Expr
  | ⟨kind⟩ => ⟨fillKind kind⟩

/-- The kind of an expression with all channels. -/
def fillKind : Option Instance → Option Instance
  | none => none
  | some kind => some kind.fill

/-- The kind of an expression with all channels. -/
def Instance.fill : Instance → Instance
  | .bool value => .bool value
  | .int value => .int value
  | .string value => .string value
  | .uri value => .uri value
  | .list value => .list value.fill
  | .bytes value => .bytes value

/-- The body of a list with all channels. -/
def EList.fill : EList → EList
  | ⟨ps, locallyFree, connectiveUsed, remainder⟩ =>
    ⟨fillPars ps, locallyFree, connectiveUsed, remainder⟩

end

theorem fillSends_eq_nil : ∀ {messages : List Send}, fillSends messages = [] → messages = []
  | [], _ => rfl

theorem fillExprs_eq_nil : ∀ {exprs : List Expr}, fillExprs exprs = [] → exprs = []
  | [], _ => rfl

end Wire
end DataTerms

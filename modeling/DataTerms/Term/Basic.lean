/-
# Terms

The restricted shapes of process that carry data. A term is a literal, a list, the
parallel composition of sends, or the empty process. A send stands for the entry of a
map: its channel for the key, its payload for the value. The payload is a sequence, as
processes have it, and a send that stands for an entry has exactly one term there and a
text literal as its channel.

Key definitions: `Literal`, `Term`, `Send`, `Term.Kind`, `Term.depth`, `Send.entry`,
`Send.key?`, `Term.WellFormed`.
-/
namespace DataTerms

/-- What a term without parts holds. -/
inductive Literal where
  | bool (value : Bool)
  | int (value : Int64)
  | str (value : String)
  deriving DecidableEq, Repr

mutual

inductive Term where
  | literal (value : Literal)
  | list (items : List Term)
  /-- The parallel composition of sends. -/
  | sends (entries : List Send)
  /-- The empty process. -/
  | nil

/-- A message sent on a channel. -/
structure Send where
  channel : Term
  payload : List Term

end

namespace Term

/-- The shapes of terms. -/
inductive Kind where
  | bool
  | int
  | str
  | list
  | sends
  | nil
  deriving DecidableEq, Repr

/-- The words for a shape. -/
def Kind.name : Kind → String
  | .bool => "bool literal"
  | .int => "int literal"
  | .str => "string literal"
  | .list => "list literal"
  | .sends => "parallel sends"
  | .nil => "Nil"

/-- The shape of a term. -/
def kind : Term → Kind
  | .literal (.bool _) => .bool
  | .literal (.int _) => .int
  | .literal (.str _) => .str
  | .list _ => .list
  | .sends _ => .sends
  | .nil => .nil

/-- The text literal. -/
def str (value : String) : Term := .literal (.str value)

mutual

/-- The number of levels of a term; one without parts has one. -/
def depth : Term → Nat
  | .literal _ | .nil => 1
  | .list items => 1 + depthItems items
  | .sends entries => 1 + depthEntries entries

/-- The levels of the deepest item. -/
def depthItems : List Term → Nat
  | [] => 0
  | item :: rest => max item.depth (depthItems rest)

/-- The levels of the deepest channel or payload. -/
def depthEntries : List Send → Nat
  | [] => 0
  | ⟨channel, payload⟩ :: rest =>
    max (max channel.depth (depthItems payload)) (depthEntries rest)

end

theorem depth_pos (t : Term) : 0 < t.depth := by
  cases t <;> simp only [depth] <;> omega

end Term

namespace Send

/-- The send that stands for an entry of a map. -/
def entry (key : String) (value : Term) : Send := ⟨Term.str key, [value]⟩

/-- The key a send stands for, if its channel is a text literal. -/
def key? : Send → Option String
  | ⟨.literal (.str key), _⟩ => some key
  | _ => none

end Send

namespace Term

mutual

/-- Every send of a term, at any depth, has a text literal as its channel and one term as
its payload. -/
def WellFormed : Term → Prop
  | .literal _ | .nil => True
  | .list items => WellFormedItems items
  | .sends entries => WellFormedEntries entries

/-- Every item is well formed. -/
def WellFormedItems : List Term → Prop
  | [] => True
  | item :: rest => item.WellFormed ∧ WellFormedItems rest

/-- Every send has a text literal and one well-formed term. -/
def WellFormedEntries : List Send → Prop
  | [] => True
  | ⟨.literal (.str _), [value]⟩ :: rest => value.WellFormed ∧ WellFormedEntries rest
  | _ :: _ => False

end

mutual

/-- Whether two terms are equal. -/
def decEq : (a b : Term) → Decidable (a = b)
  | .literal a, .literal b => decidable_of_iff (a = b) (by simp)
  | .list as, .list bs => @decidable_of_iff _ (as = bs) (by simp) (decEqItems as bs)
  | .sends as, .sends bs => @decidable_of_iff _ (as = bs) (by simp) (decEqEntries as bs)
  | .nil, .nil => isTrue rfl
  | .literal _, .list _ | .literal _, .sends _ | .literal _, .nil
  | .list _, .literal _ | .list _, .sends _ | .list _, .nil
  | .sends _, .literal _ | .sends _, .list _ | .sends _, .nil
  | .nil, .literal _ | .nil, .list _ | .nil, .sends _ => isFalse nofun

/-- Whether two lists of terms are equal. -/
def decEqItems : (as bs : List Term) → Decidable (as = bs)
  | [], [] => isTrue rfl
  | a :: as, b :: bs =>
    match decEq a b, decEqItems as bs with
    | isTrue h, isTrue h' => isTrue (by rw [h, h'])
    | isFalse h, _ => isFalse fun e => h (List.cons.inj e).1
    | _, isFalse h => isFalse fun e => h (List.cons.inj e).2
  | [], _ :: _ | _ :: _, [] => isFalse nofun

/-- Whether two lists of sends are equal. -/
def decEqEntries : (as bs : List Send) → Decidable (as = bs)
  | [], [] => isTrue rfl
  | ⟨c, p⟩ :: as, ⟨d, q⟩ :: bs =>
    match decEq c d, decEqItems p q, decEqEntries as bs with
    | isTrue h, isTrue h', isTrue h'' => isTrue (by rw [h, h', h''])
    | isFalse h, _, _ => isFalse fun e => h (Send.mk.inj (List.cons.inj e).1).1
    | _, isFalse h, _ => isFalse fun e => h (Send.mk.inj (List.cons.inj e).1).2
    | _, _, isFalse h => isFalse fun e => h (List.cons.inj e).2
  | [], _ :: _ | _ :: _, [] => isFalse nofun

end

instance : DecidableEq Term := decEq

end Term
end DataTerms

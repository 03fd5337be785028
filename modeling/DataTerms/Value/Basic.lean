/-
# Data values

The data that terms carry: nothing, a truth value, a whole number of 64 bits, a text, a
list, or a map from texts. A map's entries are a keyed list; where every map of a value
has its keys in order, two values are equal just when they hold the same data.

Key definitions: `Value`, `Value.Kind`, `Value.kind`, `Value.ofEntries`, `Value.Ordered`.
-/
import DataTerms.Keyed

namespace DataTerms

inductive Value where
  | null
  | bool (value : Bool)
  | int (value : Int64)
  | str (value : String)
  | list (items : List Value)
  | map (entries : List (String × Value))

namespace Value

/-- The shapes of values. -/
inductive Kind where
  | null
  | bool
  | integer
  | string
  | array
  | map
  deriving DecidableEq, Repr

/-- The word for a shape. -/
def Kind.name : Kind → String
  | .null => "null"
  | .bool => "bool"
  | .integer => "integer"
  | .string => "string"
  | .array => "array"
  | .map => "map"

/-- The shape of a value. -/
def kind : Value → Kind
  | .null => .null
  | .bool _ => .bool
  | .int _ => .integer
  | .str _ => .string
  | .list _ => .array
  | .map _ => .map

/-- The map of a list of entries, of which the later counts where keys agree. -/
def ofEntries (entries : List (String × Value)) : Value :=
  .map (Keyed.ofList entries)

mutual

/-- The keys of every map ascend. -/
def Ordered : Value → Prop
  | .list items => OrderedItems items
  | .map entries => Keyed.Ascending entries ∧ OrderedEntries entries
  | _ => True

/-- Every item has its keys in order. -/
def OrderedItems : List Value → Prop
  | [] => True
  | item :: rest => item.Ordered ∧ OrderedItems rest

/-- Every entry's value has its keys in order. -/
def OrderedEntries : List (String × Value) → Prop
  | [] => True
  | (_, value) :: rest => value.Ordered ∧ OrderedEntries rest

end

mutual

/-- Whether two values are equal. -/
def decEq : (a b : Value) → Decidable (a = b)
  | .null, .null => isTrue rfl
  | .bool a, .bool b => decidable_of_iff (a = b) (by simp)
  | .int a, .int b => decidable_of_iff (a = b) (by simp)
  | .str a, .str b => decidable_of_iff (a = b) (by simp)
  | .list as, .list bs => @decidable_of_iff _ (as = bs) (by simp) (decEqItems as bs)
  | .map as, .map bs => @decidable_of_iff _ (as = bs) (by simp) (decEqEntries as bs)
  | .null, .bool _ | .null, .int _ | .null, .str _ | .null, .list _ | .null, .map _
  | .bool _, .null | .bool _, .int _ | .bool _, .str _ | .bool _, .list _ | .bool _, .map _
  | .int _, .null | .int _, .bool _ | .int _, .str _ | .int _, .list _ | .int _, .map _
  | .str _, .null | .str _, .bool _ | .str _, .int _ | .str _, .list _ | .str _, .map _
  | .list _, .null | .list _, .bool _ | .list _, .int _ | .list _, .str _ | .list _, .map _
  | .map _, .null | .map _, .bool _ | .map _, .int _ | .map _, .str _ | .map _, .list _ =>
    isFalse nofun

/-- Whether two lists of values are equal. -/
def decEqItems : (as bs : List Value) → Decidable (as = bs)
  | [], [] => isTrue rfl
  | a :: as, b :: bs =>
    match decEq a b, decEqItems as bs with
    | isTrue h, isTrue h' => isTrue (by rw [h, h'])
    | isFalse h, _ => isFalse fun e => h (List.cons.inj e).1
    | _, isFalse h => isFalse fun e => h (List.cons.inj e).2
  | [], _ :: _ | _ :: _, [] => isFalse nofun

/-- Whether two lists of entries are equal. -/
def decEqEntries : (as bs : List (String × Value)) → Decidable (as = bs)
  | [], [] => isTrue rfl
  | (k, a) :: as, (l, b) :: bs =>
    match instDecidableEqString k l, decEq a b, decEqEntries as bs with
    | isTrue h, isTrue h', isTrue h'' => isTrue (by rw [h, h', h''])
    | isFalse h, _, _ => isFalse fun e => h (Prod.mk.inj (List.cons.inj e).1).1
    | _, isFalse h, _ => isFalse fun e => h (Prod.mk.inj (List.cons.inj e).1).2
    | _, _, isFalse h => isFalse fun e => h (List.cons.inj e).2
  | [], _ :: _ | _ :: _, [] => isFalse nofun

end

instance : DecidableEq Value := decEq

end Value
end DataTerms

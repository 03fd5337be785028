/-
# Values without empty maps

An empty map becomes the composition of no sends, and that is written as the empty process,
as nothing is. `blank` turns every empty map in a value into nothing: it does to values what
`canon` does to their terms.

Key definitions: `Value.blank`.
Key theorems: `Value.toTerm_blank`, `Value.ordered_blank`.
-/
import DataTerms.Proofs.Keyed
import DataTerms.Proofs.Term.Canon
import DataTerms.Term.Value

namespace DataTerms
namespace Value

open Term

mutual

/-- The value with nothing in the place of every empty map. -/
def blank : Value → Value
  | .null => .null
  | .bool value => .bool value
  | .int value => .int value
  | .str value => .str value
  | .list items => .list (blankItems items)
  | .map [] => .null
  | .map ((key, value) :: rest) => .map ((key, value.blank) :: blankEntries rest)

/-- The values with nothing in the place of empty maps. -/
def blankItems : List Value → List Value
  | [] => []
  | item :: rest => item.blank :: blankItems rest

/-- The entries with nothing in the place of empty maps. -/
def blankEntries : List (String × Value) → List (String × Value)
  | [] => []
  | (key, value) :: rest => (key, value.blank) :: blankEntries rest

end

theorem blank_map_cons (entry : String × Value) (rest : List (String × Value)) :
    (map (entry :: rest)).blank = .map (blankEntries (entry :: rest)) := by
  obtain ⟨key, value⟩ := entry
  rfl

mutual

/-- A value without its empty maps has the term without its empty sends. -/
theorem toTerm_blank : ∀ value : Value, value.blank.toTerm = value.toTerm.canon
  | .null | .bool _ | .int _ | .str _ | .map [] => rfl
  | .list items => by rw [blank, toTerm, toTerm, canon, itemsToTerm_blankItems items]
  | .map (entry :: rest) => by
    rw [blank_map_cons, toTerm, entriesToTerm_blankEntries (entry :: rest)]
    rfl

theorem itemsToTerm_blankItems : ∀ items : List Value,
    itemsToTerm (blankItems items) = canonItems (itemsToTerm items)
  | [] => rfl
  | item :: rest => by
    rw [blankItems, itemsToTerm, itemsToTerm, canonItems, toTerm_blank item,
      itemsToTerm_blankItems rest]

theorem entriesToTerm_blankEntries : ∀ entries : List (String × Value),
    entriesToTerm (blankEntries entries) = canonEntries (entriesToTerm entries)
  | [] => rfl
  | (key, value) :: rest => by
    rw [blankEntries, entriesToTerm, entriesToTerm, Send.entry, Send.entry, canonEntries, Term.str,
      canon, canonItems, canonItems, toTerm_blank value, entriesToTerm_blankEntries rest]

end

/-- The keys stay. -/
theorem map_fst_blankEntries : ∀ entries : List (String × Value),
    (blankEntries entries).map (·.1) = entries.map (·.1)
  | [] => rfl
  | (key, value) :: rest => by
    rw [blankEntries, List.map_cons, List.map_cons, map_fst_blankEntries rest]

theorem ascending_blankEntries {entries : List (String × Value)} (h : Keyed.Ascending entries) :
    Keyed.Ascending (blankEntries entries) :=
  Keyed.ascending_of_keys_eq (map_fst_blankEntries entries) h

mutual

/-- The keys of every map still ascend. -/
theorem ordered_blank : ∀ {value : Value}, value.Ordered → value.blank.Ordered
  | .null, _ | .bool _, _ | .int _, _ | .str _, _ | .map [], _ => trivial
  | .list _, h => orderedItems_blankItems h
  | .map (entry :: rest), h => by
    rw [blank_map_cons]
    exact ⟨ascending_blankEntries h.1, orderedEntries_blankEntries h.2⟩

theorem orderedItems_blankItems : ∀ {items : List Value},
    OrderedItems items → OrderedItems (blankItems items)
  | [], _ => trivial
  | _ :: _, h => ⟨ordered_blank h.1, orderedItems_blankItems h.2⟩

theorem orderedEntries_blankEntries : ∀ {entries : List (String × Value)},
    OrderedEntries entries → OrderedEntries (blankEntries entries)
  | [], _ => trivial
  | _ :: _, h => ⟨ordered_blank h.1, orderedEntries_blankEntries h.2⟩

end

end Value
end DataTerms

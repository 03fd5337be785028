/-
# Values are read back from their terms

The term of a value has its map entries in the order of their keys, so each key is entered
behind the ones before it, none is entered twice, and the entries come out as they went in.
Reading the term gives the value, without an event.

Key theorems: `Value.toValueAt_toTerm`, `Value.decode_toTerm`.
-/
import DataTerms.Proofs.Keyed
import DataTerms.Term.Value

namespace DataTerms

theorem Report.pure_bind {ε α β : Type} (a : α) (next : α → Report ε β) :
    (pure a >>= next) = next a := rfl

/-- A value is entered behind the others, without an event. -/
theorem Term.enter_eq_append {path : Path} {key : String} {value : Value}
    {map : List (String × Value)} (h : ∀ entry ∈ map, entry.1 < key) :
    enter path key value map = pure (map ++ [(key, value)]) := by
  rw [enter, Keyed.find?_eq_none h, Keyed.insert_eq_append h]
  rfl

namespace Value

open Term

mutual

/-- The term of a value is read as the value, whatever its path, without an event. -/
theorem toValueAt_toTerm (path : Path) : ∀ {value : Value}, value.Ordered →
    value.toTerm.toValueAt path = pure value
  | .null, _ | .bool _, _ | .int _, _ | .str _, _ => rfl
  | .list items, h => by
    rw [toTerm, toValueAt, itemsToValue_itemsToTerm path 0 h, Report.pure_bind]
  | .map entries, h => by
    rw [toTerm, toValueAt, entriesToValue_entriesToTerm path 0 [] h.1 h.2, Report.pure_bind,
      List.nil_append]

theorem itemsToValue_itemsToTerm (path : Path) (i : Nat) : ∀ {items : List Value},
    OrderedItems items → itemsToValue path i (itemsToTerm items) = pure items
  | [], _ => rfl
  | item :: rest, h => by
    rw [itemsToTerm, itemsToValue, toValueAt_toTerm (path.index i) h.1, Report.pure_bind,
      itemsToValue_itemsToTerm path (i + 1) h.2, Report.pure_bind]

/-- The entries read so far stand before the rest, and all keys ascend. -/
theorem entriesToValue_entriesToTerm (path : Path) (i : Nat) (map : List (String × Value)) :
    ∀ {entries : List (String × Value)}, Keyed.Ascending (map ++ entries) → OrderedEntries entries →
      entriesToValue path i map (entriesToTerm entries) = pure (map ++ entries)
  | [], _, _ => by
    rw [List.append_nil]
    rfl
  | (key, value) :: rest, hkeys, h => by
    have hkey : (Term.str key).toValueAt (path.index i) = pure (.str key) := rfl
    -- the key of this entry is after all that are entered, so it is new
    have hkeys' : Keyed.Ascending (map ++ [(key, value)] ++ rest) := by rwa [List.append_assoc]
    have hrest := entriesToValue_entriesToTerm path (i + 1) (map ++ [(key, value)]) hkeys' h.2
    rw [entriesToTerm, Send.entry, entriesToValue, hkey, Report.pure_bind, keyOfValue,
      Report.pure_bind, payloadToValue, toValueAt_toTerm (path.key key) h.1, Report.pure_bind,
      enter_eq_append (Keyed.forall_lt_of_ascending hkeys), Report.pure_bind, hrest,
      List.append_assoc, List.singleton_append]

end

/-- A value is read back from its term. -/
theorem decode_toTerm {value : Value} (h : value.Ordered) :
    value.toTerm.decode.result = .ok value := by
  rw [decode, toValueAt_toTerm .root h]
  rfl

end Value
end DataTerms

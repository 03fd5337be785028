/-
# Values and JSON correspond

There are three ways between values and JSON: a value is written as JSON, it tells its shape as any
object does and the shape becomes JSON, and JSON is read as a value. They are one correspondence.
What a value is written as is what its shape becomes, it is the only JSON that is read as the value,
and what any JSON is read as is written as that JSON again. So it makes no difference to the term
of a value by which of the three it is reached.

Key theorems: `Value.toJson?_toDatum`, `Value.conversions_agree`.
-/
import DataTerms.Proofs.Value.Json
import DataTerms.Term.Value

namespace DataTerms
namespace Value

open Outcomes

/-! ### The shape of a value -/

/-- A whole number of 64 bits with a sign is within the range that shapes have. -/
theorem toJson?_int (value : Int64) : (Datum.int value.toInt).toJson? = .ok (.int value.toInt) := by
  have hlt : value.toInt < UInt64.size := Int.lt_trans value.toInt_lt (by decide)
  rw [Datum.toJson?, if_pos ⟨value.minValue_le_toInt, hlt⟩]

mutual

/-- The shape of a value becomes what the value is written as. -/
theorem toJson?_toDatum : ∀ {value : Value}, value.Ordered →
    value.toDatum.toJson? = .ok value.toJson
  | .null, _ | .bool _, _ | .str _, _ => rfl
  | .int value, _ => toJson?_int value
  | .list items, h => by
    rw [toDatum, Datum.toJson?, itemsToJson?_itemsToDatum h, toJson]
    rfl
  | .map entries, h => by
    -- the members come with their names in order, so entering them leaves them as they are
    have hmembers := Keyed.ofList_eq_self (ascending_entriesToJson.mpr h.1)
    rw [toDatum, Datum.toJson?, entriesToJson?_entriesToDatum h.2, toJson, ok_bind, Json.ofMembers,
      hmembers]
    rfl

theorem itemsToJson?_itemsToDatum : ∀ {items : List Value}, OrderedItems items →
    Datum.itemsToJson? (itemsToDatum items) = .ok (itemsToJson items)
  | [], _ => rfl
  | item :: rest, h => by
    rw [itemsToDatum, Datum.itemsToJson?, toJson?_toDatum h.1, itemsToJson?_itemsToDatum h.2,
      itemsToJson]
    rfl

theorem entriesToJson?_entriesToDatum : ∀ {entries : List (String × Value)},
    OrderedEntries entries →
    Datum.entriesToJson? (entriesToDatum entries) = .ok (entriesToJson entries)
  | [], _ => rfl
  | (key, value) :: rest, h => by
    rw [entriesToDatum, Datum.entriesToJson?, Datum.keyText?, toJson?_toDatum h.1,
      entriesToJson?_entriesToDatum h.2, entriesToJson]
    rfl

end

/-! ### The ways to a term -/

theorem toValue?_toDatum {value : Value} (h : value.Ordered) :
    value.toDatum.toValue? = .ok value := by
  rw [Datum.toValue?, toJson?_toDatum h]
  exact ofJson?_toJson value

/-- **Values and JSON correspond one to one, and every way to a term gives the same term.** The
shape of a value becomes the JSON that the value is written as; from this JSON and from this shape
the value comes back, and all three have one term, with the same events. Whatever JSON is read as a
value is what this value is written as, and where its names are in order the keys of the value
are. -/
theorem conversions_agree :
    (∀ value : Value, value.Ordered →
      value.toDatum.toJson? = .ok value.toJson ∧ value.toJson.Ordered ∧
        ofJson? value.toJson = .ok value ∧ value.toDatum.toValue? = .ok value ∧
        Term.ofJson? value.toJson = value.encode ∧ Term.ofDatum? value.toDatum = value.encode) ∧
      ∀ (json : Json) (value : Value), ofJson? json = .ok value →
        value.toJson = json ∧ (json.Ordered → value.Ordered) := by
  constructor
  · intro value h
    have hjson := ofJson?_toJson value
    have hdatum := toValue?_toDatum h
    refine ⟨toJson?_toDatum h, ordered_toJson.mpr h, hjson, hdatum, ?_, ?_⟩
    · rw [Term.ofJson?, hjson]
      rfl
    · rw [Term.ofDatum?, hdatum]
      rfl
  · intro json value h
    exact ⟨(ofJson?_eq_ok.mp h).symm, fun hordered => ordered_of_ofJson? hordered h⟩

/-- The least and the greatest integer, in a list in a map. -/
theorem conversions_agree_extremes :
    let ends : Value := .list [.int Int64.minValue, .int Int64.maxValue]
    let value : Value := .map [("", .map []), ("ends", ends)]
    let json : Json := .object [("", .object []),
      ("ends", .array [.int (-9223372036854775808), .int 9223372036854775807])]
    value.Ordered ∧ value.toDatum.toJson? = .ok json ∧ Term.ofDatum? value.toDatum = value.encode ∧
      ofJson? json = .ok value ∧ value.toJson = json := by
  intro ends value json
  have hordered : value.Ordered := by
    have hkeys : Keyed.Ascending [("", Value.map []), ("ends", ends)] := by
      unfold Keyed.Ascending
      decide
    exact ⟨hkeys, ⟨List.Pairwise.nil, trivial⟩, ⟨trivial, trivial, trivial⟩, trivial⟩
  have hread : ofJson? json = .ok value := rfl
  obtain ⟨hjson, -, -, -, -, hterm⟩ := conversions_agree.1 value hordered
  have hwritten := (conversions_agree.2 json value hread).1
  exact ⟨hordered, hwritten ▸ hjson, hterm, hread, hwritten⟩

end Value
end DataTerms

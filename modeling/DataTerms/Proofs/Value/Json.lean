/-
# Values are read back from their JSON

The JSON of a value has only whole numbers of 64 bits with a sign, so it is read as the value,
whatever the path; and JSON that is read as a value is what the value is written as. The members
of an object stand for the entries of a map, in their order: the names of every object ascend just
when the keys of every map do.

Key theorems: `Value.ofJson?_toJson`, `Value.eq_toJson_of_ofJsonAt`, `Value.ofJson?_eq_ok`,
`Value.ordered_toJson`.
-/
import DataTerms.Proofs.Keyed
import DataTerms.Proofs.Outcomes
import DataTerms.Value.Json

namespace DataTerms
namespace Value

open Outcomes

theorem intOfNumber_toInt (path : Path) (value : Int64) :
    intOfNumber path (.int value.toInt) = .ok value := by
  have hbounds : Int64.minValue.toInt ≤ value.toInt ∧ value.toInt ≤ Int64.maxValue.toInt :=
    ⟨value.minValue_le_toInt, value.toInt_le⟩
  rw [intOfNumber, if_pos hbounds, Int64.ofInt_toInt]

mutual

/-- The JSON of a value at any path is read as the value. -/
theorem ofJsonAt_toJson (path : Path) : ∀ value : Value, ofJsonAt path value.toJson = .ok value
  | .null | .bool _ | .str _ => rfl
  | .int value => by
    rw [toJson, Json.int, ofJsonAt, intOfNumber_toInt]
    rfl
  | .list items => by
    rw [toJson, ofJsonAt, ofItemsAt_itemsToJson path 0 items]
    rfl
  | .map entries => by
    rw [toJson, ofJsonAt, ofMembersAt_entriesToJson path entries]
    rfl

theorem ofItemsAt_itemsToJson (path : Path) (i : Nat) : ∀ items : List Value,
    ofItemsAt path i (itemsToJson items) = .ok items
  | [] => rfl
  | item :: rest => by
    rw [itemsToJson, ofItemsAt, ofJsonAt_toJson (path.index i) item,
      ofItemsAt_itemsToJson path (i + 1) rest]
    rfl

theorem ofMembersAt_entriesToJson (path : Path) : ∀ entries : List (String × Value),
    ofMembersAt path (entriesToJson entries) = .ok entries
  | [] => rfl
  | (key, value) :: rest => by
    rw [entriesToJson, ofMembersAt, ofJsonAt_toJson (path.key key) value,
      ofMembersAt_entriesToJson path rest]
    rfl

end

/-- The JSON of a value is read as the value. -/
theorem ofJson?_toJson (value : Value) : ofJson? value.toJson = .ok value :=
  ofJsonAt_toJson .root value

/-! ### What was read is written again -/

/-- The number of a whole number of 64 bits is the one it was taken from. -/
theorem eq_of_intOfNumber {path : Path} {number : Json.Number} {value : Int64}
    (h : intOfNumber path number = .ok value) : number = .int value.toInt := by
  unfold intOfNumber at h
  split at h
  · next n =>
    split at h
    · next hbounds =>
      obtain rfl := Except.ok.inj h
      have hmin : -2 ^ 63 ≤ n := hbounds.1
      have hmax : n < 2 ^ 63 := Int.lt_of_le_of_lt hbounds.2 (by decide)
      rw [Int64.toInt_ofInt_of_le hmin hmax]
    · cases h
  · cases h

mutual

/-- A value is written as the JSON it was read from, at whatever path. -/
theorem eq_toJson_of_ofJsonAt {path : Path} : ∀ {json : Json} {value : Value},
    ofJsonAt path json = .ok value → json = value.toJson
  | .null, _, h | .bool _, _, h | .string _, _, h => by
    obtain rfl := Except.ok.inj h
    rfl
  | .number number, _, h => by
    obtain ⟨value, hvalue, h⟩ := bind_eq_ok.mp h
    obtain rfl := Except.ok.inj h
    rw [eq_of_intOfNumber hvalue, toJson, Json.int]
  | .array items, _, h => by
    obtain ⟨values, hvalues, h⟩ := bind_eq_ok.mp h
    obtain rfl := Except.ok.inj h
    rw [eq_itemsToJson_of_ofItemsAt hvalues, toJson]
  | .object members, _, h => by
    obtain ⟨entries, hentries, h⟩ := bind_eq_ok.mp h
    obtain rfl := Except.ok.inj h
    rw [eq_entriesToJson_of_ofMembersAt hentries, toJson]

theorem eq_itemsToJson_of_ofItemsAt {path : Path} {i : Nat} : ∀ {items : List Json}
    {values : List Value}, ofItemsAt path i items = .ok values → items = itemsToJson values
  | [], _, h => by
    obtain rfl := Except.ok.inj h
    rfl
  | item :: rest, _, h => by
    obtain ⟨value, hvalue, h⟩ := bind_eq_ok.mp h
    obtain ⟨values, hvalues, h⟩ := bind_eq_ok.mp h
    obtain rfl := Except.ok.inj h
    rw [eq_toJson_of_ofJsonAt hvalue, eq_itemsToJson_of_ofItemsAt hvalues, itemsToJson]

theorem eq_entriesToJson_of_ofMembersAt {path : Path} : ∀ {members : List (String × Json)}
    {entries : List (String × Value)}, ofMembersAt path members = .ok entries →
    members = entriesToJson entries
  | [], _, h => by
    obtain rfl := Except.ok.inj h
    rfl
  | (name, member) :: rest, _, h => by
    obtain ⟨value, hvalue, h⟩ := bind_eq_ok.mp h
    obtain ⟨entries, hentries, h⟩ := bind_eq_ok.mp h
    obtain rfl := Except.ok.inj h
    rw [eq_toJson_of_ofJsonAt hvalue, eq_entriesToJson_of_ofMembersAt hentries, entriesToJson]

end

/-- JSON is read as a value just when the value is written as that JSON. -/
theorem ofJson?_eq_ok {json : Json} {value : Value} :
    ofJson? json = .ok value ↔ json = value.toJson :=
  ⟨eq_toJson_of_ofJsonAt, fun h => h ▸ ofJson?_toJson value⟩

/-! ### The names of members and the keys of entries -/

theorem map_fst_entriesToJson : ∀ entries : List (String × Value),
    (entriesToJson entries).map (·.1) = entries.map (·.1)
  | [] => rfl
  | (key, value) :: rest => by
    rw [entriesToJson, List.map_cons, List.map_cons, map_fst_entriesToJson rest]

theorem ascending_entriesToJson {entries : List (String × Value)} :
    Keyed.Ascending (entriesToJson entries) ↔ Keyed.Ascending entries :=
  ⟨Keyed.ascending_of_keys_eq (map_fst_entriesToJson entries).symm,
    Keyed.ascending_of_keys_eq (map_fst_entriesToJson entries)⟩

mutual

/-- The names of every object ascend just when the keys of every map do. -/
theorem ordered_toJson : ∀ {value : Value}, value.toJson.Ordered ↔ value.Ordered
  | .null | .bool _ | .int _ | .str _ => Iff.rfl
  | .list _ => orderedItems_itemsToJson
  | .map _ => and_congr ascending_entriesToJson orderedMembers_entriesToJson

theorem orderedItems_itemsToJson : ∀ {items : List Value},
    Json.OrderedItems (itemsToJson items) ↔ OrderedItems items
  | [] => Iff.rfl
  | _ :: _ => and_congr ordered_toJson orderedItems_itemsToJson

theorem orderedMembers_entriesToJson : ∀ {entries : List (String × Value)},
    Json.OrderedMembers (entriesToJson entries) ↔ OrderedEntries entries
  | [] => Iff.rfl
  | (_, _) :: _ => and_congr ordered_toJson orderedMembers_entriesToJson

end

/-- The value of JSON whose names are in order has its keys in order. -/
theorem ordered_of_ofJson? {json : Json} {value : Value} (hordered : json.Ordered)
    (h : ofJson? json = .ok value) : value.Ordered := by
  rw [ofJson?_eq_ok.mp h] at hordered
  exact ordered_toJson.mp hordered

end Value
end DataTerms

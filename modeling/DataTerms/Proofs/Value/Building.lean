/-
# Values that are built

A value is built from the inside out, and its maps by entering one entry after the other, so
that the same value can come about in many ways. A value whose maps are lists of entries in any
order, with keys that come again, tells how one is built; `build` builds it. Two ways of
building agree if at every level the same keys are entered, and what is entered last under
each of them agrees. That is all that a built value depends on.

Key definitions: `Value.build`, `Value.Agree`.
Key theorems: `Value.ordered_build`, `Value.build_eq_of_agree`, `Value.agree_of_build_eq`.
-/
import DataTerms.Proofs.Keyed
import DataTerms.Value.Basic

namespace DataTerms
namespace Value

open Keyed (last?)

mutual

/-- The value that comes about when the entries of every map are entered in their order. -/
def build : Value → Value
  | .null => .null
  | .bool value => .bool value
  | .int value => .int value
  | .str value => .str value
  | .list items => .list (buildItems items)
  | .map entries => ofEntries (buildEntries entries)

/-- The items of a list, each built. -/
def buildItems : List Value → List Value
  | [] => []
  | item :: rest => item.build :: buildItems rest

/-- What is entered into a map, its values built. -/
def buildEntries : List (String × Value) → List (String × Value)
  | [] => []
  | (key, value) :: rest => (key, value.build) :: buildEntries rest

end

/-- Two ways of building agree: in every list at every place, and in every map on what is
entered last under each key, and on the keys. What they replace does not matter. -/
inductive Agree : Value → Value → Prop
  | same (value : Value) : Agree value value
  | list {items items' : List Value} : items.length = items'.length →
      (∀ (i : Nat) (item item' : Value), items[i]? = some item → items'[i]? = some item' →
        Agree item item') →
      Agree (.list items) (.list items')
  | map {entries entries' : List (String × Value)} :
      (∀ key, (last? key entries).isSome = (last? key entries').isSome) →
      (∀ (key : String) (value value' : Value), last? key entries = some value →
        last? key entries' = some value' → Agree value value') →
      Agree (.map entries) (.map entries')

theorem buildItems_eq_map : ∀ items : List Value, buildItems items = items.map build
  | [] => rfl
  | item :: rest => by rw [buildItems, buildItems_eq_map rest, List.map_cons]

theorem buildEntries_eq_map : ∀ entries : List (String × Value),
    buildEntries entries = entries.map fun entry => (entry.1, entry.2.build)
  | [] => rfl
  | (key, value) :: rest => by rw [buildEntries, buildEntries_eq_map rest, List.map_cons]

/-- The value entered last is built. -/
theorem last?_buildEntries (key : String) (entries : List (String × Value)) :
    last? key (buildEntries entries) = (last? key entries).map build := by
  rw [buildEntries_eq_map, Keyed.last?_map]

/-! ### What is built is in order -/

theorem orderedEntries_iff : ∀ {entries : List (String × Value)},
    OrderedEntries entries ↔ ∀ entry ∈ entries, entry.2.Ordered
  | [] => by simp [OrderedEntries]
  | (key, value) :: rest => by rw [OrderedEntries, orderedEntries_iff, List.forall_mem_cons]

/-- A map has no values but those that were entered. -/
theorem ordered_ofEntries {entries : List (String × Value)} (h : OrderedEntries entries) :
    (ofEntries entries).Ordered := by
  refine ⟨Keyed.ascending_ofList entries, orderedEntries_iff.mpr fun entry hmem => ?_⟩
  exact orderedEntries_iff.mp h entry (Keyed.mem_ofList hmem)

mutual

/-- The keys of every map that is built ascend. -/
theorem ordered_build : ∀ value : Value, value.build.Ordered
  | .null | .bool _ | .int _ | .str _ => trivial
  | .list items => orderedItems_buildItems items
  | .map entries => ordered_ofEntries (orderedEntries_buildEntries entries)

theorem orderedItems_buildItems : ∀ items : List Value, OrderedItems (buildItems items)
  | [] => trivial
  | item :: rest => ⟨ordered_build item, orderedItems_buildItems rest⟩

theorem orderedEntries_buildEntries : ∀ entries : List (String × Value),
    OrderedEntries (buildEntries entries)
  | [] => trivial
  | (_, value) :: rest => ⟨ordered_build value, orderedEntries_buildEntries rest⟩

end

/-! ### What is built depends on the last values only -/

/-- Two optional values that are there together are made into the same if they are where they
are there. -/
theorem map_eq_map_of_isSome {α β : Type} {f : α → β} {x y : Option α} (h : x.isSome = y.isSome)
    (hf : ∀ a b, x = some a → y = some b → f a = f b) : x.map f = y.map f := by
  cases x with
  | none => cases y with
    | none => rfl
    | some b => cases h
  | some a => cases y with
    | none => cases h
    | some b => exact congrArg some (hf a b rfl rfl)

/-- Ways of building that agree build the same value. -/
theorem build_eq_of_agree {a b : Value} (h : a.Agree b) : a.build = b.build := by
  induction h with
  | same value => rfl
  | @list items items' hlength _ ih =>
    rw [build, build, buildItems_eq_map, buildItems_eq_map]
    refine congrArg Value.list (List.ext_getElem? fun i => ?_)
    have hplace : items[i]?.isSome = items'[i]?.isSome := by
      refine Bool.eq_iff_iff.mpr ?_
      simp [hlength]
    rw [List.getElem?_map, List.getElem?_map]
    exact map_eq_map_of_isSome hplace (ih i)
  | map hkeys _ ih =>
    rw [build, build, ofEntries, ofEntries]
    refine congrArg Value.map (Keyed.ofList_eq_ofList_iff.mpr fun key => ?_)
    rw [last?_buildEntries, last?_buildEntries]
    exact map_eq_map_of_isSome (hkeys key) (ih key)

mutual

/-- Ways of building the same value agree. -/
theorem agree_of_build_eq : ∀ {a b : Value}, a.build = b.build → a.Agree b
  | .list items, .list items', h => by
    have heq : items.map build = items'.map build := by
      rw [← buildItems_eq_map, ← buildItems_eq_map]
      exact Value.list.inj h
    have hlength : items.length = items'.length := by
      simpa using congrArg List.length heq
    refine .list hlength fun i item item' hi hi' => ?_
    have hbuild : item.build = item'.build := by
      have hget := congrArg (·[i]?) heq
      simpa [List.getElem?_map, hi, hi'] using hget
    exact agree_of_mem_items items item (List.mem_of_getElem? hi) hbuild
  | .map entries, .map entries', h => by
    have hlast : ∀ key, (last? key entries).map build = (last? key entries').map build := by
      intro key
      rw [← last?_buildEntries, ← last?_buildEntries]
      exact Keyed.ofList_eq_ofList_iff.mp (Value.map.inj h) key
    refine .map (fun key => ?_) fun key value value' hvalue hvalue' => ?_
    · simpa using congrArg Option.isSome (hlast key)
    · have hbuild : value.build = value'.build := by
        simpa [hvalue, hvalue'] using hlast key
      exact agree_of_mem_entries entries (key, value) (Keyed.mem_of_last?_eq_some hvalue) hbuild
  | .null, .null, _ => .same _
  | .bool _, .bool _, h => by cases h; exact .same _
  | .int _, .int _, h => by cases h; exact .same _
  | .str _, .str _, h => by cases h; exact .same _

theorem agree_of_mem_items : ∀ (items : List Value), ∀ item ∈ items, ∀ {b : Value},
    item.build = b.build → item.Agree b
  | [] => nofun
  | _ :: rest => List.forall_mem_cons.mpr ⟨fun {_} h => agree_of_build_eq h, agree_of_mem_items rest⟩

theorem agree_of_mem_entries : ∀ (entries : List (String × Value)), ∀ entry ∈ entries,
    ∀ {b : Value}, entry.2.build = b.build → entry.2.Agree b
  | [] => nofun
  | (_, _) :: rest => List.forall_mem_cons.mpr
    ⟨fun {_} h => agree_of_build_eq h, agree_of_mem_entries rest⟩

end

end Value
end DataTerms

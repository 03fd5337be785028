/-
# JSON that was written is read back

The text of a value, on one line or over several, is read as the value. Both ways of writing put
the same tokens in the same order, and differ in the blanks between them, which a reader passes
over; so reading back is shown once, for every way of writing. A reader's limit to the containers
within each other refuses no value whose term has no more levels.

Key definitions: `Json.Layout`, `Json.onOneLine`, `Json.overLines`.
Key theorems: `Json.Layout.reads_chars`, `Json.parse?_render`.
-/
import DataTerms.Proofs.Json.Rows
import DataTerms.Proofs.Value.Json
import DataTerms.Settings
import DataTerms.Term.Value

namespace DataTerms
namespace Json

variable {n : Nat} {cs blanks : List Char} {json : Json}

open Value (itemsToJson entriesToJson itemsToTerm entriesToTerm)
open Term (depthItems depthEntries)

/-- An entry has no more levels than its value. -/
theorem depthEntries_cons (key : String) (value : Value) (rest : List (String × Value)) :
    depthEntries (entriesToTerm ((key, value) :: rest)) =
      max value.toTerm.depth (depthEntries (entriesToTerm rest)) := by
  have hpos := value.toTerm.depth_pos
  simp only [entriesToTerm, Send.entry, depthEntries, depthItems, Term.str, Term.depth]
  omega

/-! ### Ways of writing -/

/-- A way of writing values: the characters of a value, and of the parts after a part, within some
containers. They are the same tokens in every way of writing; blanks stand before each part and
before a closing bracket, and after a colon. -/
structure Layout where
  chars : Nat → Json → List Char
  itemChars : Nat → List Json → List Char
  memberChars : Nat → List (String × Json) → List Char
  gap : Nat → List Char
  space : List Char
  areBlanks_gap (containers : Nat) : AreBlanks (gap containers)
  areBlanks_space : AreBlanks space
  null (containers : Nat) : chars containers .null = compactChars .null
  bool (containers : Nat) (value : Bool) : chars containers (.bool value) = compactChars (.bool value)
  int (containers : Nat) (value : Int) : chars containers (.int value) = (toString value).toList
  string (containers : Nat) (value : String) :
    chars containers (.string value) = quote value.toList
  array_nil (containers : Nat) : chars containers (.array []) = ['[', ']']
  object_nil (containers : Nat) : chars containers (.object []) = ['{', '}']
  array_cons (containers : Nat) (item : Json) (rest : List Json) :
    chars containers (.array (item :: rest)) =
      '[' :: ((gap (containers + 1) ++ chars (containers + 1) item) ++
        (itemChars (containers + 1) rest ++ (gap containers ++ [']'])))
  object_cons (containers : Nat) (name : String) (value : Json) (rest : List (String × Json)) :
    chars containers (.object ((name, value) :: rest)) =
      '{' :: ((gap (containers + 1) ++
          (quote name.toList ++ ':' :: (space ++ chars (containers + 1) value))) ++
        (memberChars (containers + 1) rest ++ (gap containers ++ ['}'])))
  itemChars_nil (containers : Nat) : itemChars containers [] = []
  itemChars_cons (containers : Nat) (item : Json) (rest : List Json) :
    itemChars containers (item :: rest) =
      ',' :: (gap containers ++ chars containers item) ++ itemChars containers rest
  memberChars_nil (containers : Nat) : memberChars containers [] = []
  memberChars_cons (containers : Nat) (name : String) (value : Json)
    (rest : List (String × Json)) :
    memberChars containers ((name, value) :: rest) =
      ',' :: (gap containers ++ (quote name.toList ++ ':' :: (space ++ chars containers value))) ++
        memberChars containers rest

/-- On one line there are no blanks. -/
def onOneLine : Layout where
  chars _ := compactChars
  itemChars _ := compactItems false
  memberChars _ := compactMembers false
  gap _ := []
  space := []
  areBlanks_gap _ := areBlanks_nil
  areBlanks_space := areBlanks_nil
  null _ := rfl
  bool _ _ := rfl
  int _ _ := rfl
  string _ _ := rfl
  array_nil _ := rfl
  object_nil _ := rfl
  array_cons _ item rest := by simp [compactChars, compactItems]
  object_cons _ name value rest := by simp [compactChars, compactMembers]
  itemChars_nil _ := rfl
  itemChars_cons _ item rest := by simp [compactItems]
  memberChars_nil _ := rfl
  memberChars_cons _ name value rest := by simp [compactMembers]

/-- Over several lines each part and each closing bracket begins a line. -/
def overLines : Layout where
  chars := prettyChars
  itemChars := prettyItems
  memberChars := prettyMembers
  gap := newLine
  space := [' ']
  areBlanks_gap := areBlanks_newLine
  areBlanks_space := List.forall_mem_singleton.mpr rfl
  null _ := rfl
  bool _ value := by cases value <;> rfl
  int _ _ := rfl
  string _ _ := rfl
  array_nil _ := rfl
  object_nil _ := rfl
  array_cons containers item rest := by simp [prettyChars]
  object_cons containers name value rest := by simp [prettyChars]
  itemChars_nil _ := rfl
  itemChars_cons containers item rest := by simp [prettyItems]
  memberChars_nil _ := rfl
  memberChars_cons containers name value rest := by simp [prettyMembers]

namespace Layout

variable (layout : Layout)

theorem readsAs_member (containers : Nat) (key : String)
    (h : Reads n (layout.chars containers json) json) :
    ReadsAs (readMember (reader ofMembers n)) (layout.gap containers ++
      (quote key.toList ++ ':' :: (layout.space ++ layout.chars containers json))) (key, json) := by
  have hvalue := (row_items n).after_blanks layout.areBlanks_space h
  exact (row_members _).after_blanks (layout.areBlanks_gap containers)
    (Json.readsAs_member key hvalue)

mutual

/-- What is written of a value in any way is read back. -/
theorem reads_chars : ∀ {n : Nat} (containers : Nat) (value : Value), value.Ordered →
    value.toTerm.depth ≤ n → Reads n (layout.chars containers value.toJson) value.toJson
  | _, containers, .null, _, _ => layout.null containers ▸ reads_null
  | _, containers, .bool value, _, _ => layout.bool containers value ▸ reads_bool value
  | _, containers, .int value, _, _ => layout.int containers value.toInt ▸ reads_int value
  | _, containers, .str value, _, _ => layout.string containers value ▸ reads_string value
  | n + 1, containers, .list [], _, _ => layout.array_nil containers ▸ reads_array_nil
  | n + 1, containers, .map [], _, _ => layout.object_nil containers ▸ reads_object_nil
  | n + 1, containers, .list (item :: rest), h, hdepth => by
    rw [Value.toTerm, itemsToTerm, Term.depth, depthItems] at hdepth
    have hitem := reads_chars (n := n) (containers + 1) item h.1 (by omega)
    have hfirst := (row_items n).after_blanks (layout.areBlanks_gap (containers + 1)) hitem
    have hrest := readsItems_itemChars (n := n) (containers + 1) rest h.2 (by omega)
      (layout.areBlanks_gap containers)
    rw [Value.toJson, itemsToJson, layout.array_cons]
    exact reads_array hfirst hrest
  | n + 1, containers, .map ((key, value) :: rest), ⟨hkeys, h⟩, hdepth => by
    rw [Value.toTerm, Term.depth, depthEntries_cons] at hdepth
    have hvalue := reads_chars (n := n) (containers + 1) value h.1 (by omega)
    have hfirst := layout.readsAs_member (containers + 1) key hvalue
    have hrest := readsMembers_memberChars (n := n) (containers + 1) rest h.2 (by omega)
      (layout.areBlanks_gap containers)
    have hnames := Value.ascending_entriesToJson.mpr hkeys
    rw [entriesToJson] at hnames
    rw [Value.toJson, entriesToJson, layout.object_cons]
    exact reads_object hnames hfirst hrest
  | 0, _, .list _, _, hdepth | 0, _, .map _, _, hdepth => by
    -- a container has a level
    rw [Value.toTerm, Term.depth] at hdepth
    omega

theorem readsItems_itemChars : ∀ {n : Nat} {blanks : List Char} (containers : Nat)
    (items : List Value), Value.OrderedItems items → depthItems (itemsToTerm items) ≤ n →
    AreBlanks blanks → ReadsItems n
      (layout.itemChars containers (itemsToJson items) ++ (blanks ++ [']'])) (itemsToJson items)
  | _, _, containers, [], _, _, hblanks => by
    rw [itemsToJson, layout.itemChars_nil]
    exact readsItems_nil hblanks
  | n, _, containers, item :: rest, h, hdepth, hblanks => by
    rw [itemsToTerm, depthItems] at hdepth
    have hitem := reads_chars (n := n) containers item h.1 (by omega)
    have hnext := (row_items n).after_blanks (layout.areBlanks_gap containers) hitem
    have hrest := readsItems_itemChars (n := n) containers rest h.2 (by omega) hblanks
    rw [itemsToJson, layout.itemChars_cons, List.append_assoc]
    exact (row_items n).readsRest_cons hnext hrest

theorem readsMembers_memberChars : ∀ {n : Nat} {blanks : List Char} (containers : Nat)
    (entries : List (String × Value)), Value.OrderedEntries entries →
    depthEntries (entriesToTerm entries) ≤ n → AreBlanks blanks → ReadsMembers n
      (layout.memberChars containers (entriesToJson entries) ++ (blanks ++ ['}']))
      (entriesToJson entries)
  | _, _, containers, [], _, _, hblanks => by
    rw [entriesToJson, layout.memberChars_nil]
    exact readsMembers_nil hblanks
  | n, _, containers, (key, value) :: rest, h, hdepth, hblanks => by
    rw [depthEntries_cons] at hdepth
    have hvalue := reads_chars (n := n) containers value h.1 (by omega)
    have hnext := layout.readsAs_member containers key hvalue
    have hrest := readsMembers_memberChars (n := n) containers rest h.2 (by omega) hblanks
    rw [entriesToJson, layout.memberChars_cons, List.append_assoc]
    exact (row_members _).readsRest_cons hnext hrest

end

end Layout

/-! ### Whole texts -/

/-- A text is read, with blanks behind it. -/
theorem parse?_of_reads (h : Reads n cs json) (hblanks : AreBlanks blanks) :
    parse? n (String.ofList (cs ++ blanks)) = some json := by
  have hends : EndsNumeral blanks := by
    rw [← List.append_nil blanks]
    exact endsNumeral_of_areBlanks hblanks trivial
  rw [parse?, parseBy?, String.toList_ofList, h blanks hends]
  simp [skipSpace_eq_nil hblanks]

/-- **JSON that was written is read back**, as settings have it written and with blanks behind
it. -/
theorem parse?_render (settings : Settings) {value : Value} (hvalue : value.Ordered)
    (hdepth : value.toTerm.depth ≤ n) (hblanks : AreBlanks blanks) :
    parse? n (settings.render value.toJson ++ String.ofList blanks) = some value.toJson := by
  unfold Settings.render
  by_cases hpretty : settings.pretty = true
  · rw [if_pos hpretty, pretty, ← String.ofList_append]
    exact parse?_of_reads (overLines.reads_chars 0 value hvalue hdepth) hblanks
  · rw [if_neg hpretty, compact, ← String.ofList_append]
    exact parse?_of_reads (onOneLine.reads_chars 0 value hvalue hdepth) hblanks

end Json
end DataTerms

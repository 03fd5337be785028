/-
# The members of objects as they are written

In a text the members of an object stand in some order, and a name may come again. What is read
of a text can be seen as two steps: the members are read as they are written, and then each
object is settled, from the inside out, the last of the members with one name left and the names
in their order. So what is read has its names in order, and texts whose members stand in another
order are read as the same.

Key definitions: `Json.written?`, `Json.settled`, `Json.Reordered`.
Key theorems: `Json.parse?_eq_written?`, `Json.ordered_of_parse?`, `Json.settled_eq_of_reordered`,
`Json.parse?_eq_of_reordered`.
-/
import DataTerms.Json.Parser
import DataTerms.Proofs.Keyed

namespace DataTerms
namespace Json

open Text (Reader)

/-- The value of a text with the members of its objects as they are written. -/
def written? (nesting : Nat) (text : String) : Option Json := parseBy? .object nesting text

mutual

/-- The value with the last of the members with one name, in the order of the names, in every
object. -/
def settled : Json → Json
  | .null => .null
  | .bool value => .bool value
  | .number value => .number value
  | .string value => .string value
  | .array items => .array (settledItems items)
  | .object members => ofMembers (settledMembers members)

/-- The items of an array, each settled. -/
def settledItems : List Json → List Json
  | [] => []
  | item :: rest => item.settled :: settledItems rest

/-- The members of an object, their values settled. -/
def settledMembers : List (String × Json) → List (String × Json)
  | [] => []
  | (name, value) :: rest => (name, value.settled) :: settledMembers rest

end

theorem settledItems_eq_map : ∀ items : List Json, settledItems items = items.map settled
  | [] => rfl
  | item :: rest => by rw [settledItems, settledItems_eq_map rest, List.map_cons]

theorem settledMembers_eq_map : ∀ members : List (String × Json),
    settledMembers members = members.map fun member => (member.1, member.2.settled)
  | [] => rfl
  | (name, value) :: rest => by rw [settledMembers, settledMembers_eq_map rest, List.map_cons]

/-! ### Reading is reading as written, and then settling -/

/-- What is read, made into something else, with the text after it. -/
def onRead {α β : Type} (f : α → β) (read : Option (α × List Char)) : Option (β × List Char) :=
  read.map fun r => (f r.1, r.2)

/-- What follows on something made of what is read is made of what follows on that. -/
theorem onRead_bind {α β γ δ : Type} {f : α → β} {g : γ → δ} {read : Option (α × List Char)}
    {next : β × List Char → Option (δ × List Char)}
    {next' : α × List Char → Option (γ × List Char)}
    (h : ∀ a rest, next (f a, rest) = onRead g (next' (a, rest))) :
    (onRead f read >>= next) = onRead g (read >>= next') := by
  cases read with
  | none => rfl
  | some r => exact h r.1 r.2

section Readers

variable {value value' : Reader Json} (h : ∀ text, value' text = onRead settled (value text))

include h

theorem readMoreItems_settled : ∀ (steps : Nat) (text : List Char),
    readMoreItems value' steps text = onRead settledItems (readMoreItems value steps text)
  | 0, _ => rfl
  | steps + 1, text => by
    unfold readMoreItems
    split
    · rfl
    · next rest _ =>
      rw [h rest]
      refine onRead_bind fun item rest => ?_
      simp only [readMoreItems_settled steps rest]
      exact onRead_bind fun _ _ => rfl
    · rfl

theorem readItems_settled (text : List Char) :
    readItems value' text = onRead settledItems (readItems value text) := by
  unfold readItems
  split
  · rfl
  · rw [h]
    refine onRead_bind fun item rest => ?_
    simp only [readMoreItems_settled h rest.length rest]
    exact onRead_bind fun _ _ => rfl

theorem readMember_settled (text : List Char) :
    readMember value' text =
      onRead (fun member => (member.1, member.2.settled)) (readMember value text) := by
  unfold readMember
  split
  · next rest _ =>
    -- the name is read in the same way
    rcases readString rest with _ | ⟨name, rest⟩
    · rfl
    · simp only [Option.bind_eq_bind, Option.bind_some]
      split
      · next rest _ =>
        rw [h rest]
        exact onRead_bind fun _ _ => rfl
      · rfl
  · rfl

theorem readMoreMembers_settled : ∀ (steps : Nat) (text : List Char),
    readMoreMembers value' steps text = onRead settledMembers (readMoreMembers value steps text)
  | 0, _ => rfl
  | steps + 1, text => by
    unfold readMoreMembers
    split
    · rfl
    · next rest _ =>
      rw [readMember_settled h rest]
      refine onRead_bind fun member rest => ?_
      simp only [readMoreMembers_settled steps rest]
      exact onRead_bind fun _ _ => rfl
    · rfl

theorem readMembers_settled (text : List Char) :
    readMembers value' text = onRead settledMembers (readMembers value text) := by
  unfold readMembers
  split
  · rfl
  · rw [readMember_settled h]
    refine onRead_bind fun member rest => ?_
    simp only [readMoreMembers_settled h rest.length rest]
    exact onRead_bind fun _ _ => rfl

end Readers

/-- The values of the parts of containers are read as written and then settled. -/
def Settles (inner inner' : Option (Reader Json)) : Prop :=
  match inner, inner' with
  | none, none => True
  | some value, some value' => ∀ text, value' text = onRead settled (value text)
  | _, _ => False

theorem readNumber_settled (text : List Char) : readNumber text = onRead settled (readNumber text) := by
  unfold readNumber
  rcases Numeral.read text with _ | ⟨numeral, rest⟩
  · rfl
  · simp only [Option.bind_eq_bind, Option.bind_some]
    cases numeral.value? <;> rfl

theorem readValue_settled {inner inner' : Option (Reader Json)} (h : Settles inner inner')
    (text : List Char) :
    readValue ofMembers inner' text = onRead settled (readValue .object inner text) := by
  unfold readValue
  split
  · rfl
  · rfl
  · rfl
  · next rest _ =>
    rcases readString rest with _ | ⟨text, rest⟩ <;> rfl
  · next rest _ =>
    rcases inner with _ | value <;> rcases inner' with _ | value'
    · rfl
    · exact h.elim
    · exact h.elim
    · simp only [Option.bind_eq_bind, Option.bind_some]
      rw [readItems_settled h rest]
      exact onRead_bind fun _ _ => rfl
  · next rest _ =>
    rcases inner with _ | value <;> rcases inner' with _ | value'
    · rfl
    · exact h.elim
    · exact h.elim
    · simp only [Option.bind_eq_bind, Option.bind_some]
      rw [readMembers_settled h rest]
      exact onRead_bind fun _ _ => rfl
  · exact readNumber_settled _

theorem reader_settled : ∀ (nesting : Nat) (text : List Char),
    reader ofMembers nesting text = onRead settled (reader .object nesting text)
  | 0, text => by
    have h : Settles none none := trivial
    exact readValue_settled h text
  | nesting + 1, text => by
    have h : Settles (some (reader .object nesting)) (some (reader ofMembers nesting)) :=
      reader_settled nesting
    exact readValue_settled h text

/-- What is read of a text is what is written there, settled. -/
theorem parse?_eq_written? (nesting : Nat) (text : String) :
    parse? nesting text = (written? nesting text).map settled := by
  rw [parse?, written?, parseBy?, parseBy?, reader_settled]
  rcases reader .object nesting text.toList with _ | ⟨value, rest⟩
  · rfl
  · simp only [onRead, Option.map_some, Option.bind_eq_bind, Option.bind_some]
    split <;> rfl

/-! ### What is read is in order -/

theorem orderedMembers_iff : ∀ {members : List (String × Json)},
    OrderedMembers members ↔ ∀ member ∈ members, member.2.Ordered
  | [] => by simp [OrderedMembers]
  | (name, value) :: rest => by rw [OrderedMembers, orderedMembers_iff, List.forall_mem_cons]

/-- An object has no members but those it is made of. -/
theorem ordered_ofMembers {members : List (String × Json)} (h : OrderedMembers members) :
    (ofMembers members).Ordered := by
  refine ⟨Keyed.ascending_ofList members, orderedMembers_iff.mpr fun member hmem => ?_⟩
  exact orderedMembers_iff.mp h member (Keyed.mem_ofList hmem)

mutual

/-- The names of every object that is settled ascend. -/
theorem ordered_settled : ∀ json : Json, json.settled.Ordered
  | .null | .bool _ | .number _ | .string _ => trivial
  | .array items => orderedItems_settledItems items
  | .object members => ordered_ofMembers (orderedMembers_settledMembers members)

theorem orderedItems_settledItems : ∀ items : List Json, OrderedItems (settledItems items)
  | [] => trivial
  | item :: rest => ⟨ordered_settled item, orderedItems_settledItems rest⟩

theorem orderedMembers_settledMembers : ∀ members : List (String × Json),
    OrderedMembers (settledMembers members)
  | [] => trivial
  | (_, value) :: rest => ⟨ordered_settled value, orderedMembers_settledMembers rest⟩

end

/-- What is read of a text has the names of every object in order. -/
theorem ordered_of_parse? {nesting : Nat} {text : String} {json : Json}
    (h : parse? nesting text = some json) : json.Ordered := by
  rw [parse?_eq_written?] at h
  obtain ⟨written, -, rfl⟩ := Option.map_eq_some_iff.mp h
  exact ordered_settled written

/-! ### Members in another order -/

/-- The second value is the first with members of objects in another order, at any level:
neighbours with two names change places, one pair after the other. -/
inductive Reordered : Json → Json → Prop
  | same (json : Json) : Reordered json json
  | item (before after : List Json) {item item' : Json} : Reordered item item' →
      Reordered (.array (before ++ item :: after)) (.array (before ++ item' :: after))
  | member (before after : List (String × Json)) (name : String) {value value' : Json} :
      Reordered value value' →
      Reordered (.object (before ++ (name, value) :: after))
        (.object (before ++ (name, value') :: after))
  | swap (before after : List (String × Json)) {a b : String × Json} : a.1 ≠ b.1 →
      Reordered (.object (before ++ a :: b :: after)) (.object (before ++ b :: a :: after))
  | trans {a b c : Json} : Reordered a b → Reordered b c → Reordered a c

/-- The order of members with different names is settled. -/
theorem settled_eq_of_reordered {a b : Json} (h : a.Reordered b) : a.settled = b.settled := by
  induction h with
  | same json => rfl
  | item before after _ ih =>
    simp only [settled, settledItems_eq_map, List.map_append, List.map_cons, ih]
  | member before after name _ ih =>
    simp only [settled, settledMembers_eq_map, List.map_append, List.map_cons, ih]
  | @swap before after a b hne =>
    have hnames : (a.1, a.2.settled).1 ≠ (b.1, b.2.settled).1 := hne
    simp only [settled, settledMembers_eq_map, List.map_append, List.map_cons, ofMembers]
    exact congrArg Json.object (Keyed.ofList_swap hnames _ _)
  | trans _ _ ih ih' => exact ih.trans ih'

/-- Texts that differ in the order of members with different names are read as the same. -/
theorem parse?_eq_of_reordered {nesting : Nat} {text text' : String} {json json' : Json}
    (h : written? nesting text = some json) (h' : written? nesting text' = some json')
    (hreordered : json.Reordered json') :
    parse? nesting text = some json.settled ∧ parse? nesting text' = some json.settled := by
  rw [parse?_eq_written?, parse?_eq_written?, h, h']
  exact ⟨rfl, congrArg some (settled_eq_of_reordered hreordered).symm⟩

end Json
end DataTerms

/-
# Values and their parts are read back from their tokens

What is written of a value is read token by token, with blanks wherever they may stand. A number
ends where something follows that does not go on with it, and after a value within another one
there is a comma, a closing bracket or a blank. The items of an array and the members of an object
stand in rows that are read in the same way.

Key definitions: `Json.ReadsAs`, `Json.Reads`, `Json.Row`, `Json.ReadsRest`.
Key theorems: `Json.Row.readsRest_cons`, `Json.Row.readsAs_cons`, `Json.reads_array`,
`Json.reads_object`.
-/
import DataTerms.Json.Printer
import DataTerms.Proofs.Json.Tokens
import DataTerms.Proofs.Keyed

namespace DataTerms
namespace Json

open Text (Reader)

variable {n : Nat} {cs cs' blanks : List Char} {json : Json}

/-! ### Blanks -/

/-- Characters that a reader passes over. -/
def AreBlanks (cs : List Char) : Prop := ∀ c ∈ cs, isSpace c = true

theorem skipSpace_append (h : AreBlanks blanks) (text : List Char) :
    skipSpace (blanks ++ text) = skipSpace text :=
  List.dropWhile_append_of_pos h

theorem skipSpace_cons {c : Char} (h : isSpace c = false) (rest : List Char) :
    skipSpace (c :: rest) = c :: rest := by
  rw [skipSpace, List.dropWhile_cons_of_neg (by simp [h])]

theorem skipSpace_skipSpace (text : List Char) : skipSpace (skipSpace text) = skipSpace text := by
  induction text with
  | nil => rfl
  | cons c rest ih =>
    by_cases hspace : isSpace c = true
    · have hskip : skipSpace (c :: rest) = skipSpace rest := List.dropWhile_cons_of_pos hspace
      rw [hskip, ih]
    · have hskip : skipSpace (c :: rest) = c :: rest :=
        skipSpace_cons (Bool.eq_false_iff.mpr hspace) rest
      rw [hskip, hskip]

theorem skipSpace_eq_nil (h : AreBlanks blanks) : skipSpace blanks = [] := by
  rw [← List.append_nil blanks, skipSpace_append h]
  rfl

theorem areBlanks_nil : AreBlanks [] := nofun

theorem areBlanks_newLine (containers : Nat) : AreBlanks (newLine containers) := by
  intro c hmem
  rcases List.mem_cons.mp hmem with rfl | hmem
  · rfl
  · rw [List.eq_of_mem_replicate hmem]
    rfl

theorem isSpace_iff {c : Char} : isSpace c = true ↔ c = ' ' ∨ c = '\t' ∨ c = '\n' ∨ c = '\r' := by
  simp [isSpace, or_assoc]

/-- A blank does not go on with a number. -/
theorem endsNumeral_of_isSpace {c : Char} (h : isSpace c = true) (rest : List Char) :
    EndsNumeral (c :: rest) := by
  rcases isSpace_iff.mp h with rfl | rfl | rfl | rfl <;>
    exact ⟨rfl, by decide, by decide, by decide⟩

theorem endsNumeral_of_areBlanks (h : AreBlanks blanks) {rest : List Char}
    (hends : EndsNumeral rest) : EndsNumeral (blanks ++ rest) := by
  cases blanks with
  | nil => exact hends
  | cons c blanks => exact endsNumeral_of_isSpace (h c List.mem_cons_self) _

/-! ### Values without parts -/

/-- The characters of a text are read as one thing, whatever follows that does not go on with a
number. -/
def ReadsAs {α : Type} (read : Reader α) (cs : List Char) (a : α) : Prop :=
  ∀ rest, EndsNumeral rest → read (cs ++ rest) = some (a, rest)

/-- The characters of a text are read as a value whose containers nest no deeper than `n`. -/
def Reads (n : Nat) (cs : List Char) (json : Json) : Prop := ReadsAs (reader ofMembers n) cs json

/-- A reader of any depth reads values in one way, and containers by its `inner` one. -/
def innerReader : Nat → Option (Text.Reader Json)
  | 0 => none
  | n + 1 => some (reader ofMembers n)

theorem reader_eq (n : Nat) : reader ofMembers n = readValue ofMembers (innerReader n) := by
  cases n <;> rfl

theorem reader_skipSpace (n : Nat) {text text' : List Char} (h : skipSpace text = skipSpace text') :
    reader ofMembers n text = reader ofMembers n text' := by
  rw [reader_eq]
  unfold readValue
  rw [h]

theorem reads_null : Reads n ['n', 'u', 'l', 'l'] .null := by
  intro rest _
  rw [reader_eq]
  rfl

theorem reads_bool : ∀ value : Bool, Reads n (compactChars (.bool value)) (.bool value)
  | true, rest, _ => by rw [reader_eq]; rfl
  | false, rest, _ => by rw [reader_eq]; rfl

theorem reads_string (value : String) : Reads n (quote value.toList) (.string value) := by
  intro rest _
  have hread := readString_quote value rest
  have hquote : quote value.toList ++ rest =
      '"' :: (value.toList.flatMap escape ++ '"' :: rest) := by
    simp [quote]
  rw [reader_eq, hquote]
  unfold readValue
  rw [skipSpace_cons rfl]
  simp [hread]

/-- No number begins with a blank. -/
theorem skipSpace_of_readNumber {text : List Char} {read : Json × List Char}
    (h : readNumber text = some read) : skipSpace text = text := by
  cases text with
  | nil => rfl
  | cons c rest =>
    by_cases hspace : isSpace c = true
    · rcases isSpace_iff.mp hspace with rfl | rfl | rfl | rfl <;> cases h
    · exact skipSpace_cons (Bool.eq_false_iff.mpr hspace) rest

theorem reads_int (value : Int64) : Reads n (toString value.toInt).toList (int value.toInt) := by
  intro rest hends
  have hread := readNumber_int value hends
  have hskip := skipSpace_of_readNumber hread
  rw [reader_eq]
  unfold readValue
  rw [hskip]
  split
  -- a number begins like no other value
  iterate 6
    · next heq =>
      rw [heq] at hread
      cases hread
  exact hread

/-! ### The parts of containers -/

/-- The readers of a container's parts: of one part, of those after a part, and of all. Items of
arrays and members of objects are read in the same way, but for the bracket that closes them. -/
structure Row {α : Type} (close : Char) (part : Reader α) (more : Nat → Reader (List α))
    (all : Reader (List α)) : Prop where
  part_skipSpace {text text' : List Char} : skipSpace text = skipSpace text' →
    part text = part text'
  /-- No part begins with the closing bracket. -/
  part_close (rest : List Char) : part (close :: rest) = none
  more_close (steps : Nat) {text rest : List Char} : skipSpace text = close :: rest →
    more (steps + 1) text = some ([], rest)
  more_comma (steps : Nat) (text : List Char) : more (steps + 1) (',' :: text) =
    (do let (a, rest) ← part text
        let (parts, rest) ← more steps rest
        return (a :: parts, rest))
  all_part {text : List Char} : (∀ rest, skipSpace text ≠ close :: rest) → all text =
    (do let (a, rest) ← part (skipSpace text)
        let (parts, rest) ← more rest.length rest
        return (a :: parts, rest))

theorem row_items (n : Nat) : Row ']' (reader ofMembers n) (readMoreItems (reader ofMembers n))
    (readItems (reader ofMembers n)) where
  part_skipSpace := reader_skipSpace n
  part_close rest := by
    rw [reader_eq]
    rfl
  more_close steps text rest h := by
    rw [readMoreItems, h]
    rfl
  more_comma steps text := rfl
  all_part {text} h := by
    unfold readItems
    split
    · next heq => exact absurd heq (h _)
    · rfl

theorem row_members (value : Reader Json) : Row '}' (readMember value) (readMoreMembers value)
    (readMembers value) where
  part_skipSpace h := by
    unfold readMember
    rw [h]
  part_close rest := rfl
  more_close steps text rest h := by
    rw [readMoreMembers, h]
    rfl
  more_comma steps text := rfl
  all_part {text} h := by
    unfold readMembers
    split
    · next heq => exact absurd heq (h _)
    · rfl

/-- The characters of a text, to a closing bracket, are read as the parts after a part, whatever
follows; and they do not go on with a number that stands before them. -/
def ReadsRest {α : Type} (more : Nat → Reader (List α)) (cs : List Char) (parts : List α) : Prop :=
  ∀ rest, EndsNumeral (cs ++ rest) ∧
    ∀ steps, cs.length ≤ steps → more steps (cs ++ rest) = some (parts, rest)

namespace Row

variable {α : Type} {close : Char} {part : Reader α} {more : Nat → Reader (List α)}
  {all : Reader (List α)} {a : α} {parts : List α}

/-- Blanks may stand before a part. -/
theorem after_blanks (h : Row close part more all) (hblanks : AreBlanks blanks)
    (hpart : ReadsAs part cs a) : ReadsAs part (blanks ++ cs) a := by
  intro rest hends
  have hskip : skipSpace (blanks ++ cs ++ rest) = skipSpace (cs ++ rest) := by
    rw [List.append_assoc, skipSpace_append hblanks]
  rw [h.part_skipSpace hskip]
  exact hpart rest hends

theorem readsRest_nil (h : Row close part more all) (hspace : isSpace close = false)
    (hends : ∀ rest, EndsNumeral (close :: rest)) (hblanks : AreBlanks blanks) :
    ReadsRest more (blanks ++ [close]) [] := by
  intro rest
  rw [List.append_assoc]
  refine ⟨endsNumeral_of_areBlanks hblanks (hends rest), ?_⟩
  intro steps hsteps
  rw [List.length_append, List.length_singleton] at hsteps
  obtain ⟨steps, rfl⟩ : ∃ left, steps = left + 1 := ⟨steps - 1, by omega⟩
  have hskip : skipSpace (blanks ++ ([close] ++ rest)) = close :: rest := by
    rw [skipSpace_append hblanks]
    exact skipSpace_cons hspace rest
  exact h.more_close steps hskip

theorem readsRest_cons (h : Row close part more all) (hpart : ReadsAs part cs a)
    (hparts : ReadsRest more cs' parts) : ReadsRest more (',' :: cs ++ cs') (a :: parts) := by
  intro rest
  refine ⟨⟨rfl, by decide, by decide, by decide⟩, ?_⟩
  intro steps hsteps
  rw [List.length_append, List.length_cons] at hsteps
  obtain ⟨steps, rfl⟩ : ∃ left, steps = left + 1 := ⟨steps - 1, by omega⟩
  obtain ⟨hends, hmore⟩ := hparts rest
  have hfirst := hpart (cs' ++ rest) hends
  have hrest := hmore steps (by omega)
  have htext : ',' :: cs ++ cs' ++ rest = ',' :: (cs ++ (cs' ++ rest)) := by simp
  rw [htext, h.more_comma, hfirst]
  simp [hrest]

/-- A part and those after it are all of a container's parts. -/
theorem readsAs_cons (h : Row close part more all) (hspace : isSpace close = false)
    (hpart : ReadsAs part cs a) (hparts : ReadsRest more cs' parts) (rest : List Char) :
    all (cs ++ cs' ++ rest) = some (a :: parts, rest) := by
  obtain ⟨hends, hmore⟩ := hparts rest
  have hfirst := hpart (cs' ++ rest) hends
  have hrest := hmore (cs' ++ rest).length (by rw [List.length_append]; omega)
  have hclose : ∀ rest', skipSpace (cs ++ (cs' ++ rest)) ≠ close :: rest' := by
    intro rest' heq
    have hskip : skipSpace (cs ++ (cs' ++ rest)) = skipSpace (close :: rest') := by
      rw [heq, skipSpace_cons hspace]
    rw [h.part_skipSpace hskip, h.part_close] at hfirst
    cases hfirst
  rw [List.append_assoc, h.all_part hclose, h.part_skipSpace (skipSpace_skipSpace _), hfirst]
  simp only [Option.bind_eq_bind, Option.bind_some, hrest]
  rfl

end Row

/-- The characters of a text, to the closing bracket, are read as the items after an item. -/
def ReadsItems (n : Nat) (cs : List Char) (items : List Json) : Prop :=
  ReadsRest (readMoreItems (reader ofMembers n)) cs items

/-- The characters of a text, to the closing brace, are read as the members after a member. -/
def ReadsMembers (n : Nat) (cs : List Char) (members : List (String × Json)) : Prop :=
  ReadsRest (readMoreMembers (reader ofMembers n)) cs members

theorem readsItems_nil (hblanks : AreBlanks blanks) : ReadsItems n (blanks ++ [']']) [] :=
  (row_items n).readsRest_nil rfl (fun _ => ⟨rfl, by decide, by decide, by decide⟩) hblanks

theorem readsMembers_nil (hblanks : AreBlanks blanks) : ReadsMembers n (blanks ++ ['}']) [] :=
  (row_members _).readsRest_nil rfl (fun _ => ⟨rfl, by decide, by decide, by decide⟩) hblanks

/-- A name, a colon and a value are read as a member. -/
theorem readsAs_member (name : String) (h : Reads n cs json) :
    ReadsAs (readMember (reader ofMembers n)) (quote name.toList ++ ':' :: cs) (name, json) := by
  intro rest hends
  have hname := readString_quote name (':' :: (cs ++ rest))
  have hvalue := h rest hends
  have htext : quote name.toList ++ ':' :: cs ++ rest =
      '"' :: (name.toList.flatMap escape ++ '"' :: ':' :: (cs ++ rest)) := by
    simp [quote]
  have hquote := skipSpace_cons (c := '"') rfl
    (name.toList.flatMap escape ++ '"' :: ':' :: (cs ++ rest))
  have hcolon := skipSpace_cons (c := ':') rfl (cs ++ rest)
  rw [htext, readMember, hquote]
  simp [hname, hcolon, hvalue]

theorem reads_array_nil : Reads (n + 1) ['[', ']'] (.array []) :=
  fun _ _ => rfl

theorem reads_object_nil : Reads (n + 1) ['{', '}'] (.object []) :=
  fun _ _ => rfl

theorem reads_array {item : Json} {items : List Json} (hitem : Reads n cs item)
    (hitems : ReadsItems n cs' items) :
    Reads (n + 1) ('[' :: (cs ++ cs')) (.array (item :: items)) := by
  intro rest _
  have hread := (row_items n).readsAs_cons rfl hitem hitems rest
  rw [reader_eq, List.cons_append]
  unfold readValue
  rw [skipSpace_cons rfl]
  simp only [innerReader, Option.bind_eq_bind, Option.bind_some, hread]
  rfl

/-- The members of an object are those that were written, if their names ascend. -/
theorem reads_object {member : String × Json} {members : List (String × Json)}
    (hkeys : Keyed.Ascending (member :: members))
    (hmember : ReadsAs (readMember (reader ofMembers n)) cs member)
    (hmembers : ReadsMembers n cs' members) :
    Reads (n + 1) ('{' :: (cs ++ cs')) (.object (member :: members)) := by
  intro rest _
  have hread := (row_members _).readsAs_cons rfl hmember hmembers rest
  rw [reader_eq, List.cons_append]
  unfold readValue
  rw [skipSpace_cons rfl]
  simp only [innerReader, Option.bind_eq_bind, Option.bind_some, hread, ofMembers,
    Keyed.ofList_eq_self hkeys]
  rfl

end Json
end DataTerms

/-
# Places

A place in a tree of data is the row of steps that leads to it from the root. Each step has a text
between brackets, in which an index shows digits and a name its quote marks, and what is between
the brackets ends at its own closing bracket, whatever stands in the name. So no two places have
one text. Steps to items are in the order of their indices and steps to entries in that of their
names, and places in the order of their steps, as words are.

Key definitions: `Path.Step`, `Path.ofSteps`.
Key theorems: `Path.chars_ofSteps`, `Path.text_ofSteps_injective`.
-/
import DataTerms.Path
import DataTerms.Proofs.Text.Quoted

namespace DataTerms
namespace Path

open Text

/-- A step from a node to one below it. -/
inductive Step where
  /-- To the item of a list with an index. -/
  | index (i : Nat)
  /-- To the entry of a map with a key. -/
  | key (name : String)
  deriving DecidableEq, Repr

/-- The path with a step more. -/
def follow (path : Path) : Step → Path
  | .index i => path.index i
  | .key name => path.key name

/-- The path from the root on. -/
def ofSteps (steps : List Step) : Path := steps.foldl follow .root

namespace Step

/-- The characters of a step. -/
def chars : Step → List Char
  | .index i => '[' :: Nat.toDigits 10 i ++ [']']
  | .key name => '[' :: quoted name.toList ++ [']']

theorem not_mem_toDigits {c : Char} (h : c = ']' ∨ c = '"') (n : Nat) : c ∉ Nat.toDigits 10 n := by
  intro hmem
  have hdigit := Nat.isDigit_of_mem_toDigits (by decide) (by decide) hmem
  rcases h with rfl | rfl
  · exact absurd hdigit (by decide)
  · exact absurd hdigit (by decide)

/-- An index does not begin like a quoted name. -/
theorem toDigits_append_ne_quoted (i : Nat) (name rest rest' : List Char) :
    Nat.toDigits 10 i ++ rest ≠ quoted name ++ rest' := by
  intro h
  cases hdigits : Nat.toDigits 10 i with
  | nil => exact Nat.toDigits_ne_nil hdigits
  | cons d digits =>
    rw [hdigits] at h
    have hd : d = '"' := (List.cons.inj h).1
    exact not_mem_toDigits (.inr hd) i (hdigits ▸ List.mem_cons_self)

theorem selfDelimiting_chars : SelfDelimiting chars := by
  intro a b rest rest' h
  cases a with
  | index i =>
    cases b with
    | index j =>
      simp only [chars, List.cons_append, List.append_assoc, List.cons.injEq, true_and,
        List.nil_append] at h
      have hbracket := not_mem_toDigits (.inl rfl)
      obtain ⟨hdigits, hrest⟩ := append_cons_inj (hbracket i) (hbracket j) h
      exact ⟨by rw [toDigits_inj (by decide) hdigits], hrest⟩
    | key name =>
      simp only [chars, List.cons_append, List.append_assoc, List.cons.injEq, true_and] at h
      exact absurd h (toDigits_append_ne_quoted _ _ _ _)
  | key name =>
    cases b with
    | index j =>
      simp only [chars, List.cons_append, List.append_assoc, List.cons.injEq, true_and] at h
      exact absurd h.symm (toDigits_append_ne_quoted _ _ _ _)
    | key name' =>
      simp only [chars, List.cons_append, List.append_assoc, List.cons.injEq, true_and] at h
      obtain ⟨hname, hrest⟩ := selfDelimiting_quoted h
      exact ⟨by rw [String.toList_inj.mp hname], (List.cons.inj hrest).2⟩

/-! ### The order of steps -/

/-- The order of steps from one node. -/
instance : LT Step where
  lt
    | .index i, .index j => i < j
    | .key name, .key name' => name < name'
    | _, _ => False

/-- Of two steps not each is before the other. -/
instance : @Std.Asymm Step (· < ·) where
  asymm
    | .index _, .index _, h => Nat.lt_asymm h
    | .key _, .key _, h => String.lt_asymm h

end Step

/-! ### The text of a place -/

theorem chars_foldl_follow : ∀ (steps : List Step) (path : Path),
    (steps.foldl follow path).chars = path.chars ++ steps.flatMap Step.chars
  | [], path => (List.append_nil _).symm
  | .index i :: rest, path => by
    rw [List.foldl_cons, chars_foldl_follow rest, follow, chars, List.flatMap_cons, Step.chars,
      List.append_assoc]
    simp
  | .key name :: rest, path => by
    rw [List.foldl_cons, chars_foldl_follow rest, follow, chars, List.flatMap_cons, Step.chars]
    simp

theorem chars_ofSteps (steps : List Step) :
    (ofSteps steps).chars = '$' :: steps.flatMap Step.chars :=
  chars_foldl_follow steps .root

/-- No two places have one text. -/
theorem text_ofSteps_injective {steps steps' : List Step}
    (h : (ofSteps steps).text = (ofSteps steps').text) : steps = steps' := by
  have hchars : (ofSteps steps).chars = (ofSteps steps').chars := String.ofList_injective h
  rw [chars_ofSteps, chars_ofSteps] at hchars
  have hopen : OpensWithout '$' Step.chars := by
    rintro (i | name)
    · exact ⟨'[', _, rfl, by decide⟩
    · exact ⟨'[', _, rfl, by decide⟩
  have hended : steps.flatMap Step.chars ++ ['$'] = steps'.flatMap Step.chars ++ ['$'] := by
    rw [(List.cons.inj hchars).2]
  exact (Step.selfDelimiting_chars.flatMap_cons_inj hopen hended).1

end Path
end DataTerms

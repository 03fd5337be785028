/-
# Texts that stay on one line

A text none of whose characters is below the space stays on one line wherever it is shown, and
cannot pass for the end of it. Strings and names may hold any character, but they are only ever
shown between quote marks, and there such characters are escaped. So paths, numbers and quoted
strings stay on one line whatever they are of.

Key definitions: `Text.OneLine`.
Key theorems: `Path.oneLine_text`, `Json.oneLine_quote`, `Json.Number.oneLine_text`.
-/
import DataTerms.Path
import DataTerms.Proofs.Json.Tokens

namespace DataTerms
namespace Text

/-- No character is below the space. -/
def OneLine (cs : List Char) : Prop := ∀ c ∈ cs, ' ' ≤ c

-- by the codes, so that no proof of the order of characters is unfolded
instance (cs : List Char) : Decidable (OneLine cs) :=
  decidable_of_iff (cs.all (fun c => Nat.ble 32 c.toNat) = true) (by
    simp only [List.all_eq_true, Nat.ble_eq]
    rfl)

@[simp] theorem oneLine_nil : OneLine [] := nofun

@[simp] theorem oneLine_cons {c : Char} {cs : List Char} :
    OneLine (c :: cs) ↔ ' ' ≤ c ∧ OneLine cs :=
  List.forall_mem_cons

@[simp] theorem oneLine_append {front back : List Char} :
    OneLine (front ++ back) ↔ OneLine front ∧ OneLine back :=
  List.forall_mem_append

/-- The text of characters on one line. A text that is given as it is, is one of its characters, so
that none of it has to be decoded. -/
theorem oneLine_ofList {cs : List Char} (h : OneLine cs) : OneLine (String.ofList cs).toList := by
  rwa [String.toList_ofList]

theorem OneLine.of_subset {cs cs' : List Char} (h : OneLine cs) (hsub : cs' ⊆ cs) : OneLine cs' :=
  fun c hmem => h c (hsub hmem)

theorem oneLine_replicate {c : Char} (h : ' ' ≤ c) (n : Nat) : OneLine (List.replicate n c) := by
  intro d hmem
  exact List.eq_of_mem_replicate hmem ▸ h

@[simp] theorem oneLine_toDigits (n : Nat) : OneLine (Nat.toDigits 10 n) :=
  forall_mem_toDigits (by decide) (by decide)

theorem oneLine_nat (n : Nat) : OneLine (toString n).toList := by
  simp

theorem oneLine_int (i : Int) : OneLine (toString i).toList := by
  rw [Json.toList_toString_int]
  split <;> simp

@[simp] theorem oneLine_quoted (text : List Char) : OneLine (quoted text) :=
  fun _ => space_le_of_mem_quoted

theorem OneLine.append {front back : String} (hfront : OneLine front.toList)
    (hback : OneLine back.toList) : OneLine (front ++ back).toList := by
  simp [hfront, hback]

section Around

variable {word : String} (h : OneLine word.toList) {front back : List Char}
include h

/-- A word on one line after given characters. -/
theorem OneLine.after (hfront : OneLine front) : OneLine (String.ofList front ++ word).toList :=
  (oneLine_ofList hfront).append h

/-- A word on one line before given characters. -/
theorem OneLine.before (hback : OneLine back) : OneLine (word ++ String.ofList back).toList :=
  h.append (oneLine_ofList hback)

/-- A word on one line between given characters. -/
theorem OneLine.between (hfront : OneLine front) (hback : OneLine back) :
    OneLine (String.ofList front ++ word ++ String.ofList back).toList :=
  (h.after hfront).before hback

end Around

/-- Words on one line stay there with commas between them. -/
theorem oneLine_intercalate : ∀ {words : List String}, (∀ word ∈ words, OneLine word.toList) →
    OneLine (", ".intercalate words).toList
  | [], _ => oneLine_nil
  | [word], h => by
    rw [String.intercalate_singleton]
    exact h word List.mem_cons_self
  | word :: next :: rest, h => by
    obtain ⟨hword, hrest⟩ := List.forall_mem_cons.mp h
    have ih := oneLine_intercalate hrest
    rw [String.intercalate_cons_cons]
    exact (hword.before (by decide)).append ih

end Text

open Text (OneLine)

/-- The text of a path stays on one line, whatever keys the path has. -/
@[simp] theorem Path.oneLine_text (path : Path) : OneLine path.text.toList := by
  refine Text.oneLine_ofList ?_
  induction path with
  | root => decide
  | index parent i ih => simp [chars, ih]
  | key parent name ih => simp [chars, ih]

namespace Decimal

theorem oneLine_positional {digits : List Char} (h : OneLine digits) (exponent : Int) :
    OneLine (positional digits exponent) := by
  have hzeros (n : Nat) : OneLine (List.replicate n '0') := Text.oneLine_replicate (by decide) n
  unfold positional
  split
  · simp [h, hzeros]
  · dsimp only
    split
    · have hfront := h.of_subset (List.take_subset (digits.length - (-exponent).toNat) digits)
      have hback := h.of_subset (List.drop_subset (digits.length - (-exponent).toNat) digits)
      simp [hfront, hback]
    · simp [h, hzeros]

theorem oneLine_scientific {digits : List Char} (h : OneLine digits) (power : Int) :
    OneLine (scientific digits power) := by
  have hsign : ' ' ≤ if power < 0 then '-' else '+' := by split <;> decide
  unfold scientific
  split
  · simpa [hsign] using h
  · simp [h, hsign]

theorem Layout.oneLine_chars (layout : Layout) (negative : Bool) (decimal : Decimal) :
    OneLine (layout.chars negative decimal) := by
  have hdigits := Text.oneLine_toDigits decimal.digits
  have hsign : OneLine (if negative then ['-'] else []) := by split <;> decide
  unfold chars
  dsimp only
  rw [Text.oneLine_append]
  refine ⟨hsign, ?_⟩
  split
  · exact oneLine_positional hdigits _
  · exact oneLine_scientific hdigits _

end Decimal

namespace Json

@[simp] theorem Number.oneLine_text : ∀ value : Number, OneLine value.text.toList
  | .int value => Text.oneLine_int value
  | .float value => by
    rw [text]
    cases Binary.ofFloat? value with
    | some finite =>
      exact Text.oneLine_ofList (Decimal.Layout.oneLine_chars .double _ _)
    | none => exact Text.oneLine_ofList (by decide)

/-- What stands for a character in a string is not below the space. -/
theorem oneLine_escape (c : Char) : OneLine (escape c) := by
  have hdigit : ∀ d : Fin 16, ' ' ≤ Nat.digitChar d := by decide
  unfold escape
  iterate 7
    split
    · decide
  split
  · next h =>
    have hcode : c.toNat < 32 := h
    have hhigh := hdigit ⟨c.toNat / 16, by omega⟩
    have hlow := hdigit ⟨c.toNat % 16, by omega⟩
    simp +decide [hhigh, hlow]
  · next h => simpa using h

@[simp] theorem oneLine_quote (text : List Char) : OneLine (quote text) := by
  have hinside : OneLine (text.flatMap escape) := by
    intro d hmem
    obtain ⟨c, -, hd⟩ := List.mem_flatMap.mp hmem
    exact oneLine_escape c d hd
  simp [quote, hinside]

end Json
end DataTerms

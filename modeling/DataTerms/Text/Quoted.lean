/-
# Quoted text

A text between two quote marks, written so that it stays on one line and every
character shows: the delimiter and the backslash after a backslash, four control
characters by a letter or digit, and whatever has no printed shape, or would attach
to the character before it, by its code point between braces. The rest stand for
themselves, so a quoted text holds no control character.

Key definitions: `Text.escape`, `Text.quoted`, `Text.quotedChar`.
Key theorems: `Text.space_le_of_mem_escape`, `Text.space_le_of_mem_quoted`.
-/
import DataTerms.Text.Extending
import DataTerms.Text.Unprintable

namespace DataTerms
namespace Text

/-- A code point in lower-case hexadecimal digits between braces, after a backslash
and a `u`. -/
def codePoint (c : Char) : List Char :=
  '\\' :: 'u' :: '{' :: Nat.toDigits 16 c.toNat ++ ['}']

/-- A character within quote marks of the given shape. -/
def escape (delimiter : Char) (c : Char) : List Char :=
  if c = delimiter ∨ c = '\\' then ['\\', c]
  else if ' ' ≤ c ∧ c ≤ '~' then [c]
  else if c = '\x00' then ['\\', '0']
  else if c = '\t' then ['\\', 't']
  else if c = '\n' then ['\\', 'n']
  else if c = '\r' then ['\\', 'r']
  else if c < ' ' ∨ extending.holds c ∨ unprintable.holds c then codePoint c
  else [c]

/-- A text between double quote marks. -/
def quoted (text : List Char) : List Char :=
  '"' :: text.flatMap (escape '"') ++ ['"']

/-- A single character between single quote marks. -/
def quotedChar (c : Char) : List Char :=
  '\'' :: escape '\'' c ++ ['\'']

/-- What holds of the sixteen digits holds of all digits of numbers. -/
theorem forall_mem_toDigits {p : Char → Prop} (h : ∀ d : Fin 16, p (Nat.digitChar d)) {base : Nat}
    (hbase : 1 < base ∧ base ≤ 16) {n : Nat} : ∀ c ∈ Nat.toDigits base n, p c := by
  induction n using Nat.strongRecOn with
  | ind n ih =>
    intro c hmem
    rcases Nat.lt_or_ge n base with hn | hn
    · rw [Nat.toDigits_of_lt_base hn, List.mem_singleton] at hmem
      exact hmem ▸ h ⟨n, by omega⟩
    · have hmod := Nat.mod_lt n (Nat.zero_lt_of_lt hbase.1)
      have hdiv := Nat.div_lt_self (by omega : 0 < n) hbase.1
      rw [Nat.toDigits_of_base_le hbase.1 hn, List.mem_append, List.mem_singleton] at hmem
      rcases hmem with hmem | rfl
      · exact ih (n / base) hdiv c hmem
      · exact h ⟨n % base, by omega⟩

theorem space_le_digit {n : Nat} {c : Char} (h : c ∈ Nat.toDigits 16 n) : ' ' ≤ c :=
  forall_mem_toDigits (by decide) (by decide) c h

theorem space_le_of_mem_codePoint {c d : Char} (h : d ∈ codePoint c) : ' ' ≤ d := by
  simp only [codePoint, List.mem_cons, List.mem_append, List.cons_append, List.not_mem_nil,
    or_false] at h
  rcases h with rfl | rfl | rfl | h | rfl
  · decide
  · decide
  · decide
  · exact space_le_digit h
  · decide

/-- No character of an escape is a control character below the space, for a delimiter
that is none. -/
theorem space_le_of_mem_escape {delimiter c d : Char} (hd : ' ' ≤ delimiter)
    (h : d ∈ escape delimiter c) : ' ' ≤ d := by
  unfold escape at h
  split at h
  · next hc =>
    rcases List.mem_cons.mp h with rfl | h
    · decide
    · rw [List.mem_singleton.mp h]
      rcases hc with rfl | rfl
      · exact hd
      · decide
  split at h
  · next hc => exact List.mem_singleton.mp h ▸ hc.1
  iterate 4
    split at h
    · simp only [List.mem_cons, List.not_mem_nil, or_false] at h
      rcases h with rfl | rfl <;> decide
  split at h
  · exact space_le_of_mem_codePoint h
  · next hc => exact List.mem_singleton.mp h ▸ Char.not_lt.mp fun hlt => hc (Or.inl hlt)

/-- A quoted text has no control character below the space. -/
theorem space_le_of_mem_quoted {text : List Char} {d : Char} (h : d ∈ quoted text) :
    ' ' ≤ d := by
  simp only [quoted, List.cons_append, List.mem_cons, List.mem_append, List.mem_flatMap,
    List.not_mem_nil, or_false] at h
  rcases h with rfl | ⟨c, _, h⟩ | rfl
  · decide
  · exact space_le_of_mem_escape (by decide) h
  · decide

end Text
end DataTerms

/-
# White space

The characters with the Unicode property White_Space, and a text without those at
its two ends.

Key definitions: `Text.blanks`, `Text.isBlank`, `Text.trim`.
-/
import DataTerms.Text.Ranges

namespace DataTerms
namespace Text

/-- The characters with the property White_Space. -/
def blanks : Ranges :=
  [(0x9, 0xd), (0x20, 0x20), (0x85, 0x85), (0xa0, 0xa0), (0x1680, 0x1680), (0x2000, 0x200a),
    (0x2028, 0x2029), (0x202f, 0x202f), (0x205f, 0x205f), (0x3000, 0x3000)]

/-- The character is white space. -/
def isBlank (c : Char) : Bool := blanks.holds c

/-- The text without the white space at its two ends. -/
def trim (text : List Char) : List Char :=
  ((text.dropWhile isBlank).reverse.dropWhile isBlank).reverse

/-- A text whose first and last characters are no white space is its own trimmed form. -/
theorem trim_eq_self {text : List Char} (hfirst : ∀ c, text.head? = some c → isBlank c = false)
    (hlast : ∀ c, text.getLast? = some c → isBlank c = false) : trim text = text := by
  have hstart : text.dropWhile isBlank = text := by
    cases text with
    | nil => rfl
    | cons c rest => simp [hfirst c rfl]
  have hend : text.reverse.dropWhile isBlank = text.reverse := by
    cases h : text.reverse with
    | nil => rfl
    | cons c rest =>
      have : text.getLast? = some c := by
        rw [List.getLast?_eq_head?_reverse, h]
        rfl
      simp [hlast c this]
  rw [trim, hstart, hend, List.reverse_reverse]

end Text
end DataTerms

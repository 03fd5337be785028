/-
# Digits in a word

The digits of bytes are written one byte each, and none of them is white space or the letter of
the mark `0x`. So in a word that has them between white space, with the mark or without it, they
are found, and the bytes are read back.

Key definitions: `Hex.SpelledBy`.
Key theorems: `Text.trim_append`, `Hex.encode_encode`, `Hex.readBytes_word`.
-/
import DataTerms.Command.Run
import DataTerms.Proofs.Outcomes

namespace DataTerms

/-- White space about a text that has none at its ends is taken away. -/
theorem Text.trim_append {before core after : List Char}
    (hbefore : ∀ c ∈ before, isBlank c = true) (hafter : ∀ c ∈ after, isBlank c = true)
    (hcore : ∀ c ∈ core, isBlank c = false) : trim (before ++ core ++ after) = core := by
  have hreverse : ∀ c ∈ after.reverse, isBlank c = true :=
    fun c hmem => hafter c (List.mem_reverse.mp hmem)
  have htrim : trim (before ++ core ++ after) = trim core := by
    rw [trim, trim, List.append_assoc, List.dropWhile_append_of_pos hbefore]
    cases core with
    | nil =>
      rw [List.nil_append, ← List.append_nil after, List.dropWhile_append_of_pos hafter]
    | cons c rest =>
      have hc := hcore c List.mem_cons_self
      rw [List.cons_append, List.dropWhile_cons_of_neg (by simp [hc]),
        List.dropWhile_cons_of_neg (by simp [hc]), ← List.cons_append, List.reverse_append,
        List.dropWhile_append_of_pos hreverse]
  rw [htrim]
  refine trim_eq_self (fun c hfirst => ?_) (fun c hlast => ?_)
  · exact hcore c (List.mem_of_mem_head? hfirst)
  · exact hcore c (List.mem_of_getLast? hlast)

namespace Hex

open Text (isBlank)

/-- What holds of the sixteen digits holds of all digits of bytes. -/
theorem forall_mem_digits {p : UInt8 → Prop} (h : ∀ n : Fin 16, p (digit (UInt8.ofNat n))) :
    ∀ {bytes : List UInt8}, ∀ d ∈ digits bytes, p d
  | [], _, hmem => nomatch hmem
  | b :: rest, d, hmem => by
    have hlt := b.toNat_lt
    have hhigh : p (digit (b / 16)) := by
      have hdigit := h ⟨(b / 16).toNat, by rw [UInt8.toNat_div]; exact Nat.div_lt_of_lt_mul hlt⟩
      rwa [UInt8.ofNat_toNat] at hdigit
    have hlow : p (digit (b % 16)) := by
      have hdigit := h ⟨(b % 16).toNat, by rw [UInt8.toNat_mod]; exact Nat.mod_lt _ (by decide)⟩
      rwa [UInt8.ofNat_toNat] at hdigit
    rcases List.mem_cons.mp hmem with rfl | hmem
    · exact hhigh
    · rcases List.mem_cons.mp hmem with rfl | hmem
      · exact hlow
      · exact forall_mem_digits h d hmem

theorem encode_encode (bytes : List UInt8) : Utf8.encode (encode bytes) = digits bytes := by
  have hbyte : ∀ d ∈ digits bytes, String.utf8EncodeChar (Char.ofUInt8 d) = [d] :=
    forall_mem_digits (by decide +kernel)
  rw [encode, Utf8.encode_ofList, List.flatMap_map, List.flatMap_def, List.map_congr_left hbyte,
    ← List.flatMap_def, List.flatMap_singleton']

theorem forall_mem_encode {p : Char → Prop}
    (h : ∀ n : Fin 16, p (Char.ofUInt8 (digit (UInt8.ofNat n)))) {bytes : List UInt8} :
    ∀ c ∈ (encode bytes).toList, p c := by
  intro c hmem
  rw [encode, String.toList_ofList] at hmem
  obtain ⟨d, hd, rfl⟩ := List.mem_map.mp hmem
  exact forall_mem_digits (p := fun d => p (Char.ofUInt8 d)) h d hd

theorem length_encode (bytes : List UInt8) : (encode bytes).length = 2 * bytes.length := by
  rw [encode, String.length_ofList, List.length_map, length_digits]

/-- A word has a text of digits between white space, perhaps with the mark `0x` before them. -/
def SpelledBy (word hex : String) : Prop :=
  ∃ before mark after : List Char, word.toList = before ++ (mark ++ hex.toList) ++ after ∧
    (mark = [] ∨ mark = ['0', 'x']) ∧
    (∀ c ∈ before, isBlank c = true) ∧ ∀ c ∈ after, isBlank c = true

variable {bytes : List UInt8} {word : String}

theorem digitsOf_word (h : SpelledBy word (encode bytes)) :
    Surroundings.digitsOf word = (encode bytes).toList := by
  obtain ⟨before, mark, after, hword, hmark, hbefore, hafter⟩ := h
  have hdigits : ∀ c ∈ (encode bytes).toList, isBlank c = false :=
    forall_mem_encode (by decide +kernel)
  have hx : ∀ c ∈ (encode bytes).toList, c ≠ 'x' := forall_mem_encode (by decide +kernel)
  have hcore : ∀ c ∈ mark ++ (encode bytes).toList, isBlank c = false := by
    intro c hmem
    rcases List.mem_append.mp hmem with hmem | hmem
    · rcases hmark with rfl | rfl
      · cases hmem
      · simp only [List.mem_cons, List.not_mem_nil, or_false] at hmem
        rcases hmem with rfl | rfl <;> decide
    · exact hdigits c hmem
  rw [Surroundings.digitsOf, hword, Text.trim_append hbefore hafter hcore]
  rcases hmark with rfl | rfl
  · rw [List.nil_append]
    split
    · next heq =>
      -- no digit is the letter of the mark
      have hmem : 'x' ∈ (encode bytes).toList := by simp [heq]
      exact absurd rfl (hx 'x' hmem)
    · rfl
  · rfl

/-- The bytes are read back from a word that has their digits. -/
theorem readBytes_word (h : SpelledBy word (encode bytes)) (surroundings : Surroundings) :
    surroundings.readBytes (.word word) = .ok bytes := by
  rw [Surroundings.readBytes, digitsOf_word h, String.ofList_toList, encode_encode, decode_digits]
  rfl

theorem head?_word (h : SpelledBy word (encode bytes)) : word.toList.head? ≠ some '-' := by
  intro hhead
  obtain ⟨before, mark, after, hword, hmark, hbefore, hafter⟩ := h
  have hdigits : ∀ c ∈ (encode bytes).toList, c ≠ '-' := forall_mem_encode (by decide +kernel)
  have hdash : isBlank '-' = false := by decide
  have hmem := List.mem_of_mem_head? hhead
  rw [hword] at hmem
  simp only [List.mem_append] at hmem
  rcases hmem with (hmem | hmem | hmem) | hmem
  · exact absurd (hbefore _ hmem) (by simp [hdash])
  · rcases hmark with rfl | rfl <;> simp at hmem
  · exact hdigits _ hmem rfl
  · exact absurd (hafter _ hmem) (by simp [hdash])

end Hex
end DataTerms

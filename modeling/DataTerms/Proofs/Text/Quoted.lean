/-
# Quoted texts are told apart

What is written one after the other can be told apart if no matter what follows the first of it,
this first is found again, with what follows. The escapes of characters are written so. They have
three shapes: the character itself, which is neither the quote mark nor the backslash; a letter
after a backslash; and the digits of a code point between braces, which end where the brace is, as
no digit is a brace. None of them begins with the quote mark, so a quoted text ends at the first
quote mark where an escape would begin, whatever follows it.

Key definitions: `Text.SelfDelimiting`, `Text.Escapes`.
Key theorems: `Text.toDigits_inj`, `Text.SelfDelimiting.flatMap_cons_inj`,
`Text.selfDelimiting_escape`, `Text.selfDelimiting_quoted`.
-/
import DataTerms.Text.Quoted

namespace DataTerms
namespace Text

/-! ### Digits -/

theorem toDigits_inj {base : Nat} (hbase : 1 < base ∧ base ≤ 16) : ∀ {m n : Nat},
    Nat.toDigits base m = Nat.toDigits base n → m = n := by
  have hdigit : ∀ i j : Fin 16, Nat.digitChar i = Nat.digitChar j → i = j := by decide
  have hchar : ∀ {i j : Nat}, i < base → j < base → Nat.digitChar i = Nat.digitChar j → i = j := by
    intro i j hi hj heq
    exact Fin.mk.inj (hdigit ⟨i, by omega⟩ ⟨j, by omega⟩ heq)
  intro m
  induction m using Nat.strongRecOn with
  | ind m ih =>
    intro n h
    have hm := Nat.mod_lt m (Nat.zero_lt_of_lt hbase.1)
    have hn := Nat.mod_lt n (Nat.zero_lt_of_lt hbase.1)
    rcases Nat.lt_or_ge m base with hmlt | hmge <;> rcases Nat.lt_or_ge n base with hnlt | hnge
    · rw [Nat.toDigits_of_lt_base hmlt, Nat.toDigits_of_lt_base hnlt] at h
      exact hchar hmlt hnlt (List.cons.inj h).1
    · rw [Nat.toDigits_of_lt_base hmlt, Nat.toDigits_of_base_le hbase.1 hnge] at h
      change [] ++ [Nat.digitChar m] = _ at h
      exact absurd (List.append_inj' h rfl).1.symm Nat.toDigits_ne_nil
    · rw [Nat.toDigits_of_base_le hbase.1 hmge, Nat.toDigits_of_lt_base hnlt] at h
      change _ = [] ++ [Nat.digitChar n] at h
      exact absurd (List.append_inj' h rfl).1 Nat.toDigits_ne_nil
    · rw [Nat.toDigits_of_base_le hbase.1 hmge, Nat.toDigits_of_base_le hbase.1 hnge] at h
      obtain ⟨hhigh, hlow⟩ := List.append_inj' h rfl
      have hdiv := ih (m / base) (Nat.div_lt_self (by omega) hbase.1) hhigh
      have hmod := hchar hm hn (List.cons.inj hlow).1
      rw [← Nat.div_add_mod m base, ← Nat.div_add_mod n base, hdiv, hmod]

/-! ### Rows that are told apart -/

section SelfDelimiting

variable {α : Type} {write : α → List Char}

/-- Of two rows that begin with what is written of something, it is the same if they are, and so
is what follows. -/
def SelfDelimiting (write : α → List Char) : Prop :=
  ∀ {a b : α} {rest rest' : List Char}, write a ++ rest = write b ++ rest' → a = b ∧ rest = rest'

/-- What comes before the first of some character, and what comes after it. -/
theorem append_cons_inj {c : Char} : ∀ {front front' rest rest' : List Char}, c ∉ front →
    c ∉ front' → front ++ c :: rest = front' ++ c :: rest' → front = front' ∧ rest = rest'
  | [], [], _, _, _, _, h => ⟨rfl, (List.cons.inj h).2⟩
  | [], _ :: _, _, _, _, hfront', h =>
    absurd ((List.cons.inj h).1 ▸ List.mem_cons_self) hfront'
  | _ :: _, [], _, _, hfront, _, h =>
    absurd ((List.cons.inj h).1 ▸ List.mem_cons_self) hfront
  | _ :: front, _ :: front', _, _, hfront, hfront', h => by
    obtain ⟨hhead, htail⟩ := List.cons.inj h
    obtain ⟨hfronts, hrest⟩ := append_cons_inj (fun hmem => hfront (List.mem_cons_of_mem _ hmem))
      (fun hmem => hfront' (List.mem_cons_of_mem _ hmem)) htail
    exact ⟨by rw [hhead, hfronts], hrest⟩

/-- What is written of something begins with another character. -/
def OpensWithout (close : Char) (write : α → List Char) : Prop :=
  ∀ a, ∃ c word, write a = c :: word ∧ c ≠ close

/-- A row ends where a character follows with which nothing in the row begins. -/
theorem SelfDelimiting.flatMap_cons_inj (hwrite : SelfDelimiting write) {close : Char}
    (hopen : OpensWithout close write) : ∀ {row row' : List α} {rest rest' : List Char},
    row.flatMap write ++ close :: rest = row'.flatMap write ++ close :: rest' →
      row = row' ∧ rest = rest'
  | [], [], _, _, h => ⟨rfl, (List.cons.inj h).2⟩
  | [], b :: _, _, _, h => by
    obtain ⟨c, word, hword, hne⟩ := hopen b
    rw [List.flatMap_cons, hword] at h
    exact absurd (List.cons.inj h).1.symm hne
  | a :: _, [], _, _, h => by
    obtain ⟨c, word, hword, hne⟩ := hopen a
    rw [List.flatMap_cons, hword] at h
    exact absurd (List.cons.inj h).1 hne
  | a :: row, b :: row', _, _, h => by
    rw [List.flatMap_cons, List.flatMap_cons, List.append_assoc, List.append_assoc] at h
    obtain ⟨rfl, hrow⟩ := hwrite h
    obtain ⟨rfl, hrest⟩ := hwrite.flatMap_cons_inj hopen hrow
    exact ⟨rfl, hrest⟩

end SelfDelimiting

/-! ### Escapes -/

/-- The letters that stand after a backslash, and for which characters. -/
def escapeLetters : List (Char × Char) :=
  [('"', '"'), ('\\', '\\'), ('0', '\x00'), ('t', '\t'), ('n', '\n'), ('r', '\r')]

/-- The shapes of the escape of a character between double quote marks. -/
inductive Escapes (c : Char) : List Char → Prop where
  | plain : c ≠ '"' → c ≠ '\\' → Escapes c [c]
  | letter {x : Char} : (x, c) ∈ escapeLetters → Escapes c ['\\', x]
  | code : Escapes c (codePoint c)

theorem escapes_escape (c : Char) : Escapes c (escape '"' c) := by
  unfold escape
  split
  · next h =>
    rcases h with rfl | rfl
    · exact .letter (by decide)
    · exact .letter (by decide)
  · next h =>
    have hplain : Escapes c [c] := .plain (fun heq => h (.inl heq)) fun heq => h (.inr heq)
    split
    · exact hplain
    iterate 4
      split
      · next heq =>
        subst heq
        exact .letter (by decide)
    split
    · exact .code
    · exact hplain

/-- The digits of a code point end where their brace is. -/
theorem codePoint_append_inj {c d : Char} {rest rest' : List Char}
    (h : codePoint c ++ rest = codePoint d ++ rest') : c = d ∧ rest = rest' := by
  have hbrace : ∀ n, '}' ∉ Nat.toDigits 16 n := fun n hmem =>
    forall_mem_toDigits (p := (· ≠ '}')) (by decide) (by decide) _ hmem rfl
  simp only [codePoint, List.cons_append, List.append_assoc, List.cons.injEq, true_and,
    List.nil_append] at h
  obtain ⟨hdigits, hrest⟩ := append_cons_inj (hbrace _) (hbrace _) h
  exact ⟨Char.toNat_inj.mp (toDigits_inj (by decide) hdigits), hrest⟩

theorem selfDelimiting_escape : SelfDelimiting (escape '"') := by
  have hletters : ∀ p ∈ escapeLetters, ∀ q ∈ escapeLetters, p.1 = q.1 → p.2 = q.2 := by decide
  have hnotU : ∀ p ∈ escapeLetters, p.1 ≠ 'u' := by decide
  intro c d rest rest' h
  have hc := escapes_escape c
  have hd := escapes_escape d
  generalize escape '"' c = word at h hc
  generalize escape '"' d = word' at h hd
  cases hc with
  | plain _ hbackslash =>
    cases hd with
    | plain => exact List.cons.inj h
    | letter | code => exact absurd (List.cons.inj h).1 hbackslash
  | letter hx =>
    cases hd with
    | plain _ hbackslash => exact absurd (List.cons.inj h).1.symm hbackslash
    | letter hy =>
      obtain ⟨hletter, hrest⟩ := List.cons.inj (List.cons.inj h).2
      exact ⟨hletters _ hx _ hy hletter, hrest⟩
    | code => exact absurd (List.cons.inj (List.cons.inj h).2).1 (hnotU _ hx)
  | code =>
    cases hd with
    | plain _ hbackslash => exact absurd (List.cons.inj h).1.symm hbackslash
    | letter hy => exact absurd (List.cons.inj (List.cons.inj h).2).1.symm (hnotU _ hy)
    | code => exact codePoint_append_inj h

theorem opensWithout_escape : OpensWithout '"' (escape '"') := by
  intro c
  have hc := escapes_escape c
  generalize escape '"' c = word at hc
  cases hc with
  | plain hquote => exact ⟨c, [], rfl, hquote⟩
  | letter => exact ⟨'\\', _, rfl, by decide⟩
  | code => exact ⟨'\\', _, rfl, by decide⟩

theorem selfDelimiting_quoted : SelfDelimiting quoted := by
  intro a b rest rest' h
  simp only [quoted, List.cons_append, List.append_assoc, List.cons.injEq, true_and,
    List.nil_append] at h
  exact selfDelimiting_escape.flatMap_cons_inj opensWithout_escape h

end Text
end DataTerms

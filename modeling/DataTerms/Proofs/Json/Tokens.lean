/-
# Strings and whole numbers are read back

A string that was written between quote marks is read back whatever follows it, since no quote
mark stands in it without a backslash. The digits of a whole number end where something follows
that is no digit, and they are the number if neither a fraction nor a power of ten follows
either.

Key definitions: `Json.EndsNumeral`.
Key theorems: `Json.readString_quote`, `Json.readNumber_int`.
-/
import DataTerms.Json.Parser
import DataTerms.Json.Printer

namespace DataTerms

theorem Text.hexValue?_digitChar {n : Nat} (h : n < 16) : hexValue? (Nat.digitChar n) = some n := by
  have hall : ∀ d : Fin 16, hexValue? (Nat.digitChar d) = some d.val := by decide
  exact hall ⟨n, h⟩

namespace Json

open Text

variable {steps : Nat} {c : Char} {rest : List Char}

/-! ### Strings -/

/-- The escape of a control character by its code point is read as the character. -/
theorem readEscape_codePoint (h : c < ' ') (rest : List Char) :
    readEscape ('u' :: '0' :: '0' :: Nat.digitChar (c.toNat / 16) :: Nat.digitChar (c.toNat % 16) ::
      rest) = some (c, rest) := by
  have hlt : c.toNat < 32 := h
  have hhigh := hexValue?_digitChar (show c.toNat / 16 < 16 by omega)
  have hlow := hexValue?_digitChar (show c.toNat % 16 < 16 by omega)
  have hzero : hexValue? '0' = some 0 := by decide
  have hread : readHex 4 ('0' :: '0' :: Nat.digitChar (c.toNat / 16) ::
      Nat.digitChar (c.toNat % 16) :: rest) = some (c.toNat, rest) := by
    simp [readHex, readHexOnto, hhigh, hlow, hzero, Nat.div_add_mod']
  have hplain : c.toNat < 0xD800 ∨ 0xDFFF < c.toNat := Or.inl (by omega)
  rw [readEscape, readUnit, hread]
  simp only [Option.bind_eq_bind, Option.bind_some, if_pos hplain, Char.ofNat_toNat]
  rfl

/-- What an escape stands for is the next character of the string. -/
theorem readChars_of_readEscape {text : List Char} (h : readEscape text = some (c, rest)) :
    readChars (steps + 1) ('\\' :: text) = (readChars steps rest).map fun r => (c :: r.1, r.2) := by
  rw [readChars, if_neg (by decide), if_pos rfl, h]
  cases hrest : readChars steps rest <;> simp [hrest]

theorem readChars_escape (c : Char) (steps : Nat) (rest : List Char) :
    readChars (steps + 1) (escape c ++ rest) =
      (readChars steps rest).map fun r => (c :: r.1, r.2) := by
  unfold escape
  iterate 7
    split
    · next h =>
      subst h
      exact readChars_of_readEscape rfl
  split
  · next h => exact readChars_of_readEscape (readEscape_codePoint h rest)
  · next hquote hbackslash _ _ _ _ _ hcontrol =>
    rw [List.singleton_append, readChars, if_neg hquote, if_neg hbackslash, if_neg hcontrol]
    cases hrest : readChars steps rest <;> simp

/-- The characters of a string are read back, one step for each and one for the quote mark. -/
theorem readChars_flatMap_escape (rest : List Char) : ∀ {text : List Char} {steps : Nat},
    text.length < steps → readChars steps (text.flatMap escape ++ '"' :: rest) = some (text, rest)
  | [], steps + 1, _ => rfl
  | c :: text, steps + 1, h => by
    have ih := readChars_flatMap_escape rest (Nat.lt_of_succ_lt_succ h)
    rw [List.flatMap_cons, List.append_assoc, readChars_escape, ih]
    rfl

theorem length_escape_pos (c : Char) : 0 < (escape c).length := by
  unfold escape
  repeat' split
  all_goals exact Nat.succ_pos _

theorem length_le_length_flatMap_escape : ∀ text : List Char,
    text.length ≤ (text.flatMap escape).length
  | [] => Nat.le_refl 0
  | c :: text => by
    have ih := length_le_length_flatMap_escape text
    have hpos := length_escape_pos c
    rw [List.flatMap_cons, List.length_append, List.length_cons]
    omega

theorem readString_quote (text : String) (rest : List Char) :
    readString (text.toList.flatMap escape ++ '"' :: rest) = some (text, rest) := by
  have hsteps := length_le_length_flatMap_escape text.toList
  have hlt : text.toList.length < (text.toList.flatMap escape ++ '"' :: rest).length := by
    rw [List.length_append, List.length_cons]
    omega
  rw [readString, readChars_flatMap_escape rest hlt]
  simp

/-! ### Whole numbers -/

/-- What does not go on with the digits of a whole number. -/
def EndsNumeral : List Char → Prop
  | [] => True
  | c :: _ => c.isDigit = false ∧ c ≠ '.' ∧ c ≠ 'e' ∧ c ≠ 'E'

namespace Numeral

theorem spanDigits_append {digits : List Char} (h : ∀ d ∈ digits, d.isDigit = true) :
    ∀ {rest : List Char}, EndsNumeral rest → spanDigits (digits ++ rest) = (digits, rest)
  | [], _ => by
    rw [spanDigits, List.takeWhile_append_of_pos h, List.dropWhile_append_of_pos h]
    simp
  | c :: rest, hends => by
    rw [spanDigits, List.takeWhile_append_of_pos h, List.dropWhile_append_of_pos h]
    simp [hends.1]

theorem readFraction_of_ends : ∀ {rest : List Char}, EndsNumeral rest →
    readFraction rest = some (none, rest)
  | [], _ => rfl
  | c :: rest, h => by
    unfold readFraction
    split
    · next heq => exact absurd (List.cons.inj heq).1 h.2.1
    · rfl

theorem readPower_of_ends : ∀ {rest : List Char}, EndsNumeral rest →
    readPower rest = some (none, rest)
  | [], _ => rfl
  | c :: rest, h => by
    have hnone : ¬ (c = 'e' ∨ c = 'E') := fun hor => hor.elim h.2.2.1 h.2.2.2
    rw [readPower, if_neg hnone]

/-- The digits of a number begin with a zero only if they are that zero. -/
theorem eq_nil_of_toDigits {n : Nat} {digits : List Char} (h : Nat.toDigits 10 n = '0' :: digits) :
    digits = [] := by
  induction n using Nat.strongRecOn generalizing digits with
  | ind n ih =>
    rcases Nat.lt_or_ge n 10 with hn | hn
    · rw [Nat.toDigits_of_lt_base hn] at h
      exact (List.cons.inj h).2.symm
    · rw [Nat.toDigits_of_base_le (by decide) hn] at h
      cases hhigh : Nat.toDigits 10 (n / 10) with
      | nil => exact absurd hhigh Nat.toDigits_ne_nil
      | cons d high =>
        -- the digits but the last are those of a tenth of the number, which is not zero
        rw [hhigh, List.cons_append, List.cons.injEq] at h
        obtain ⟨rfl, -⟩ := h
        obtain rfl := ih (n / 10) (Nat.div_lt_self (by omega) (by decide)) hhigh
        have hzero : n / 10 = 0 := by
          rw [← Nat.ofDigitChars_ten_toDigits (n := n / 10), hhigh]
          rfl
        omega

/-- Digits that make a number of 64 bits are all taken in. -/
theorem gather_eq : ∀ {digits : List Char} {n : Nat},
    Nat.ofDigitChars 10 digits n < UInt64.size →
      gather n digits = (Nat.ofDigitChars 10 digits n, 0)
  | [], _, _ => rfl
  | d :: digits, n, h => by
    have hle : n * 10 + (d.toNat - '0'.toNat) ≤
        Nat.ofDigitChars 10 digits (n * 10 + (d.toNat - '0'.toNat)) := by
      rw [Nat.ofDigitChars_eq_ofDigitChars_zero]
      exact Nat.le_trans (Nat.le_mul_of_pos_left _ (Nat.pow_pos (by decide))) (Nat.le_add_right _ _)
    rw [Nat.ofDigitChars_cons, Nat.mul_comm] at h ⊢
    rw [gather, if_pos (Nat.lt_of_le_of_lt hle h), gather_eq h]

/-- The digits of a number are read as a numeral that is a whole number. -/
theorem readUnsigned_toDigits (negative : Bool) (n : Nat) (hends : EndsNumeral rest) :
    readUnsigned negative (Nat.toDigits 10 n ++ rest) =
      some (⟨negative, Nat.toDigits 10 n, none, none⟩, rest) := by
  have hdigits : ∀ d ∈ Nat.toDigits 10 n, d.isDigit = true :=
    fun d hmem => Nat.isDigit_of_mem_toDigits (by decide) (by decide) hmem
  unfold readUnsigned
  rw [spanDigits_append hdigits hends]
  split
  · next heq => exact absurd (Prod.mk.inj heq).1 Nat.toDigits_ne_nil
  · next heq => cases eq_nil_of_toDigits (Prod.mk.inj heq).1
  · next heq =>
    obtain ⟨rfl, rfl⟩ := Prod.mk.inj heq
    simp only [readFraction_of_ends hends, readPower_of_ends hends, Option.bind_eq_bind,
      Option.bind_some, Option.pure_def]

theorem value?_toDigits (negative : Bool) {n : Nat} (h : n < UInt64.size) :
    value? ⟨negative, Nat.toDigits 10 n, none, none⟩ = some (wholeValue negative n) := by
  have hgather : gather 0 (Nat.toDigits 10 n) = (n, 0) := by
    rw [gather_eq (by rw [Nat.ofDigitChars_ten_toDigits]; exact h), Nat.ofDigitChars_ten_toDigits]
  simp only [value?, hgather]

end Numeral

/-- A whole number is written as its digits, after a minus sign where it is less than zero. -/
theorem toList_toString_int (i : Int) :
    (toString i).toList = (if i < 0 then ['-'] else []) ++ Nat.toDigits 10 i.natAbs := by
  show i.repr.toList = _
  rw [Int.repr_eq_if]
  split
  · next h =>
    have habs : i.toNat = i.natAbs := by omega
    rw [if_neg (by omega), Nat.repr_eq_ofList_toDigits, String.toList_ofList, habs]
    rfl
  · next h =>
    have habs : (-i).toNat = i.natAbs := by omega
    rw [if_pos (by omega), Nat.repr_eq_ofList_toDigits, habs]
    simp only [String.toList_append, String.toList_ofList]
    rfl

theorem Numeral.read_int (i : Int) (hends : EndsNumeral rest) :
    read ((toString i).toList ++ rest) =
      some (⟨decide (i < 0), Nat.toDigits 10 i.natAbs, none, none⟩, rest) := by
  rw [toList_toString_int]
  split
  · next h =>
    rw [decide_eq_true h, ← readUnsigned_toDigits true i.natAbs hends]
    rfl
  · next h =>
    rw [decide_eq_false h, ← readUnsigned_toDigits false i.natAbs hends, List.nil_append]
    unfold read
    split
    · next heq =>
      -- no digit is a minus sign
      have hmem : '-' ∈ Nat.toDigits 10 i.natAbs := by
        cases hdigits : Nat.toDigits 10 i.natAbs with
        | nil => exact absurd hdigits Nat.toDigits_ne_nil
        | cons d digits =>
          rw [hdigits, List.cons_append, List.cons.injEq] at heq
          rw [heq.1]
          exact List.mem_cons_self
      have hdigit := Nat.isDigit_of_mem_toDigits (by decide) (by decide) hmem
      exact absurd hdigit (by decide)
    · rfl

/-- A whole number of 64 bits with its sign is the value of its digits. -/
theorem Numeral.wholeValue_int (value : Int64) :
    wholeValue (decide (value.toInt < 0)) value.toInt.natAbs = .int value.toInt := by
  have hlow := value.le_toInt
  unfold wholeValue
  by_cases hneg : value.toInt < 0
  · have hroom : ¬ (value.toInt.natAbs = 0 ∨ UInt64.size / 2 < value.toInt.natAbs) := by
      have hsize : UInt64.size / 2 = 2 ^ 63 := rfl
      omega
    have habs : -(value.toInt.natAbs : Int) = value.toInt := by omega
    rw [decide_eq_true hneg, if_neg (by decide), if_neg hroom, habs]
  · have habs : (value.toInt.natAbs : Int) = value.toInt := by omega
    rw [decide_eq_false hneg, if_pos rfl, habs]

theorem readNumber_int (value : Int64) (hends : EndsNumeral rest) :
    readNumber ((toString value.toInt).toList ++ rest) = some (int value.toInt, rest) := by
  have hsize : value.toInt.natAbs < UInt64.size := by
    have hlow := value.le_toInt
    have hhigh := value.toInt_lt
    have hsize : UInt64.size = 2 ^ 64 := rfl
    omega
  simp only [readNumber, Numeral.read_int _ hends, Numeral.value?_toDigits _ hsize,
    Numeral.wholeValue_int, Option.bind_eq_bind, Option.bind_some]
  rfl

end Json
end DataTerms

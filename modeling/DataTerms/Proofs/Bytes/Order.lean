/-
# The order of texts is that of their bytes

A character is written as a first byte and up to three that continue it, each of these with six
bits of the code point, the high ones first. The more bytes continue a character, the greater its
first byte; and of two characters with as many bytes the lesser code point has the lesser byte
where they first differ. So two characters are told apart before one of them ends, and in the
right order, whatever follows: a text is before another by its bytes just when it is by the code
points of its characters.

Key definitions: `Utf8.firstByte`, `Utf8.continuation`.
Key theorems: `Utf8.encodeChar_lt`, `Utf8.encode_lt_encode_iff`,
`Utf8.codePoints_lt_codePoints_iff`.
-/
import DataTerms.Bytes.Utf8
import Mathlib.Algebra.Group.Nat.Defs

namespace DataTerms
namespace Utf8

/-! ### Characters -/

/-- The least code point of the characters that so many bytes continue. -/
def leastCode : Nat → Nat
  | 0 => 0
  | 1 => 0x80
  | 2 => 0x800
  | 3 => 0x10000
  | _ => 0x110000

/-- The bits that mark a first byte as one that so many bytes continue. -/
def mark : Nat → Nat
  | 0 => 0
  | 1 => 0xC0
  | 2 => 0xE0
  | 3 => 0xF0
  | _ => 0x100

/-- The first byte of a code point that so many bytes continue. -/
def firstByte (groups n : Nat) : Nat := n / 64 ^ groups + mark groups

/-- The bytes that continue a code point: so many groups of six bits, the high ones first. -/
def continuation : Nat → Nat → List UInt8
  | 0, _ => []
  | groups + 1, n => UInt8.ofNat (n / 64 ^ groups % 64 + 0x80) :: continuation groups n

/-- So many bytes continue a code point. -/
def Continues (groups n : Nat) : Prop := leastCode groups ≤ n ∧ n < leastCode (groups + 1)

theorem leastCode_le_succ : ∀ groups : Nat, leastCode groups ≤ leastCode (groups + 1)
  | 0 | 1 | 2 | 3 => by decide
  | _ + 4 => Nat.le_refl _

theorem mark_le_succ : ∀ groups : Nat, mark groups ≤ mark (groups + 1)
  | 0 | 1 | 2 | 3 => by decide
  | _ + 4 => Nat.le_refl _

theorem leastCode_le {groups groups' : Nat} (h : groups ≤ groups') :
    leastCode groups ≤ leastCode groups' := by
  induction h with
  | refl => exact Nat.le_refl _
  | step _ ih => exact Nat.le_trans ih (leastCode_le_succ _)

theorem mark_le {groups groups' : Nat} (h : groups ≤ groups') : mark groups ≤ mark groups' := by
  induction h with
  | refl => exact Nat.le_refl _
  | step _ ih => exact Nat.le_trans ih (mark_le_succ _)

/-- First bytes with more bytes after them are greater. -/
theorem firstByte_lt {groups n : Nat} (h : Continues groups n) :
    firstByte groups n < mark (groups + 1) := by
  obtain ⟨hleast, hlt⟩ := h
  match groups with
  | 0 | 1 | 2 | 3 =>
    simp only [leastCode, firstByte, mark] at *
    omega
  | _ + 4 => exact absurd hlt (Nat.not_lt.mpr hleast)

theorem firstByte_lt_size {groups n : Nat} (h : Continues groups n) : firstByte groups n < 256 := by
  have hmark : mark (groups + 1) ≤ mark (groups + 1 + 4) := mark_le (Nat.le_add_right _ _)
  exact Nat.lt_of_lt_of_le (firstByte_lt h) hmark

theorem ofNat_cons_lt_iff {m n : Nat} (hm : m < 256) (hn : n < 256) {xs ys : List UInt8} :
    UInt8.ofNat m :: xs < UInt8.ofNat n :: ys ↔ m < n ∨ m = n ∧ xs < ys := by
  have hmod : (UInt8.ofNat m).toNat = m := by rw [UInt8.toNat_ofNat', Nat.mod_eq_of_lt hm]
  have hmod' : (UInt8.ofNat n).toNat = n := by rw [UInt8.toNat_ofNat', Nat.mod_eq_of_lt hn]
  rw [List.cons_lt_cons_iff, UInt8.lt_iff_toNat_lt, ← UInt8.toNat_inj, hmod, hmod']

/-- A number less than another is less in a high digit, or the high digits agree and it is less
in the low ones. -/
theorem div_lt_or_mod_lt {m n : Nat} (b : Nat) (h : m < n) :
    m / b < n / b ∨ m / b = n / b ∧ m % b < n % b := by
  have hm := Nat.div_add_mod m b
  have hn := Nat.div_add_mod n b
  rcases Nat.lt_or_eq_of_le (Nat.div_le_div_right (c := b) (Nat.le_of_lt h)) with hlt | heq
  · exact .inl hlt
  · rw [heq] at hm
    exact .inr ⟨heq, by omega⟩

/-- Of two numbers the lesser has the lesser byte where its groups first differ. -/
theorem continuation_lt {m n : Nat} (front back : List UInt8) : ∀ {groups : Nat},
    m % 64 ^ groups < n % 64 ^ groups →
      continuation groups m ++ front < continuation groups n ++ back
  | 0, h => by
    rw [Nat.pow_zero, Nat.mod_one, Nat.mod_one] at h
    exact absurd h (Nat.lt_irrefl 0)
  | groups + 1, h => by
    have hdigits := div_lt_or_mod_lt (64 ^ groups) h
    rw [Nat.pow_succ, Nat.mod_mul_right_div_self, Nat.mod_mul_right_div_self,
      Nat.mod_mul_right_mod, Nat.mod_mul_right_mod] at hdigits
    rw [continuation, continuation, List.cons_append, List.cons_append,
      ofNat_cons_lt_iff (by omega) (by omega)]
    rcases hdigits with hlt | ⟨heq, hlt⟩
    · exact .inl (Nat.add_lt_add_right hlt _)
    · exact .inr ⟨by rw [heq], continuation_lt front back hlt⟩

/-- The bytes of a character: a first one, and those that continue it. -/
theorem exists_encodeChar_eq (c : Char) : ∃ groups, Continues groups c.toNat ∧
    String.utf8EncodeChar c =
      UInt8.ofNat (firstByte groups c.toNat) :: continuation groups c.toNat := by
  have hvalid : c.toNat < 0x110000 := by
    have hchar := c.valid
    simp only [UInt32.isValidChar, Nat.isValidChar, Char.toNat_val] at hchar
    omega
  simp only [String.utf8EncodeChar, Char.toNat_val]
  split
  · next hone =>
    exact ⟨0, ⟨Nat.zero_le _, Nat.lt_succ_of_le hone⟩, by simp [firstByte, mark, continuation]⟩
  split
  · next hone htwo =>
    have hfirst : c.toNat / 64 % 32 = c.toNat / 64 := Nat.mod_eq_of_lt (by omega)
    exact ⟨1, ⟨by simp only [leastCode]; omega, Nat.lt_succ_of_le htwo⟩, by
      simp [firstByte, mark, continuation, hfirst]⟩
  split
  · next hone htwo hthree =>
    have hfirst : c.toNat / 4096 % 16 = c.toNat / 4096 := Nat.mod_eq_of_lt (by omega)
    exact ⟨2, ⟨by simp only [leastCode]; omega, Nat.lt_succ_of_le hthree⟩, by
      simp [firstByte, mark, continuation, hfirst]⟩
  · next hone htwo hthree =>
    have hfirst : c.toNat / 262144 % 8 = c.toNat / 262144 := Nat.mod_eq_of_lt (by omega)
    exact ⟨3, ⟨by simp only [leastCode]; omega, hvalid⟩, by
      simp [firstByte, mark, continuation, hfirst]⟩

/-- The lesser of two characters has the lesser bytes, whatever follows them. -/
theorem encodeChar_lt {c d : Char} (h : c < d) (front back : List UInt8) :
    String.utf8EncodeChar c ++ front < String.utf8EncodeChar d ++ back := by
  have hlt : c.toNat < d.toNat := h
  obtain ⟨groups, hc, hcodes⟩ := exists_encodeChar_eq c
  obtain ⟨groups', hd, hcodes'⟩ := exists_encodeChar_eq d
  rw [hcodes, hcodes', List.cons_append, List.cons_append,
    ofNat_cons_lt_iff (firstByte_lt_size hc) (firstByte_lt_size hd)]
  rcases Nat.lt_trichotomy groups groups' with hfewer | heq | hmore
  · have hmark : mark (groups + 1) ≤ mark groups' := mark_le hfewer
    have hfirst := firstByte_lt hc
    exact .inl (Nat.lt_of_lt_of_le hfirst (Nat.le_trans hmark (Nat.le_add_left _ _)))
  · subst heq
    rcases div_lt_or_mod_lt (64 ^ groups) hlt with hhigh | ⟨hhigh, hlow⟩
    · exact .inl (Nat.add_lt_add_right hhigh _)
    · exact .inr ⟨by rw [firstByte, firstByte, hhigh], continuation_lt front back hlow⟩
  · -- more bytes continue greater code points only
    have hleast : leastCode (groups' + 1) ≤ leastCode groups := leastCode_le hmore
    exact absurd (Nat.lt_of_lt_of_le hd.2 (Nat.le_trans hleast hc.1)) (Nat.lt_asymm hlt)

/-! ### Texts -/

theorem flatMap_encodeChar_lt : ∀ {cs ds : List Char}, cs < ds →
    cs.flatMap String.utf8EncodeChar < ds.flatMap String.utf8EncodeChar
  | [], d :: ds, _ => by
    obtain ⟨groups, -, hcodes⟩ := exists_encodeChar_eq d
    rw [List.flatMap_nil, List.flatMap_cons, hcodes]
    exact List.nil_lt_cons _ _
  | c :: cs, d :: ds, h => by
    rw [List.flatMap_cons, List.flatMap_cons]
    rcases List.cons_lt_cons_iff.mp h with hlt | ⟨rfl, hlt⟩
    · exact encodeChar_lt hlt _ _
    · exact List.append_left_lt (flatMap_encodeChar_lt hlt)

/-- What is in the order of the texts that it is made of tells that order. -/
theorem lt_iff_of_lt {α : Type} [LT α] [Std.Asymm (· < · : α → α → Prop)] (f : String → α)
    (hf : ∀ a b : String, a < b → f a < f b) (a b : String) : f a < f b ↔ a < b := by
  refine ⟨fun h => ?_, hf a b⟩
  by_cases hab : a < b
  · exact hab
  · by_cases hba : b < a
    · exact absurd (hf b a hba) (Std.Asymm.asymm _ _ h)
    · have heq : a = b := String.le_antisymm (String.not_lt.mp hba) (String.not_lt.mp hab)
      rw [heq] at h
      exact absurd h (Std.Asymm.asymm _ _ h)

/-- A text is before another just when its bytes are. -/
theorem encode_lt_encode_iff (a b : String) : encode a < encode b ↔ a < b := by
  refine lt_iff_of_lt encode (fun a b h => ?_) a b
  have hchars : a.toList < b.toList := h
  rw [← String.ofList_toList (s := a), ← String.ofList_toList (s := b), encode_ofList,
    encode_ofList]
  exact flatMap_encodeChar_lt hchars

/-- A text is before another just when the code points of its characters are. -/
theorem codePoints_lt_codePoints_iff (a b : String) :
    a.toList.map Char.toNat < b.toList.map Char.toNat ↔ a < b := by
  refine lt_iff_of_lt (fun text => text.toList.map Char.toNat) (fun a b h => ?_) a b
  have hchars : a.toList < b.toList := h
  exact List.map_lt (fun c d hcd => hcd) hchars

end Utf8
end DataTerms

/-
# Numbers in bytes of seven bits

A number is written in groups of seven bits, the low ones first, one group a byte; every
byte but the last has its high bit set. A number of 64 bits takes at most ten bytes, and
reading takes no more: it accepts groups of zeros at the end, but no eleventh byte and no
tenth one above 1. Signed numbers are folded first, so that small ones of either sign are
short: 0, -1, 1, -2 become 0, 1, 2, 3.

Key definitions: `Wire.Varint.encode`, `Wire.Varint.read`, `Wire.Varint.fold`,
`Wire.Varint.unfold`.
Key theorems: `Wire.Varint.read_encode`, `Wire.Varint.unfold_fold`.
-/
import DataTerms.Wire.Fault
import DataTerms.Wire.Input

namespace DataTerms
namespace Wire
namespace Varint

/-- The bytes of a number. -/
def encode (n : Nat) : List UInt8 :=
  if n < 128 then [UInt8.ofNat n] else UInt8.ofNat (n % 128 + 128) :: encode (n / 128)

/-- Reads a number of at most so many groups. The last group that 64 bits have room for
holds one bit. -/
def readGroups : Nat → Input → Except Fault (Nat × Input)
  | 0, _ => .error Reason.invalidVarint.fault
  | groups + 1, input =>
    match input.next? with
    | none => .error Reason.invalidVarint.fault
    | some (b, rest) =>
      if b.toNat < 128 then
        if groups = 0 ∧ 2 ≤ b.toNat then .error Reason.invalidVarint.fault
        else .ok (b.toNat, rest)
      else do
        let (high, rest) ← readGroups groups rest
        return (b.toNat - 128 + 128 * high, rest)

/-- Reads a number of 64 bits. -/
def read (input : Input) : Except Fault (Nat × Input) := readGroups 10 input

/-- A signed number among the numbers without a sign. -/
def fold (i : Int) : Nat := if 0 ≤ i then 2 * i.toNat else 2 * (-i).toNat - 1

/-- The signed number for one without a sign. -/
def unfold (n : Nat) : Int := if n % 2 = 0 then (n / 2 : Nat) else -((n / 2 : Nat) : Int) - 1

theorem unfold_fold (i : Int) : unfold (fold i) = i := by
  unfold unfold fold
  split <;> split <;> omega

theorem fold_unfold (n : Nat) : fold (unfold n) = n := by
  unfold fold unfold
  split <;> split <;> omega

/-- The least number that so many groups and one bit have no room for. -/
def room : Nat → Nat
  | 0 => 2
  | groups + 1 => 128 * room groups

/-- A number that a row of groups has room for is read back from its bytes, whatever
follows. -/
theorem readGroups_encode (rest : List UInt8) :
    ∀ (groups n : Nat), n < room groups →
      readGroups (groups + 1) (.ofList (encode n ++ rest)) = .ok (n, .ofList rest)
  | groups, n, h => by
    unfold encode
    split
    · next hn =>
      have hb : (UInt8.ofNat n).toNat = n := by
        simp only [UInt8.toNat_ofNat']
        omega
      have : ¬ (groups = 0 ∧ 2 ≤ n) := by
        rintro ⟨rfl, h'⟩
        exact Nat.not_lt.mpr h' h
      simp [readGroups, hb, hn, this]
    · next hn =>
      cases groups with
      | zero =>
        unfold room at h
        omega
      | succ groups =>
        have hb : (UInt8.ofNat (n % 128 + 128)).toNat = n % 128 + 128 := by
          simp only [UInt8.toNat_ofNat']
          omega
        rw [room] at h
        have ih := readGroups_encode rest groups (n / 128) (by omega)
        have hsum : n % 128 + 128 * (n / 128) = n := Nat.mod_add_div n 128
        rw [List.cons_append, readGroups]
        simp only [Input.next?_ofList_cons, hb, if_neg (by omega : ¬ n % 128 + 128 < 128), ih,
          bind, Except.bind, pure, Except.pure, Nat.add_sub_cancel, hsum]

theorem room_nine : room 9 = UInt64.size := rfl

/-- Every number of 64 bits is read back from its bytes, whatever follows. -/
theorem read_encode {n : Nat} (h : n < UInt64.size) (rest : List UInt8) :
    read (.ofList (encode n ++ rest)) = .ok (n, .ofList rest) := by
  rw [← room_nine] at h
  exact readGroups_encode rest 9 n h

end Varint
end Wire
end DataTerms

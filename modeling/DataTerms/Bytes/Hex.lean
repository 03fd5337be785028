/-
# Bytes as hexadecimal digits

Two digits a byte, the high one first: written in lower case, read in either case.
Reading refuses an odd number of digits before it looks at any of them, and else the
first byte that is no digit; it takes the text by its bytes, so a character outside
ASCII is refused at its first byte.

Key definitions: `Hex.encode`, `Hex.decode`, `Hex.Fault`.
Key theorems: `Hex.decode_digits`.
-/
import DataTerms.Text.Quoted

namespace DataTerms
namespace Hex

/-- The digit of a number below sixteen. -/
def digit (value : UInt8) : UInt8 :=
  if value < 10 then value + 0x30 else value + 0x57

/-- The digits of bytes, as the bytes of a text. -/
def digits : List UInt8 → List UInt8
  | [] => []
  | b :: rest => digit (b / 16) :: digit (b % 16) :: digits rest

/-- The text of bytes. -/
def encode (bytes : List UInt8) : String :=
  String.ofList ((digits bytes).map fun d => Char.ofUInt8 d)

/-- What a text of digits can fail by. -/
inductive Fault where
  /-- Its last byte has one digit. -/
  | oddLength
  /-- The byte at the position is no digit. -/
  | badDigit (byte : UInt8) (position : Nat)
  deriving DecidableEq, Repr

/-- What is said of a text that is no row of digits. A byte shows as the character with
its number. -/
def Fault.message : Fault → String
  | .oddLength => "Odd number of digits"
  | .badDigit byte position =>
    "Invalid character " ++ String.ofList (Text.quotedChar (Char.ofUInt8 byte)) ++
      s!" at position {position}"

/-- The number of a digit, in either case. -/
def value? (d : UInt8) : Option UInt8 :=
  if 0x30 ≤ d ∧ d ≤ 0x39 then some (d - 0x30)
  else if 0x61 ≤ d ∧ d ≤ 0x66 then some (d - 0x57)
  else if 0x41 ≤ d ∧ d ≤ 0x46 then some (d - 0x37)
  else none

/-- The number of the digit at a position. -/
def valueAt (position : Nat) (d : UInt8) : Except Fault UInt8 :=
  match value? d with
  | some value => .ok value
  | none => .error (.badDigit d position)

/-- The bytes of digits, the first of which stands at `position`. -/
def decodeFrom (position : Nat) : List UInt8 → Except Fault (List UInt8)
  | [] => .ok []
  | [_] => .error .oddLength
  | d :: d' :: rest => do
    let high ← valueAt position d
    let low ← valueAt (position + 1) d'
    let bytes ← decodeFrom (position + 2) rest
    return (high * 16 + low) :: bytes

/-- The bytes of a text of digits. -/
def decode (text : List UInt8) : Except Fault (List UInt8) :=
  if text.length % 2 = 1 then .error .oddLength else decodeFrom 0 text

theorem value?_digit_high (b : UInt8) : value? (digit (b / 16)) = some (b / 16) := by
  have : ∀ n : Fin 256, value? (digit (UInt8.ofNat n / 16)) = some (UInt8.ofNat n / 16) := by
    decide +kernel
  simpa using this ⟨b.toNat, b.toNat_lt⟩

theorem value?_digit_low (b : UInt8) : value? (digit (b % 16)) = some (b % 16) := by
  have : ∀ n : Fin 256, value? (digit (UInt8.ofNat n % 16)) = some (UInt8.ofNat n % 16) := by
    decide +kernel
  simpa using this ⟨b.toNat, b.toNat_lt⟩

theorem high_add_low (b : UInt8) : b / 16 * 16 + b % 16 = b := by
  have : ∀ n : Fin 256, UInt8.ofNat n / 16 * 16 + UInt8.ofNat n % 16 = UInt8.ofNat n := by
    decide +kernel
  simpa using this ⟨b.toNat, b.toNat_lt⟩

theorem length_digits : ∀ bytes : List UInt8, (digits bytes).length = 2 * bytes.length
  | [] => rfl
  | _ :: rest => by
    simp only [digits, List.length_cons, length_digits rest]
    omega

theorem decodeFrom_digits :
    ∀ (bytes : List UInt8) (position : Nat), decodeFrom position (digits bytes) = .ok bytes
  | [], _ => rfl
  | b :: rest, position => by
    simp [digits, decodeFrom, valueAt, value?_digit_high, value?_digit_low, high_add_low,
      decodeFrom_digits rest, bind, Except.bind, pure, Except.pure]

/-- Every row of bytes is read back from its digits. -/
theorem decode_digits (bytes : List UInt8) : decode (digits bytes) = .ok bytes := by
  have : ¬ (digits bytes).length % 2 = 1 := by
    rw [length_digits]
    omega
  rw [decode, if_neg this, decodeFrom_digits]

end Hex
end DataTerms

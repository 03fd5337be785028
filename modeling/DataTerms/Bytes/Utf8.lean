/-
# Texts as UTF-8 bytes

A text is written as its UTF-8 bytes, and bytes are read as the text they encode.
Bytes that encode none have a first fault: the place where the sequence begins that
no well-formed text continues, and the number of its bytes up to the first that does
not belong, or no number where the bytes end inside a sequence.

Key definitions: `Utf8.encode`, `Utf8.decode`, `Utf8.Fault`, `Utf8.firstFault`.
Key theorems: `Utf8.encode_ofList`, `Utf8.decode_encode`, `Utf8.eq_encode_of_decode`.
-/
namespace DataTerms
namespace Utf8

/-- The bytes of a text. -/
def encode (text : String) : List UInt8 :=
  text.toByteArray.data.toList

/-- Where and how bytes fail to be a text. -/
structure Fault where
  /-- The place of the first byte of the broken sequence. -/
  start : Nat
  /-- The number of bytes that are wrong, if more bytes could not mend them. -/
  length : Option Nat
  deriving DecidableEq, Repr

/-- What is said of broken bytes. -/
def Fault.message : Fault → String
  | ⟨start, some length⟩ => s!"invalid utf-8 sequence of {length} bytes from index {start}"
  | ⟨start, none⟩ => s!"incomplete utf-8 byte sequence from index {start}"

/-- The byte continues a sequence. -/
def continues (b : UInt8) : Bool := 0x80 ≤ b && b ≤ 0xBF

/-- The least and the greatest second byte after the first byte of a sequence of three
bytes. -/
def secondOfThree? (first : UInt8) : Option (UInt8 × UInt8) :=
  if first = 0xE0 then some (0xA0, 0xBF)
  else if first = 0xED then some (0x80, 0x9F)
  else if 0xE1 ≤ first ∧ first ≤ 0xEF then some (0x80, 0xBF)
  else none

/-- The least and the greatest second byte after the first byte of a sequence of four
bytes. -/
def secondOfFour? (first : UInt8) : Option (UInt8 × UInt8) :=
  if first = 0xF0 then some (0x90, 0xBF)
  else if first = 0xF4 then some (0x80, 0x8F)
  else if 0xF1 ≤ first ∧ first ≤ 0xF3 then some (0x80, 0xBF)
  else none

/-- The first fault of bytes from the place `start` on. Bytes without a fault end at a
sequence not begun. -/
def firstFault (start : Nat) : List UInt8 → Fault
  | [] => ⟨start, none⟩
  | first :: rest =>
    if first < 0x80 then firstFault (start + 1) rest
    else if 0xC2 ≤ first ∧ first ≤ 0xDF then
      match rest with
      | [] => ⟨start, none⟩
      | second :: rest =>
        if continues second then firstFault (start + 2) rest else ⟨start, some 1⟩
    else match secondOfThree? first with
    | some (least, greatest) =>
      match rest with
      | [] => ⟨start, none⟩
      | second :: rest =>
        if ¬ (least ≤ second ∧ second ≤ greatest) then ⟨start, some 1⟩
        else match rest with
        | [] => ⟨start, none⟩
        | third :: rest =>
          if continues third then firstFault (start + 3) rest else ⟨start, some 2⟩
    | none =>
      match secondOfFour? first with
      | some (least, greatest) =>
        match rest with
        | [] => ⟨start, none⟩
        | second :: rest =>
          if ¬ (least ≤ second ∧ second ≤ greatest) then ⟨start, some 1⟩
          else match rest with
          | [] => ⟨start, none⟩
          | third :: rest =>
            if ¬ continues third then ⟨start, some 2⟩
            else match rest with
            | [] => ⟨start, none⟩
            | fourth :: rest =>
              if continues fourth then firstFault (start + 4) rest else ⟨start, some 3⟩
      | none => ⟨start, some 1⟩

/-- The text that bytes encode, or their first fault. -/
def decode (bytes : List UInt8) : Except Fault String :=
  match String.fromUTF8? ⟨bytes.toArray⟩ with
  | some text => .ok text
  | none => .error (firstFault 0 bytes)

/-- The bytes of a text are those of its characters. -/
theorem encode_ofList (cs : List Char) :
    encode (String.ofList cs) = cs.flatMap String.utf8EncodeChar := by
  rw [encode, String.toByteArray_ofList, List.utf8Encode]
  simp

/-- Every text is read back from its bytes. -/
theorem decode_encode (text : String) : decode (encode text) = .ok text := by
  have h : (⟨(encode text).toArray⟩ : ByteArray) = text.toByteArray := by
    simp [encode]
  simp [decode, h, String.fromUTF8?, text.isValidUTF8, String.fromUTF8]

/-- Bytes that are read as a text are that text's bytes, so each text has one form. -/
theorem eq_encode_of_decode {bytes : List UInt8} {text : String} (h : decode bytes = .ok text) :
    bytes = encode text := by
  unfold decode at h
  split at h
  · next found hfound =>
    cases h
    unfold String.fromUTF8? at hfound
    split at hfound
    · cases hfound
      simp [encode, String.fromUTF8]
    · cases hfound
  · cases h

end Utf8
end DataTerms

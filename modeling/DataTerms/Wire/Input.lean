/-
# Bytes to be read

The bytes that are left to read, together with their number, so that a length can be
held against what is left without counting again.

Key definitions: `Wire.Input`, `Wire.Input.ofList`, `Wire.Input.next?`, `Wire.Input.take?`.
Key theorems: `Wire.Input.next?_ofList_cons`, `Wire.Input.take?_ofList_append`,
`Wire.Input.eq_ofList`.
-/
namespace DataTerms
namespace Wire

/-- Bytes left to read. -/
structure Input where
  bytes : List UInt8
  size : Nat
  size_eq : size = bytes.length

namespace Input

/-- All of a list of bytes. -/
def ofList (bytes : List UInt8) : Input := ⟨bytes, bytes.length, rfl⟩

/-- The first byte, and the bytes after it. -/
def next? : Input → Option (UInt8 × Input)
  | ⟨[], _, _⟩ => none
  | ⟨b :: rest, size, h⟩ => some (b, ⟨rest, size - 1, by simp [h]⟩)

/-- The first `n` bytes, if there are so many, and the bytes after them. -/
def take? (n : Nat) (input : Input) : Option (List UInt8 × Input) :=
  if input.size < n then none
  else
    some (input.bytes.take n, ⟨input.bytes.drop n, input.size - n, by simp [input.size_eq]⟩)

theorem eq_ofList (input : Input) : input = ofList input.bytes := by
  cases input with
  | mk bytes size h =>
    subst h
    rfl

@[simp]
theorem size_ofList (bytes : List UInt8) : (ofList bytes).size = bytes.length := rfl

@[simp]
theorem next?_ofList_nil : (ofList []).next? = none := rfl

@[simp]
theorem next?_ofList_cons (b : UInt8) (rest : List UInt8) :
    (ofList (b :: rest)).next? = some (b, ofList rest) := rfl

@[simp]
theorem take?_ofList_append (bytes rest : List UInt8) :
    (ofList (bytes ++ rest)).take? bytes.length = some (bytes, ofList rest) := by
  simp [take?, ofList]

end Input
end Wire
end DataTerms

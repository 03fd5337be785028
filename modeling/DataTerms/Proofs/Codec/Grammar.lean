/-
# The bytes of a term in one pass

A codec makes the message of a term first, and writes the fields of the message that do not hold
their defaults, in the order of their numbers. What comes out can be said without messages: `bytes`
lays a term down from its parts alone, each of them behind its length. A number is written in the
shortest of the rows of seven-bit groups that make it, as every length is.

Key definitions: `Wire.Varint.Spells`, `Term.bytes`.
Key theorems: `Wire.Varint.shortest_encode`, `Term.encode_toPar_eq_bytes`,
`Codec.toBytes_eq_bytes`.
-/
import DataTerms.Proofs.Codec.Acceptance
import DataTerms.Proofs.Term.Bytes
import DataTerms.Proofs.Term.Defects

namespace DataTerms
namespace Wire

/-! ### Numbers -/

namespace Varint

/-- A row of bytes makes a number: of every byte the low seven bits count, the first ones lowest,
and the high bit is set in all bytes but the last. -/
inductive Spells : Nat → List UInt8 → Prop where
  | last (b : UInt8) : b.toNat < 128 → Spells b.toNat [b]
  | more (b : UInt8) {n : Nat} {rest : List UInt8} : 128 ≤ b.toNat → Spells n rest →
    Spells (b.toNat - 128 + 128 * n) (b :: rest)

/-- A row of bytes makes a number, and every other row that makes it is longer. -/
def Shortest (n : Nat) (bytes : List UInt8) : Prop :=
  Spells n bytes ∧ ∀ other, Spells n other → other = bytes ∨ bytes.length < other.length

theorem Spells.length_pos {n : Nat} {bytes : List UInt8} (h : Spells n bytes) :
    0 < bytes.length := by
  cases h <;> exact Nat.succ_pos _

/-- The bytes of a number make it. -/
theorem spells_encode (n : Nat) : Spells n (encode n) := by
  induction n using Nat.strongRecOn with
  | ind n ih =>
    rw [encode]
    split
    · next hlt =>
      have hb : (UInt8.ofNat n).toNat = n := by
        rw [UInt8.toNat_ofNat', Nat.mod_eq_of_lt (by omega)]
      have hlast := Spells.last (UInt8.ofNat n) (by omega)
      rwa [hb] at hlast
    · next hge =>
      have hb : (UInt8.ofNat (n % 128 + 128)).toNat = n % 128 + 128 := by
        rw [UInt8.toNat_ofNat', Nat.mod_eq_of_lt (by omega)]
      have hmore := Spells.more (UInt8.ofNat (n % 128 + 128)) (by omega) (ih (n / 128) (by omega))
      rwa [hb, Nat.add_sub_cancel, Nat.mod_add_div] at hmore

/-- Any other row that makes a number ends in groups of zeros. -/
theorem eq_encode_or_length_lt {n : Nat} {bytes : List UInt8} (h : Spells n bytes) :
    bytes = encode n ∨ (encode n).length < bytes.length := by
  induction h with
  | last b hb => 
    rw [encode, if_pos hb, UInt8.ofNat_toNat]
    exact .inl rfl
  | @more b n rest hb hrest ih =>
    have hsize := b.toNat_lt
    by_cases hlt : b.toNat - 128 + 128 * n < 128
    · -- the groups after the first are zeros, and the number has one byte
      rw [encode, if_pos hlt]
      exact .inr (Nat.succ_lt_succ hrest.length_pos)
    · have hlow : (b.toNat - 128 + 128 * n) % 128 + 128 = b.toNat := by omega
      have hhigh : (b.toNat - 128 + 128 * n) / 128 = n := by omega
      rw [encode, if_neg hlt, hlow, hhigh, UInt8.ofNat_toNat]
      rcases ih with heq | hlonger
      · exact .inl (by rw [heq])
      · exact .inr (Nat.succ_lt_succ hlonger)

/-- A number is written in its shortest row. -/
theorem shortest_encode (n : Nat) : Shortest n (encode n) :=
  ⟨spells_encode n, fun _ h => eq_encode_or_length_lt h⟩

end Varint

/-! ### Keys -/

theorem bytesField_eq_cons {field : Nat} (h : 8 * field + 2 < 128) (bytes : List UInt8) :
    bytesField field bytes = UInt8.ofNat (8 * field + 2) :: delimited bytes := by
  rw [bytesField, Key.encode, WireType.number, Varint.encode, if_pos h, List.singleton_append]

theorem numberField_eq_cons {field : Nat} (h : 8 * field < 128) (n : Nat) :
    numberField field n = UInt8.ofNat (8 * field) :: Varint.encode n := by
  rw [numberField, Key.encode, WireType.number, Varint.encode, Nat.add_zero, if_pos h,
    List.singleton_append]

/-- The field of a list has a number beyond the seven bits of one byte. -/
theorem bytesField_list (bytes : List UInt8) :
    bytesField 20 bytes = 0xA2 :: 0x01 :: delimited bytes := by
  rw [bytesField, Key.encode, WireType.number, Varint.encode, if_neg (by decide), Varint.encode,
    if_pos (by decide)]
  rfl

end Wire

namespace Term

open Wire

/-! ### Terms -/

/-- The bytes of a literal within its expression. -/
def literalBytes : Literal → List UInt8
  | .bool false => [0x08, 0x00]
  | .bool true => [0x08, 0x01]
  | .int value => 0x10 :: Varint.encode (Varint.fold value.toInt)
  | .str value => 0x1A :: delimited (Utf8.encode value)

mutual

/-- The bytes of a term, from those of its parts. -/
def bytes : Term → List UInt8
  | .literal value => 0x2A :: delimited (literalBytes value)
  | .list items => 0x2A :: delimited (0xA2 :: 0x01 :: delimited (itemsBytes 0x0A items))
  | .sends entries => entriesBytes entries
  | .nil => []

/-- The bytes of terms, each behind the same byte. -/
def itemsBytes (key : UInt8) : List Term → List UInt8
  | [] => []
  | item :: rest => key :: delimited item.bytes ++ itemsBytes key rest

/-- The bytes of sends. -/
def entriesBytes : List Send → List UInt8
  | [] => []
  | ⟨channel, payload⟩ :: rest =>
    0x0A :: delimited (0x0A :: delimited channel.bytes ++ itemsBytes 0x12 payload) ++
      entriesBytes rest

end

theorem encode_instanceOfLiteral : ∀ value : Literal,
    (instanceOfLiteral value).encode = literalBytes value
  | .bool false | .bool true => by
    rw [instanceOfLiteral, Instance.encode, boolField, numberField_eq_cons (by decide),
      Varint.encode, if_pos (by decide), literalBytes]
    rfl
  | .int value => numberField_eq_cons (by decide) _
  | .str value => bytesField_eq_cons (by decide) _

mutual

/-- The bytes of a term's message are laid down from the term's parts. -/
theorem encode_toPar_eq_bytes : ∀ t : Term, t.toPar.encode = t.bytes
  | .literal value => by
    rw [encode_literal, bytesField_eq_cons (by decide), encode_instanceOfLiteral, bytes]
    rfl
  | .list items => by
    have hitems := encodePars_eq_itemsBytes (show 8 * 1 + 2 < 128 by decide) items
    rw [encode_list, bytesField_eq_cons (by decide), bytesField_list, hitems, bytes]
    rfl
  | .sends entries => by
    rw [encode_sends, encodeSends_eq_entriesBytes entries, bytes]
  | .nil => by rw [encode_nil, bytes]

theorem encodePars_eq_itemsBytes {field : Nat} (h : 8 * field + 2 < 128) : ∀ items : List Term,
    encodePars field (itemsToPar items) = itemsBytes (UInt8.ofNat (8 * field + 2)) items
  | [] => rfl
  | item :: rest => by
    rw [itemsToPar, encodePars, bytesField_eq_cons h, encode_toPar_eq_bytes item,
      encodePars_eq_itemsBytes h rest, itemsBytes]

theorem encodeSends_eq_entriesBytes : ∀ entries : List Send,
    encodeSends (entriesToPar entries) = entriesBytes entries
  | [] => rfl
  | ⟨channel, payload⟩ :: rest => by
    have hpayload := encodePars_eq_itemsBytes (show 8 * 2 + 2 < 128 by decide) payload
    have hsend : Wire.Send.encode { chan := some channel.toPar, data := itemsToPar payload } =
        0x0A :: delimited channel.bytes ++ itemsBytes 0x12 payload := by
      rw [encode_send, bytesField_eq_cons (by decide), encode_toPar_eq_bytes channel, hpayload]
      rfl
    rw [entriesToPar, encodeSends, hsend, bytesField_eq_cons (by decide),
      encodeSends_eq_entriesBytes rest, entriesBytes]
    rfl

end

/-! ### Rows of parts -/

theorem itemsBytes_eq_flatMap (key : UInt8) (items : List Term) :
    itemsBytes key items = items.flatMap fun item => key :: delimited item.bytes := by
  induction items with
  | nil => rfl
  | cons item rest ih => rw [itemsBytes, ih, List.flatMap_cons]

theorem bytes_list (items : List Term) : (list items).bytes =
    0x2A :: delimited (0xA2 :: 0x01 :: delimited
      (items.flatMap fun item => 0x0A :: delimited item.bytes)) := by
  rw [bytes, itemsBytes_eq_flatMap]

/-- A map's bytes are those of its entries, in their order. -/
theorem bytes_entries : ∀ entries : List (String × Term),
    (sends (entries.map fun e => .entry e.1 e.2)).bytes = entries.flatMap fun e =>
      0x0A :: delimited (0x0A :: delimited (str e.1).bytes ++ 0x12 :: delimited e.2.bytes)
  | [] => rfl
  | (key, value) :: rest => by
    have hrest := bytes_entries rest
    rw [bytes] at hrest
    rw [bytes, List.map_cons, Send.entry, entriesBytes, hrest, itemsBytes, itemsBytes,
      List.append_nil, List.flatMap_cons]

end Term

namespace Codec

open Wire Term

/-- **What a codec writes is laid down from the parts of the term.** Every codec accepts the terms
all of whose sends stand for entries and that have no more levels than its limit, and writes their
`bytes`. These have the bytes of each item of a list and of each entry of a map one after the other,
in the order of the term, and each of them behind its length; and lengths, like all numbers, are
written in the fewest groups that make them. -/
theorem toBytes_eq_bytes :
    (∀ (codec : Codec) (t : Term) (written : List UInt8),
      (codec.toBytes t).result = .ok written ↔
        (AreEntries t.allSends ∧ t.depth ≤ codec.maxDepth) ∧ written = t.bytes) ∧
      (∀ items : List Term, (list items).bytes =
        0x2A :: delimited (0xA2 :: 0x01 :: delimited
          (items.flatMap fun item => 0x0A :: delimited item.bytes))) ∧
      (∀ entries : List (String × Term),
        (sends (entries.map fun e => .entry e.1 e.2)).bytes = entries.flatMap fun e =>
          0x0A :: delimited (0x0A :: delimited (str e.1).bytes ++ 0x12 :: delimited e.2.bytes)) ∧
      ∀ n : Nat, Varint.Shortest n (Varint.encode n) := by
  refine ⟨fun codec t written => ?_, bytes_list, bytes_entries, Varint.shortest_encode⟩
  rw [toBytes_eq_ok, wellFormed_iff_allSends, encode_toPar_eq_bytes]
  exact and_congr_right fun _ => eq_comm

/-- The least integer has all ten groups, and the last of them holds one bit. -/
example : (literal (.int Int64.minValue)).bytes =
    [0x2A, 11, 0x10, 255, 255, 255, 255, 255, 255, 255, 255, 255, 1] := by decide +kernel

end Codec
end DataTerms

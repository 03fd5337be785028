/-
# What the bytes of a value determine

A value is written by way of its term, and read back the same way. On the whole way one
difference is lost, that between an empty map and nothing: two values have the same bytes
just when they are the same without their empty maps, and that is what is read back.

Key theorems: `Codec.decode_ofBytes`, `Codec.toBytes_encode_eq_iff`.
-/
import DataTerms.Proofs.Codec.RoundTrip
import DataTerms.Proofs.Value.Blank
import DataTerms.Proofs.Value.ReadBack

namespace DataTerms
namespace Codec

open Outcomes

variable {codec : Codec} {a b : Value} {x y : List UInt8}

theorem result_toBytes_encode (codec : Codec) (value : Value) :
    (value.encode >>= codec.toBytes).result = (codec.toBytes value.toTerm).result := by
  simp [Value.encode]

/-- The bytes of a value are read as the value without its empty maps. -/
theorem decode_ofBytes (ha : a.Ordered) (hlimit : codec.maxDepth ≤ 33)
    (hx : (a.encode >>= codec.toBytes).result = .ok x) (hlen : x.length < 2 ^ 63) :
    (codec.ofBytes x >>= Term.decode).result = .ok a.blank := by
  rw [result_toBytes_encode] at hx
  rw [Report.result_bind, ofBytes_eq_canon hlimit hx hlen, ok_bind, ← Value.toTerm_blank]
  exact Value.decode_toTerm (Value.ordered_blank ha)

theorem eq_of_blank_eq (hx : (a.encode >>= codec.toBytes).result = .ok x)
    (hy : (b.encode >>= codec.toBytes).result = .ok y) (h : a.blank = b.blank) : x = y := by
  rw [result_toBytes_encode] at hx hy
  have hx' := toBytes_canon hx
  have hy' := toBytes_canon hy
  rw [← Value.toTerm_blank] at hx' hy'
  rw [h, hy'] at hx'
  exact (Except.ok.inj hx').symm

/-- **The bytes of a value determine it but for empty maps.** With a limit of up to 33 two
values that are written, the keys of their maps in order as maps keep them, have the same
bytes just when they are the same with nothing in the place of every empty map, and that value
is read back from the bytes. -/
theorem toBytes_encode_eq_iff (ha : a.Ordered) (hb : b.Ordered) (hlimit : codec.maxDepth ≤ 33)
    (hx : (a.encode >>= codec.toBytes).result = .ok x)
    (hy : (b.encode >>= codec.toBytes).result = .ok y) (hlen : x.length < 2 ^ 63) :
    (x = y ↔ a.blank = b.blank) ∧ (codec.ofBytes x >>= Term.decode).result = .ok a.blank := by
  have hread := decode_ofBytes ha hlimit hx hlen
  refine ⟨⟨?_, eq_of_blank_eq hx hy⟩, hread⟩
  -- what is read from the bytes depends on nothing else
  rintro rfl
  have hread' := decode_ofBytes hb hlimit hy hlen
  rw [hread] at hread'
  exact Except.ok.inj hread'

/-- A map with an empty map in it has the bytes of one with nothing there, but not those of
one with an empty list there. -/
theorem toBytes_encode_emptyMap :
    (Value.map [("a", .map []), ("b", .int 1)]).blank = .map [("a", .null), ("b", .int 1)] ∧
      (Codec.ofBytes {} [10, 9, 10, 5, 42, 3, 26, 1, 97, 18, 0, 10, 13, 10, 5, 42, 3, 26, 1, 98, 18,
        4, 42, 2, 16, 2] >>= Term.decode).result = .ok (.map [("a", .null), ("b", .int 1)]) ∧
      (Value.map [("a", .map []), ("b", .int 1)]).blank ≠ (Value.map [("a", .list [])]).blank := by
  have ha : (Value.map [("a", .map []), ("b", .int 1)]).Ordered := by
    have hkeys : Keyed.Ascending [("a", Value.map []), ("b", .int 1)] := by
      unfold Keyed.Ascending
      decide
    exact ⟨hkeys, ⟨List.Pairwise.nil, trivial⟩, trivial, trivial⟩
  have hb : (Value.map [("a", .list [])]).Ordered :=
    ⟨List.pairwise_singleton _ _, trivial, trivial⟩
  have hx : ((Value.map [("a", .map []), ("b", .int 1)]).encode >>= Codec.toBytes {}).result =
      .ok [10, 9, 10, 5, 42, 3, 26, 1, 97, 18, 0, 10, 13, 10, 5, 42, 3, 26, 1, 98, 18, 4, 42, 2, 16,
        2] := by
    rw [result_toBytes_encode]
    exact toBytes_eq_ok.mpr ⟨⟨⟨trivial, trivial, trivial⟩, by decide⟩, by decide +kernel⟩
  have hy : ((Value.map [("a", .list [])]).encode >>= Codec.toBytes {}).result =
      .ok [10, 14, 10, 5, 42, 3, 26, 1, 97, 18, 5, 42, 3, 162, 1, 0] := by
    rw [result_toBytes_encode]
    exact toBytes_eq_ok.mpr ⟨⟨⟨trivial, trivial⟩, by decide⟩, by decide +kernel⟩
  obtain ⟨heq, hread⟩ := toBytes_encode_eq_iff ha hb (by decide) hx hy (by decide)
  exact ⟨rfl, hread, fun hblank => absurd (heq.mpr hblank) (by decide)⟩

end Codec
end DataTerms

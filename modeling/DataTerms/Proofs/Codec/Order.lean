/-
# Order never shows

A map can be built by entering its entries in any order, and a text can have the members of an
object in any order. Neither is seen in a value, so nothing that is made of a value shows it: not
the term, not its text, not the bytes that are signed, and not the error where a number is none
that a term can carry, which is that of the first one in the order of the names.

Key theorems: `Codec.order_immaterial`.
-/
import DataTerms.Codec
import DataTerms.Proofs.Json.Members
import DataTerms.Proofs.Value.Building
import DataTerms.Term.Text
import DataTerms.Term.Value
import Mathlib

namespace DataTerms
namespace Codec

/-- **Order never reaches the bytes.** The keys of every map that is built ascend, and values are
built the same just when at every level the same keys are entered and what is entered last under
each of them is built the same; such values have the same term, text and bytes. Texts that differ
only in the order of members with different names, at any level, are read as the same, and become
one term or fail with one error at one path. -/
theorem order_immaterial :
    (∀ a : Value, a.build.Ordered ∧ ∀ b : Value, a.build = b.build ↔ a.Agree b) ∧
    (∀ {a b : Value}, a.Agree b → a.build.encode = b.build.encode ∧
      (a.build.encode >>= fun term => Report.ofExcept term.text?) =
        (b.build.encode >>= fun term => Report.ofExcept term.text?) ∧
      ∀ codec : Codec, (a.build.encode >>= codec.toBytes) = (b.build.encode >>= codec.toBytes)) ∧
    ∀ {nesting : Nat} {text text' : String} {json json' : Json},
      Json.written? nesting text = some json → Json.written? nesting text' = some json' →
      json.Reordered json' →
      (∃ data, Json.parse? nesting text = some data ∧ Json.parse? nesting text' = some data) ∧
        (Json.parse? nesting text).map Term.ofJson? =
          (Json.parse? nesting text').map Term.ofJson? := by
  refine ⟨fun a => ⟨Value.ordered_build a, fun b => ?_⟩, ?_, ?_⟩
  · exact ⟨Value.agree_of_build_eq, Value.build_eq_of_agree⟩
  · intro a b hagree
    have hbuild := Value.build_eq_of_agree hagree
    rw [hbuild]
    exact ⟨rfl, rfl, fun _ => rfl⟩
  · intro nesting text text' json json' hwritten hwritten' hreordered
    obtain ⟨hread, hread'⟩ := Json.parse?_eq_of_reordered hwritten hwritten' hreordered
    rw [hread, hread']
    exact ⟨⟨json.settled, rfl, rfl⟩, rfl⟩

/-- A map is entered in two orders, with a value that is replaced, and so is the map in it; two
texts have members in two orders, and a number that is too great for a term. -/
theorem order_immaterial_replaced :
    let a : Value := .map [("b", .int 1), ("a", .null), ("b", .map [("c", .null), ("c", .int 2)])]
    let b : Value := .map [("b", .map [("c", .int 2)]), ("a", .null)]
    let text := "\x7b\"b\":0,\"a\":\x7b\"d\":9223372036854775808,\"c\":0\x7d\x7d"
    let text' := "\x7b\"a\":\x7b\"c\":0,\"d\":9223372036854775808\x7d,\"b\":0\x7d"
    a.build.encode = b.build.encode ∧
      (Json.parse? 2 text).map Term.ofJson? = (Json.parse? 2 text').map Term.ofJson? := by
  intro a b text text'
  let c : String × Json := ("c", .int 0)
  let d : String × Json := ("d", .int 9223372036854775808)
  constructor
  · have hagree : a.Agree b := ((order_immaterial.1 a).2 b).mp (by decide)
    exact (order_immaterial.2.1 hagree).1
  · have hwritten : Json.written? 2 text =
        some (.object [("b", .int 0), ("a", .object [d, c])]) := by cbv
    have hwritten' : Json.written? 2 text' =
        some (.object [("a", .object [c, d]), ("b", .int 0)]) := by cbv
    have hinner : (Json.object [d, c]).Reordered (.object [c, d]) := .swap [] [] (by decide)
    have hreordered : (Json.object [("b", .int 0), ("a", .object [d, c])]).Reordered
        (.object [("a", .object [c, d]), ("b", .int 0)]) :=
      .trans (.member [("b", .int 0)] [] "a" hinner) (.swap [] [] (by decide))
    exact (order_immaterial.2.2 hwritten hwritten' hreordered).2

end Codec
end DataTerms

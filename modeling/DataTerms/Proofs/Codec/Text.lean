/-
# The text and the bytes of a term

A term is written as a text and as bytes, and the two tell the same terms apart: those that
differ in more than empty sends. What a codec writes is read as a term of the same text.

Key theorems: `Codec.bytes_eq_iff_canon_eq`, `Codec.text?_ofBytes`, `Codec.text_unambiguous`.
-/
import DataTerms.Proofs.Codec.RoundTrip
import DataTerms.Proofs.Term.Reader

namespace DataTerms
namespace Codec

open Outcomes

variable {codec : Codec} {a b t : Term} {x y : List UInt8}

/-- Terms that a codec writes have the same bytes just when they are the same without empty
sends. -/
theorem bytes_eq_iff_canon_eq (hlimit : codec.maxDepth ≤ 33)
    (hx : (codec.toBytes a).result = .ok x) (hy : (codec.toBytes b).result = .ok y)
    (hlen : x.length < 2 ^ 63) : x = y ↔ a.canon = b.canon := by
  constructor
  · rintro rfl
    have ha := ofBytes_eq_canon hlimit hx hlen
    rw [ofBytes_eq_canon hlimit hy hlen] at ha
    exact (Except.ok.inj ha).symm
  · intro h
    have hx' := toBytes_canon hx
    rw [h, toBytes_canon hy] at hx'
    exact (Except.ok.inj hx').symm

theorem text?_ofBytes {text : String} (hlimit : codec.maxDepth ≤ 33)
    (hx : (codec.toBytes t).result = .ok x) (hlen : x.length < 2 ^ 63)
    (htext : t.text? = .ok text) :
    (codec.ofBytes x >>= fun term => Report.ofExcept term.text?).result = .ok text := by
  obtain ⟨⟨hwf, -⟩, -⟩ := toBytes_eq_ok.mp hx
  rw [Report.result_bind, ofBytes_eq_canon hlimit hx hlen, ok_bind, Report.result_ofExcept,
    Term.text?_canon hwf, htext]

/-- **The text of a term is unambiguous.** Two terms that have a text have the same one just when
they are the same with the empty process in the place of empty sends. With a limit of up to 33
every term that is written has a text, two such terms have the same text just when they have the
same bytes, and the term read from the bytes has the text of the one written. -/
theorem text_unambiguous :
    (∀ {a b : Term} {text text' : String}, a.text? = .ok text → b.text? = .ok text' →
      (text = text' ↔ a.canon = b.canon)) ∧
    ∀ {codec : Codec} {a b : Term} {x y : List UInt8}, codec.maxDepth ≤ 33 →
      (codec.toBytes a).result = .ok x → (codec.toBytes b).result = .ok y → x.length < 2 ^ 63 →
      ∃ text text', a.text? = .ok text ∧ b.text? = .ok text' ∧ (text = text' ↔ x = y) ∧
        (codec.ofBytes x >>= fun term => Report.ofExcept term.text?).result = .ok text := by
  refine ⟨fun ha hb => Term.text_eq_iff_canon_eq ha hb, ?_⟩
  intro codec a b x y hlimit hx hy hlen
  obtain ⟨⟨hwf, -⟩, -⟩ := toBytes_eq_ok.mp hx
  obtain ⟨⟨hwf', -⟩, -⟩ := toBytes_eq_ok.mp hy
  obtain ⟨text, ha⟩ := Term.exists_text_of_wellFormed hwf
  obtain ⟨text', hb⟩ := Term.exists_text_of_wellFormed hwf'
  refine ⟨text, text', ha, hb, ?_, text?_ofBytes hlimit hx hlen ha⟩
  calc text = text' ↔ a.canon = b.canon := Term.text_eq_iff_canon_eq ha hb
    _ ↔ x = y := (bytes_eq_iff_canon_eq hlimit hx hy hlen).symm

/-- An entry holds a list of an empty map, or of nothing, and a text with a quote mark and a
bracket. -/
theorem text_unambiguous_emptyMap :
    let a : Term := .sends [.entry "a" (.list [.sends [], .str "\"]"])]
    let b : Term := .sends [.entry "a" (.list [.nil, .str "\"]"])]
    let bytes : List UInt8 := [10, 24, 10, 5, 42, 3, 26, 1, 97, 18, 15, 42, 13, 162, 1, 10, 10, 0,
      10, 6, 42, 4, 26, 2, 34, 93]
    a.text? = .ok "@\"a\"!([Nil, \"\\\"]\"])" ∧ a.text? = b.text? ∧ a.canon = b.canon ∧
      (Codec.toBytes ⟨33⟩ a).result = .ok bytes ∧ (Codec.toBytes ⟨33⟩ b).result = .ok bytes ∧
      (Codec.ofBytes ⟨33⟩ bytes >>= fun term => Report.ofExcept term.text?).result = a.text? := by
  intro a b bytes
  have ha : a.text? = .ok "@\"a\"!([Nil, \"\\\"]\"])" := rfl
  have hb : b.text? = .ok "@\"a\"!([Nil, \"\\\"]\"])" := rfl
  have hx : (Codec.toBytes ⟨33⟩ a).result = .ok bytes :=
    toBytes_eq_ok.mpr ⟨⟨⟨⟨trivial, trivial, trivial⟩, trivial⟩, by decide⟩, by decide +kernel⟩
  have hy : (Codec.toBytes ⟨33⟩ b).result = .ok bytes :=
    toBytes_eq_ok.mpr ⟨⟨⟨⟨trivial, trivial, trivial⟩, trivial⟩, by decide⟩, by decide +kernel⟩
  have hcanon := (text_unambiguous.1 ha hb).mp rfl
  obtain ⟨text, text', ha', -, -, hread⟩ := text_unambiguous.2 (by decide) hx hy (by decide)
  exact ⟨ha, ha.trans hb.symm, hcanon, hx, hy, hread.trans ha'.symm⟩

end Codec
end DataTerms

/-
# The term of a value

A value becomes a term from which it is read back without an event: nothing is lost, and no key
comes twice. Every composition of sends in the term is a map of the value, so its sends are
entries and their keys ascend. Texts are compared by their characters here, and that is the order
of their bytes.

Key definitions: `Term.compositions`.
Key theorems: `Value.exists_map_of_mem_compositions`, `Value.encode_lossless`.
-/
import DataTerms.Proofs.Bytes.Order
import DataTerms.Proofs.Term.Stops
import DataTerms.Proofs.Value.ReadBack

namespace DataTerms
namespace Term

mutual

/-- Every composition of sends that occurs in a term, those in channels included. -/
def compositions : Term → List (List Send)
  | .literal _ | .nil => []
  | .list items => compositionsInItems items
  | .sends entries => entries :: compositionsInEntries entries

/-- Every composition of sends that occurs in terms. -/
def compositionsInItems : List Term → List (List Send)
  | [] => []
  | item :: rest => item.compositions ++ compositionsInItems rest

/-- Every composition of sends that occurs in the channels and payloads of sends. -/
def compositionsInEntries : List Send → List (List Send)
  | [] => []
  | ⟨channel, payload⟩ :: rest =>
    channel.compositions ++ compositionsInItems payload ++ compositionsInEntries rest

end

end Term

namespace Value

open Term

variable {sends : List Send}

mutual

/-- Every composition of sends in the term of a value has the entries of a map. -/
theorem exists_map_of_mem_compositions : ∀ {value : Value}, value.Ordered →
    sends ∈ value.toTerm.compositions →
      ∃ entries, Keyed.Ascending entries ∧ sends = entriesToTerm entries
  | .list _, h, hmem => exists_map_of_mem_items h hmem
  | .map entries, h, hmem => by
    rcases List.mem_cons.mp hmem with rfl | hmem
    · exact ⟨entries, h.1, rfl⟩
    · exact exists_map_of_mem_entries h.2 hmem

theorem exists_map_of_mem_items : ∀ {items : List Value}, OrderedItems items →
    sends ∈ compositionsInItems (itemsToTerm items) →
      ∃ entries, Keyed.Ascending entries ∧ sends = entriesToTerm entries
  | _ :: _, h, hmem => by
    rcases List.mem_append.mp hmem with hmem | hmem
    · exact exists_map_of_mem_compositions h.1 hmem
    · exact exists_map_of_mem_items h.2 hmem

theorem exists_map_of_mem_entries : ∀ {entries : List (String × Value)}, OrderedEntries entries →
    sends ∈ compositionsInEntries (entriesToTerm entries) →
      ∃ entries, Keyed.Ascending entries ∧ sends = entriesToTerm entries
  | (key, value) :: rest, h, hmem => by
    -- a channel is a text literal, and the payload is the one value
    have hentry : compositionsInEntries (entriesToTerm ((key, value) :: rest)) =
        value.toTerm.compositions ++ compositionsInEntries (entriesToTerm rest) := by
      rw [entriesToTerm, Send.entry, compositionsInEntries, Term.str, compositions,
        compositionsInItems, compositionsInItems, List.nil_append, List.append_nil]
    rw [hentry] at hmem
    rcases List.mem_append.mp hmem with hmem | hmem
    · exact exists_map_of_mem_compositions h.1 hmem
    · exact exists_map_of_mem_entries h.2 hmem

end

theorem wellFormed_toTerm {value : Value} (h : value.Ordered) : value.toTerm.WellFormed := by
  have hread : (value.toTerm.toValueAt .root).result = .ok value := by
    rw [toValueAt_toTerm .root h]
    rfl
  exact wellFormed_of_toValueAt hread

/-- **The term of a value is lossless and canonical.** It is read back as the value, with no event
but that of the start, so no key is entered twice; and it has a text. Each composition of sends in
it has sends on texts with one payload each, and the bytes of the keys ascend strictly, which is to
say that the code points of their characters do. -/
theorem encode_lossless {value : Value} (h : value.Ordered) :
    ∃ term, value.encode.result = .ok term ∧
      term.decode = ⟨[.decoding term.kind], .ok value⟩ ∧
      (∀ sends ∈ term.compositions, ∃ entries : List (String × Term),
        sends = entries.map (fun entry => .entry entry.1 entry.2) ∧
        entries.Pairwise fun a b => Utf8.encode a.1 < Utf8.encode b.1) ∧
      (∀ a b : String, Utf8.encode a < Utf8.encode b ↔
        a.toList.map Char.toNat < b.toList.map Char.toNat) ∧
      ∃ text, term.text? = .ok text := by
  refine ⟨value.toTerm, rfl, ?_, fun sends hmem => ?_, fun a b => ?_,
    exists_text_of_wellFormed (wellFormed_toTerm h)⟩
  · rw [decode, toValueAt_toTerm .root h]
    rfl
  · obtain ⟨entries, hascend, rfl⟩ := exists_map_of_mem_compositions h hmem
    refine ⟨entries.map fun entry => (entry.1, entry.2.toTerm), ?_, List.pairwise_map.mpr ?_⟩
    · rw [entriesToTerm_eq_map, List.map_map]
      rfl
    · exact hascend.imp fun hlt => (Utf8.encode_lt_encode_iff _ _).mpr hlt
  · rw [Utf8.encode_lt_encode_iff, Utf8.codePoints_lt_codePoints_iff]

/-- A map with two keys that UTF-16 has in the other order, and maps below it. -/
theorem encode_lossless_scalars :
    let value : Value :=
      .map [("\uFF61", .list [.map []]), ("😀", .map [("", .null), ("a", .int 0)])]
    value.Ordered ∧ value.toTerm.decode = ⟨[.decoding .sends], .ok value⟩ ∧
      Utf8.encode "\uFF61" < Utf8.encode "😀" ∧ ∃ text, value.toTerm.text? = .ok text := by
  intro value
  have hordered : value.Ordered := by
    have hkeys : Keyed.Ascending [("\uFF61", Value.list [.map []]),
        ("😀", .map [("", .null), ("a", .int 0)])] := by
      unfold Keyed.Ascending
      decide
    have hbelow : Keyed.Ascending [("", Value.null), ("a", .int 0)] := by
      unfold Keyed.Ascending
      decide
    exact ⟨hkeys, ⟨⟨List.Pairwise.nil, trivial⟩, trivial⟩, ⟨hbelow, trivial, trivial, trivial⟩,
      trivial⟩
  obtain ⟨term, hterm, hread, -, hbytes, htext⟩ := encode_lossless hordered
  obtain rfl : value.toTerm = term := Except.ok.inj hterm
  exact ⟨hordered, hread, (hbytes _ _).mpr (by decide), htext⟩

end Value
end DataTerms

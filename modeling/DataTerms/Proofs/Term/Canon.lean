/-
# Terms without empty sends

The composition of no sends is the empty process, and messages do not tell the two apart.
`canon` turns every one of the former in a term into the latter and leaves the rest as it
is: the term has the same levels and the same message, it stays well formed, and no empty
sends are left in it.

Key definitions: `Term.canon`, `Term.NoEmptySends`.
Key theorems: `Term.depth_canon`, `Term.toPar_canon`, `Term.wellFormed_canon`,
`Term.noEmptySends_canon`.
-/
import DataTerms.Term.Par

namespace DataTerms
namespace Term

mutual

/-- The term with the empty process in the place of every empty composition of sends. -/
def canon : Term → Term
  | .literal value => .literal value
  | .list items => .list (canonItems items)
  | .sends [] => .nil
  | .sends (⟨channel, payload⟩ :: rest) =>
    .sends (⟨channel.canon, canonItems payload⟩ :: canonEntries rest)
  | .nil => .nil

/-- The terms with the empty process in the place of empty sends. -/
def canonItems : List Term → List Term
  | [] => []
  | item :: rest => item.canon :: canonItems rest

/-- The sends with the empty process in the place of empty sends. -/
def canonEntries : List Send → List Send
  | [] => []
  | ⟨channel, payload⟩ :: rest => ⟨channel.canon, canonItems payload⟩ :: canonEntries rest

end

mutual

/-- No composition of sends in a term is empty, channels included. -/
def NoEmptySends : Term → Prop
  | .literal _ | .nil => True
  | .list items => NoEmptySendsItems items
  | .sends entries => entries ≠ [] ∧ NoEmptySendsEntries entries

/-- No composition of sends in terms is empty. -/
def NoEmptySendsItems : List Term → Prop
  | [] => True
  | item :: rest => item.NoEmptySends ∧ NoEmptySendsItems rest

/-- No composition of sends in the channels and payloads of sends is empty. -/
def NoEmptySendsEntries : List Send → Prop
  | [] => True
  | ⟨channel, payload⟩ :: rest =>
    channel.NoEmptySends ∧ NoEmptySendsItems payload ∧ NoEmptySendsEntries rest

end

theorem canon_sends_cons (entry : Send) (rest : List Send) :
    (sends (entry :: rest)).canon = .sends (canonEntries (entry :: rest)) := by
  cases entry
  rfl

mutual

/-- A term keeps its levels: an empty composition of sends has one, as the empty process. -/
theorem depth_canon : ∀ t : Term, t.canon.depth = t.depth
  | .literal _ | .nil | .sends [] => rfl
  | .list items => by rw [canon, depth, depth, depthItems_canonItems items]
  | .sends (entry :: rest) => by
    rw [canon_sends_cons, depth, depth, depthEntries_canonEntries (entry :: rest)]

theorem depthItems_canonItems : ∀ items : List Term, depthItems (canonItems items) = depthItems items
  | [] => rfl
  | item :: rest => by
    rw [canonItems, depthItems, depthItems, depth_canon item, depthItems_canonItems rest]

theorem depthEntries_canonEntries :
    ∀ entries : List Send, depthEntries (canonEntries entries) = depthEntries entries
  | [] => rfl
  | ⟨channel, payload⟩ :: rest => by
    rw [canonEntries, depthEntries, depthEntries, depth_canon channel,
      depthItems_canonItems payload, depthEntries_canonEntries rest]

end

mutual

/-- A term keeps its message. -/
theorem toPar_canon : ∀ t : Term, t.canon.toPar = t.toPar
  | .literal _ | .nil | .sends [] => rfl
  | .list items => by rw [canon, toPar, toPar, itemsToPar_canonItems items]
  | .sends (entry :: rest) => by
    rw [canon_sends_cons, toPar, toPar, entriesToPar_canonEntries (entry :: rest)]

theorem itemsToPar_canonItems : ∀ items : List Term, itemsToPar (canonItems items) = itemsToPar items
  | [] => rfl
  | item :: rest => by
    rw [canonItems, itemsToPar, itemsToPar, toPar_canon item, itemsToPar_canonItems rest]

theorem entriesToPar_canonEntries :
    ∀ entries : List Send, entriesToPar (canonEntries entries) = entriesToPar entries
  | [] => rfl
  | ⟨channel, payload⟩ :: rest => by
    rw [canonEntries, entriesToPar, entriesToPar, toPar_canon channel,
      itemsToPar_canonItems payload, entriesToPar_canonEntries rest]

end

mutual

theorem noEmptySends_canon : ∀ t : Term, t.canon.NoEmptySends
  | .literal _ | .nil | .sends [] => trivial
  | .list items => noEmptySendsItems_canonItems items
  | .sends (entry :: rest) => by
    obtain ⟨channel, payload⟩ := entry
    exact ⟨List.cons_ne_nil _ _, noEmptySendsEntries_canonEntries (⟨channel, payload⟩ :: rest)⟩

theorem noEmptySendsItems_canonItems : ∀ items : List Term, NoEmptySendsItems (canonItems items)
  | [] => trivial
  | item :: rest => ⟨noEmptySends_canon item, noEmptySendsItems_canonItems rest⟩

theorem noEmptySendsEntries_canonEntries :
    ∀ entries : List Send, NoEmptySendsEntries (canonEntries entries)
  | [] => trivial
  | ⟨channel, payload⟩ :: rest =>
    ⟨noEmptySends_canon channel, noEmptySendsItems_canonItems payload,
      noEmptySendsEntries_canonEntries rest⟩

end

/-! ### Well-formed terms -/

/-- The sends of a well-formed term are entries with well-formed values. -/
theorem wellFormedEntries_cons {channel : Term} {payload : List Term} {rest : List Send} :
    WellFormedEntries (⟨channel, payload⟩ :: rest) ↔
      ∃ key value, channel = str key ∧ payload = [value] ∧ value.WellFormed ∧
        WellFormedEntries rest := by
  constructor
  · intro h
    unfold WellFormedEntries at h
    split at h
    · next heq => cases heq
    · next key value _ heq =>
      obtain ⟨⟨rfl, rfl⟩, rfl⟩ := by simpa using heq
      exact ⟨key, value, rfl, rfl, h⟩
    · exact h.elim
  · rintro ⟨key, value, rfl, rfl, h⟩
    exact h

mutual

theorem wellFormed_canon : ∀ {t : Term}, t.WellFormed → t.canon.WellFormed
  | .literal _, _ | .nil, _ | .sends [], _ => trivial
  | .list _, h => wellFormedItems_canonItems h
  | .sends (entry :: rest), h => by
    rw [canon_sends_cons]
    exact wellFormedEntries_canonEntries h

theorem wellFormedItems_canonItems :
    ∀ {items : List Term}, WellFormedItems items → WellFormedItems (canonItems items)
  | [], _ => trivial
  | _ :: _, h => ⟨wellFormed_canon h.1, wellFormedItems_canonItems h.2⟩

theorem wellFormedEntries_canonEntries :
    ∀ {entries : List Send}, WellFormedEntries entries → WellFormedEntries (canonEntries entries)
  | [], _ => trivial
  | ⟨.literal (.str _), [_]⟩ :: _, h => ⟨wellFormed_canon h.1, wellFormedEntries_canonEntries h.2⟩

end

end Term
end DataTerms

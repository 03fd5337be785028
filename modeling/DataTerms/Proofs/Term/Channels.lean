/-
# Channels in the messages of terms

The message of a term lacks no channel. That of a well-formed term cannot come of another
message by putting channels in, since each of its channels is a text.

Key theorems: `Term.fill_toPar`, `Term.eq_toPar_of_fill`.
-/
import DataTerms.Proofs.Wire.Fill
import DataTerms.Term.Par

namespace DataTerms
namespace Term

mutual

/-- The message of a term lacks no channel. -/
theorem fill_toPar : ∀ t : Term, t.toPar.fill = t.toPar
  | .literal (.bool _) | .literal (.int _) | .literal (.str _) | .nil => rfl
  | .list items => by
    have h := fillPars_itemsToPar items
    simp only [toPar, parOfInstance, Wire.Par.fill, Wire.fillSends, Wire.fillExprs, Wire.Expr.fill,
      Wire.fillKind, Wire.Instance.fill, Wire.EList.fill, h]
  | .sends entries => by
    have h := fillSends_entriesToPar entries
    simp only [toPar, Wire.Par.fill, Wire.fillExprs, h]

theorem fillPars_itemsToPar : ∀ items : List Term, Wire.fillPars (itemsToPar items) = itemsToPar items
  | [] => rfl
  | item :: rest => by
    rw [itemsToPar, Wire.fillPars, fill_toPar item, fillPars_itemsToPar rest]

theorem fillSends_entriesToPar :
    ∀ entries : List Send, Wire.fillSends (entriesToPar entries) = entriesToPar entries
  | [] => rfl
  | ⟨channel, payload⟩ :: rest => by
    rw [entriesToPar, Wire.fillSends, Wire.Send.fill, Wire.fillChan, fill_toPar channel,
      fillPars_itemsToPar payload, fillSends_entriesToPar rest]

end

/-- A message that becomes one with a single expression has a single expression. -/
theorem fill_eq_parOfInstance {kind : Wire.Instance} :
    ∀ {par : Wire.Par}, par.fill = parOfInstance kind → ∃ kind', par = parOfInstance kind' ∧ kind'.fill = kind
  | ⟨messages, _, _, exprs, _, _, _, _, _, _⟩, h => by
    simp only [Wire.Par.fill, parOfInstance, Wire.Par.mk.injEq] at h
    obtain ⟨hs, rfl, rfl, he, rfl, rfl, rfl, rfl, rfl, rfl⟩ := h
    rw [Wire.fillSends_eq_nil hs]
    rcases exprs with _ | ⟨⟨_ | kind'⟩, _ | ⟨_, _⟩⟩ <;>
      simp only [Wire.fillExprs, Wire.Expr.fill, Wire.fillKind, List.cons.injEq, Wire.Expr.mk.injEq,
        Option.some.injEq, reduceCtorEq, and_false, and_true] at he
    exact ⟨kind', rfl, he⟩

/-- A literal has no channel to put in. -/
theorem fill_eq_instanceOfLiteral {value : Literal} {kind : Wire.Instance}
    (h : kind.fill = instanceOfLiteral value) : kind = instanceOfLiteral value := by
  cases value <;> cases kind <;> simp_all [Wire.Instance.fill, instanceOfLiteral]

mutual

/-- In the message of a well-formed term every channel is a text, so none was absent. -/
theorem eq_toPar_of_fill : ∀ {t : Term}, t.WellFormed → ∀ {par : Wire.Par},
    par.fill = t.toPar → par = t.toPar
  | .literal value, _, par, h => by
    obtain ⟨kind, rfl, hkind⟩ := fill_eq_parOfInstance h
    rw [fill_eq_instanceOfLiteral hkind, toPar]
  | .list items, hwf, par, h => by
    obtain ⟨kind, rfl, hkind⟩ := fill_eq_parOfInstance h
    cases kind <;> simp only [Wire.Instance.fill, reduceCtorEq, Wire.Instance.list.injEq] at hkind
    next body =>
    obtain ⟨ps, locallyFree, connectiveUsed, remainder⟩ := body
    simp only [Wire.EList.fill, Wire.EList.mk.injEq] at hkind
    obtain ⟨hps, rfl, rfl, rfl⟩ := hkind
    rw [eq_itemsToPar_of_fill hwf hps, toPar]
  | .sends entries, hwf, ⟨messages, _, _, exprs, _, _, _, _, _, _⟩, h => by
    simp only [Wire.Par.fill, toPar, Wire.Par.mk.injEq] at h
    obtain ⟨hs, rfl, rfl, he, rfl, rfl, rfl, rfl, rfl, rfl⟩ := h
    rw [Wire.fillExprs_eq_nil he, eq_entriesToPar_of_fill hwf hs, toPar]
  | .nil, _, ⟨messages, _, _, exprs, _, _, _, _, _, _⟩, h => by
    simp only [Wire.Par.fill, toPar, Wire.Par.mk.injEq] at h
    obtain ⟨hs, rfl, rfl, he, rfl, rfl, rfl, rfl, rfl, rfl⟩ := h
    rw [Wire.fillExprs_eq_nil he, Wire.fillSends_eq_nil hs, toPar]

theorem eq_itemsToPar_of_fill : ∀ {items : List Term}, WellFormedItems items →
    ∀ {pars : List Wire.Par}, Wire.fillPars pars = itemsToPar items → pars = itemsToPar items
  | [], _, [], _ => rfl
  | item :: rest, hwf, par :: pars, h => by
    rw [Wire.fillPars, itemsToPar, List.cons.injEq] at h
    rw [itemsToPar, ← eq_toPar_of_fill hwf.1 h.1, ← eq_itemsToPar_of_fill hwf.2 h.2]

theorem eq_entriesToPar_of_fill : ∀ {entries : List Send}, WellFormedEntries entries →
    ∀ {messages : List Wire.Send}, Wire.fillSends messages = entriesToPar entries →
      messages = entriesToPar entries
  | [], _, [], _ => rfl
  | ⟨.literal (.str key), [value]⟩ :: rest, hwf, ⟨chan, data, persistent, locallyFree,
      connectiveUsed⟩ :: messages, h => by
    rw [Wire.fillSends, entriesToPar, List.cons.injEq, Wire.Send.fill, Wire.Send.mk.injEq,
      Option.some.injEq] at h
    obtain ⟨⟨hchan, hdata, rfl, rfl, rfl⟩, hrest⟩ := h
    cases chan with
    | none => cases hchan
    | some chan =>
      obtain ⟨par, rfl⟩ : ∃ par, data = [par] := by
        rcases data with _ | ⟨par, _ | _⟩ <;> simp [Wire.fillPars, itemsToPar] at hdata ⊢
      rw [Wire.fillPars, itemsToPar, List.cons.injEq] at hdata
      rw [entriesToPar, itemsToPar, itemsToPar, ← eq_entriesToPar_of_fill hwf.2 hrest,
        ← eq_toPar_of_fill (t := .literal (.str key)) trivial hchan,
        ← eq_toPar_of_fill hwf.1 hdata.1]

end

end Term
end DataTerms

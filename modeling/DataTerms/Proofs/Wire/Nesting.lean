/-
# How deep messages nest

The number of messages within each other below a message. A message that nests no deeper
than the budget and whose bytes have a number of 64 bits fits the budget, since every length
written in it is that of a part of its bytes.

Key definitions: `Wire.Par.nesting`.
Key theorems: `Wire.Par.fits_of_nesting_le`.
-/
import DataTerms.Proofs.Wire.ReadBack

namespace DataTerms
namespace Wire

mutual

/-- The number of messages within each other below a message. -/
def Par.nesting : Par → Nat
  | ⟨sends, _, _, exprs, _, _, _, _, _, _⟩ => max (sendsNesting sends) (exprsNesting exprs)

/-- The number of messages within each other in the fields of sends. -/
def sendsNesting : List Send → Nat
  | [] => 0
  | send :: rest => max (send.nesting + 1) (sendsNesting rest)

/-- The number of messages within each other in the fields of expressions. -/
def exprsNesting : List Expr → Nat
  | [] => 0
  | expr :: rest => max (expr.nesting + 1) (exprsNesting rest)

/-- The number of messages within each other below a message on a channel. -/
def Send.nesting : Send → Nat
  | ⟨chan, data, _, _, _⟩ => max (chanNesting chan) (parsNesting data)

/-- The number of messages within each other in the field of a channel. -/
def chanNesting : Option Par → Nat
  | none => 0
  | some chan => chan.nesting + 1

/-- The number of messages within each other in the fields of processes in parallel. -/
def parsNesting : List Par → Nat
  | [] => 0
  | par :: rest => max (par.nesting + 1) (parsNesting rest)

/-- The number of messages within each other below an expression. -/
def Expr.nesting : Expr → Nat
  | ⟨kind⟩ => kindNesting kind

/-- The number of messages within each other in the field of an expression's kind. -/
def kindNesting : Option Instance → Nat
  | none => 0
  | some kind => kind.nesting

/-- The number of messages within each other in the field of a kind of expression. -/
def Instance.nesting : Instance → Nat
  | .bool _ | .int _ | .string _ | .uri _ | .bytes _ => 0
  | .list value => value.nesting + 1

/-- The number of messages within each other below the body of a list. -/
def EList.nesting : EList → Nat
  | ⟨ps, _, _, _⟩ => parsNesting ps

end

/-! ### Short bytes have short parts -/

theorem short_append {a b : List UInt8} (h : Short (a ++ b)) : Short a ∧ Short b := by
  unfold Short at *
  rw [List.length_append] at h
  omega

theorem short_of_bytesField {n : Nat} {bytes : List UInt8} (h : Short (bytesField n bytes)) :
    Short bytes :=
  (short_append (short_append h).2).2

theorem short_of_implicitBytesField {n : Nat} {bytes : List UInt8}
    (h : Short (implicitBytesField n bytes)) : Short bytes := by
  unfold implicitBytesField at h
  split at h
  · next hnil => exact hnil ▸ h
  · exact short_of_bytesField h

theorem allShort_of_repeatedBytesField {n : Nat} :
    ∀ {rows : List (List UInt8)}, Short (repeatedBytesField n rows) → AllShort rows
  | [], _ => nofun
  | _ :: _, h =>
    have ⟨hfirst, hrest⟩ := short_append h
    List.forall_mem_cons.mpr ⟨short_of_bytesField hfirst, allShort_of_repeatedBytesField hrest⟩

/-- A message fits within one whose budget exceeds its nesting. -/
theorem within_of_nesting_lt {budget nesting n : Nat} {bytes : List UInt8} {fits : Prop}
    (hnest : nesting + 1 ≤ budget) (hshort : Short (bytesField n bytes))
    (h : nesting ≤ budget - 1 → Short bytes → fits) : Within budget bytes fits :=
  have hbytes := short_of_bytesField hshort
  ⟨by omega, hbytes, h (by omega) hbytes⟩

mutual

/-- A message whose bytes are short fits every budget from its nesting on. -/
theorem Par.fits_of_nesting_le {budget : Nat} :
    ∀ {par : Par}, par.nesting ≤ budget → Short par.encode → par.Fits budget
  | ⟨sends, _, _, exprs, _, _, _, _, _, _⟩, hnest, hshort => by
    rw [Par.nesting, Nat.max_le] at hnest
    rw [Par.encode] at hshort
    obtain ⟨hshort, h11⟩ := short_append hshort
    obtain ⟨hshort, -⟩ := short_append hshort
    obtain ⟨hshort, h9⟩ := short_append hshort
    obtain ⟨hshort, h8⟩ := short_append hshort
    obtain ⟨hshort, h7⟩ := short_append hshort
    obtain ⟨hshort, h6⟩ := short_append hshort
    obtain ⟨hshort, h5⟩ := short_append hshort
    obtain ⟨hshort, h4⟩ := short_append hshort
    obtain ⟨h1, h2⟩ := short_append hshort
    exact ⟨sendsFit_of_nesting_le hnest.1 h1, allShort_of_repeatedBytesField h2,
      allShort_of_repeatedBytesField h4, exprsFit_of_nesting_le hnest.2 h5,
      allShort_of_repeatedBytesField h6, allShort_of_repeatedBytesField h7,
      allShort_of_repeatedBytesField h8, short_of_implicitBytesField h9,
      allShort_of_repeatedBytesField h11⟩

theorem sendsFit_of_nesting_le {budget : Nat} :
    ∀ {sends : List Send}, sendsNesting sends ≤ budget → Short (encodeSends sends) →
      SendsFit budget sends
  | [], _, _ => trivial
  | _ :: _, hnest, hshort => by
    rw [sendsNesting, Nat.max_le] at hnest
    obtain ⟨hfirst, hrest⟩ := short_append hshort
    exact ⟨within_of_nesting_lt hnest.1 hfirst Send.fits_of_nesting_le,
      sendsFit_of_nesting_le hnest.2 hrest⟩

theorem exprsFit_of_nesting_le {budget : Nat} :
    ∀ {exprs : List Expr}, exprsNesting exprs ≤ budget → Short (encodeExprs exprs) →
      ExprsFit budget exprs
  | [], _, _ => trivial
  | _ :: _, hnest, hshort => by
    rw [exprsNesting, Nat.max_le] at hnest
    obtain ⟨hfirst, hrest⟩ := short_append hshort
    exact ⟨within_of_nesting_lt hnest.1 hfirst Expr.fits_of_nesting_le,
      exprsFit_of_nesting_le hnest.2 hrest⟩

theorem Send.fits_of_nesting_le {budget : Nat} :
    ∀ {send : Send}, send.nesting ≤ budget → Short send.encode → send.Fits budget
  | ⟨_, _, _, _, _⟩, hnest, hshort => by
    rw [Send.nesting, Nat.max_le] at hnest
    rw [Send.encode] at hshort
    obtain ⟨hshort, -⟩ := short_append hshort
    obtain ⟨hshort, h5⟩ := short_append hshort
    obtain ⟨hshort, -⟩ := short_append hshort
    obtain ⟨h1, h2⟩ := short_append hshort
    exact ⟨chanFits_of_nesting_le hnest.1 h1, parsFit_of_nesting_le hnest.2 h2,
      short_of_implicitBytesField h5⟩

theorem chanFits_of_nesting_le {budget : Nat} :
    ∀ {chan : Option Par}, chanNesting chan ≤ budget → Short (encodeChan chan) →
      ChanFits budget chan
  | none, _, _ => trivial
  | some _, hnest, hshort => within_of_nesting_lt hnest hshort Par.fits_of_nesting_le

theorem parsFit_of_nesting_le {budget n : Nat} :
    ∀ {pars : List Par}, parsNesting pars ≤ budget → Short (encodePars n pars) →
      ParsFit budget pars
  | [], _, _ => trivial
  | _ :: _, hnest, hshort => by
    rw [parsNesting, Nat.max_le] at hnest
    obtain ⟨hfirst, hrest⟩ := short_append hshort
    exact ⟨within_of_nesting_lt hnest.1 hfirst Par.fits_of_nesting_le,
      parsFit_of_nesting_le hnest.2 hrest⟩

theorem Expr.fits_of_nesting_le {budget : Nat} :
    ∀ {expr : Expr}, expr.nesting ≤ budget → Short expr.encode → expr.Fits budget
  | ⟨none⟩, _, _ | ⟨some (.bool _)⟩, _, _ | ⟨some (.int _)⟩, _, _ => trivial
  | ⟨some (.string _)⟩, _, hshort | ⟨some (.uri _)⟩, _, hshort
  | ⟨some (.bytes _)⟩, _, hshort => short_of_bytesField hshort
  | ⟨some (.list _)⟩, hnest, hshort => within_of_nesting_lt hnest hshort EList.fits_of_nesting_le

theorem EList.fits_of_nesting_le {budget : Nat} :
    ∀ {list : EList}, list.nesting ≤ budget → Short list.encode → list.Fits budget
  | ⟨_, _, _, remainder⟩, hnest, hshort => by
    rw [EList.encode_eq] at hshort
    obtain ⟨hshort, h5⟩ := short_append hshort
    obtain ⟨hshort, -⟩ := short_append hshort
    obtain ⟨h1, h3⟩ := short_append hshort
    refine ⟨parsFit_of_nesting_le hnest h1, short_of_implicitBytesField h3, ?_⟩
    cases remainder with
    | none => nofun
    | some bytes => exact fun _ h => Option.mem_some.mp h ▸ short_of_bytesField h5

end

end Wire
end DataTerms

/-
# What was written is read back

The bytes of a message are read as that message, or not at all: they are refused just when
messages nest deeper than the budget or some row of bytes has a length of more than 64 bits.
The argument follows the message from the inside out. A message's bytes are the row of its
fields in the order of their numbers, and each part of the row fills one field.

Key definitions: `Wire.Par.Fits`.
Key theorems: `Wire.Par.isRow`, `Wire.Par.decode_encode_eq_ok`.
-/
import DataTerms.Proofs.Wire.Rows

namespace DataTerms
namespace Wire

open Outcomes

/-- The merges of the messages within messages with a nesting budget. -/
def innerMerges : Nat → Option Merges
  | 0 => none
  | budget + 1 => some (merges budget)

theorem merges_eq (budget : Nat) : merges budget = Merges.over budget (innerMerges budget) := by
  cases budget <;> rfl

/-- A message with these bytes may be within a message with the budget, if it fits the rest
of the budget. -/
def Within (budget : Nat) (bytes : List UInt8) (fits : Prop) : Prop :=
  0 < budget ∧ Short bytes ∧ fits

mutual

/-- The messages within a message nest no deeper than the budget, and no length in it has
more than 64 bits. -/
def Par.Fits (budget : Nat) : Par → Prop
  | ⟨sends, receives, news, exprs, matchers, unforgeables, connectives, locallyFree, _, bundles⟩ =>
    SendsFit budget sends ∧ AllShort receives ∧ AllShort news ∧ ExprsFit budget exprs ∧
      AllShort matchers ∧ AllShort unforgeables ∧ AllShort connectives ∧ Short locallyFree ∧
      AllShort bundles

/-- Each send may be within a message with the budget. -/
def SendsFit (budget : Nat) : List Send → Prop
  | [] => True
  | send :: rest => Within budget send.encode (send.Fits (budget - 1)) ∧ SendsFit budget rest

/-- Each expression may be within a message with the budget. -/
def ExprsFit (budget : Nat) : List Expr → Prop
  | [] => True
  | expr :: rest => Within budget expr.encode (expr.Fits (budget - 1)) ∧ ExprsFit budget rest

/-- A message on a channel fits a budget. -/
def Send.Fits (budget : Nat) : Send → Prop
  | ⟨chan, data, _, locallyFree, _⟩ =>
    ChanFits budget chan ∧ ParsFit budget data ∧ Short locallyFree

/-- The channel, if there is one, may be within a message with the budget. -/
def ChanFits (budget : Nat) : Option Par → Prop
  | none => True
  | some chan => Within budget chan.encode (chan.Fits (budget - 1))

/-- Each of the processes may be within a message with the budget. -/
def ParsFit (budget : Nat) : List Par → Prop
  | [] => True
  | par :: rest => Within budget par.encode (par.Fits (budget - 1)) ∧ ParsFit budget rest

/-- An expression fits a budget. -/
def Expr.Fits (budget : Nat) : Expr → Prop
  | ⟨kind⟩ => KindFits budget kind

/-- The kind of an expression, if it has one, fits a budget. -/
def KindFits (budget : Nat) : Option Instance → Prop
  | none => True
  | some kind => kind.Fits budget

/-- A kind of expression fits a budget. -/
def Instance.Fits (budget : Nat) : Instance → Prop
  | .bool _ | .int _ => True
  | .string value | .uri value => Short (Utf8.encode value)
  | .list value => Within budget value.encode (value.Fits (budget - 1))
  | .bytes value => Short value

/-- The body of a list fits a budget. -/
def EList.Fits (budget : Nat) : EList → Prop
  | ⟨ps, locallyFree, _, remainder⟩ =>
    ParsFit budget ps ∧ Short locallyFree ∧ ∀ bytes ∈ remainder, Short bytes

end

theorem sendsFit_iff (budget : Nat) : ∀ sends : List Send,
    SendsFit budget sends ↔ ∀ send ∈ sends, Within budget send.encode (send.Fits (budget - 1))
  | [] => by simp [SendsFit]
  | send :: rest => by rw [SendsFit, sendsFit_iff budget rest, List.forall_mem_cons]

theorem exprsFit_iff (budget : Nat) : ∀ exprs : List Expr,
    ExprsFit budget exprs ↔ ∀ expr ∈ exprs, Within budget expr.encode (expr.Fits (budget - 1))
  | [] => by simp [ExprsFit]
  | expr :: rest => by rw [ExprsFit, exprsFit_iff budget rest, List.forall_mem_cons]

theorem parsFit_iff (budget : Nat) : ∀ pars : List Par,
    ParsFit budget pars ↔ ∀ par ∈ pars, Within budget par.encode (par.Fits (budget - 1))
  | [] => by simp [ParsFit]
  | par :: rest => by rw [ParsFit, parsFit_iff budget rest, List.forall_mem_cons]

theorem encodeSends_eq : ∀ sends : List Send,
    encodeSends sends = sends.flatMap fun send => bytesField 1 send.encode
  | [] => rfl
  | send :: rest => by rw [encodeSends, encodeSends_eq rest, List.flatMap_cons]

theorem encodeExprs_eq : ∀ exprs : List Expr,
    encodeExprs exprs = exprs.flatMap fun expr => bytesField 5 expr.encode
  | [] => rfl
  | expr :: rest => by rw [encodeExprs, encodeExprs_eq rest, List.flatMap_cons]

theorem encodePars_eq (n : Nat) : ∀ pars : List Par,
    encodePars n pars = pars.flatMap fun par => bytesField n par.encode
  | [] => rfl
  | par :: rest => by rw [encodePars, encodePars_eq n rest, List.flatMap_cons]

theorem EList.encode_eq (list : EList) :
    list.encode = encodePars 1 list.ps ++ implicitBytesField 3 list.locallyFree ++
      flagField 4 list.connectiveUsed ++ list.remainder.elim [] (bytesField 5) := by
  rcases list with ⟨_, _, _, _ | _⟩ <;> rfl

/-- A message within a message is read if the budget has room for it. -/
theorem gives_inner {α : Type} {merge : Merges → Merge α} {budget : Nat} {sure : Prop}
    {bytes : List UInt8} {a b : α} (h : IsRow (merge (merges (budget - 1))) sure bytes a b)
    (n : Nat) (rest : List UInt8) :
    Gives (mergeMessage ((innerMerges budget).map merge) ⟨n, .lengthDelimited⟩ a
      (.ofList (delimited bytes ++ rest))) (Within budget bytes sure) b rest := by
  cases budget with
  | zero =>
    have hnone : mergeMessage ((innerMerges 0).map merge) ⟨n, .lengthDelimited⟩ a
        (.ofList (delimited bytes ++ rest)) = .error Reason.recursionLimit.fault := rfl
    exact (Gives.of_eq_error hnone).congr (iff_of_false not_false fun h => Nat.lt_irrefl 0 h.1)
  | succ budget =>
    exact (h.gives_mergeMessage n rest).congr (and_iff_right (Nat.succ_pos budget)).symm

/-- A message is read back if the messages within it are: each part of its bytes fills one
field. -/
theorem Par.isRow_of_parts (budget : Nat) : ∀ par : Par,
    (∀ send ∈ par.sends,
      IsRow (merges (budget - 1)).send (send.Fits (budget - 1)) send.encode {} send) →
    (∀ expr ∈ par.exprs,
      IsRow (merges (budget - 1)).expr (expr.Fits (budget - 1)) expr.encode {} expr) →
    IsRow (merges budget).par (par.Fits budget) par.encode {} par
  | ⟨sends, receives, news, exprs, matchers, unforgeables, connectives, locallyFree,
      connectiveUsed, bundles⟩, hsends, hexprs => by
    rw [merges_eq]
    -- `hₙ` is the field with the number `n`: it fills that field and keeps those before it
    have h1 : IsRow (Par.merge budget (innerMerges budget)) (SendsFit budget sends)
        (encodeSends sends) {} { sends } := by
      rw [encodeSends_eq, sendsFit_iff]
      exact .repeated (fun sends => ({ sends } : Par)) (by decide) (fun _ _ => by rfl)
        (fun send hmem => gives_inner (hsends send hmem) 1) []
    have h2 : IsRow (Par.merge budget (innerMerges budget)) (AllShort receives)
        (repeatedBytesField 2 receives) { sends } { sends, receives } :=
      .repeatedBytes (fun receives => ({ sends, receives } : Par)) (by decide) (fun _ _ => by rfl) receives
    have h4 : IsRow (Par.merge budget (innerMerges budget)) (AllShort news)
        (repeatedBytesField 4 news) { sends, receives } { sends, receives, news } :=
      .repeatedBytes (fun news => ({ sends, receives, news } : Par)) (by decide) (fun _ _ => by rfl) news
    have h5 : IsRow (Par.merge budget (innerMerges budget)) (ExprsFit budget exprs)
        (encodeExprs exprs) { sends, receives, news } { sends, receives, news, exprs } := by
      rw [encodeExprs_eq, exprsFit_iff]
      exact .repeated (fun exprs => ({ sends, receives, news, exprs } : Par)) (by decide) (fun _ _ => by rfl)
        (fun expr hmem => gives_inner (hexprs expr hmem) 5) []
    have h6 : IsRow (Par.merge budget (innerMerges budget)) (AllShort matchers)
        (repeatedBytesField 6 matchers) { sends, receives, news, exprs }
        { sends, receives, news, exprs, matchers } :=
      .repeatedBytes (fun matchers => ({ sends, receives, news, exprs, matchers } : Par)) (by decide)
        (fun _ _ => by rfl) matchers
    have h7 : IsRow (Par.merge budget (innerMerges budget)) (AllShort unforgeables)
        (repeatedBytesField 7 unforgeables) { sends, receives, news, exprs, matchers }
        { sends, receives, news, exprs, matchers, unforgeables } :=
      .repeatedBytes (fun unforgeables =>
        ({ sends, receives, news, exprs, matchers, unforgeables } : Par))
        (by decide) (fun _ _ => by rfl) unforgeables
    have h8 : IsRow (Par.merge budget (innerMerges budget)) (AllShort connectives)
        (repeatedBytesField 8 connectives) { sends, receives, news, exprs, matchers, unforgeables }
        { sends, receives, news, exprs, matchers, unforgeables, connectives } :=
      .repeatedBytes (fun connectives =>
        ({ sends, receives, news, exprs, matchers, unforgeables, connectives } : Par)) (by decide)
        (fun _ _ => by rfl) connectives
    have h9 : IsRow (Par.merge budget (innerMerges budget)) (Short locallyFree)
        (implicitBytesField 9 locallyFree)
        { sends, receives, news, exprs, matchers, unforgeables, connectives }
        { sends, receives, news, exprs, matchers, unforgeables, connectives, locallyFree } :=
      .implicitBytes (fun locallyFree =>
        ({ sends, receives, news, exprs, matchers, unforgeables, connectives, locallyFree } : Par))
        (by decide) (fun _ => by rfl) locallyFree
    have h10 : IsRow (Par.merge budget (innerMerges budget)) True (flagField 10 connectiveUsed)
        { sends, receives, news, exprs, matchers, unforgeables, connectives, locallyFree }
        { sends, receives, news, exprs, matchers, unforgeables, connectives, locallyFree,
          connectiveUsed } :=
      .flag (fun connectiveUsed =>
        ({ sends, receives, news, exprs, matchers, unforgeables, connectives, locallyFree,
            connectiveUsed } : Par)) (by decide) (fun _ => by rfl) connectiveUsed
    have h11 : IsRow (Par.merge budget (innerMerges budget)) (AllShort bundles)
        (repeatedBytesField 11 bundles)
        { sends, receives, news, exprs, matchers, unforgeables, connectives, locallyFree,
          connectiveUsed }
        ⟨sends, receives, news, exprs, matchers, unforgeables, connectives, locallyFree,
          connectiveUsed, bundles⟩ :=
      .repeatedBytes (fun bundles =>
        (⟨sends, receives, news, exprs, matchers, unforgeables, connectives, locallyFree,
          connectiveUsed, bundles⟩ : Par)) (by decide) (fun _ _ => by rfl) bundles
    have hall := ((((((((h1.append h2).append h4).append h5).append h6).append h7).append h8).append
      h9).append h10).append h11
    rw [Par.encode]
    refine hall.congr ?_
    simp only [Par.Fits, and_assoc, true_and]

/-- A message on a channel is read back if the messages within it are. -/
theorem Send.isRow_of_parts (budget : Nat) : ∀ send : Send,
    (∀ chan ∈ send.chan,
      IsRow (merges (budget - 1)).par (chan.Fits (budget - 1)) chan.encode {} chan) →
    (∀ par ∈ send.data,
      IsRow (merges (budget - 1)).par (par.Fits (budget - 1)) par.encode {} par) →
    IsRow (merges budget).send (send.Fits budget) send.encode {} send
  | ⟨chan, data, persistent, locallyFree, connectiveUsed⟩, hchan, hdata => by
    rw [merges_eq]
    have h1 : IsRow (Send.merge budget (innerMerges budget)) (ChanFits budget chan)
        (encodeChan chan) {} { chan } := by
      cases chan with
      | none => exact .nil _ _
      | some chan =>
        exact .of_isField (.of_gives (fun chan => ({ chan := some chan } : Send)) (by decide)
          (gives_inner (hchan chan rfl) 1) (fun _ => by rfl))
    have h2 : IsRow (Send.merge budget (innerMerges budget)) (ParsFit budget data)
        (encodePars 2 data) { chan } { chan, data } := by
      rw [encodePars_eq, parsFit_iff]
      exact .repeated (fun data => ({ chan, data } : Send)) (by decide) (fun _ _ => by rfl)
        (fun par hmem => gives_inner (hdata par hmem) 2) []
    have h3 : IsRow (Send.merge budget (innerMerges budget)) True (flagField 3 persistent)
        { chan, data } { chan, data, persistent } :=
      .flag (fun persistent => ({ chan, data, persistent } : Send)) (by decide)
        (fun _ => by rfl) persistent
    have h5 : IsRow (Send.merge budget (innerMerges budget)) (Short locallyFree)
        (implicitBytesField 5 locallyFree) { chan, data, persistent }
        { chan, data, persistent, locallyFree } :=
      .implicitBytes (fun locallyFree => ({ chan, data, persistent, locallyFree } : Send))
        (by decide) (fun _ => by rfl) locallyFree
    have h6 : IsRow (Send.merge budget (innerMerges budget)) True (flagField 6 connectiveUsed)
        { chan, data, persistent, locallyFree }
        ⟨chan, data, persistent, locallyFree, connectiveUsed⟩ :=
      .flag (fun connectiveUsed => (⟨chan, data, persistent, locallyFree, connectiveUsed⟩ : Send))
        (by decide) (fun _ => by rfl) connectiveUsed
    rw [Send.encode]
    refine ((((h1.append h2).append h3).append h5).append h6).congr ?_
    simp only [Send.Fits, and_assoc, and_true]

/-- An expression is read back if the list that it may be is. -/
theorem Expr.isRow_of_kind (budget : Nat) : ∀ expr : Expr,
    (∀ list, expr.kind = some (.list list) →
      IsRow (merges (budget - 1)).list (list.Fits (budget - 1)) list.encode {} list) →
    IsRow (merges budget).expr (expr.Fits budget) expr.encode {} expr
  | ⟨none⟩, _ => .nil _ _
  | ⟨some kind⟩, hlist => by
    rw [merges_eq]
    apply IsRow.of_isField
    cases kind with
    | bool value =>
      exact .of_gives (fun value => (⟨some (.bool value)⟩ : Expr)) (by decide)
        (gives_readBool 1 value) (fun _ => by rfl)
    | int value =>
      exact .of_gives (fun value => (⟨some (.int value)⟩ : Expr)) (by decide)
        (gives_readSigned 2 value) (fun _ => by rfl)
    | string value =>
      exact .of_gives (fun value => (⟨some (.string value)⟩ : Expr)) (by decide)
        (gives_readText 3 value) (fun _ => by rfl)
    | uri value =>
      exact .of_gives (fun value => (⟨some (.uri value)⟩ : Expr)) (by decide)
        (gives_readText 4 value) (fun _ => by rfl)
    | list value =>
      exact .of_gives (fun value => (⟨some (.list value)⟩ : Expr)) (by decide)
        (gives_inner (hlist value rfl) 20) (fun _ => by rfl)
    | bytes value =>
      exact .of_gives (fun value => (⟨some (.bytes value)⟩ : Expr)) (by decide)
        (gives_readBytes 25 value) (fun _ => by rfl)

/-- The body of a list is read back if its items are. -/
theorem EList.isRow_of_parts (budget : Nat) : ∀ list : EList,
    (∀ par ∈ list.ps,
      IsRow (merges (budget - 1)).par (par.Fits (budget - 1)) par.encode {} par) →
    IsRow (merges budget).list (list.Fits budget) list.encode {} list
  | ⟨ps, locallyFree, connectiveUsed, remainder⟩, hps => by
    rw [merges_eq]
    have h1 : IsRow (EList.merge budget (innerMerges budget)) (ParsFit budget ps)
        (encodePars 1 ps) {} { ps } := by
      rw [encodePars_eq, parsFit_iff]
      exact .repeated (fun ps => ({ ps } : EList)) (by decide) (fun _ _ => by rfl)
        (fun par hmem => gives_inner (hps par hmem) 1) []
    have h3 : IsRow (EList.merge budget (innerMerges budget)) (Short locallyFree)
        (implicitBytesField 3 locallyFree) { ps } { ps, locallyFree } :=
      .implicitBytes (fun locallyFree => ({ ps, locallyFree } : EList)) (by decide)
        (fun _ => by rfl) locallyFree
    have h4 : IsRow (EList.merge budget (innerMerges budget)) True (flagField 4 connectiveUsed)
        { ps, locallyFree } { ps, locallyFree, connectiveUsed } :=
      .flag (fun connectiveUsed => ({ ps, locallyFree, connectiveUsed } : EList)) (by decide)
        (fun _ => by rfl) connectiveUsed
    have h5 : IsRow (EList.merge budget (innerMerges budget)) (∀ bytes ∈ remainder, Short bytes)
        (remainder.elim [] (bytesField 5)) { ps, locallyFree, connectiveUsed }
        ⟨ps, locallyFree, connectiveUsed, remainder⟩ := by
      cases remainder with
      | none => exact (IsRow.nil _ _).congr (by simp)
      | some bytes =>
        have hfield : IsField (EList.merge budget (innerMerges budget)) (Short bytes)
            (bytesField 5 bytes) { ps, locallyFree, connectiveUsed }
            ⟨ps, locallyFree, connectiveUsed, some bytes⟩ :=
          .of_gives (fun bytes => (⟨ps, locallyFree, connectiveUsed, some bytes⟩ : EList))
            (by decide) (gives_readBytes 5 bytes) (fun _ => by rfl)
        exact (IsRow.of_isField hfield).congr (by simp)
    rw [EList.encode_eq]
    refine (((h1.append h3).append h4).append h5).congr ?_
    simp only [EList.Fits, and_assoc, true_and]

mutual

/-- Reading a message that was written takes the empty message to it. -/
theorem Par.isRow (budget : Nat) :
    ∀ par : Par, IsRow (merges budget).par (par.Fits budget) par.encode {} par
  | ⟨sends, _, _, exprs, _, _, _, _, _, _⟩ =>
    Par.isRow_of_parts budget _ (sends_isRow (budget - 1) sends) (exprs_isRow (budget - 1) exprs)

theorem sends_isRow (budget : Nat) : ∀ (sends : List Send), ∀ send ∈ sends,
    IsRow (merges budget).send (send.Fits budget) send.encode {} send
  | [] => nofun
  | send :: rest => List.forall_mem_cons.mpr ⟨Send.isRow budget send, sends_isRow budget rest⟩

theorem exprs_isRow (budget : Nat) : ∀ (exprs : List Expr), ∀ expr ∈ exprs,
    IsRow (merges budget).expr (expr.Fits budget) expr.encode {} expr
  | [] => nofun
  | expr :: rest => List.forall_mem_cons.mpr ⟨Expr.isRow budget expr, exprs_isRow budget rest⟩

theorem Send.isRow (budget : Nat) :
    ∀ send : Send, IsRow (merges budget).send (send.Fits budget) send.encode {} send
  | ⟨chan, data, _, _, _⟩ =>
    Send.isRow_of_parts budget _ (chan_isRow (budget - 1) chan) (pars_isRow (budget - 1) data)

theorem chan_isRow (budget : Nat) : ∀ (chan : Option Par), ∀ par ∈ chan,
    IsRow (merges budget).par (par.Fits budget) par.encode {} par
  | none => nofun
  | some chan => fun _ h => Option.mem_some.mp h ▸ Par.isRow budget chan

theorem pars_isRow (budget : Nat) : ∀ (pars : List Par), ∀ par ∈ pars,
    IsRow (merges budget).par (par.Fits budget) par.encode {} par
  | [] => nofun
  | par :: rest => List.forall_mem_cons.mpr ⟨Par.isRow budget par, pars_isRow budget rest⟩

theorem Expr.isRow (budget : Nat) :
    ∀ expr : Expr, IsRow (merges budget).expr (expr.Fits budget) expr.encode {} expr
  | ⟨none⟩ | ⟨some (.bool _)⟩ | ⟨some (.int _)⟩ | ⟨some (.string _)⟩ | ⟨some (.uri _)⟩
  | ⟨some (.bytes _)⟩ => Expr.isRow_of_kind budget _ (by simp)
  | ⟨some (.list list)⟩ => Expr.isRow_of_kind budget _ (by simpa using EList.isRow (budget - 1) list)

theorem EList.isRow (budget : Nat) :
    ∀ list : EList, IsRow (merges budget).list (list.Fits budget) list.encode {} list
  | ⟨ps, _, _, _⟩ => EList.isRow_of_parts budget _ (pars_isRow (budget - 1) ps)

end

/-- The bytes of a message are read as that message, and just when it fits the budget. -/
theorem Par.decode_encode_eq_ok (par par' : Par) :
    Par.decode par.encode = .ok par' ↔ par.Fits nestingBudget ∧ par' = par := by
  have hrow := (Par.isRow nestingBudget par).gives_mergeFields [] par.encode.length (Nat.le_refl _)
  rw [List.append_nil, List.length_nil] at hrow
  rw [Par.decode, bind_eq_ok]
  constructor
  · rintro ⟨read, hread, hpar⟩
    obtain ⟨hfits, rfl⟩ := (hrow read).mp hread
    exact ⟨hfits, (Except.ok.inj hpar).symm⟩
  · rintro ⟨hfits, rfl⟩
    exact ⟨_, (hrow _).mpr ⟨hfits, rfl⟩, rfl⟩

end Wire
end DataTerms

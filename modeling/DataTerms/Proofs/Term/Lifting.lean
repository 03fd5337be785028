/-
# The messages that are terms

A message is taken up as a term just when it is the message of a term, an absent channel
counting as one with nothing in it. Nothing is dropped on the way: of two different
messages that both are terms, with all their channels there, the terms differ.

The argument goes through the message from the outside in, one statement for each function
that takes messages up, and each of them is an equivalence, so that what is refused and what
is accepted are settled together.

Key theorems: `Term.ofParAt_eq_ok`, `Term.ofPar_eq_ok_iff`.
-/
import DataTerms.Proofs.Outcomes
import DataTerms.Proofs.Term.Canon
import DataTerms.Proofs.Term.Channels

namespace DataTerms

/-- A message has no kind of process that carries no data just when the fields of those
are empty. -/
theorem Wire.Par.unsupportedKinds_eq_nil (par : Wire.Par) :
    par.unsupportedKinds = [] ↔ par.receives = [] ∧ par.news = [] ∧ par.matchers = [] ∧
      par.unforgeables = [] ∧ par.connectives = [] ∧ par.bundles = [] := by
  simp [Wire.Par.unsupportedKinds, List.filterMap_eq_nil_iff]

namespace Term

open Outcomes TermError

theorem refusePattern_eq_ok {path : Path} {part : Part} {connectiveUsed : Bool}
    {locallyFree : List UInt8} :
    refusePattern path part connectiveUsed locallyFree = .ok () ↔
      connectiveUsed = false ∧ locallyFree = [] := by
  unfold refusePattern
  split
  · next h => simp [h]
  · next h =>
    split
    · next h' => simp [h']
    · next h' => simpa [h] using h'

theorem refuseKinds_eq_ok {path : Path} {names : List String} :
    refuseKinds path names = .ok () ↔ names = [] := by
  unfold refuseKinds
  split
  · next h => simp [h]
  · next h => simp [h]

/-- The message of a term has sends and expressions only. -/
theorem toPar_eq_mk {t : Term} {messages : List Wire.Send} {exprs : List Wire.Expr}
    {receives news matchers unforgeables connectives bundles : List (List UInt8)}
    {locallyFree : List UInt8} {connectiveUsed : Bool} :
    t.toPar = ⟨messages, receives, news, exprs, matchers, unforgeables, connectives, locallyFree,
        connectiveUsed, bundles⟩ ↔
      (receives = [] ∧ news = [] ∧ matchers = [] ∧ unforgeables = [] ∧ connectives = [] ∧
        bundles = []) ∧ (connectiveUsed = false ∧ locallyFree = []) ∧
      t.toPar = { sends := messages, exprs := exprs } := by
  have hplain : t.toPar = { sends := t.toPar.sends, exprs := t.toPar.exprs } := by cases t <;> rfl
  rw [hplain]
  simp only [Wire.Par.mk.injEq]
  constructor
  · rintro ⟨hs, rfl, rfl, he, rfl, rfl, rfl, rfl, rfl, rfl⟩
    simp [hs, he]
  · rintro ⟨⟨rfl, rfl, rfl, rfl, rfl, rfl⟩, ⟨rfl, rfl⟩, hs, -, -, he, -⟩
    simp [hs, he]

/-- Of terms without empty sends only the empty process has the empty message. -/
theorem toPar_eq_empty {t : Term} : t.NoEmptySends ∧ t.toPar = {} ↔ .nil = t := by
  constructor
  · rintro ⟨hne, ht⟩
    cases t with
    | literal value => simp [toPar, parOfInstance] at ht
    | list items => simp [toPar, parOfInstance] at ht
    | sends entries =>
      cases entries with
      | nil => exact absurd rfl hne.1
      | cons entry rest =>
        obtain ⟨channel, payload⟩ := entry
        simp [toPar, entriesToPar] at ht
    | nil => rfl
  · rintro rfl
    exact ⟨trivial, rfl⟩

/-- The terms without empty sends whose message has a send are those composed of sends. -/
theorem toPar_eq_sends {t : Term} {message : Wire.Send} {messages : List Wire.Send} :
    t.NoEmptySends ∧ t.toPar = { sends := message :: messages } ↔
      ∃ entries, (NoEmptySendsEntries entries ∧ entriesToPar entries = message :: messages) ∧
        .sends entries = t := by
  constructor
  · rintro ⟨hne, ht⟩
    cases t with
    | literal value => simp [toPar, parOfInstance] at ht
    | list items => simp [toPar, parOfInstance] at ht
    | sends entries => exact ⟨entries, ⟨hne.2, by simpa [toPar] using ht⟩, rfl⟩
    | nil => simp [toPar] at ht
  · rintro ⟨entries, ⟨hne, hentries⟩, rfl⟩
    refine ⟨⟨?_, hne⟩, by rw [toPar, hentries]⟩
    rintro rfl
    cases hentries

/-- The terms whose message is a list are lists. -/
theorem toPar_eq_list {t : Term} {body : Wire.EList} :
    t.NoEmptySends ∧ t.toPar = parOfInstance (.list body) ↔
      ∃ items, (NoEmptySendsItems items ∧ { ps := itemsToPar items } = body) ∧ .list items = t := by
  constructor
  · rintro ⟨hne, ht⟩
    rcases t with ⟨_ | _ | _⟩ | items | _ | _ <;>
      simp only [toPar, parOfInstance, instanceOfLiteral, Wire.Par.mk.injEq, List.cons.injEq,
        Wire.Expr.mk.injEq, Option.some.injEq, reduceCtorEq, List.nil_eq, and_false, false_and] at ht
    exact ⟨items, ⟨hne, Wire.Instance.list.inj ht.2.2.2.1.1⟩, rfl⟩
  · rintro ⟨items, ⟨hne, rfl⟩, rfl⟩
    exact ⟨hne, rfl⟩

/-- A message is a term if its parts are. -/
theorem ofParAt_eq_ok_of_parts {path : Path} : ∀ {par : Wire.Par} {t : Term},
    (∀ t, ofExprsAt path par.exprs = .ok t ↔
      t.NoEmptySends ∧ t.toPar = { exprs := Wire.fillExprs par.exprs }) →
    (∀ entries, entriesOfPar path 0 par.sends = .ok entries ↔
      NoEmptySendsEntries entries ∧ entriesToPar entries = Wire.fillSends par.sends) →
    (ofParAt path par = .ok t ↔ t.NoEmptySends ∧ t.toPar = par.fill)
  | ⟨messages, receives, news, exprs, matchers, unforgeables, connectives, locallyFree,
      connectiveUsed, bundles⟩, t, hexprs, hsends => by
    rw [ofParAt.eq_def]
    simp only
    rw [check_bind_eq_ok, refuseKinds_eq_ok, Wire.Par.unsupportedKinds_eq_nil,
      check_bind_eq_ok, refusePattern_eq_ok, Wire.Par.fill, toPar_eq_mk]
    rw [and_left_comm (a := t.NoEmptySends), and_left_comm (a := t.NoEmptySends)]
    refine and_congr Iff.rfl (and_congr Iff.rfl ?_)
    -- without sends a message is what its expressions are; with sends it has no expressions
    cases messages with
    | nil => exact hexprs t
    | cons message messages =>
      cases exprs with
      | nil =>
        rw [Wire.fillExprs, Wire.fillSends, toPar_eq_sends]
        simp only [bind_eq_ok, hsends, Wire.fillSends, pure_eq, Except.ok.injEq]
      | cons expr exprs =>
        cases t <;> simp [toPar, parOfInstance, Wire.fillSends, Wire.fillExprs]

/-- The body of a list is read as the items of its messages if it has no mark of a pattern. -/
theorem itemsOfListAt_eq_ok_of_parts {path : Path} : ∀ {body : Wire.EList} {items : List Term},
    (itemsOfPar path 0 body.ps = .ok items ↔
      NoEmptySendsItems items ∧ itemsToPar items = Wire.fillPars body.ps) →
    (itemsOfListAt path body = .ok items ↔
      NoEmptySendsItems items ∧ { ps := itemsToPar items } = body.fill)
  | ⟨ps, locallyFree, connectiveUsed, remainder⟩, items, hps => by
    cases remainder with
    | some bytes => simp [itemsOfListAt, Wire.EList.fill]
    | none =>
      rw [itemsOfListAt.eq_def]
      simp only [Option.isSome_none, Bool.false_eq_true, if_false]
      rw [check_bind_eq_ok, refusePattern_eq_ok, hps, Wire.EList.fill, Wire.EList.mk.injEq]
      constructor
      · rintro ⟨⟨rfl, rfl⟩, hne, hitems⟩
        exact ⟨hne, hitems, rfl, rfl, rfl⟩
      · rintro ⟨hne, hitems, rfl, rfl, -⟩
        exact ⟨⟨rfl, rfl⟩, hne, hitems⟩

/-- The message on a channel is a send if its channel and payload are terms. -/
theorem entryOfSendAt_eq_ok_of_parts {path : Path} : ∀ {send : Wire.Send} {entry : Send},
    (∀ t, channelOfPar path send.chan = .ok t ↔
      t.NoEmptySends ∧ t.toPar = Wire.fillChan send.chan) →
    (∀ items, itemsOfPar path 0 send.data = .ok items ↔
      NoEmptySendsItems items ∧ itemsToPar items = Wire.fillPars send.data) →
    (entryOfSendAt path send = .ok entry ↔
      (entry.channel.NoEmptySends ∧ NoEmptySendsItems entry.payload) ∧
        { chan := some entry.channel.toPar, data := itemsToPar entry.payload } = send.fill)
  | ⟨chan, data, persistent, locallyFree, connectiveUsed⟩, ⟨channel, payload⟩, hchan, hdata => by
    cases persistent with
    | true => simp [entryOfSendAt, Wire.Send.fill]
    | false =>
      rw [entryOfSendAt.eq_def]
      simp only [Bool.false_eq_true, if_false]
      rw [check_bind_eq_ok, refusePattern_eq_ok]
      simp only [bind_eq_ok, hchan, hdata, pure_eq, Except.ok.injEq, Send.mk.injEq,
        Wire.Send.fill, Wire.Send.mk.injEq, Option.some.injEq]
      constructor
      · rintro ⟨⟨rfl, rfl⟩, _, ⟨hne, hc⟩, _, ⟨hne', hp⟩, rfl, rfl⟩
        exact ⟨⟨hne, hne'⟩, hc, hp, trivial, rfl, rfl⟩
      · rintro ⟨⟨hne, hne'⟩, hc, hp, -, rfl, rfl⟩
        exact ⟨⟨rfl, rfl⟩, _, ⟨hne, hc⟩, _, ⟨hne', hp⟩, rfl, rfl⟩

/-- A kind of expression other than a list is a term just when it is a literal. -/
theorem ofInstanceAt_eq_ok_of_literal {path : Path} {t : Term} (value : Literal) :
    ofInstanceAt path (instanceOfLiteral value) = .ok t ↔
      t.NoEmptySends ∧ t.toPar = parOfInstance (instanceOfLiteral value) := by
  have hread : ofInstanceAt path (instanceOfLiteral value) = .ok (.literal value) := by
    cases value <;> rfl
  rw [hread, Except.ok.injEq]
  constructor
  · rintro rfl
    exact ⟨trivial, rfl⟩
  · rintro ⟨-, ht⟩
    cases t with
    | literal value' => cases value <;> cases value' <;>
        simp_all [toPar, parOfInstance, instanceOfLiteral]
    | list items => cases value <;> simp [toPar, parOfInstance, instanceOfLiteral] at ht
    | sends entries => cases value <;> simp [toPar, parOfInstance, instanceOfLiteral] at ht
    | nil => cases value <;> simp [toPar, parOfInstance, instanceOfLiteral] at ht

mutual

/-- A message is a term just when it is that term's message, but for absent channels, and
no sends in the term are empty. -/
theorem ofParAt_eq_ok (path : Path) : ∀ (par : Wire.Par) (t : Term),
    ofParAt path par = .ok t ↔ t.NoEmptySends ∧ t.toPar = par.fill
  | ⟨messages, _, _, exprs, _, _, _, _, _, _⟩, _ =>
    ofParAt_eq_ok_of_parts (ofExprsAt_eq_ok path exprs) (entriesOfPar_eq_ok path 0 messages)

theorem ofExprsAt_eq_ok (path : Path) : ∀ (exprs : List Wire.Expr) (t : Term),
    ofExprsAt path exprs = .ok t ↔ t.NoEmptySends ∧ t.toPar = { exprs := Wire.fillExprs exprs }
  | [], t => by
    rw [ofExprsAt, Except.ok.injEq]
    exact toPar_eq_empty.symm
  | [expr], t => by
    rw [ofExprsAt]
    exact ofExprAt_eq_ok path expr t
  | first :: second :: rest, t => by
    cases t <;> simp [ofExprsAt, toPar, parOfInstance, Wire.fillExprs]

theorem ofExprAt_eq_ok (path : Path) : ∀ (expr : Wire.Expr) (t : Term),
    ofExprAt path expr = .ok t ↔ t.NoEmptySends ∧ t.toPar = { exprs := [expr.fill] }
  | ⟨none⟩, t => by
    cases t <;> simp [ofExprAt, toPar, parOfInstance, Wire.Expr.fill, Wire.fillKind]
  | ⟨some kind⟩, t => ofInstanceAt_eq_ok path kind t

theorem ofInstanceAt_eq_ok (path : Path) : ∀ (kind : Wire.Instance) (t : Term),
    ofInstanceAt path kind = .ok t ↔ t.NoEmptySends ∧ t.toPar = parOfInstance kind.fill
  | .bool value, _ => ofInstanceAt_eq_ok_of_literal (.bool value)
  | .int value, _ => ofInstanceAt_eq_ok_of_literal (.int value)
  | .string value, _ => ofInstanceAt_eq_ok_of_literal (.str value)
  | .uri value, t => by
    rcases t with ⟨_ | _ | _⟩ | _ | _ | _ <;>
      simp [ofInstanceAt, toPar, parOfInstance, instanceOfLiteral, Wire.Instance.fill]
  | .bytes value, t => by
    rcases t with ⟨_ | _ | _⟩ | _ | _ | _ <;>
      simp [ofInstanceAt, toPar, parOfInstance, instanceOfLiteral, Wire.Instance.fill]
  | .list body, t => by
    have hbody := itemsOfListAt_eq_ok path body
    simp only [ofInstanceAt, bind_eq_ok, hbody, pure_eq, Except.ok.injEq, Wire.Instance.fill]
    exact toPar_eq_list.symm

theorem itemsOfListAt_eq_ok (path : Path) : ∀ (body : Wire.EList) (items : List Term),
    itemsOfListAt path body = .ok items ↔
      NoEmptySendsItems items ∧ { ps := itemsToPar items } = body.fill
  | ⟨ps, _, _, _⟩, items => itemsOfListAt_eq_ok_of_parts (itemsOfPar_eq_ok path 0 ps items)

theorem itemsOfPar_eq_ok (path : Path) (i : Nat) : ∀ (pars : List Wire.Par) (items : List Term),
    itemsOfPar path i pars = .ok items ↔
      NoEmptySendsItems items ∧ itemsToPar items = Wire.fillPars pars
  | [], items => by
    cases items <;> simp [itemsOfPar, NoEmptySendsItems, itemsToPar, Wire.fillPars]
  | par :: rest, items => by
    have hpar := ofParAt_eq_ok (path.index i) par
    have hrest := itemsOfPar_eq_ok path (i + 1) rest
    simp only [itemsOfPar, bind_eq_ok, hpar, hrest, pure_eq, Except.ok.injEq, Wire.fillPars]
    constructor
    · rintro ⟨item, ⟨hne, ht⟩, items, ⟨hne', hts⟩, rfl⟩
      exact ⟨⟨hne, hne'⟩, by rw [itemsToPar, ht, hts]⟩
    · rintro ⟨hne, hts⟩
      cases items with
      | nil => cases hts
      | cons item items =>
        rw [itemsToPar, List.cons.injEq] at hts
        exact ⟨item, ⟨hne.1, hts.1⟩, items, ⟨hne.2, hts.2⟩, rfl⟩

theorem entriesOfPar_eq_ok (path : Path) (i : Nat) :
    ∀ (sends : List Wire.Send) (entries : List Send),
      entriesOfPar path i sends = .ok entries ↔
        NoEmptySendsEntries entries ∧ entriesToPar entries = Wire.fillSends sends
  | [], entries => by
    rcases entries with _ | ⟨⟨channel, payload⟩, entries⟩ <;>
      simp [entriesOfPar, NoEmptySendsEntries, entriesToPar, Wire.fillSends]
  | send :: rest, entries => by
    have hsend := entryOfSendAt_eq_ok (path.index i) send
    have hrest := entriesOfPar_eq_ok path (i + 1) rest
    simp only [entriesOfPar, bind_eq_ok, hsend, hrest, pure_eq, Except.ok.injEq, Wire.fillSends]
    constructor
    · rintro ⟨⟨channel, payload⟩, ⟨⟨hne, hne'⟩, ht⟩, entries, ⟨hne'', hts⟩, rfl⟩
      exact ⟨⟨hne, hne', hne''⟩, by rw [entriesToPar, ht, hts]⟩
    · rintro ⟨hne, hts⟩
      rcases entries with _ | ⟨⟨channel, payload⟩, entries⟩
      · cases hts
      · rw [entriesToPar, List.cons.injEq] at hts
        exact ⟨_, ⟨⟨hne.1, hne.2.1⟩, hts.1⟩, entries, ⟨hne.2.2, hts.2⟩, rfl⟩

theorem entryOfSendAt_eq_ok (path : Path) : ∀ (send : Wire.Send) (entry : Send),
    entryOfSendAt path send = .ok entry ↔
      (entry.channel.NoEmptySends ∧ NoEmptySendsItems entry.payload) ∧
        { chan := some entry.channel.toPar, data := itemsToPar entry.payload } = send.fill
  | ⟨chan, data, _, _, _⟩, _ =>
    entryOfSendAt_eq_ok_of_parts (channelOfPar_eq_ok path chan) (itemsOfPar_eq_ok path 0 data)

theorem channelOfPar_eq_ok (path : Path) : ∀ (chan : Option Wire.Par) (t : Term),
    channelOfPar path chan = .ok t ↔ t.NoEmptySends ∧ t.toPar = Wire.fillChan chan
  | none, t => by
    rw [channelOfPar, Except.ok.injEq]
    exact toPar_eq_empty.symm
  | some par, t => ofParAt_eq_ok path par t

end

/-- **Taking up accepts just what laying down makes.** A message becomes a term if and only if
it is, with its absent channels put in, the message of that term, and no sends in the term
are empty. So the message of any term is taken up, as that term without its empty sends. -/
theorem ofPar_eq_ok_iff :
    (∀ (par : Wire.Par) (t : Term),
      ofPar? par = .ok t ↔ t.NoEmptySends ∧ t.toPar = par.fill) ∧
    ∀ t : Term, ofPar? t.toPar = .ok t.canon := by
  refine ⟨fun par t => ofParAt_eq_ok .root par t, fun t => ?_⟩
  have hmessage : t.canon.toPar = t.toPar.fill := by rw [toPar_canon, fill_toPar]
  exact (ofParAt_eq_ok .root t.toPar t.canon).mpr ⟨noEmptySends_canon t, hmessage⟩

end Term
end DataTerms

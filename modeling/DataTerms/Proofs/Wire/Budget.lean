/-
# Messages within the budget

A reader goes no deeper than its budget, whatever the bytes: with fields that come again and
messages that are merged into others, no message that is read nests deeper than the messages
that were within each other in the bytes. So the messages that come back from their bytes are
exactly those that nest no deeper than the budget.

One field keeps a message within the budget if the messages within it are kept within what is
left of the budget (`Merges.keep_over`), so all fields do, and the budget itself carries the
induction.

Key definitions: `Wire.Keeps`, `Wire.Merges.Keep`.
Key theorems: `Wire.Par.nesting_le_of_decode`, `Wire.Par.decode_encode_eq_self_iff`.
-/
import DataTerms.Proofs.Wire.Nesting

namespace DataTerms
namespace Wire

open Outcomes

variable {α β : Type}

theorem Par.nesting_eq (par : Par) :
    par.nesting = max (sendsNesting par.sends) (exprsNesting par.exprs) := by
  cases par
  rfl

theorem Send.nesting_eq (send : Send) :
    send.nesting = max (chanNesting send.chan) (parsNesting send.data) := by
  cases send
  rfl

theorem EList.nesting_eq (list : EList) : list.nesting = parsNesting list.ps := by
  cases list
  rfl

theorem sendsNesting_append_singleton (send : Send) (sends : List Send) :
    sendsNesting (sends ++ [send]) = max (sendsNesting sends) (send.nesting + 1) := by
  induction sends with
  | nil => simp [sendsNesting]
  | cons first rest ih => rw [List.cons_append, sendsNesting, sendsNesting, ih, Nat.max_assoc]

theorem exprsNesting_append_singleton (expr : Expr) (exprs : List Expr) :
    exprsNesting (exprs ++ [expr]) = max (exprsNesting exprs) (expr.nesting + 1) := by
  induction exprs with
  | nil => simp [exprsNesting]
  | cons first rest ih => rw [List.cons_append, exprsNesting, exprsNesting, ih, Nat.max_assoc]

theorem parsNesting_append_singleton (par : Par) (pars : List Par) :
    parsNesting (pars ++ [par]) = max (parsNesting pars) (par.nesting + 1) := by
  induction pars with
  | nil => simp [parsNesting]
  | cons first rest ih => rw [List.cons_append, parsNesting, parsNesting, ih, Nat.max_assoc]

/-! ### What reading keeps -/

/-- A field that is merged keeps what holds of the message. -/
def Keeps (invariant : α → Prop) (merge : Merge α) : Prop :=
  ∀ key message input r, merge key message input = .ok r → invariant message → invariant r.1

/-- Fields one after the other keep what each of them keeps. -/
theorem Keeps.mergeFields {invariant : α → Prop} {merge : Merge α} (h : Keeps invariant merge)
    {stop : Nat} : ∀ {steps : Nat} {message : α} {input : Input} {r : α × Input},
      Wire.mergeFields merge stop steps message input = .ok r → invariant message → invariant r.1
  | 0, message, input, r, hr, hm => by
    rw [Wire.mergeFields, Except.ok.injEq] at hr
    exact hr ▸ hm
  | steps + 1, message, input, r, hr, hm => by
    rw [Wire.mergeFields] at hr
    split at hr
    · rw [Except.ok.injEq] at hr
      exact hr ▸ hm
    · obtain ⟨read, -, hr⟩ := bind_eq_ok.mp hr
      obtain ⟨merged, hmerged, hr⟩ := bind_eq_ok.mp hr
      exact h.mergeFields hr (h _ _ _ _ hmerged hm)

/-- A message within a message is kept as its fields keep it. -/
theorem Keeps.mergeMessage {invariant : α → Prop} {merge : Merge α} (h : Keeps invariant merge) :
    Keeps invariant (Wire.mergeMessage (some merge)) := by
  intro key message input r hr hm
  rw [Wire.mergeMessage] at hr
  obtain ⟨_, -, hr⟩ := bind_eq_ok.mp hr
  obtain ⟨⟨length, rest⟩, -, hr⟩ := bind_eq_ok.mp hr
  simp only at hr
  split at hr
  · cases hr
  · obtain ⟨merged, hmerged, hr⟩ := bind_eq_ok.mp hr
    have hkept := h.mergeFields hmerged hm
    split at hr
    · rw [← Except.ok.inj hr]
      exact hkept
    · cases hr

theorem inField_bind_eq_ok {name : String} {read : Except Fault (β × Input)} (put : β → α)
    {r : α × Input} :
    inField name (read >>= fun r => .ok (put r.1, r.2)) = .ok r ↔
      ∃ value, read = .ok (value, r.2) ∧ r.1 = put value := by
  rcases read with fault | ⟨value, rest⟩
  · simp [inField]
  · rcases r with ⟨message, left⟩
    simp only [ok_bind, inField, Except.ok.injEq, Prod.mk.injEq]
    constructor
    · rintro ⟨rfl, rfl⟩
      exact ⟨value, ⟨rfl, rfl⟩, rfl⟩
    · rintro ⟨_, ⟨rfl, rfl⟩, rfl⟩
      exact ⟨rfl, rfl⟩

theorem nesting_le_of_put {name : String} {read : Except Fault (β × Input)} {r : α × Input}
    {nesting : α → Nat} {budget : Nat} (put : β → α) (hput : ∀ value, nesting (put value) ≤ budget)
    (hr : inField name (read >>= fun r => .ok (put r.1, r.2)) = .ok r) : nesting r.1 ≤ budget := by
  obtain ⟨value, -, hmessage⟩ := (inField_bind_eq_ok put).mp hr
  exact hmessage ▸ hput value

/-! ### The budget -/

/-- The merges of messages keep them within a budget. -/
structure Merges.Keep (budget : Nat) (merges : Merges) : Prop where
  par : Keeps (fun par : Par => par.nesting ≤ budget) merges.par
  send : Keeps (fun send : Send => send.nesting ≤ budget) merges.send
  expr : Keeps (fun expr : Expr => expr.nesting ≤ budget) merges.expr
  list : Keeps (fun list : EList => list.nesting ≤ budget) merges.list

/-- A message is read within another only where the budget has room for it, and leaves room
for the one about it. -/
theorem nesting_lt_of_inner {budget : Nat} {merge : Merges → Merge α} {nesting : α → Nat}
    (h : ∀ inner ∈ innerMerges budget, Keeps (fun a => nesting a ≤ budget - 1) (merge inner))
    {key : Key} {a : α} {input : Input} {r : α × Input} (ha : nesting a ≤ budget - 1)
    (hr : mergeMessage ((innerMerges budget).map merge) key a input = .ok r) :
    nesting r.1 + 1 ≤ budget := by
  cases budget with
  | zero =>
    rw [innerMerges, Option.map_none, mergeMessage, check_bind_eq_ok] at hr
    cases hr.2
  | succ budget =>
    have hkept := (h (merges budget) rfl).mergeMessage key a input r hr ha
    omega

section Fields

variable {budget : Nat} (h : ∀ inner ∈ innerMerges budget, inner.Keep (budget - 1))
include h

/-- A field of processes in parallel adds a send or an expression that has room in the budget,
or what has no messages within it. -/
theorem Par.keeps_merge :
    Keeps (fun par : Par => par.nesting ≤ budget) (Par.merge budget (innerMerges budget)) := by
  intro key par input r hr hpar
  show r.1.nesting ≤ budget
  rw [Par.nesting_eq] at hpar
  unfold Par.merge at hr
  split at hr
  · obtain ⟨send, hread, hr⟩ :=
      (inField_bind_eq_ok fun send => { par with sends := par.sends ++ [send] }).mp hr
    have hsend : send.nesting + 1 ≤ budget :=
      nesting_lt_of_inner (fun inner hmem => (h inner hmem).send) (Nat.zero_le _) hread
    obtain ⟨hsends, hexprs⟩ := Nat.max_le.mp hpar
    rw [hr, Par.nesting_eq, sendsNesting_append_singleton]
    exact Nat.max_le.mpr ⟨Nat.max_le.mpr ⟨hsends, hsend⟩, hexprs⟩
  · exact nesting_le_of_put (fun bytes => { par with receives := par.receives ++ [bytes] })
      (fun _ => hpar) hr
  · exact nesting_le_of_put (fun bytes => { par with news := par.news ++ [bytes] })
      (fun _ => hpar) hr
  · obtain ⟨expr, hread, hr⟩ :=
      (inField_bind_eq_ok fun expr => { par with exprs := par.exprs ++ [expr] }).mp hr
    have hexpr : expr.nesting + 1 ≤ budget :=
      nesting_lt_of_inner (fun inner hmem => (h inner hmem).expr) (Nat.zero_le _) hread
    obtain ⟨hsends, hexprs⟩ := Nat.max_le.mp hpar
    rw [hr, Par.nesting_eq, exprsNesting_append_singleton]
    exact Nat.max_le.mpr ⟨hsends, Nat.max_le.mpr ⟨hexprs, hexpr⟩⟩
  · exact nesting_le_of_put (fun bytes => { par with matchers := par.matchers ++ [bytes] })
      (fun _ => hpar) hr
  · exact nesting_le_of_put (fun bytes => { par with unforgeables := par.unforgeables ++ [bytes] })
      (fun _ => hpar) hr
  · exact nesting_le_of_put (fun bytes => { par with connectives := par.connectives ++ [bytes] })
      (fun _ => hpar) hr
  · exact nesting_le_of_put (fun bytes => { par with locallyFree := bytes }) (fun _ => hpar) hr
  · exact nesting_le_of_put (fun value => { par with connectiveUsed := value }) (fun _ => hpar) hr
  · exact nesting_le_of_put (fun bytes => { par with bundles := par.bundles ++ [bytes] })
      (fun _ => hpar) hr
  · obtain ⟨rest, -, hr⟩ := bind_eq_ok.mp hr
    rw [← Except.ok.inj hr, Par.nesting_eq]
    exact hpar

/-- A field of a message on a channel replaces the channel by one that has room in the budget,
the one that was there merged into it, or adds such a process. -/
theorem Send.keeps_merge :
    Keeps (fun send : Send => send.nesting ≤ budget) (Send.merge budget (innerMerges budget)) := by
  intro key send input r hr hsend
  show r.1.nesting ≤ budget
  rw [Send.nesting_eq] at hsend
  unfold Send.merge at hr
  split at hr
  · obtain ⟨chan, hread, hr⟩ :=
      (inField_bind_eq_ok fun chan => { send with chan := some chan }).mp hr
    have hbefore : (send.chan.getD {}).nesting ≤ budget - 1 := by
      cases hchan : send.chan with
      | none => exact Nat.zero_le _
      | some before =>
        rw [hchan, chanNesting] at hsend
        exact Nat.le_sub_of_add_le (Nat.max_le.mp hsend).1
    have hchan : chan.nesting + 1 ≤ budget :=
      nesting_lt_of_inner (fun inner hmem => (h inner hmem).par) hbefore hread
    rw [hr, Send.nesting_eq]
    exact Nat.max_le.mpr ⟨hchan, (Nat.max_le.mp hsend).2⟩
  · obtain ⟨par, hread, hr⟩ :=
      (inField_bind_eq_ok fun par => { send with data := send.data ++ [par] }).mp hr
    have hpar : par.nesting + 1 ≤ budget :=
      nesting_lt_of_inner (fun inner hmem => (h inner hmem).par) (Nat.zero_le _) hread
    obtain ⟨hchan, hdata⟩ := Nat.max_le.mp hsend
    rw [hr, Send.nesting_eq, parsNesting_append_singleton]
    exact Nat.max_le.mpr ⟨hchan, Nat.max_le.mpr ⟨hdata, hpar⟩⟩
  · exact nesting_le_of_put (fun value => { send with persistent := value }) (fun _ => hsend) hr
  · exact nesting_le_of_put (fun bytes => { send with locallyFree := bytes }) (fun _ => hsend) hr
  · exact nesting_le_of_put (fun value => { send with connectiveUsed := value }) (fun _ => hsend) hr
  · obtain ⟨rest, -, hr⟩ := bind_eq_ok.mp hr
    rw [← Except.ok.inj hr, Send.nesting_eq]
    exact hsend

/-- A field of an expression replaces its kind, or merges a list with the one there is. -/
theorem Expr.keeps_merge :
    Keeps (fun expr : Expr => expr.nesting ≤ budget) (Expr.merge budget (innerMerges budget)) := by
  intro key expr input r hr hexpr
  show r.1.nesting ≤ budget
  unfold Expr.merge at hr
  split at hr
  · exact nesting_le_of_put (fun value => (⟨some (.bool value)⟩ : Expr)) (fun _ => Nat.zero_le _) hr
  · exact nesting_le_of_put (fun value => (⟨some (.int value)⟩ : Expr)) (fun _ => Nat.zero_le _) hr
  · exact nesting_le_of_put (fun value => (⟨some (.string value)⟩ : Expr)) (fun _ => Nat.zero_le _) hr
  · exact nesting_le_of_put (fun value => (⟨some (.uri value)⟩ : Expr)) (fun _ => Nat.zero_le _) hr
  · obtain ⟨body, hread, hr⟩ :=
      (inField_bind_eq_ok fun body => (⟨some (.list body)⟩ : Expr)).mp hr
    have hbefore : expr.listBody.nesting ≤ budget - 1 := by
      rcases expr with ⟨_ | kind⟩
      · exact Nat.zero_le _
      · cases kind with
        | list before => exact Nat.le_sub_of_add_le hexpr
        | _ => exact Nat.zero_le _
    rw [hr]
    exact nesting_lt_of_inner (fun inner hmem => (h inner hmem).list) hbefore hread
  · exact nesting_le_of_put (fun value => (⟨some (.bytes value)⟩ : Expr)) (fun _ => Nat.zero_le _) hr
  · obtain ⟨rest, -, hr⟩ := bind_eq_ok.mp hr
    rw [← Except.ok.inj hr]
    exact hexpr

/-- A field of the body of a list adds an item that has room in the budget, or what has no
messages within it. -/
theorem EList.keeps_merge :
    Keeps (fun list : EList => list.nesting ≤ budget) (EList.merge budget (innerMerges budget)) := by
  intro key list input r hr hlist
  show r.1.nesting ≤ budget
  rw [EList.nesting_eq] at hlist
  unfold EList.merge at hr
  split at hr
  · obtain ⟨par, hread, hr⟩ :=
      (inField_bind_eq_ok fun par => { list with ps := list.ps ++ [par] }).mp hr
    have hpar : par.nesting + 1 ≤ budget :=
      nesting_lt_of_inner (fun inner hmem => (h inner hmem).par) (Nat.zero_le _) hread
    rw [hr, EList.nesting_eq, parsNesting_append_singleton]
    exact Nat.max_le.mpr ⟨hlist, hpar⟩
  · exact nesting_le_of_put (fun bytes => { list with locallyFree := bytes }) (fun _ => hlist) hr
  · exact nesting_le_of_put (fun value => { list with connectiveUsed := value }) (fun _ => hlist) hr
  · exact nesting_le_of_put (fun bytes => { list with remainder := some bytes }) (fun _ => hlist) hr
  · obtain ⟨rest, -, hr⟩ := bind_eq_ok.mp hr
    rw [← Except.ok.inj hr, EList.nesting_eq]
    exact hlist

theorem Merges.keep_over : (Merges.over budget (innerMerges budget)).Keep budget :=
  ⟨Par.keeps_merge h, Send.keeps_merge h, Expr.keeps_merge h, EList.keeps_merge h⟩

end Fields

theorem keep_merges : ∀ budget : Nat, (merges budget).Keep budget
  | 0 => Merges.keep_over nofun
  | budget + 1 => Merges.keep_over fun _ hmem => Option.mem_some.mp hmem ▸ keep_merges budget

/-- Whatever bytes are read, the messages that are read nest no deeper than the budget. -/
theorem Par.nesting_le_of_decode {bytes : List UInt8} {par : Par} (h : decode bytes = .ok par) :
    par.nesting ≤ nestingBudget := by
  rw [decode] at h
  obtain ⟨read, hread, hpar⟩ := bind_eq_ok.mp h
  rw [← Except.ok.inj hpar]
  exact (keep_merges nestingBudget).par.mergeFields hread (Nat.zero_le _)

theorem Par.decode_encode_of_nesting_le {par : Par} (hnest : par.nesting ≤ nestingBudget)
    (hlen : par.encode.length < 2 ^ 63) : Par.decode par.encode = .ok par := by
  have hshort : Short par.encode := Nat.lt_trans hlen (by decide)
  exact (decode_encode_eq_ok par par).mpr ⟨fits_of_nesting_le hnest hshort, rfl⟩

/-- **Messages come back whole.** A message of any fields, whose bytes are fewer than `2 ^ 63`,
is read back from its bytes just when the messages within it nest no deeper than a hundred. -/
theorem Par.decode_encode_eq_self_iff {par : Par} (hlen : par.encode.length < 2 ^ 63) :
    Par.decode par.encode = .ok par ↔ par.nesting ≤ 100 :=
  ⟨nesting_le_of_decode, fun hnest => decode_encode_of_nesting_le hnest hlen⟩

/-- A message with something in each of its fields: a send without a channel and one with an
empty channel, an expression of no kind, a list whose remainder is there with nothing in it, and
values that are the defaults of their kinds. -/
theorem Par.decode_encode_eq_self_everyField :
    let par : Par :=
      { sends := [{ data := [{}], persistent := true, connectiveUsed := true },
          { chan := some {}, locallyFree := [0] }]
        receives := [[], [1]], news := [[2]],
        exprs := [{}, ⟨some (.bool false)⟩, ⟨some (.int 0)⟩, ⟨some (.string "")⟩,
          ⟨some (.uri "a")⟩, ⟨some (.bytes [])⟩,
          ⟨some (.list ⟨[{}, { exprs := [⟨some (.int (-1))⟩] }], [3], true, some []⟩)⟩]
        matchers := [[]], unforgeables := [[4, 5]], connectives := [[6]], locallyFree := [7]
        connectiveUsed := true, bundles := [[]] }
    par.encode.length < 2 ^ 63 ∧ par.nesting ≤ 100 ∧ Par.decode par.encode = .ok par := by
  intro par
  have hlen : par.encode.length < 2 ^ 63 := by decide +kernel
  have hnest : par.nesting ≤ 100 := by decide +kernel
  exact ⟨hlen, hnest, (decode_encode_eq_self_iff hlen).mpr hnest⟩

end Wire
end DataTerms

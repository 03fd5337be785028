/-
# Where a message is refused

A message that is no term is refused for a part of it that is at fault by itself, and the error
stands at the path of this part. A path has nothing but indices: that of an item, that of a send,
and in a payload that of a term after that of the send. A channel has the path of its send, so the
parts of a channel are numbered as the payload beside it is, and the path of an error does not tell
an item of the channel from a term of the payload. Other places are told apart: two places have one
path only if they part at a send, where one goes into the channel and the other into the payload.

Key definitions: `Wire.Step`, `Wire.Par.at?`, `Wire.pathOf`, `Wire.Par.fault?`,
`Wire.Par.Refused`, `Wire.Forked`.
Key theorems: `Wire.Par.eq_or_forked`, `Wire.pathOf_text_eq_iff`, `Term.ofParAt_refused`,
`Term.refused_located`.
-/
import DataTerms.Proofs.Codec.Acceptance
import DataTerms.Proofs.Path

namespace DataTerms
namespace Wire

open TermError (Cause Part)

/-! ### Places in a message -/

/-- A step from a message to one that is part of it. -/
inductive Step where
  /-- To an item of its list. -/
  | item (i : Nat)
  /-- To the channel of one of its sends. -/
  | channel (send : Nat)
  /-- To a term in the payload of one of its sends. -/
  | payload (send i : Nat)
  deriving DecidableEq, Repr

/-- The indices by which a step goes on with a path. -/
def Step.indices : Step → List Nat
  | .item i => [i]
  | .channel send => [send]
  | .payload send i => [send, i]

/-- The indices on the way along steps. -/
def indicesOf (steps : List Step) : List Nat := steps.flatMap Step.indices

/-- The path with indices more. -/
def along (path : Path) (indices : List Nat) : Path := indices.foldl Path.index path

/-- The path of a place. -/
def pathOf (steps : List Step) : Path := along .root (indicesOf steps)

/-- What a step from a message leads to. A channel that is absent is one with nothing in it. -/
def Par.below? (par : Par) : Step → Option Par
  | .item i =>
    match par.sends, par.exprs with
    | [], [⟨some (.list body)⟩] => body.ps[i]?
    | _, _ => none
  | .channel k => if par.exprs = [] then par.sends[k]?.map (·.chan.getD {}) else none
  | .payload k i => if par.exprs = [] then par.sends[k]?.bind (·.data[i]?) else none

/-- What is at a place in a message. -/
def Par.at? : List Step → Par → Option Par
  | [], par => some par
  | step :: rest, par => (par.below? step).bind (at? rest)

/-! ### Places with one path -/

/-- Two places part at a send, where the first goes into the channel and the second to a term of
the payload, and the first is below a part of the channel with the number of that term. -/
def Forked (steps steps' : List Step) : Prop :=
  ∃ common k i rest rest', steps = common ++ .channel k :: rest ∧
    steps' = common ++ .payload k i :: rest' ∧ indicesOf rest = i :: indicesOf rest'

theorem Forked.cons (step : Step) {steps steps' : List Step} (h : Forked steps steps') :
    Forked (step :: steps) (step :: steps') := by
  obtain ⟨common, k, i, rest, rest', rfl, rfl, hrest⟩ := h
  exact ⟨step :: common, k, i, rest, rest', rfl, rfl, hrest⟩

theorem Forked.indicesOf_eq {steps steps' : List Step} (h : Forked steps steps') :
    indicesOf steps = indicesOf steps' := by
  obtain ⟨common, k, i, rest, rest', rfl, rfl, hrest⟩ := h
  rw [indicesOf] at hrest
  simp [indicesOf, Step.indices, hrest]

theorem indicesOf_cons (step : Step) (rest : List Step) :
    indicesOf (step :: rest) = step.indices ++ indicesOf rest :=
  List.flatMap_cons

theorem indicesOf_ne_nil (step : Step) (rest : List Step) : indicesOf (step :: rest) ≠ [] := by
  cases step <;> simp [indicesOf_cons, Step.indices]

/-- A message that is a list has no sends, and one with sends is no list. -/
theorem Par.below?_item {par child : Par} {i : Nat} (h : par.below? (.item i) = some child) :
    par.exprs ≠ [] := by
  rw [below?] at h
  split at h
  · next hexprs => simp [hexprs]
  · cases h

theorem Par.exprs_of_below? {par : Par} {step : Step} {child : Par}
    (h : par.below? step = some child) (hstep : ∀ i, step ≠ .item i) : par.exprs = [] := by
  refine Decidable.byContradiction fun hexprs => ?_
  cases step with
  | item i => exact hstep i rfl
  | channel k => simp [below?, hexprs] at h
  | payload k i => simp [below?, hexprs] at h

/-- From a message from which a step leads to an item every step does. -/
theorem Par.exists_item_of_below? {par child child' : Par} {i : Nat} {step : Step}
    (h : par.below? (.item i) = some child) (h' : par.below? step = some child') :
    ∃ j, step = .item j := by
  refine Classical.byContradiction fun hno => ?_
  exact below?_item h (exprs_of_below? h' fun j heq => hno ⟨j, heq⟩)

/-- Places of a message with the same indices are the same, or part at a send. -/
theorem Par.eq_or_forked : ∀ {par : Par} {steps steps' : List Step} {a b : Par},
    par.at? steps = some a → par.at? steps' = some b → indicesOf steps = indicesOf steps' →
      steps = steps' ∨ Forked steps steps' ∨ Forked steps' steps
  | _, [], [], _, _, _, _, _ => .inl rfl
  | _, [], step :: rest, _, _, _, _, h => absurd h.symm (indicesOf_ne_nil step rest)
  | _, step :: rest, [], _, _, _, _, h => absurd h (indicesOf_ne_nil step rest)
  | par, step :: rest, step' :: rest', a, b, ha, hb, h => by
    obtain ⟨child, hchild, ha⟩ := Option.bind_eq_some_iff.mp ha
    obtain ⟨child', hchild', hb⟩ := Option.bind_eq_some_iff.mp hb
    simp only [indicesOf_cons] at h
    -- along one step the places go on in one message
    have hsame : step = step' → indicesOf rest = indicesOf rest' → step :: rest = step' :: rest' ∨
        Forked (step :: rest) (step' :: rest') ∨ Forked (step' :: rest') (step :: rest) := by
      rintro rfl hrest
      obtain rfl := Option.some.inj (hchild.symm.trans hchild')
      rcases eq_or_forked ha hb hrest with rfl | hforked | hforked
      · exact .inl rfl
      · exact .inr (.inl (hforked.cons step))
      · exact .inr (.inr (hforked.cons step))
    cases step with
    | item i =>
      obtain ⟨j, rfl⟩ := exists_item_of_below? hchild hchild'
      obtain ⟨rfl, hrest⟩ := by simpa [Step.indices] using h
      exact hsame rfl hrest
    | channel k =>
      cases step' with
      | item i =>
        obtain ⟨j, heq⟩ := exists_item_of_below? hchild' hchild
        cases heq
      | channel k' =>
        obtain ⟨rfl, hrest⟩ := by simpa [Step.indices] using h
        exact hsame rfl hrest
      | payload k' i =>
        obtain ⟨rfl, hrest⟩ := by simpa [Step.indices] using h
        exact .inr (.inl ⟨[], k, i, rest, rest', rfl, rfl, hrest⟩)
    | payload k i =>
      cases step' with
      | item j =>
        obtain ⟨j, heq⟩ := exists_item_of_below? hchild' hchild
        cases heq
      | channel k' =>
        obtain ⟨rfl, hrest⟩ := by simpa [Step.indices] using h
        exact .inr (.inr ⟨[], k, i, rest', rest, rfl, rfl, hrest.symm⟩)
      | payload k' j =>
        obtain ⟨rfl, rfl, hrest⟩ := by simpa [Step.indices] using h
        exact hsame rfl hrest

theorem along_eq_foldl_follow (path : Path) (indices : List Nat) :
    along path indices = (indices.map Path.Step.index).foldl Path.follow path := by
  rw [along, List.foldl_map]
  rfl

/-- The text of a path tells its indices. -/
theorem pathOf_text_eq_iff {steps steps' : List Step} :
    (pathOf steps).text = (pathOf steps').text ↔ indicesOf steps = indicesOf steps' := by
  constructor
  · intro h
    rw [pathOf, pathOf, along_eq_foldl_follow, along_eq_foldl_follow] at h
    have hsteps := Path.text_ofSteps_injective h
    exact (List.map_inj_right fun _ _ => Path.Step.index.inj).mp hsteps
  · intro h
    rw [pathOf, pathOf, h]

/-! ### Faults -/

/-- The cause for which kinds of process are refused, if there are any. -/
def kindsFault? (names : List String) : Option Cause :=
  if names = [] then none else some (.unsupportedKinds names)

/-- The cause for which a part with marks of a pattern is refused, if it has one. -/
def markFault? (part : Part) (connectiveUsed : Bool) (locallyFree : List UInt8) : Option Cause :=
  if connectiveUsed then some (.connectiveUsed part)
  else if locallyFree ≠ [] then some (.locallyFree part)
  else none

/-- The cause for which an expression is refused whatever items it has. -/
def Expr.fault? : Expr → Option Cause
  | ⟨none⟩ => some .noInstance
  | ⟨some (.uri _)⟩ => some .uri
  | ⟨some (.bytes _)⟩ => some .byteArray
  | ⟨some (.list body)⟩ =>
    if body.remainder.isSome then some .listRemainder
    else markFault? .list body.connectiveUsed body.locallyFree
  | ⟨some _⟩ => none

/-- The cause for which sends and expressions make no term whatever is below them. -/
def shapeFault? : List Send → List Expr → Option Cause
  | [], [expr] => expr.fault?
  | _, [] => none
  | [], exprs => some (.manyExpressions exprs.length)
  | sends, exprs => some (.blended exprs.length sends.length)

/-- The cause for which a message is refused whatever is below it. -/
def Par.fault? (par : Par) : Option Cause :=
  (kindsFault? par.unsupportedKinds).or
    ((markFault? .node par.connectiveUsed par.locallyFree).or (shapeFault? par.sends par.exprs))

/-- The cause for which a send is refused whatever its channel and its payload are. -/
def Send.fault? (send : Send) : Option Cause :=
  if send.persistent then some .persistentSend
  else markFault? .send send.connectiveUsed send.locallyFree

/-- A part of a message is at fault by itself. A send is where its channel is. -/
inductive Par.Refused : Par → List Step → Cause → Prop
  | node {par : Par} {cause : Cause} : par.fault? = some cause → Refused par [] cause
  | send {par : Par} {k : Nat} {send : Send} {cause : Cause} : par.exprs = [] →
      par.sends[k]? = some send → send.fault? = some cause → Refused par [.channel k] cause
  | within {par child : Par} {step : Step} {steps : List Step} {cause : Cause} :
      par.below? step = some child → Refused child steps cause → Refused par (step :: steps) cause

/-- What is at fault is a place of the message. -/
theorem Par.Refused.exists_at? {par : Par} {steps : List Step} {cause : Cause}
    (h : par.Refused steps cause) : ∃ child, par.at? steps = some child := by
  induction h with
  | @node par _ _ => exact ⟨par, rfl⟩
  | @send par k send _ hexprs hsend _ =>
    exact ⟨send.chan.getD {}, by simp [Par.at?, Par.below?, hexprs, hsend]⟩
  | within hbelow _ ih =>
    obtain ⟨child, hchild⟩ := ih
    exact ⟨child, by simp [Par.at?, hbelow, hchild]⟩

end Wire

namespace Term

open Outcomes Wire
open TermError (Cause Part)

variable {path : Path}

/-- The error of a cause at a path. -/
def At (path : Path) (cause : Cause) (error : TermError) : Prop := error = .malformed path cause

theorem refuseKinds_tracks (path : Path) (names : List String) :
    Tracks (At path) (kindsFault? names) (refuseKinds path names) := by
  unfold refuseKinds kindsFault?
  split
  · rfl
  · exact ⟨_, rfl, rfl⟩

theorem refusePattern_tracks (path : Path) (part : Part) (connectiveUsed : Bool)
    (locallyFree : List UInt8) : Tracks (At path) (markFault? part connectiveUsed locallyFree)
      (refusePattern path part connectiveUsed locallyFree) := by
  unfold refusePattern markFault?
  split
  · exact ⟨_, rfl, rfl⟩
  · split
    · exact ⟨_, rfl, rfl⟩
    · rfl

/-- An error is that of a part of the message at a path, with the part's indices in its path. -/
def Located (path : Path) (par : Par) (error : TermError) : Prop :=
  ∃ steps cause, par.Refused steps cause ∧ At (along path (indicesOf steps)) cause error

/-- An error is that of a part of one of the messages below a path, numbered from `i` on. -/
def LocatedAmong (path : Path) (i : Nat) (pars : List Par) (error : TermError) : Prop :=
  ∃ j par, pars[j]? = some par ∧ Located (path.index (i + j)) par error

/-- An error is that of the send at a path, of its channel or of its payload. -/
def LocatedInSend (path : Path) (send : Wire.Send) (error : TermError) : Prop :=
  (∃ cause, send.fault? = some cause ∧ At path cause error) ∨
    Located path (send.chan.getD {}) error ∨ LocatedAmong path 0 send.data error

/-- An error is that of the expressions at a path, or of an item of the only one. -/
def LocatedInExprs (path : Path) (exprs : List Expr) (error : TermError) : Prop :=
  (∃ cause, shapeFault? [] exprs = some cause ∧ At path cause error) ∨
    ∃ body, exprs = [⟨some (.list body)⟩] ∧ LocatedAmong path 0 body.ps error

theorem Located.within {par child : Par} {step : Step} {error : TermError}
    (hbelow : par.below? step = some child) (h : Located (along path step.indices) child error) :
    Located path par error := by
  obtain ⟨steps, cause, hrefused, herror⟩ := h
  refine ⟨step :: steps, cause, .within hbelow hrefused, ?_⟩
  rwa [indicesOf_cons, along, List.foldl_append]

theorem LocatedAmong.cons {par : Par} {pars : List Par} {i : Nat} {error : TermError}
    (h : LocatedAmong path (i + 1) pars error) : LocatedAmong path i (par :: pars) error := by
  obtain ⟨j, par', hmem, hlocated⟩ := h
  rw [Nat.add_assoc, Nat.add_comm 1 j] at hlocated
  exact ⟨j + 1, par', hmem, hlocated⟩

/-- An error of a send of a message is one of the message. -/
theorem Located.of_send {par : Par} {k : Nat} {send : Wire.Send} {error : TermError}
    (hexprs : par.exprs = []) (hsend : par.sends[k]? = some send)
    (h : LocatedInSend (path.index k) send error) : Located path par error := by
  rcases h with ⟨cause, hfault, herror⟩ | hchannel | ⟨i, child, hchild, hlocated⟩
  · exact ⟨[.channel k], cause, .send hexprs hsend hfault, herror⟩
  · have hbelow : par.below? (.channel k) = some (send.chan.getD {}) := by
      simp [Par.below?, hexprs, hsend]
    exact hchannel.within hbelow
  · have hbelow : par.below? (.payload k i) = some child := by
      simp [Par.below?, hexprs, hsend, hchild]
    rw [Nat.zero_add] at hlocated
    exact hlocated.within hbelow

/-- An error of the expressions of a message without sends is one of the message, if that has no
fault before them. -/
theorem Located.of_exprs {par : Par} {error : TermError} (hsends : par.sends = [])
    (hown : par.fault? = shapeFault? par.sends par.exprs)
    (h : LocatedInExprs path par.exprs error) : Located path par error := by
  rcases h with ⟨cause, hfault, herror⟩ | ⟨body, hexprs, i, child, hchild, hlocated⟩
  · rw [hsends, hfault] at hown
    exact ⟨[], cause, .node hown, herror⟩
  · have hbelow : par.below? (.item i) = some child := by
      simp [Par.below?, hexprs, hsends, hchild]
    rw [Nat.zero_add] at hlocated
    exact hlocated.within hbelow

/-- A message is refused for itself, for its expressions or for one of its sends. -/
theorem ofParAt_refused_of_parts {par : Par}
    (hexprs : FailsBy (LocatedInExprs path par.exprs) (ofExprsAt path par.exprs))
    (hsends : FailsBy (fun error => ∃ k send, par.sends[k]? = some send ∧
      LocatedInSend (path.index k) send error) (entriesOfPar path 0 par.sends)) :
    FailsBy (Located path par) (ofParAt path par) := by
  have hkinds := refuseKinds_tracks path par.unsupportedKinds
  have hmarks := refusePattern_tracks path .node par.connectiveUsed par.locallyFree
  have hown : kindsFault? par.unsupportedKinds = none →
      markFault? .node par.connectiveUsed par.locallyFree = none →
      par.fault? = shapeFault? par.sends par.exprs := by
    intro hnokind hnomark
    rw [Par.fault?, hnokind, hnomark]
    rfl
  obtain ⟨messages, receives, news, exprs, matchers, unforgeables, connectives, locallyFree,
    connectiveUsed, bundles⟩ := par
  rw [ofParAt.eq_def]
  refine FailsBy.bind (fun error herror => ?_) fun _ hok => ?_
  · rw [herror] at hkinds
    obtain ⟨cause, hcause, hat⟩ := hkinds
    exact ⟨[], cause, .node (by simp [Par.fault?, hcause]), hat⟩
  rw [hok] at hkinds
  refine FailsBy.bind (fun error herror => ?_) fun _ hok' => ?_
  · rw [herror] at hmarks
    obtain ⟨cause, hcause, hat⟩ := hmarks
    refine ⟨[], cause, .node ?_, hat⟩
    rw [Par.fault?, hkinds, hcause]
    rfl
  rw [hok'] at hmarks
  have hshape := hown hkinds hmarks
  -- without sends a message is what its expressions are; with sends it has no expressions
  cases messages with
  | nil => exact hexprs.imp fun error h => .of_exprs rfl hshape h
  | cons message messages =>
    cases exprs with
    | nil =>
      refine (hsends.imp fun error h => ?_).bind fun _ _ => FailsBy.of_ok _
      obtain ⟨k, send, hsend, hlocated⟩ := h
      exact Located.of_send rfl hsend hlocated
    | cons expr exprs => exact FailsBy.of_error ⟨[], _, .node hshape, rfl⟩

/-- A list is refused for itself or for one of its items. -/
theorem itemsOfListAt_refused_of_parts {body : EList}
    (hitems : FailsBy (LocatedAmong path 0 body.ps) (itemsOfPar path 0 body.ps)) :
    FailsBy (LocatedInExprs path [⟨some (.list body)⟩]) (itemsOfListAt path body) := by
  obtain ⟨ps, locallyFree, connectiveUsed, remainder⟩ := body
  have hmarks := refusePattern_tracks path .list connectiveUsed locallyFree
  rw [itemsOfListAt.eq_def]
  cases remainder with
  | some rest => exact FailsBy.of_error (.inl ⟨_, rfl, rfl⟩)
  | none =>
    refine FailsBy.bind (fun error herror => ?_) fun _ _ => ?_
    · rw [herror] at hmarks
      exact .inl hmarks
    · exact hitems.imp fun error h => .inr ⟨_, rfl, h⟩

/-- A send is refused for itself, for its channel or for its payload. -/
theorem entryOfSendAt_refused_of_parts {send : Wire.Send}
    (hchannel : FailsBy (Located path (send.chan.getD {})) (channelOfPar path send.chan))
    (hpayload : FailsBy (LocatedAmong path 0 send.data) (itemsOfPar path 0 send.data)) :
    FailsBy (LocatedInSend path send) (entryOfSendAt path send) := by
  obtain ⟨chan, data, persistent, locallyFree, connectiveUsed⟩ := send
  have hmarks := refusePattern_tracks path .send connectiveUsed locallyFree
  rw [entryOfSendAt.eq_def]
  cases persistent with
  | true => exact FailsBy.of_error (.inl ⟨_, rfl, rfl⟩)
  | false =>
    refine FailsBy.bind (fun error herror => ?_) fun _ _ => ?_
    · rw [herror] at hmarks
      exact .inl hmarks
    · refine (hchannel.imp fun error h => .inr (.inl h)).bind fun _ _ => ?_
      exact (hpayload.imp fun error h => .inr (.inr h)).bind fun _ _ => FailsBy.of_ok _

mutual

/-- A message that is no term is refused for one of its parts, at the part's place. -/
theorem ofParAt_refused (path : Path) : ∀ par : Par, FailsBy (Located path par) (ofParAt path par)
  | ⟨messages, _, _, exprs, _, _, _, _, _, _⟩ => by
    have hsends := (entriesOfPar_refused path 0 messages).imp
      fun error (h : ∃ k send, messages[k]? = some send ∧ _) => h
    refine ofParAt_refused_of_parts (ofExprsAt_refused path exprs) ?_
    simpa only [Nat.zero_add] using hsends

theorem ofExprsAt_refused (path : Path) :
    ∀ exprs : List Expr, FailsBy (LocatedInExprs path exprs) (ofExprsAt path exprs)
  | [] => FailsBy.of_ok _
  | [expr] => ofExprAt_refused path expr
  | _ :: _ :: _ => FailsBy.of_error (.inl ⟨_, rfl, rfl⟩)

theorem ofExprAt_refused (path : Path) :
    ∀ expr : Expr, FailsBy (LocatedInExprs path [expr]) (ofExprAt path expr)
  | ⟨none⟩ => FailsBy.of_error (.inl ⟨_, rfl, rfl⟩)
  | ⟨some kind⟩ => ofInstanceAt_refused path kind

theorem ofInstanceAt_refused (path : Path) :
    ∀ kind : Instance, FailsBy (LocatedInExprs path [⟨some kind⟩]) (ofInstanceAt path kind)
  | .bool _ | .int _ | .string _ => FailsBy.of_ok _
  | .uri _ | .bytes _ => FailsBy.of_error (.inl ⟨_, rfl, rfl⟩)
  | .list body => (itemsOfListAt_refused path body).bind fun _ _ => FailsBy.of_ok _

theorem itemsOfListAt_refused (path : Path) : ∀ body : EList,
    FailsBy (LocatedInExprs path [⟨some (.list body)⟩]) (itemsOfListAt path body)
  | ⟨ps, _, _, _⟩ => itemsOfListAt_refused_of_parts (itemsOfPar_refused path 0 ps)

theorem itemsOfPar_refused (path : Path) (i : Nat) (pars : List Par) :
    FailsBy (LocatedAmong path i pars) (itemsOfPar path i pars) := by
  cases pars with
  | nil => exact FailsBy.of_ok _
  | cons par rest =>
    have hfirst := (ofParAt_refused (path.index i) par).imp
      fun error h => (⟨0, par, rfl, h⟩ : LocatedAmong path i (par :: rest) error)
    have hrest := (itemsOfPar_refused path (i + 1) rest).imp
      fun error h => (h.cons : LocatedAmong path i (par :: rest) error)
    exact hfirst.bind fun _ _ => hrest.bind fun _ _ => FailsBy.of_ok _

theorem entriesOfPar_refused (path : Path) (i : Nat) (sends : List Wire.Send) :
    FailsBy (fun error => ∃ k send, sends[k]? = some send ∧
      LocatedInSend (path.index (i + k)) send error) (entriesOfPar path i sends) := by
  cases sends with
  | nil => exact FailsBy.of_ok _
  | cons send rest =>
    have hfirst := entryOfSendAt_refused (path.index i) send
    have hrest := entriesOfPar_refused path (i + 1) rest
    refine FailsBy.bind (hfirst.imp fun error h => ⟨0, send, rfl, h⟩) fun _ _ => ?_
    refine FailsBy.bind (hrest.imp fun error h => ?_) fun _ _ => FailsBy.of_ok _
    obtain ⟨k, send', hmem, hlocated⟩ := h
    rw [Nat.add_assoc, Nat.add_comm 1 k] at hlocated
    exact ⟨k + 1, send', hmem, hlocated⟩

theorem entryOfSendAt_refused (path : Path) :
    ∀ send : Wire.Send, FailsBy (LocatedInSend path send) (entryOfSendAt path send)
  | ⟨chan, data, _, _, _⟩ =>
    entryOfSendAt_refused_of_parts (channelOfPar_refused path chan) (itemsOfPar_refused path 0 data)

theorem channelOfPar_refused (path : Path) : ∀ chan : Option Par,
    FailsBy (Located path (chan.getD {})) (channelOfPar path chan)
  | none => FailsBy.of_ok _
  | some par => ofParAt_refused path par

end

/-- **What the path of a refusal tells.** A message that is no term is refused for a part of it
that is at fault, with the path of the part's place, and so are bytes that hold the message. Two
places of a message have one path exactly if they are the same, or part at a send so that one is
below a part of the channel and the other below the term of the payload with its number. -/
theorem refused_located (par : Wire.Par) :
    (∀ error, ofPar? par = .error error → ∃ steps child cause, par.at? steps = some child ∧
      par.Refused steps cause ∧ error = .malformed (pathOf steps) cause) ∧
    (∀ (codec : Codec) bytes error, Wire.Par.decode bytes = .ok par → ofPar? par = .error error →
      (codec.ofBytes bytes).result = .error error.asDecodeFailure) ∧
    ∀ steps steps' child child', par.at? steps = some child → par.at? steps' = some child' →
      ((pathOf steps).text = (pathOf steps').text ↔
        steps = steps' ∨ Forked steps steps' ∨ Forked steps' steps) := by
  refine ⟨fun error herror => ?_, fun codec bytes error hdecode herror => ?_, ?_⟩
  · obtain ⟨steps, cause, hcause, hat⟩ := ofParAt_refused .root par error herror
    obtain ⟨child, hchild⟩ := hcause.exists_at?
    exact ⟨steps, child, cause, hchild, hcause, hat⟩
  · rw [Codec.result_ofBytes_of_decode hdecode, herror]
    rfl
  · intro steps steps' child child' hchild hchild'
    rw [pathOf_text_eq_iff]
    constructor
    · exact Par.eq_or_forked hchild hchild'
    · rintro (rfl | hforked | hforked)
      · rfl
      · exact hforked.indicesOf_eq
      · exact hforked.indicesOf_eq.symm

/-- A message that sends a term on a channel that is a list of one item. -/
def onListOf (item term : Wire.Par) : Wire.Par :=
  { sends := [{ chan := some (parOfInstance (.list { ps := [item] })), data := [term] }] }

/-- A resource name in the payload, beside a channel without one. -/
theorem refused_located_payload :
    let par := onListOf {} (parOfInstance (.uri "r"))
    (∃ steps child cause, par.at? steps = some child ∧ par.Refused steps cause ∧
      TermError.malformed (.index (.index .root 0) 0) .uri = .malformed (pathOf steps) cause) ∧
      (Codec.ofBytes {} [10, 16, 10, 7, 42, 5, 162, 1, 2, 10, 0, 18, 5, 42, 3, 34, 1, 114]).result =
        .error ⟨.decodeFailure, .index (.index .root 0) 0, .uri⟩ ∧
      ((pathOf [.payload 0 0]).text = (pathOf [.channel 0]).text ↔
        [Wire.Step.payload 0 0] = [.channel 0] ∨ Forked [.payload 0 0] [.channel 0] ∨
          Forked [.channel 0] [.payload 0 0]) := by
  intro par
  obtain ⟨hrefused, hbytes, hplaces⟩ := refused_located par
  exact ⟨hrefused _ rfl, hbytes {} _ _ rfl rfl, hplaces _ _ _ _ rfl rfl⟩

/-- The item of the channel and the term of the payload have one path, so a fault in the one is
refused as a fault in the other is. -/
theorem path_of_item_eq_path_of_term :
    let bad := parOfInstance (.uri "r")
    let inChannel := onListOf bad {}
    let inPayload := onListOf {} bad
    (inChannel.at? [.channel 0, .item 0] = some bad ∧ inChannel.at? [.payload 0 0] = some {}) ∧
      (inPayload.at? [.channel 0, .item 0] = some {} ∧ inPayload.at? [.payload 0 0] = some bad) ∧
      (pathOf [.channel 0, .item 0]).text = (pathOf [.payload 0 0]).text ∧
      [Wire.Step.channel 0, .item 0] ≠ [.payload 0 0] ∧
      ofPar? inChannel = .error (.malformed (.index (.index .root 0) 0) .uri) ∧
      ofPar? inPayload = .error (.malformed (.index (.index .root 0) 0) .uri) :=
  ⟨⟨rfl, rfl⟩, ⟨rfl, rfl⟩, rfl, by decide, rfl, rfl⟩

end Term
end DataTerms

/-
# What is wrong with a term, and where

A term fails to carry data for two reasons: the channel of a send is no text literal, or its
payload is not one term. `firstDefect?` is the first such defect in the order in which a term is
written down: a send before its payload, and its payload before the sends after it. What is in a
channel that is no text does not count, as the channel is a defect itself.

Key definitions: `Path.LeadsTo`, `Term.allSends`, `Defect`, `Term.firstDefect?`.
Key theorems: `Term.wellFormed_iff_allSends`, `Term.defectAt_eq_none`,
`Term.leadsTo_of_defectAt`.
-/
import DataTerms.Error
import DataTerms.Proofs.Term.Canon

namespace DataTerms

/-- The second path goes on from the end of the first. -/
def Path.LeadsTo (outer : Path) : Path → Prop
  | .root => False
  | .index parent _ => outer = parent ∨ outer.LeadsTo parent
  | .key parent _ => outer = parent ∨ outer.LeadsTo parent

theorem Path.LeadsTo.trans {a b : Path} (hab : a.LeadsTo b) : ∀ {c : Path}, b.LeadsTo c → a.LeadsTo c
  | .index _ _, hbc => Or.inr (hbc.elim (fun h => h ▸ hab) fun h => hab.trans h)
  | .key _ _, hbc => Or.inr (hbc.elim (fun h => h ▸ hab) fun h => hab.trans h)

theorem Path.leadsTo_index (path : Path) (i : Nat) : path.LeadsTo (path.index i) := Or.inl rfl

theorem Path.leadsTo_key (path : Path) (name : String) : path.LeadsTo (path.key name) := Or.inl rfl

/-- A reason for which a term carries no data. -/
inductive Defect where
  /-- The channel of the send at a path is no text literal. -/
  | channel (path : Path) (channel : Term)
  /-- The payload at a path is not one term. -/
  | payload (path : Path) (terms : Nat)

namespace Defect

/-- The place of a defect. -/
def path : Defect → Path
  | .channel path _ | .payload path _ => path

/-- What is said of a defect where the term is written or checked. -/
def cause : Defect → TermError.Cause
  | .channel _ t => .channelIs t.kind
  | .payload _ terms => .payloadSize terms

end Defect

namespace Term

/-! ### Sends -/

mutual

/-- Every send that occurs in a term, those in channels included. -/
def allSends : Term → List Send
  | .literal _ | .nil => []
  | .list items => allSendsItems items
  | .sends entries => allSendsEntries entries

/-- Every send that occurs in terms. -/
def allSendsItems : List Term → List Send
  | [] => []
  | item :: rest => item.allSends ++ allSendsItems rest

/-- Every send among sends, and that occurs in their channels and payloads. -/
def allSendsEntries : List Send → List Send
  | [] => []
  | ⟨channel, payload⟩ :: rest =>
    ⟨channel, payload⟩ :: (channel.allSends ++ allSendsItems payload ++ allSendsEntries rest)

end

/-- Every one of some sends stands for an entry of a map. -/
def AreEntries (sends : List Send) : Prop := ∀ send ∈ sends, ∃ key value, send = .entry key value

theorem areEntries_append {sends sends' : List Send} :
    AreEntries (sends ++ sends') ↔ AreEntries sends ∧ AreEntries sends' :=
  List.forall_mem_append

theorem areEntries_cons {send : Send} {rest : List Send} :
    AreEntries (send :: rest) ↔ (∃ key value, send = .entry key value) ∧ AreEntries rest :=
  List.forall_mem_cons

mutual

/-- A term is well formed just when every send that occurs in it stands for an entry. -/
theorem wellFormed_iff_allSends : ∀ t : Term, t.WellFormed ↔ AreEntries t.allSends
  | .literal _ | .nil => iff_of_true trivial nofun
  | .list items => wellFormedItems_iff_allSends items
  | .sends entries => wellFormedEntries_iff_allSends entries

theorem wellFormedItems_iff_allSends :
    ∀ items : List Term, WellFormedItems items ↔ AreEntries (allSendsItems items)
  | [] => iff_of_true trivial nofun
  | item :: rest => by
    rw [WellFormedItems, allSendsItems, areEntries_append, wellFormed_iff_allSends item,
      wellFormedItems_iff_allSends rest]

theorem wellFormedEntries_iff_allSends :
    ∀ entries : List Send, WellFormedEntries entries ↔ AreEntries (allSendsEntries entries)
  | [] => iff_of_true trivial nofun
  | ⟨channel, payload⟩ :: rest => by
    have hpayload := wellFormedItems_iff_allSends payload
    rw [allSendsEntries, areEntries_cons, areEntries_append, areEntries_append, ← hpayload,
      ← wellFormedEntries_iff_allSends rest]
    constructor
    · intro h
      obtain ⟨key, value, rfl, rfl, hvalue, hrest⟩ := wellFormedEntries_cons.mp h
      exact ⟨⟨key, value, rfl⟩, ⟨nofun, hvalue, trivial⟩, hrest⟩
    · rintro ⟨⟨key, value, heq⟩, ⟨-, hvalue⟩, hrest⟩
      obtain ⟨rfl, rfl⟩ := Send.mk.inj heq
      exact ⟨hvalue.1, hrest⟩

end

/-! ### The first defect -/

mutual

/-- The first defect of the term at a path. -/
def defectAt (path : Path) : Term → Option Defect
  | .literal _ | .nil => none
  | .list items => defectInItems path 0 items
  | .sends entries => defectInEntries path 0 entries

/-- The first defect in the items of the list at a path, from the one with the index `i`
on. -/
def defectInItems (path : Path) (i : Nat) : List Term → Option Defect
  | [] => none
  | item :: rest => (item.defectAt (path.index i)).or (defectInItems path (i + 1) rest)

/-- The first defect in the sends at a path, from the one with the index `i` on. -/
def defectInEntries (path : Path) (i : Nat) : List Send → Option Defect
  | [] => none
  | ⟨.literal (.str key), payload⟩ :: rest =>
    (defectInPayload (path.key key) payload).or (defectInEntries path (i + 1) rest)
  | ⟨channel, _⟩ :: _ => some (.channel (path.index i) channel)

/-- The first defect in the payload at a path. -/
def defectInPayload (path : Path) : List Term → Option Defect
  | [single] => single.defectAt path
  | payload => some (.payload path payload.length)

end

/-- The first defect of a term. -/
def firstDefect? (t : Term) : Option Defect := t.defectAt .root

theorem eq_str_or_ne (t : Term) : (∃ key, t = str key) ∨ ∀ key, t ≠ str key := by
  rw [← not_exists]
  exact Classical.em _

theorem defectInEntries_of_ne_str {path : Path} {i : Nat} {channel : Term} {payload : List Term}
    {rest : List Send} (h : ∀ key, channel ≠ str key) :
    defectInEntries path i (⟨channel, payload⟩ :: rest) = some (.channel (path.index i) channel) := by
  unfold defectInEntries
  split
  · next heq => cases heq
  · next key _ _ heq =>
    obtain ⟨⟨rfl, -⟩, -⟩ := by simpa using heq
    exact absurd rfl (h key)
  · next heq =>
    obtain ⟨⟨rfl, -⟩, -⟩ := by simpa using heq
    rfl

mutual

/-- The terms without a defect are the well-formed ones. -/
theorem defectAt_eq_none (path : Path) : ∀ t : Term, t.defectAt path = none ↔ t.WellFormed
  | .literal _ | .nil => iff_of_true rfl trivial
  | .list items => defectInItems_eq_none path 0 items
  | .sends entries => defectInEntries_eq_none path 0 entries

theorem defectInItems_eq_none (path : Path) (i : Nat) :
    ∀ items : List Term, defectInItems path i items = none ↔ WellFormedItems items
  | [] => iff_of_true rfl trivial
  | item :: rest => by
    rw [defectInItems, Option.or_eq_none_iff, defectAt_eq_none (path.index i) item,
      defectInItems_eq_none path (i + 1) rest, WellFormedItems]

theorem defectInEntries_eq_none (path : Path) (i : Nat) :
    ∀ entries : List Send, defectInEntries path i entries = none ↔ WellFormedEntries entries
  | [] => iff_of_true rfl trivial
  | ⟨channel, payload⟩ :: rest => by
    rw [wellFormedEntries_cons]
    rcases channel.eq_str_or_ne with ⟨key, rfl⟩ | hne
    · rw [str, defectInEntries, Option.or_eq_none_iff, defectInPayload_eq_none (path.key key) payload,
        defectInEntries_eq_none path (i + 1) rest]
      constructor
      · rintro ⟨⟨value, rfl, hvalue⟩, hrest⟩
        exact ⟨key, value, rfl, rfl, hvalue, hrest⟩
      · rintro ⟨_, value, -, rfl, hvalue, hrest⟩
        exact ⟨⟨value, rfl, hvalue⟩, hrest⟩
    · rw [defectInEntries_of_ne_str hne]
      refine iff_of_false nofun ?_
      rintro ⟨key, _, heq, -⟩
      exact hne key heq

theorem defectInPayload_eq_none (path : Path) :
    ∀ payload : List Term, defectInPayload path payload = none ↔
      ∃ single, payload = [single] ∧ single.WellFormed
  | [] => by simp [defectInPayload]
  | [single] => by simp [defectInPayload, defectAt_eq_none path single]
  | first :: second :: rest => by simp [defectInPayload]

end

mutual

/-- A defect of the term at a path is further along the path. -/
theorem leadsTo_of_defectAt {path : Path} {d : Defect} :
    ∀ {t : Term}, t.defectAt path = some d → path.LeadsTo d.path
  | .list _, h => leadsTo_of_defectInItems h
  | .sends _, h => leadsTo_of_defectInEntries h

theorem leadsTo_of_defectInItems {path : Path} {i : Nat} {d : Defect} :
    ∀ {items : List Term}, defectInItems path i items = some d → path.LeadsTo d.path
  | item :: rest, h => by
    rw [defectInItems, Option.or_eq_some_iff] at h
    rcases h with h | ⟨-, h⟩
    · exact (path.leadsTo_index i).trans (leadsTo_of_defectAt h)
    · exact leadsTo_of_defectInItems h

theorem leadsTo_of_defectInEntries {path : Path} {i : Nat} {d : Defect} :
    ∀ {entries : List Send}, defectInEntries path i entries = some d → path.LeadsTo d.path
  | ⟨channel, payload⟩ :: rest, h => by
    rcases channel.eq_str_or_ne with ⟨key, rfl⟩ | hne
    · rw [str, defectInEntries, Option.or_eq_some_iff] at h
      rcases h with h | ⟨-, h⟩
      · rcases leadsTo_of_defectInPayload h with heq | hlead
        · exact heq ▸ path.leadsTo_key key
        · exact (path.leadsTo_key key).trans hlead
      · exact leadsTo_of_defectInEntries h
    · rw [defectInEntries_of_ne_str hne] at h
      obtain rfl := Option.some.inj h
      exact path.leadsTo_index i

/-- A payload that is not one term is a defect at its own place. -/
theorem leadsTo_of_defectInPayload {path : Path} {d : Defect} :
    ∀ {payload : List Term}, defectInPayload path payload = some d →
      path = d.path ∨ path.LeadsTo d.path
  | [_], h => Or.inr (leadsTo_of_defectAt h)
  | [], h | _ :: _ :: _, h => Or.inl (Option.some.inj h ▸ rfl)

end

end Term
end DataTerms

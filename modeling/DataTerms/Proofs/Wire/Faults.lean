/-
# What a fault names

A fault has the names of the fields about it, and these are names of fields that messages have.
So nothing of the bytes is said of a fault but numbers.

What a field reads has no name at all, and a name is only ever added by the field that is being
merged (`Merges.named_over`); so the budget carries the induction, as messages are within messages.

Key definitions: `Wire.fieldNames`, `Wire.Fault.Named`, `Wire.Merges.Named`.
Key theorems: `Wire.named_merges`, `Wire.Par.decode_failsBy`.
-/
import DataTerms.Proofs.Outcomes
import DataTerms.Wire.Reading

namespace DataTerms
namespace Wire

open Outcomes

variable {α β : Type}

/-- The names of the fields that messages have. -/
def fieldNames : List String :=
  ["Par.sends", "Par.receives", "Par.news", "Par.exprs", "Par.matches", "Par.unforgeables",
    "Par.connectives", "Par.locally_free", "Par.connective_used", "Par.bundles", "Send.chan",
    "Send.data", "Send.persistent", "Send.locally_free", "Send.connective_used",
    "Expr.expr_instance", "EList.ps", "EList.locally_free", "EList.connective_used",
    "EList.remainder"]

/-- The names that a fault has are names of fields. -/
def Fault.Named (fault : Fault) : Prop := ∀ name ∈ fault.fields, name ∈ fieldNames

theorem Reason.named_fault (reason : Reason) : reason.fault.Named := nofun

/-- A step that fails for a reason fails outside any field. -/
theorem failsBy_reason (reason : Reason) :
    FailsBy Fault.Named (.error reason.fault : Except Fault α) :=
  FailsBy.of_error reason.named_fault

/-- The field that is being read adds its name. -/
theorem failsBy_inField {name : String} {step : Except Fault α} (hname : name ∈ fieldNames)
    (h : FailsBy Fault.Named step) : FailsBy Fault.Named (inField name step) := by
  cases step with
  | ok value => exact FailsBy.of_ok value
  | error fault =>
    refine FailsBy.of_error fun name' hmem => ?_
    rcases List.mem_append.mp hmem with hmem | hmem
    · exact h fault rfl name' hmem
    · exact List.mem_singleton.mp hmem ▸ hname

/-- What a field reads is put into the message, which cannot fail. -/
theorem failsBy_field {name : String} {read : Except Fault β} {put : β → Except Fault α}
    (h : FailsBy Fault.Named read) (hput : ∀ r, ∃ a, put r = .ok a) (hname : name ∈ fieldNames) :
    FailsBy Fault.Named (inField name (read >>= put)) := by
  refine failsBy_inField hname (h.bind fun r _ => ?_)
  obtain ⟨a, ha⟩ := hput r
  exact ha ▸ FailsBy.of_ok a

/-! ### Values without parts -/

theorem Varint.readGroups_failsBy : ∀ (groups : Nat) (input : Input),
    FailsBy Fault.Named (readGroups groups input)
  | 0, _ => failsBy_reason _
  | groups + 1, input => by
    rw [readGroups]
    split
    · exact failsBy_reason _
    · split
      · split
        · exact failsBy_reason _
        · exact FailsBy.of_ok _
      · exact (readGroups_failsBy groups _).bind fun _ _ => FailsBy.of_ok _

theorem Varint.read_failsBy (input : Input) : FailsBy Fault.Named (read input) :=
  readGroups_failsBy 10 input

theorem Key.read_failsBy (input : Input) : FailsBy Fault.Named (read input) := by
  refine (Varint.read_failsBy input).bind fun r _ => ?_
  obtain ⟨n, rest⟩ := r
  show FailsBy _ (ite _ _ _)
  split
  · exact failsBy_reason _
  · split
    · exact failsBy_reason _
    · split
      · exact failsBy_reason _
      · exact FailsBy.of_ok _

theorem Key.expect_failsBy (key : Key) (layout : WireType) :
    FailsBy Fault.Named (key.expect layout) := by
  unfold expect
  split
  · exact FailsBy.of_ok _
  · exact failsBy_reason _

section Values

variable (key : Key) (input : Input)

theorem readBool_failsBy : FailsBy Fault.Named (readBool key input) :=
  (key.expect_failsBy .varint).bind fun _ _ =>
    (Varint.read_failsBy input).bind fun _ _ => FailsBy.of_ok _

theorem readSigned_failsBy : FailsBy Fault.Named (readSigned key input) :=
  (key.expect_failsBy .varint).bind fun _ _ =>
    (Varint.read_failsBy input).bind fun _ _ => FailsBy.of_ok _

theorem readDelimited_failsBy : FailsBy Fault.Named (readDelimited input) := by
  refine (Varint.read_failsBy input).bind fun r _ => ?_
  obtain ⟨length, rest⟩ := r
  dsimp only
  split
  · exact failsBy_reason _
  · exact FailsBy.of_ok _

theorem readBytes_failsBy : FailsBy Fault.Named (readBytes key input) :=
  (key.expect_failsBy .lengthDelimited).bind fun _ _ => readDelimited_failsBy input

theorem readText_failsBy : FailsBy Fault.Named (readText key input) := by
  refine (readBytes_failsBy key input).bind fun r _ => ?_
  obtain ⟨bytes, rest⟩ := r
  dsimp only
  split
  · exact FailsBy.of_ok _
  · exact failsBy_reason _

theorem skipBytes_failsBy (n : Nat) : FailsBy Fault.Named (skipBytes n input) := by
  unfold skipBytes
  split
  · exact failsBy_reason _
  · exact FailsBy.of_ok _

end Values

/-! ### Fields that are passed over -/

theorem skipGroup_failsBy {skipField : Key → Input → Except Fault Input}
    (h : ∀ key input, FailsBy Fault.Named (skipField key input)) (field : Nat) :
    ∀ (steps : Nat) (input : Input), FailsBy Fault.Named (skipGroup skipField field steps input)
  | 0, _ => failsBy_reason _
  | steps + 1, input => by
    refine (Key.read_failsBy input).bind fun r _ => ?_
    obtain ⟨key, rest⟩ := r
    show FailsBy _ (ite _ _ _)
    split
    · split
      · exact FailsBy.of_ok _
      · exact failsBy_reason _
    · exact (h key rest).bind fun left _ => skipGroup_failsBy h field steps left

theorem skip_failsBy : ∀ (budget : Nat) (key : Key) (input : Input),
    FailsBy Fault.Named (skip budget key input)
  | 0, _, _ => failsBy_reason _
  | budget + 1, key, input => by
    rw [skip]
    split
    · exact (Varint.read_failsBy input).bind fun _ _ => FailsBy.of_ok _
    · exact skipBytes_failsBy input 8
    · exact skipBytes_failsBy input 4
    · exact (readDelimited_failsBy input).bind fun _ _ => FailsBy.of_ok _
    · exact skipGroup_failsBy (skip_failsBy budget) key.field _ input
    · exact failsBy_reason _

/-! ### Messages -/

/-- A field that is merged fails with names of fields only. -/
def NamedMerge (merge : Merge α) : Prop :=
  ∀ key message input, FailsBy Fault.Named (merge key message input)

/-- Fields one after the other fail as each of them does. -/
theorem NamedMerge.mergeFields {merge : Merge α} (h : NamedMerge merge) (stop : Nat) :
    ∀ (steps : Nat) (message : α) (input : Input),
      FailsBy Fault.Named (Wire.mergeFields merge stop steps message input)
  | 0, message, input => FailsBy.of_ok _
  | steps + 1, message, input => by
    rw [Wire.mergeFields]
    split
    · exact FailsBy.of_ok _
    · refine (Key.read_failsBy input).bind fun r _ => ?_
      refine (h r.1 message r.2).bind fun merged _ => ?_
      exact h.mergeFields stop steps merged.1 merged.2

/-- A message within a message fails as its fields do. -/
theorem namedMerge_mergeMessage {merge : Option (Merge α)}
    (h : ∀ inner ∈ merge, NamedMerge inner) : NamedMerge (mergeMessage merge) := by
  intro key message input
  refine (key.expect_failsBy .lengthDelimited).bind fun _ _ => ?_
  cases merge with
  | none => exact failsBy_reason _
  | some merge =>
    refine (Varint.read_failsBy input).bind fun r _ => ?_
    obtain ⟨length, rest⟩ := r
    show FailsBy _ (ite _ _ _)
    split
    · exact failsBy_reason _
    · refine ((h merge rfl).mergeFields _ _ message rest).bind fun merged _ => ?_
      obtain ⟨message', left⟩ := merged
      show FailsBy _ (ite _ _ _)
      split
      · exact FailsBy.of_ok _
      · exact failsBy_reason _

/-- The merges of messages fail with names of fields only. -/
structure Merges.Named (merges : Merges) : Prop where
  par : NamedMerge merges.par
  send : NamedMerge merges.send
  expr : NamedMerge merges.expr
  list : NamedMerge merges.list

/-- What holds of the merges of one kind of message that is within another. -/
theorem namedMerge_of_inner {inner : Option Merges} {merge : Merges → Merge α}
    (h : ∀ merges ∈ inner, NamedMerge (merge merges)) :
    NamedMerge (mergeMessage (inner.map merge)) := by
  refine namedMerge_mergeMessage fun m hmem => ?_
  obtain ⟨merges, hmerges, rfl⟩ := Option.map_eq_some_iff.mp hmem
  exact h merges hmerges

section Fields

variable {inner : Option Merges} (h : ∀ merges ∈ inner, merges.Named) (budget : Nat)
include h

theorem Par.named_merge : NamedMerge (Par.merge budget inner) := by
  intro key par input
  have hsend := namedMerge_of_inner (fun merges hmem => (h merges hmem).send) key
  have hexpr := namedMerge_of_inner (fun merges hmem => (h merges hmem).expr) key
  have hbytes := readBytes_failsBy key input
  have hbool := readBool_failsBy key input
  unfold Par.merge
  -- sends, expressions, the flag and what is not known; all the rest are rows of bytes
  split
  case h_1 => exact failsBy_field (hsend _ input) (fun _ => ⟨_, rfl⟩) (by decide)
  case h_4 => exact failsBy_field (hexpr _ input) (fun _ => ⟨_, rfl⟩) (by decide)
  case h_9 => exact failsBy_field hbool (fun _ => ⟨_, rfl⟩) (by decide)
  case h_11 => exact (skip_failsBy budget key input).bind fun _ _ => FailsBy.of_ok _
  all_goals exact failsBy_field hbytes (fun _ => ⟨_, rfl⟩) (by decide)

theorem Send.named_merge : NamedMerge (Send.merge budget inner) := by
  intro key send input
  have hpar := namedMerge_of_inner (fun merges hmem => (h merges hmem).par) key
  have hbytes := readBytes_failsBy key input
  have hbool := readBool_failsBy key input
  unfold Send.merge
  split
  · exact failsBy_field (hpar _ input) (fun _ => ⟨_, rfl⟩) (by decide)
  · exact failsBy_field (hpar _ input) (fun _ => ⟨_, rfl⟩) (by decide)
  · exact failsBy_field hbool (fun _ => ⟨_, rfl⟩) (by decide)
  · exact failsBy_field hbytes (fun _ => ⟨_, rfl⟩) (by decide)
  · exact failsBy_field hbool (fun _ => ⟨_, rfl⟩) (by decide)
  · exact (skip_failsBy budget key input).bind fun _ _ => FailsBy.of_ok _

theorem Expr.named_merge : NamedMerge (Expr.merge budget inner) := by
  intro key expr input
  have hlist := namedMerge_of_inner (fun merges hmem => (h merges hmem).list) key
  have hbool := readBool_failsBy key input
  have hsigned := readSigned_failsBy key input
  have htext := readText_failsBy key input
  have hbytes := readBytes_failsBy key input
  unfold Expr.merge
  split
  · exact failsBy_field hbool (fun _ => ⟨_, rfl⟩) (by decide)
  · exact failsBy_field hsigned (fun _ => ⟨_, rfl⟩) (by decide)
  · exact failsBy_field htext (fun _ => ⟨_, rfl⟩) (by decide)
  · exact failsBy_field htext (fun _ => ⟨_, rfl⟩) (by decide)
  · exact failsBy_field (hlist _ input) (fun _ => ⟨_, rfl⟩) (by decide)
  · exact failsBy_field hbytes (fun _ => ⟨_, rfl⟩) (by decide)
  · exact (skip_failsBy budget key input).bind fun _ _ => FailsBy.of_ok _

theorem EList.named_merge : NamedMerge (EList.merge budget inner) := by
  intro key list input
  have hpar := namedMerge_of_inner (fun merges hmem => (h merges hmem).par) key
  have hbytes := readBytes_failsBy key input
  have hbool := readBool_failsBy key input
  unfold EList.merge
  split
  · exact failsBy_field (hpar _ input) (fun _ => ⟨_, rfl⟩) (by decide)
  · exact failsBy_field hbytes (fun _ => ⟨_, rfl⟩) (by decide)
  · exact failsBy_field hbool (fun _ => ⟨_, rfl⟩) (by decide)
  · exact failsBy_field hbytes (fun _ => ⟨_, rfl⟩) (by decide)
  · exact (skip_failsBy budget key input).bind fun _ _ => FailsBy.of_ok _

theorem Merges.named_over : (Merges.over budget inner).Named :=
  ⟨Par.named_merge h budget, Send.named_merge h budget, Expr.named_merge h budget,
    EList.named_merge h budget⟩

end Fields

theorem named_merges : ∀ budget : Nat, (merges budget).Named
  | 0 => by
    have hnone : ∀ inner ∈ (none : Option Merges), inner.Named := nofun
    exact Merges.named_over hnone 0
  | budget + 1 => by
    refine Merges.named_over (fun inner hmem => ?_) (budget + 1)
    exact Option.mem_some.mp hmem ▸ named_merges budget

/-- Bytes that are no message are refused with names of fields only. -/
theorem Par.decode_failsBy (bytes : List UInt8) : FailsBy Fault.Named (decode bytes) := by
  refine FailsBy.bind ?_ fun _ _ => FailsBy.of_ok _
  exact (named_merges nestingBudget).par.mergeFields 0 bytes.length {} (.ofList bytes)

end Wire
end DataTerms

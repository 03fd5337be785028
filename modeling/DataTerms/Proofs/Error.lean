/-
# What is said of an error

What is said of an error stays on one line if its cause has no words of its own, or words that do.
A path shows its keys between quote marks. All else that is said are numbers, and the words for
kinds, parts, layouts and fields.

Key definitions: `TermError.Settled`.
Key theorems: `Wire.Fault.oneLine_message`, `TermError.oneLine_message`.
-/
import DataTerms.Error
import DataTerms.Proofs.Text.OneLine
import DataTerms.Proofs.Wire.Faults

namespace DataTerms

open Text (OneLine oneLine_int oneLine_nat oneLine_ofList)

/-! ### Words -/

theorem Value.Kind.oneLine_name (kind : Value.Kind) : OneLine kind.name.toList := by
  cases kind <;> exact oneLine_ofList (by decide)

theorem Term.Kind.oneLine_name (kind : Term.Kind) : OneLine kind.name.toList := by
  cases kind <;> exact oneLine_ofList (by decide)

theorem TermError.Kind.oneLine_label (kind : TermError.Kind) : OneLine kind.label.toList := by
  cases kind <;> exact oneLine_ofList (by decide)

theorem TermError.Part.oneLine_name (part : TermError.Part) : OneLine part.name.toList := by
  cases part <;> exact oneLine_ofList (by decide)

theorem Wire.WireType.oneLine_name (layout : Wire.WireType) : OneLine layout.name.toList := by
  cases layout <;> exact oneLine_ofList (by decide)

theorem Wire.Reason.oneLine_message (reason : Wire.Reason) : OneLine reason.message.toList := by
  cases reason with
  | invalidKey key => exact (oneLine_nat key).after (by decide)
  | invalidWireType number => exact (oneLine_nat number).after (by decide)
  | unexpectedWireType actual expected =>
    exact ((actual.oneLine_name.between (by decide) (by decide)).append
      expected.oneLine_name).before (by decide)
  | _ => exact oneLine_ofList (by decide)

theorem Wire.oneLine_fieldNames : ∀ name ∈ fieldNames, OneLine name.toList := by
  unfold fieldNames
  iterate 20
    refine List.forall_mem_cons.mpr ⟨oneLine_ofList (by decide), ?_⟩
  nofun

/-- What is said of a fault stays on one line, as the names of fields do. -/
theorem Wire.Fault.oneLine_message {fault : Wire.Fault} (h : fault.Named) :
    OneLine fault.message.toList := by
  obtain ⟨fields, reason⟩ := fault
  have hfields : OneLine
      (fields.foldr (fun field text => field ++ ": " ++ text) reason.message).toList := by
    induction fields with
    | nil => exact reason.oneLine_message
    | cons field rest ih =>
      obtain ⟨hfield, hrest⟩ := List.forall_mem_cons.mp h
      exact ((oneLine_fieldNames field hfield).before (by decide)).append (ih hrest)
  exact hfields.after (by decide)

namespace TermError

/-- The words of a cause, where it has words of its own, stay on one line. -/
def Cause.Settled : Cause → Prop
  | .notSerializable obstacle => OneLine obstacle.message.toList
  | .unsupportedKinds names => ∀ name ∈ names, OneLine name.toList
  | .unreadable fault => fault.Named
  | _ => True

theorem Cause.oneLine_message : ∀ {cause : Cause}, cause.Settled → OneLine cause.message.toList
  | .notWhole value, _ => value.oneLine_text.after (by decide)
  | .tooGreat value, _ => (oneLine_int value).between (by decide) (by decide)
  | .notSerializable obstacle, h => (show OneLine obstacle.message.toList from h).after (by decide)
  | .channelStandsFor kind, _ => kind.oneLine_name.between (by decide) (by decide)
  | .channelIs kind, _ => kind.oneLine_name.between (by decide) (by decide)
  | .payloadSize terms, _ => (oneLine_nat terms).between (by decide) (by decide)
  | .tooDeep limit, _ => (oneLine_nat limit).after (by decide)
  | .depthBeyond limit ceiling, _ =>
    ((oneLine_nat limit).between (by decide) (by decide)).append (oneLine_nat ceiling)
  | .unsupportedKinds _, h => (Text.oneLine_intercalate h).after (by decide)
  | .connectiveUsed part, _ => part.oneLine_name.before (by decide)
  | .locallyFree part, _ => part.oneLine_name.before (by decide)
  | .manyExpressions expressions, _ => (oneLine_nat expressions).between (by decide) (by decide)
  | .blended expressions sends, _ =>
    (((oneLine_nat expressions).between (by decide) (by decide)).append
      (oneLine_nat sends)).before (by decide)
  | .unreadable _, h => Wire.Fault.oneLine_message h
  | .noDepth, _ | .listRemainder, _ | .uri, _ | .byteArray, _ | .noInstance, _
  | .persistentSend, _ => oneLine_ofList (by decide)

/-- The words of an error, where it has words of its own, stay on one line. -/
def Settled (error : TermError) : Prop := error.cause.Settled

/-- What is said of an error stays on one line, whatever its path. -/
theorem oneLine_message {error : TermError} (h : error.Settled) : OneLine error.message.toList := by
  have hlabel := error.kind.oneLine_label.before (by decide : OneLine [' ', 'a', 't', ' '])
  have hplace := (hlabel.append error.path.oneLine_text).before (by decide : OneLine [':', ' '])
  exact hplace.append (Cause.oneLine_message h)

end TermError
end DataTerms

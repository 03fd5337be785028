/-
# What reading bytes guarantees

Bytes can come from anywhere, and the limit need not be one that was checked. Still a term that
is read from them is well formed, keeps to the limit and has no empty sends; it has a text, a
value and bytes. Its bytes are those of the message that was read, and they are read as the same
term: whatever freedom the first bytes took is gone after one pass. The message nests no deeper
than a reader goes, as it was read, so its bytes cannot be too deep.

The command that decodes bytes therefore never fails at the value or the text of a term.

Key theorems: `Codec.wellFormed_of_ofBytes`, `Codec.ofBytes_encode`, `Codec.ofBytes_stable`.
-/
import DataTerms.Command.Run
import DataTerms.Proofs.Codec.Acceptance
import DataTerms.Proofs.Term.Stops
import DataTerms.Proofs.Wire.Budget

namespace DataTerms
namespace Codec

open Outcomes Term

variable {codec : Codec} {t : Term} {bytes : List UInt8}

theorem wellFormed_of_ofBytes (h : (codec.ofBytes bytes).result = .ok t) : t.WellFormed := by
  obtain ⟨⟨hwf, -⟩, -, -⟩ := ofBytes_eq_ok.mp h
  exact hwf

/-- The bytes of the message that was read are read as the same term. -/
theorem ofBytes_encode (h : (codec.ofBytes bytes).result = .ok t)
    (hlen : t.toPar.encode.length < 2 ^ 63) : (codec.ofBytes t.toPar.encode).result = .ok t := by
  obtain ⟨hvalid, hne, hpar⟩ := ofBytes_eq_ok.mp h
  have hnest := Wire.Par.nesting_le_of_decode hpar
  exact ofBytes_eq_ok.mpr ⟨hvalid, hne, Wire.Par.decode_encode_of_nesting_le hnest hlen⟩

end Codec

namespace Failure

/-- A failure that is not of a term's value or text. -/
def NotOfTerm : Failure → Prop
  | .decoding _ | .printing _ => False
  | _ => True

end Failure

namespace Surroundings

open Outcomes

theorem loadOrCommon_failsBy (surroundings : Surroundings) (path : String) :
    FailsBy Failure.NotOfTerm (Settings.loadOrCommon surroundings path).result := by
  unfold Settings.loadOrCommon
  split
  · simp only [Settings.load, Report.result_bind, Report.result_ofExcept, Report.result_log,
      Report.result_pure]
    refine (FailsBy.mapError (fun _ => trivial) _).bind fun text _ => ?_
    refine (FailsBy.mapError (fun _ => trivial) _).bind fun settings _ => ?_
    exact FailsBy.of_ok settings
  · exact FailsBy.of_ok ({} : Settings)

theorem readBytes_failsBy (surroundings : Surroundings) :
    ∀ source : Source, FailsBy Failure.NotOfTerm (surroundings.readBytes source)
  | .word _ => FailsBy.mapError (fun _ => trivial) _
  | .file _ => FailsBy.mapError (fun _ => trivial) _
  | .input => FailsBy.of_ok surroundings.input

theorem exists_writeDecoded {t : Term} (h : t.WellFormed) (settings : Settings) :
    ∀ format : DecodeFormat, ∃ text, (writeDecoded settings t format).result = .ok text
  | .json => by
    obtain ⟨value, hvalue⟩ := Term.exists_value_of_wellFormed h
    have hread : (t.decode.mapError Failure.decoding).result = .ok value := by
      rw [Report.result_mapError]
      exact mapError_eq_ok.mpr hvalue
    refine ⟨settings.render value.toJson, ?_⟩
    rw [writeDecoded, Report.result_bind, hread]
    rfl
  | .text => by
    obtain ⟨text, htext⟩ := Term.exists_text_of_wellFormed h
    refine ⟨text, ?_⟩
    rw [writeDecoded, Report.result_ofExcept]
    exact mapError_eq_ok.mpr htext
  | .tree => ⟨settings.render t.toJson, rfl⟩

/-- Decoding bytes never fails at the value or the text of a term. -/
theorem decode_failsBy (surroundings : Surroundings) (path : String) (source : Source)
    (format : DecodeFormat) :
    FailsBy Failure.NotOfTerm (surroundings.decode path source format).result := by
  simp only [decode, Report.result_bind, Report.result_ofExcept, Report.result_mapError]
  refine (loadOrCommon_failsBy surroundings path).bind fun settings _ => ?_
  refine (readBytes_failsBy surroundings source).bind fun bytes _ => ?_
  refine (FailsBy.mapError (fun _ => trivial) _).bind fun t ht => ?_
  have hwf := Codec.wellFormed_of_ofBytes (mapError_eq_ok.mp ht)
  obtain ⟨text, htext⟩ := exists_writeDecoded hwf settings format
  rw [htext]
  exact FailsBy.of_ok text

end Surroundings

namespace Codec

open Term

/-- **What is read is sound and stable.** Whatever the limit and the bytes, in a term that is
read every send stands for an entry, there are no more levels than the limit and no empty sends;
it has a text and a value; it is written as the bytes of the message that was read, and these, if
they are fewer than `2 ^ 63`, are read as the same term. So the command that decodes bytes never
fails at the value or at the text of a term. -/
theorem ofBytes_stable :
    (∀ {codec : Codec} {bytes : List UInt8} {t : Term}, (codec.ofBytes bytes).result = .ok t →
      AreEntries t.allSends ∧ t.depth ≤ codec.maxDepth ∧ t.NoEmptySends ∧
        (∃ text, t.text? = .ok text) ∧ (∃ value, t.decode.result = .ok value) ∧
        ∃ par, Wire.Par.decode bytes = .ok par ∧ (codec.toBytes t).result = .ok par.encode ∧
          (par.encode.length < 2 ^ 63 → (codec.ofBytes par.encode).result = .ok t)) ∧
    ∀ (surroundings : Surroundings) (path : String) (source : Source) (format : DecodeFormat)
      (error : TermError),
      (surroundings.decode path source format).result ≠ .error (.decoding error) ∧
        (surroundings.decode path source format).result ≠ .error (.printing error) := by
  constructor
  · intro codec bytes t hread
    obtain ⟨⟨hwf, hdepth⟩, hne, hpar⟩ := ofBytes_eq_ok.mp hread
    refine ⟨(wellFormed_iff_allSends t).mp hwf, hdepth, hne, exists_text_of_wellFormed hwf,
      exists_value_of_wellFormed hwf, t.toPar, hpar, ?_, ofBytes_encode hread⟩
    exact toBytes_eq_ok.mpr ⟨⟨hwf, hdepth⟩, rfl⟩
  · intro surroundings path source format error
    have hfails := surroundings.decode_failsBy path source format
    exact ⟨fun h => hfails _ h, fun h => hfails _ h⟩

/-- An entry whose value is given as the number two, and after it a field that is not known. -/
theorem ofBytes_stable_lax :
    (Codec.ofBytes ⟨200⟩ [10, 13, 10, 5, 42, 3, 26, 1, 97, 18, 4, 42, 2, 8, 2, 96, 1]).result =
        .ok (.sends [.entry "a" (.literal (.bool true))]) ∧
      (Codec.ofBytes ⟨200⟩ [10, 13, 10, 5, 42, 3, 26, 1, 97, 18, 4, 42, 2, 8, 1]).result =
        .ok (.sends [.entry "a" (.literal (.bool true))]) := by
  have hread : (Codec.ofBytes ⟨200⟩ [10, 13, 10, 5, 42, 3, 26, 1, 97, 18, 4, 42, 2, 8, 2, 96,
      1]).result = .ok (.sends [.entry "a" (.literal (.bool true))]) := rfl
  obtain ⟨-, -, -, -, -, par, hpar, -, hagain⟩ := ofBytes_stable.1 hread
  have hencode : par.encode = [10, 13, 10, 5, 42, 3, 26, 1, 97, 18, 4, 42, 2, 8, 1] := by
    have hpar' := (ofBytes_eq_ok.mp hread).2.2
    obtain rfl := Except.ok.inj (hpar.symm.trans hpar')
    decide +kernel
  rw [hencode] at hagain
  exact ⟨hread, hagain (by decide)⟩

end Codec
end DataTerms

/-
# What a codec accepts

A term passes a codec's check just when it is well formed and has no more levels than the
limit. So writing succeeds for exactly these terms, and reading for exactly the bytes of a
message that is one of them, and such a message is that of the term.

Key theorems: `Codec.validateAt_eq_ok`, `Codec.toBytes_eq_ok`, `Codec.ofBytes_eq_ok`.
-/
import DataTerms.Codec
import DataTerms.Proofs.Term.Lifting

namespace DataTerms
namespace Codec

open Outcomes Term

variable {limit level : Nat} {path : Path}

theorem checkLevel_eq_ok : checkLevel limit path level = .ok () ↔ level ≤ limit := by
  unfold checkLevel
  split <;> simp <;> omega

theorem keyOfChannel_eq_ok {channel : Term} {key : String} :
    keyOfChannel path channel = .ok key ↔ channel = str key := by
  unfold keyOfChannel
  split
  · simp [str]
  · next h =>
    have : channel ≠ str key := fun heq => h key heq
    simp [this]

mutual

/-- A term at a level passes just when it is well formed and none of its levels is beyond
the limit. -/
theorem validateAt_eq_ok (path : Path) (level : Nat) : ∀ t : Term,
    validateAt limit path level t = .ok () ↔ t.WellFormed ∧ level + t.depth ≤ limit + 1
  | .literal _ | .nil => by
    simp only [validateAt, checkLevel_eq_ok, WellFormed, depth, true_and]
    omega
  | .list items => by
    rw [validateAt, check_bind_eq_ok, checkLevel_eq_ok, WellFormed, depth]
    constructor
    · rintro ⟨hlevel, hitems⟩
      obtain ⟨hwf, hdepth⟩ := (validateItems_eq_ok path 0 (by omega) items).mp hitems
      exact ⟨hwf, by omega⟩
    · rintro ⟨hwf, hdepth⟩
      exact ⟨by omega, (validateItems_eq_ok path 0 (by omega) items).mpr ⟨hwf, by omega⟩⟩
  | .sends entries => by
    rw [validateAt, check_bind_eq_ok, checkLevel_eq_ok, WellFormed, depth]
    constructor
    · rintro ⟨hlevel, hentries⟩
      obtain ⟨hwf, hdepth⟩ := (validateEntries_eq_ok path 0 (by omega) entries).mp hentries
      exact ⟨hwf, by omega⟩
    · rintro ⟨hwf, hdepth⟩
      exact ⟨by omega, (validateEntries_eq_ok path 0 (by omega) entries).mpr ⟨hwf, by omega⟩⟩

theorem validateItems_eq_ok (path : Path) (i : Nat) {level : Nat} (hlevel : level ≤ limit + 1) :
    ∀ items : List Term, validateItems limit path i level items = .ok () ↔
      WellFormedItems items ∧ level + depthItems items ≤ limit + 1
  | [] => by simp [validateItems, WellFormedItems, depthItems, hlevel]
  | item :: rest => by
    rw [validateItems, check_bind_eq_ok, validateAt_eq_ok (path.index i) level item,
      validateItems_eq_ok path (i + 1) hlevel rest, WellFormedItems, depthItems]
    constructor
    · rintro ⟨⟨hwf, hdepth⟩, hwf', hdepth'⟩
      exact ⟨⟨hwf, hwf'⟩, by omega⟩
    · rintro ⟨⟨hwf, hwf'⟩, hdepth⟩
      exact ⟨⟨hwf, by omega⟩, hwf', by omega⟩

theorem validateEntries_eq_ok (path : Path) (i : Nat) {level : Nat} (hlevel : level ≤ limit + 1) :
    ∀ entries : List Send, validateEntries limit path i level entries = .ok () ↔
      WellFormedEntries entries ∧ level + depthEntries entries ≤ limit + 1
  | [] => by simp [validateEntries, WellFormedEntries, depthEntries, hlevel]
  | ⟨channel, []⟩ :: rest => by
    rw [validateEntries, bind_eq_ok, wellFormedEntries_cons]
    simp [validatePayload]
  | ⟨channel, [value]⟩ :: rest => by
    have hvalue : ∀ path, validateAt limit path level value = .ok () ↔
        value.WellFormed ∧ level + value.depth ≤ limit + 1 :=
      fun path => validateAt_eq_ok path level value
    have hrest := validateEntries_eq_ok path (i + 1) hlevel rest
    have hpos := value.depth_pos
    rw [validateEntries, bind_eq_ok, wellFormedEntries_cons]
    simp only [keyOfChannel_eq_ok, check_bind_eq_ok, validatePayload, hvalue, hrest, depthEntries,
      depthItems]
    constructor
    · rintro ⟨key, rfl, ⟨hwf, hdepth⟩, hwf', hdepth'⟩
      -- a key has one level, no more than any payload
      have hone : (str key).depth = 1 := rfl
      exact ⟨⟨key, value, rfl, rfl, hwf, hwf'⟩, by omega⟩
    · rintro ⟨⟨key, value', rfl, heq, hwf, hwf'⟩, hdepth⟩
      obtain rfl := List.cons.inj heq |>.1
      exact ⟨key, rfl, ⟨hwf, by omega⟩, hwf', by omega⟩
  | ⟨channel, _ :: _ :: _⟩ :: rest => by
    rw [validateEntries, bind_eq_ok, wellFormedEntries_cons]
    simp [validatePayload]

end

theorem validate_eq_ok {codec : Codec} {t : Term} :
    codec.validate t = .ok () ↔ t.WellFormed ∧ t.depth ≤ codec.maxDepth := by
  rw [validate, validateAt_eq_ok]
  refine and_congr Iff.rfl ?_
  omega

/-- A codec writes the well-formed terms within its limit, as the bytes of their messages. -/
theorem toBytes_eq_ok {codec : Codec} {t : Term} {bytes : List UInt8} :
    (codec.toBytes t).result = .ok bytes ↔
      (t.WellFormed ∧ t.depth ≤ codec.maxDepth) ∧ t.toPar.encode = bytes := by
  rw [← validate_eq_ok]
  simp [toBytes, check_bind_eq_ok]

/-- A codec reads the bytes of the messages that are well-formed terms within its limit. -/
theorem ofBytes_eq_ok {codec : Codec} {t : Term} {bytes : List UInt8} :
    (codec.ofBytes bytes).result = .ok t ↔
      (t.WellFormed ∧ t.depth ≤ codec.maxDepth) ∧ t.NoEmptySends ∧
        Wire.Par.decode bytes = .ok t.toPar := by
  have hmessage : ∀ par, (message bytes).result = .ok par ↔ Wire.Par.decode bytes = .ok par := by
    intro par
    unfold message
    split <;> simp_all
  simp only [ofBytes, Report.result_bind, Report.result_ofExcept, Report.result_log,
    Report.result_pure, bind_eq_ok, mapError_eq_ok, hmessage]
  constructor
  · rintro ⟨par, hpar, t', ht, _, hvalid, _, -, heq⟩
    obtain rfl := Except.ok.inj heq
    have hwf := validate_eq_ok.mp hvalid
    obtain ⟨hne, hfill⟩ := (ofParAt_eq_ok .root par t').mp ht
    rw [← eq_toPar_of_fill hwf.1 hfill.symm]
    exact ⟨hwf, hne, hpar⟩
  · rintro ⟨hwf, hne, hpar⟩
    have hlift := (ofParAt_eq_ok .root t.toPar t).mpr ⟨hne, (fill_toPar t).symm⟩
    exact ⟨t.toPar, hpar, t, hlift, (), validate_eq_ok.mpr hwf, (), trivial, rfl⟩

/-- What is read of bytes that are a message is what is taken up of it, if it passes. -/
theorem result_ofBytes_of_decode {codec : Codec} {bytes : List UInt8} {par : Wire.Par}
    (h : Wire.Par.decode bytes = .ok par) :
    (codec.ofBytes bytes).result = (do
      let t ← (ofPar? par).mapError TermError.asDecodeFailure
      (codec.validate t).mapError TermError.asDecodeFailure
      .ok t) := by
  have hmessage : (message bytes).result = .ok par := by
    rw [message, h]
    rfl
  simp only [ofBytes, Report.result_bind, Report.result_ofExcept, Report.result_log,
    Report.result_pure, hmessage, ok_bind]

end Codec
end DataTerms

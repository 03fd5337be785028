/-
# Writing, reading and checking agree

A term is gone through in three ways that look for the same defects: its text is written, its
value is read, and a codec checks it. With a limit that the term keeps to, the three succeed
together, and where they fail they fail at the same defect. What writing and checking say of it
is the same. Reading differs at a channel that is no text: it says what the channel stands for,
or where in the channel the first defect is.

Key theorems: `Codec.validateAt_tracks`, `Codec.traversals_agree`.
-/
import DataTerms.Proofs.Codec.Acceptance
import DataTerms.Proofs.Term.Stops

namespace DataTerms
namespace Codec

open Outcomes Term

variable {limit : Nat}

/-- The error that checking a term stops with. -/
def Unfit (d : Defect) (error : TermError) : Prop := error = .schema d.path d.cause

theorem keyOfChannel_of_ne_str {path : Path} {channel : Term} (h : ∀ key, channel ≠ str key) :
    keyOfChannel path channel = .error (.schema path (.channelIs channel.kind)) := by
  unfold keyOfChannel
  split
  · next key => exact absurd rfl (h key)
  · rfl

mutual

/-- Checking a term that keeps to the limit meets its first defect. -/
theorem validateAt_tracks (path : Path) (level : Nat) : ∀ t : Term, level + t.depth ≤ limit + 1 →
    Tracks Unfit (t.defectAt path) (validateAt limit path level t)
  | .literal _, h | .nil, h => by
    rw [depth] at h
    rw [validateAt, checkLevel_eq_ok.mpr (by omega)]
    rfl
  | .list items, h => by
    rw [depth] at h
    rw [validateAt, checkLevel_eq_ok.mpr (by omega), ok_bind]
    exact validateItems_tracks path 0 (level + 1) items (by omega)
  | .sends entries, h => by
    rw [depth] at h
    rw [validateAt, checkLevel_eq_ok.mpr (by omega), ok_bind]
    exact validateEntries_tracks path 0 (level + 1) entries (by omega)

theorem validateItems_tracks (path : Path) (i level : Nat) :
    ∀ items : List Term, level + depthItems items ≤ limit + 1 →
      Tracks Unfit (defectInItems path i items) (validateItems limit path i level items)
  | [], _ => rfl
  | item :: rest, h => by
    rw [depthItems] at h
    have hitem := validateAt_tracks (path.index i) level item (by omega)
    have hrest := validateItems_tracks path (i + 1) level rest (by omega)
    exact hitem.bind fun _ => hrest

theorem validateEntries_tracks (path : Path) (i level : Nat) :
    ∀ entries : List Send, level + depthEntries entries ≤ limit + 1 →
      Tracks Unfit (defectInEntries path i entries) (validateEntries limit path i level entries)
  | [], _ => rfl
  | ⟨channel, payload⟩ :: rest, h => by
    rw [depthEntries] at h
    rcases channel.eq_str_or_ne with ⟨key, rfl⟩ | hne
    · have hpayload := validatePayload_tracks (path.key key) level payload (by omega)
      have hrest := validateEntries_tracks path (i + 1) level rest (by omega)
      exact hpayload.bind fun _ => hrest
    · rw [validateEntries, keyOfChannel_of_ne_str hne, defectInEntries_of_ne_str hne]
      exact ⟨_, rfl, rfl⟩

theorem validatePayload_tracks (path : Path) (level : Nat) :
    ∀ payload : List Term, level + depthItems payload ≤ limit + 1 →
      Tracks Unfit (defectInPayload path payload) (validatePayload limit path level payload)
  | [single], h => by
    rw [depthItems] at h
    exact validateAt_tracks path level single (by omega)
  | [], _ | _ :: _ :: _, _ => ⟨_, rfl, rfl⟩

end

variable {codec : Codec} {t : Term}

theorem validate_tracks (h : t.depth ≤ codec.maxDepth) :
    Tracks Unfit t.firstDefect? (codec.validate t) :=
  validateAt_tracks .root 1 t (by omega)

/-- **Writing, reading and checking agree.** Of a term with no more levels than the limit, either
every send stands for an entry, and then its value is read, its text is written and the check
passes; or it has a first defect, and then all three fail. Writing and checking give the defect's
place and cause; so does reading for a payload, and for a channel it gives the same place, or one
further along the path where the channel itself has a send that stands for no entry. -/
theorem traversals_agree (h : t.depth ≤ codec.maxDepth) :
    (t.firstDefect? = none ↔ AreEntries t.allSends) ∧
      (t.firstDefect? = none → (∃ value, t.decode.result = .ok value) ∧
        (∃ text, t.text? = .ok text) ∧ codec.validate t = .ok ()) ∧
      ∀ defect, t.firstDefect? = some defect →
        t.text? = .error (.malformed defect.path defect.cause) ∧
        codec.validate t = .error (.schema defect.path defect.cause) ∧
        ∃ error, t.decode.result = .error error ∧ error.kind = .malformedTerm ∧
          match defect with
          | .payload .. => error.path = defect.path ∧ error.cause = defect.cause
          | .channel _ channel =>
            (AreEntries channel.allSends → error.path = defect.path) ∧
              (¬ AreEntries channel.allSends → defect.path.LeadsTo error.path) := by
  have hwrite := t.text?_tracks
  have hread := t.decode_tracks
  have hcheck := validate_tracks h
  refine ⟨?_, fun hnone => ?_, fun defect hsome => ?_⟩
  · rw [← wellFormed_iff_allSends]
    exact defectAt_eq_none .root t
  · rw [hnone] at hwrite hread hcheck
    obtain ⟨_, hvalid⟩ := hcheck.exists_ok
    exact ⟨hread.exists_ok, hwrite.exists_ok, hvalid⟩
  · rw [hsome] at hwrite hread hcheck
    obtain ⟨_, htext, rfl⟩ := hwrite.exists_error
    obtain ⟨_, hvalid, rfl⟩ := hcheck.exists_error
    obtain ⟨error, hvalue, hwrong⟩ := hread.exists_error
    refine ⟨htext, hvalid, error, hvalue, hwrong.kind_eq, ?_⟩
    cases defect with
    | payload path terms =>
      obtain rfl : error = .malformed path (.payloadSize terms) := hwrong
      exact ⟨rfl, rfl⟩
    | channel path channel =>
      show (AreEntries channel.allSends → error.path = path) ∧
        (¬ AreEntries channel.allSends → path.LeadsTo error.path)
      rw [← wellFormed_iff_allSends]
      rcases hwrong with ⟨value, hchannel, rfl⟩ | ⟨hill, -, hlead⟩
      · exact ⟨fun _ => rfl, fun hill => absurd (wellFormed_of_toValueAt hchannel) hill⟩
      · exact ⟨fun hwf => absurd hwf hill, fun _ => hlead⟩

/-- Of two sends the second has a channel with a send in it, and that one has no payload. Writing
and checking stop at the channel, and reading within it. -/
theorem traversals_agree_nested :
    let t : Term := .sends [.entry "a" .nil, ⟨.sends [⟨.str "b", []⟩], [.nil]⟩]
    t.depth ≤ 32 ∧ t.text? = .error (.malformed (.index .root 1) (.channelIs .sends)) ∧
      Codec.validate {} t = .error (.schema (.index .root 1) (.channelIs .sends)) ∧
      ∃ error, t.decode.result = .error error ∧ error.kind = .malformedTerm ∧
        (Path.index .root 1).LeadsTo error.path := by
  intro t
  have hdepth : t.depth ≤ Codec.maxDepth {} := by decide
  have hill : ¬ AreEntries (Term.sends [⟨.str "b", []⟩]).allSends := by
    intro hentries
    obtain ⟨key, value, heq⟩ := hentries _ List.mem_cons_self
    cases heq
  obtain ⟨-, -, hdefect⟩ := traversals_agree hdepth
  obtain ⟨htext, hvalid, error, hread, hkind, -, hlead⟩ :=
    hdefect (.channel (.index .root 1) (.sends [⟨.str "b", []⟩])) rfl
  exact ⟨hdepth, htext, hvalid, error, hread, hkind, hlead hill⟩

end Codec
end DataTerms

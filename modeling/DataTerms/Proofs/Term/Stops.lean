/-
# Where writing and reading a term stop

Writing the text of a term and reading its value both stop at the first defect, if there is one,
and succeed otherwise. Writing looks at a channel only to see what it is. Reading reads it like
any other term, so where a channel that is no text has a defect of its own, that one is met
first, further along the same path.

Key definitions: `Term.Unwritable`, `Term.Unreadable`.
Key theorems: `Term.charsAt_tracks`, `Term.toValueAt_tracks`, `Term.exists_text_of_wellFormed`,
`Term.exists_value_of_wellFormed`, `Term.wellFormed_of_toValueAt`.
-/
import DataTerms.Proofs.Outcomes
import DataTerms.Proofs.Term.Defects
import DataTerms.Term.Text
import DataTerms.Term.Value

namespace DataTerms
namespace Term

open Outcomes

/-! ### Writing -/

/-- The error that writing the text of a term stops with. -/
def Unwritable (d : Defect) (error : TermError) : Prop := error = .malformed d.path d.cause

theorem keyOfChannel_of_ne_str {path : Path} {channel : Term} (h : ∀ key, channel ≠ str key) :
    keyOfChannel path channel = .error (.malformed path (.channelIs channel.kind)) := by
  unfold keyOfChannel
  split
  · next key => exact absurd rfl (h key)
  · rfl

mutual

/-- Writing the text of a term meets its first defect. -/
theorem charsAt_tracks (path : Path) :
    ∀ t : Term, Tracks Unwritable (t.defectAt path) (t.charsAt path)
  | .literal _ | .nil | .sends [] => rfl
  | .list items => (itemsChars_tracks path 0 items).map _
  | .sends (send :: rest) => by
    rw [charsAt]
    exact entriesChars_tracks path 0 (send :: rest)

theorem itemsChars_tracks (path : Path) (i : Nat) :
    ∀ items : List Term, Tracks Unwritable (defectInItems path i items) (itemsChars path i items)
  | [] => rfl
  | item :: rest =>
    (charsAt_tracks (path.index i) item).bind fun _ => (itemsChars_tracks path (i + 1) rest).map _

theorem entriesChars_tracks (path : Path) (i : Nat) :
    ∀ entries : List Send,
      Tracks Unwritable (defectInEntries path i entries) (entriesChars path i entries)
  | [] => rfl
  | ⟨channel, payload⟩ :: rest => by
    rcases channel.eq_str_or_ne with ⟨key, rfl⟩ | hne
    · exact (payloadChars_tracks (path.key key) payload).bind fun _ =>
        (entriesChars_tracks path (i + 1) rest).map _
    · rw [entriesChars, keyOfChannel_of_ne_str hne, defectInEntries_of_ne_str hne]
      exact ⟨_, rfl, rfl⟩

theorem payloadChars_tracks (path : Path) :
    ∀ payload : List Term,
      Tracks Unwritable (defectInPayload path payload) (payloadChars path payload)
  | [single] => charsAt_tracks path single
  | [] | _ :: _ :: _ => ⟨_, rfl, rfl⟩

end

/-! ### Reading -/

/-- The error that reading the value of a term stops with. At a payload it is that of writing.
At a channel it stands where that of writing does, if the channel has a value, and further along
the path if the channel has a defect of its own. -/
def Unreadable : Defect → TermError → Prop
  | .payload path terms, error => error = .malformed path (.payloadSize terms)
  | .channel path channel, error =>
    (∃ value, (channel.toValueAt path).result = .ok value ∧
        error = .malformed path (.channelStandsFor value.kind)) ∨
      (¬ channel.WellFormed ∧ error.kind = .malformedTerm ∧ path.LeadsTo error.path)

theorem Unreadable.kind_eq {error : TermError} :
    ∀ {d : Defect}, Unreadable d error → error.kind = .malformedTerm
  | .payload _ _, h => by rw [h, TermError.malformed]
  | .channel _ _, Or.inl ⟨_, _, h⟩ => by rw [h, TermError.malformed]
  | .channel _ _, Or.inr h => h.2.1

theorem Unreadable.leadsTo {path : Path} {error : TermError} :
    ∀ {d : Defect}, Unreadable d error → path.LeadsTo d.path → path.LeadsTo error.path
  | .payload _ _, h, hlead => h ▸ hlead
  | .channel _ _, Or.inl ⟨_, _, h⟩, hlead => h ▸ hlead
  | .channel _ _, Or.inr h, hlead => hlead.trans h.2.2

/-- Only a text literal stands for a text. -/
theorem eq_str_of_toValueAt {path : Path} {key : String} :
    ∀ {t : Term}, (t.toValueAt path).result = .ok (.str key) → t = str key
  | .literal (.str _), h => by
    obtain rfl := Value.str.inj (Except.ok.inj h)
    rfl
  | .list items, h => by
    rw [toValueAt, Report.result_bind] at h
    obtain ⟨_, -, h⟩ := bind_eq_ok.mp h
    cases h
  | .sends entries, h => by
    rw [toValueAt, Report.result_bind] at h
    obtain ⟨_, -, h⟩ := bind_eq_ok.mp h
    cases h

theorem keyOfValue_of_ne_str {path : Path} {value : Value} (h : ∀ key, value ≠ .str key) :
    (keyOfValue path value).result = .error (.malformed path (.channelStandsFor value.kind)) := by
  unfold keyOfValue
  split
  · next key => exact absurd rfl (h key)
  · rfl

/-- A value is always entered. -/
theorem result_enter (path : Path) (key : String) (value : Value) (map : List (String × Value)) :
    (enter path key value map).result = .ok (Keyed.insert key value map) := by
  unfold enter
  split <;> rfl

mutual

/-- Reading the value of a term stops at its first defect, or within the channel that is one. -/
theorem toValueAt_tracks (path : Path) :
    ∀ t : Term, Tracks Unreadable (t.defectAt path) (t.toValueAt path).result
  | .literal (.bool _) | .literal (.int _) | .literal (.str _) | .nil => rfl
  | .list items => by
    rw [toValueAt, Report.result_bind]
    exact (itemsToValue_tracks path 0 items).map _
  | .sends entries => by
    rw [toValueAt, Report.result_bind]
    exact (entriesToValue_tracks path 0 [] entries).map _

theorem itemsToValue_tracks (path : Path) (i : Nat) :
    ∀ items : List Term,
      Tracks Unreadable (defectInItems path i items) (itemsToValue path i items).result
  | [] => rfl
  | item :: rest => by
    simp only [itemsToValue, Report.result_bind]
    exact (toValueAt_tracks (path.index i) item).bind fun _ =>
      (itemsToValue_tracks path (i + 1) rest).map _

theorem entriesToValue_tracks (path : Path) (i : Nat) (map : List (String × Value)) :
    ∀ entries : List Send,
      Tracks Unreadable (defectInEntries path i entries) (entriesToValue path i map entries).result
  | [] => rfl
  | ⟨channel, payload⟩ :: rest => by
    simp only [entriesToValue, Report.result_bind, result_enter]
    rcases channel.eq_str_or_ne with ⟨key, rfl⟩ | hne
    · exact (payloadToValue_tracks (path.key key) payload).bind fun value =>
        entriesToValue_tracks path (i + 1) (Keyed.insert key value map) rest
    · have hchannel := toValueAt_tracks (path.index i) channel
      rw [defectInEntries_of_ne_str hne]
      cases hread : (channel.toValueAt (path.index i)).result with
      | ok value =>
        have hvalue : ∀ key, value ≠ .str key := by
          rintro key rfl
          exact hne key (eq_str_of_toValueAt hread)
        rw [ok_bind, keyOfValue_of_ne_str hvalue]
        exact ⟨_, rfl, Or.inl ⟨value, hread, rfl⟩⟩
      | error error =>
        -- the channel has a defect of its own, which is met first
        rw [hread] at hchannel
        obtain ⟨d, hd, hwrong⟩ := hchannel
        have hill : ¬ channel.WellFormed := by
          rw [← defectAt_eq_none (path.index i), hd]
          nofun
        exact ⟨_, rfl, Or.inr ⟨hill, hwrong.kind_eq, hwrong.leadsTo (leadsTo_of_defectAt hd)⟩⟩

theorem payloadToValue_tracks (path : Path) :
    ∀ payload : List Term,
      Tracks Unreadable (defectInPayload path payload) (payloadToValue path payload).result
  | [single] => toValueAt_tracks path single
  | [] | _ :: _ :: _ => ⟨_, rfl, rfl⟩

end

/-! ### Well-formed terms -/

/-- The text of a term is written up to its first defect. -/
theorem text?_tracks (t : Term) : Tracks Unwritable t.firstDefect? t.text? :=
  (charsAt_tracks .root t).map String.ofList

/-- The value of a term is read up to its first defect. -/
theorem decode_tracks (t : Term) : Tracks Unreadable t.firstDefect? t.decode.result :=
  toValueAt_tracks .root t

/-- A term that has a value is well formed. -/
theorem wellFormed_of_toValueAt {path : Path} {t : Term} {value : Value}
    (h : (t.toValueAt path).result = .ok value) : t.WellFormed := by
  have htracks := toValueAt_tracks path t
  rw [h] at htracks
  exact (defectAt_eq_none path t).mp htracks

/-- A term that has a text is well formed. -/
theorem wellFormed_of_text? {t : Term} {text : String} (h : t.text? = .ok text) : t.WellFormed := by
  have htracks := t.text?_tracks
  rw [h] at htracks
  exact (defectAt_eq_none .root t).mp htracks

/-- A well-formed term has a text. -/
theorem exists_text_of_wellFormed {t : Term} (h : t.WellFormed) : ∃ text, t.text? = .ok text := by
  have htracks := t.text?_tracks
  rw [firstDefect?, (defectAt_eq_none .root t).mpr h] at htracks
  exact htracks.exists_ok

/-- A well-formed term has a value. -/
theorem exists_value_of_wellFormed {t : Term} (h : t.WellFormed) :
    ∃ value, t.decode.result = .ok value := by
  have htracks := t.decode_tracks
  rw [firstDefect?, (defectAt_eq_none .root t).mpr h] at htracks
  exact htracks.exists_ok

end Term
end DataTerms

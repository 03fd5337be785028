/-
# JSON that is no value

JSON is read as a value from its first part to its last, and the work ends at the first number
that is not whole or has not 64 bits with a sign. Below every step the work is the same but for the
path, which has the step more. So the error stands where that number does.

Key definitions: `Value.refusal`.
Key theorems: `Value.ofJsonAt_tracks`, `Value.ofJson?_rejects`.
-/
import DataTerms.Proofs.Json.Places
import DataTerms.Proofs.Outcomes
import DataTerms.Term.Value

namespace DataTerms
namespace Value

open Outcomes
open Json (misfit? beneath)
open DataTerms.Path (Step)

/-- Why a number is refused. -/
def refusal : Json.Number → TermError.Cause
  | .int value => .tooGreat value
  | .float value => .notWhole (.float value)

/-- The error of a number, at its place from a path on. -/
def Refuses (path : Path) (found : List Step × Json.Number) (error : TermError) : Prop :=
  error = .unsupported (found.1.foldl Path.follow path) (refusal found.2)

theorem intOfNumber_of_isInt64 (path : Path) : ∀ {number : Json.Number}, number.IsInt64 →
    ∃ value, intOfNumber path number = .ok value
  | .int value, h => ⟨Int64.ofInt value, if_pos h⟩

theorem intOfNumber_of_not_isInt64 (path : Path) : ∀ {number : Json.Number}, ¬ number.IsInt64 →
    intOfNumber path number = .error (.unsupported path (refusal number))
  | .int _, h => if_neg h
  | .float _, _ => rfl

theorem intOfNumber_tracks (path : Path) (number : Json.Number) :
    Tracks (Refuses path) (misfit? [([], number)]) (intOfNumber path number) := by
  by_cases h : number.IsInt64
  · have hnone : misfit? [([], number)] = none := by simp [misfit?, h]
    obtain ⟨value, hvalue⟩ := intOfNumber_of_isInt64 path h
    rw [hnone, hvalue]
    rfl
  · have hsome : misfit? [([], number)] = some ([], number) := by simp [misfit?, h]
    rw [hsome, intOfNumber_of_not_isInt64 path h]
    exact ⟨_, rfl, rfl⟩

/-- What is refused below a step is refused at the places with this step more. -/
theorem tracks_beneath {α : Type} {path : Path} (step : Step)
    {found : List (List Step × Json.Number)} {reading : Except TermError α}
    (h : Tracks (Refuses (path.follow step)) (misfit? found) reading) :
    Tracks (Refuses path) (misfit? (found.map (beneath step))) reading := by
  rw [Json.misfit?_map_beneath]
  exact h.relabel fun _ _ herror => herror

mutual

/-- Reading JSON at a path stops at the first number that is not whole or too great. -/
theorem ofJsonAt_tracks (path : Path) : ∀ json : Json,
    Tracks (Refuses path) (misfit? json.numbers) (ofJsonAt path json)
  | .null | .bool _ | .string _ => rfl
  | .number number => (intOfNumber_tracks path number).map Value.int
  | .array items => (ofItemsAt_tracks path 0 items).map Value.list
  | .object members => (ofMembersAt_tracks path members).map Value.map

theorem ofItemsAt_tracks (path : Path) (i : Nat) : ∀ items : List Json,
    Tracks (Refuses path) (misfit? (Json.numbersInItems i items)) (ofItemsAt path i items)
  | [] => rfl
  | item :: rest => by
    have hitem := tracks_beneath (.index i) (ofJsonAt_tracks (path.index i) item)
    have hrest := ofItemsAt_tracks path (i + 1) rest
    rw [Json.numbersInItems, Json.misfit?_append, ofItemsAt]
    exact hitem.bind fun value => hrest.map (value :: ·)

theorem ofMembersAt_tracks (path : Path) : ∀ members : List (String × Json),
    Tracks (Refuses path) (misfit? (Json.numbersInMembers members)) (ofMembersAt path members)
  | [] => rfl
  | (name, member) :: rest => by
    have hmember := tracks_beneath (.key name) (ofJsonAt_tracks (path.key name) member)
    have hrest := ofMembersAt_tracks path rest
    rw [Json.numbersInMembers, Json.misfit?_append, ofMembersAt]
    exact hmember.bind fun value => hrest.map ((name, value) :: ·)

end

/-- The term of JSON is made of its value. -/
theorem ofJson?_tracks (json : Json) :
    Tracks (Refuses .root) (misfit? json.numbers) (Term.ofJson? json).result := by
  rw [Term.ofJson?, Report.result_bind]
  exact (ofJsonAt_tracks .root json).map toTerm

/-- The errors are those of the first number that is refused. -/
theorem ofJson?_eq_error {json : Json} (h : json.Ordered) {error : TermError} :
    (Term.ofJson? json).result = .error error ↔ ∃ place number, json.FirstMisfit place number ∧
      error = .unsupported (Path.ofSteps place) (refusal number) := by
  have htracks := ofJson?_tracks json
  constructor
  · intro herror
    rw [herror] at htracks
    obtain ⟨⟨place, number⟩, hfound, rfl⟩ := htracks
    exact ⟨place, number, (Json.misfit?_eq_some h).mp hfound, rfl⟩
  · rintro ⟨place, number, hfirst, rfl⟩
    rw [(Json.misfit?_eq_some h).mpr hfirst] at htracks
    obtain ⟨_, herror, rfl⟩ := htracks.exists_error
    exact herror

theorem exists_error_of_misfit {json : Json} (h : json.Ordered) {place : List Step}
    {number : Json.Number} (hmisfit : json.Misfit place number) :
    ∃ error, (Term.ofJson? json).result = .error error := by
  have htracks := ofJson?_tracks json
  cases hfound : misfit? json.numbers with
  | none => exact absurd hmisfit ((Json.misfit?_eq_none h).mp hfound place number)
  | some found =>
    rw [hfound] at htracks
    obtain ⟨error, herror, -⟩ := htracks.exists_error
    exact ⟨error, herror⟩

/-- **JSON is refused just for its first number that is not whole or has not 64 bits with a sign.**
No term is made of JSON where there is such a number anywhere in it, and one is made where there is
none. A number that is held as a binary one is not whole, even if its value is: one with a fraction
or a power of ten, such as `1.0` and `3.0e10`, and `-0`. The error is that of an unsupported type,
at the place of the first of these numbers: every other of them comes after it, in the order of
indices and names. And the text of a path is that of one place only, whatever the names are. -/
theorem ofJson?_rejects :
    (∀ json : Json, json.Ordered →
      ((∃ error, (Term.ofJson? json).result = .error error) ↔
        ∃ place number, json.at? place = some (.number number) ∧ ¬ number.IsInt64) ∧
      ∀ error, (Term.ofJson? json).result = .error error ↔
        ∃ place number, json.FirstMisfit place number ∧
          error = .unsupported (Path.ofSteps place) (refusal number)) ∧
      ∀ place place' : List Step,
        (Path.ofSteps place).text = (Path.ofSteps place').text → place = place' := by
  refine ⟨fun json h => ⟨⟨?_, ?_⟩, fun error => ofJson?_eq_error h⟩,
    fun _ _ => Path.text_ofSteps_injective⟩
  · rintro ⟨error, herror⟩
    obtain ⟨place, number, hfirst, -⟩ := (ofJson?_eq_error h).mp herror
    exact ⟨place, number, hfirst.1⟩
  · rintro ⟨place, number, hmisfit⟩
    exact exists_error_of_misfit h hmisfit

/-- A name with a quote mark and a bracket, and two numbers that are refused. -/
theorem ofJson?_rejects_first :
    let low : Json := .object [("\"]", .number (.float 2.5))]
    let json : Json := .object [("a", .array [.int 0, low]), ("b", .int 9223372036854775808)]
    let path : Path := .key (.index (.key .root "a") 1) "\"]"
    (Term.ofJson? json).result = .error (.unsupported path (.notWhole (.float 2.5))) ∧
      path.text = "$[\"a\"][1][\"\\\"]\"]" ∧
      path.text ≠ (Path.ofSteps [.key "a", .index 1, .key "\\\"]"]).text := by
  intro low json path
  have hordered : json.Ordered := by
    have hnames : Keyed.Ascending
        [("a", Json.array [.int 0, low]), ("b", .int 9223372036854775808)] := by
      unfold Keyed.Ascending
      decide
    have hlow : low.Ordered := ⟨List.pairwise_singleton _ _, trivial, trivial⟩
    exact ⟨hnames, ⟨trivial, hlow, trivial⟩, trivial, trivial⟩
  have hfirst : json.FirstMisfit [.key "a", .index 1, .key "\"]"] (.float 2.5) :=
    (Json.misfit?_eq_some hordered).mp rfl
  obtain ⟨hrejects, hplaces⟩ := ofJson?_rejects
  refine ⟨((hrejects json hordered).2 _).mpr ⟨_, _, hfirst, rfl⟩, by decide, fun heq => ?_⟩
  have hsteps := hplaces [.key "a", .index 1, .key "\"]"] _ heq
  exact absurd hsteps (by decide)

end Value
end DataTerms

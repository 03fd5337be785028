/-
# What runs leave behind

A run that fails prints nothing and writes no file: everything that can go wrong is found before
the line is written. Only the making of a settings file writes one. A write replaces what it
finds, but the file is made only after a look at its path has found nothing there, so the names
that the path leads to are those of no file. One run after another may thus add files, and none
changes or removes one that is there.

Key definitions: `Outcome.Clean`, `Machine.runs`.
Key theorems: `Request.clean_outcome`, `Request.place_of_created`, `Machine.keeps_run`,
`Machine.keeps_runs`, `Machine.runs_keep_files`.
-/
import DataTerms.Proofs.Command.Machine

namespace DataTerms
namespace Outcome

/-- A run that fails prints nothing and makes no file. -/
def Clean (outcome : Outcome) : Prop :=
  outcome.code ≠ 0 → outcome.output = "" ∧ outcome.created = none

theorem clean_of_code_eq_zero {outcome : Outcome} (h : outcome.code = 0) : outcome.Clean :=
  fun hcode => absurd h hcode

theorem clean_failed (notices : List Notice) (failure : Failure) : (failed notices failure).Clean :=
  fun _ => ⟨rfl, rfl⟩

theorem clean_ofReport (report : Report Failure String) : (ofReport report).Clean := by
  unfold ofReport
  split
  · exact clean_of_code_eq_zero rfl
  · exact clean_failed _ _

/-- A run that writes one line makes no file. -/
theorem created_ofReport (report : Report Failure String) : (ofReport report).created = none := by
  unfold ofReport
  split <;> rfl

end Outcome

namespace Surroundings

open Outcome (clean_failed clean_of_code_eq_zero)

theorem clean_check (surroundings : Surroundings) (path : String) :
    (surroundings.check path).Clean := by
  unfold check
  simp only
  split
  · exact clean_of_code_eq_zero rfl
  · exact clean_failed _ _

theorem created_check (surroundings : Surroundings) (path : String) :
    (surroundings.check path).created = none := by
  unfold check
  simp only
  split <;> rfl

theorem clean_create (surroundings : Surroundings) (path : String) :
    (surroundings.create path).Clean := by
  unfold create
  split
  · exact clean_failed _ _
  · exact clean_failed _ _
  · exact clean_failed _ _
  · exact clean_of_code_eq_zero rfl

/-- A settings file is made with the common settings if nothing fails. -/
theorem created_of_code {surroundings : Surroundings} {path : String}
    (h : (surroundings.create path).code = 0) :
    (surroundings.create path).created = some (path, Utf8.encode ({} : Settings).toText) := by
  unfold create at h ⊢
  split at h
  · cases h
  · cases h
  · cases h
  · rfl

/-- A settings file is made only at its path, and only after nothing was found there. -/
theorem place_of_created {surroundings : Surroundings} {path path' : String} {bytes : List UInt8}
    (h : (surroundings.create path).created = some (path', bytes)) :
    path' = path ∧ ∃ fault, surroundings.place path = .nothing fault none := by
  unfold create at h
  split at h
  · cases h
  · cases h
  · cases h
  · next fault hplace =>
    cases h
    exact ⟨rfl, fault, hplace⟩

end Surroundings

theorem Invocation.clean_outcome (invocation : Invocation) (surroundings : Surroundings) :
    (invocation.outcome surroundings).Clean := by
  unfold Invocation.outcome
  cases invocation.command with
  | encode source format => exact Outcome.clean_ofReport _
  | decode source format => exact Outcome.clean_ofReport _
  | create => exact surroundings.clean_create _
  | check => exact surroundings.clean_check _

/-- Only the making of settings makes a file. -/
theorem Invocation.created_outcome {invocation : Invocation} (h : invocation.command ≠ .create)
    (surroundings : Surroundings) : (invocation.outcome surroundings).created = none := by
  unfold Invocation.outcome
  cases hcommand : invocation.command with
  | encode source format => exact Outcome.created_ofReport _
  | decode source format => exact Outcome.created_ofReport _
  | create => exact absurd hcommand h
  | check => exact surroundings.created_check _

namespace Request

theorem clean_outcome (request : Request) (surroundings : Surroundings) :
    (request.outcome surroundings).Clean := by
  cases request with
  | run invocation => exact invocation.clean_outcome surroundings
  | version => exact Outcome.clean_of_code_eq_zero rfl
  | help => exact Outcome.clean_of_code_eq_zero rfl
  | completions => exact Outcome.clean_of_code_eq_zero rfl
  | misuse => exact fun _ => ⟨rfl, rfl⟩

/-- A request makes a settings file, at the path of the settings. -/
def Creates (request : Request) (path : String) : Prop :=
  ∃ invocation, request = .run invocation ∧ invocation.command = .create ∧
    invocation.settings = path

theorem created_outcome {request : Request} (h : ∀ path, ¬ request.Creates path)
    (surroundings : Surroundings) : (request.outcome surroundings).created = none := by
  cases request with
  | run invocation =>
    have hcommand : invocation.command ≠ .create :=
      fun hcommand => h invocation.settings ⟨invocation, rfl, hcommand, rfl⟩
    exact invocation.created_outcome hcommand surroundings
  | version | help | completions | misuse => rfl

theorem outcome_of_creates {request : Request} {path : String} (h : request.Creates path)
    (surroundings : Surroundings) : request.outcome surroundings = surroundings.create path := by
  obtain ⟨invocation, rfl, hcommand, rfl⟩ := h
  rw [Request.outcome, Invocation.outcome, hcommand]

/-- Whatever makes a file has found nothing at its path. -/
theorem place_of_created {request : Request} {surroundings : Surroundings} {path : String}
    {bytes : List UInt8} (h : (request.outcome surroundings).created = some (path, bytes)) :
    ∃ fault, surroundings.place path = .nothing fault none := by
  by_cases hcreates : ∃ settings, request.Creates settings
  · obtain ⟨settings, hcreates⟩ := hcreates
    rw [outcome_of_creates hcreates] at h
    obtain ⟨rfl, hplace⟩ := Surroundings.place_of_created h
    exact hplace
  · rw [created_outcome (not_exists.mp hcreates)] at h
    cases h

end Request

namespace Machine

variable {machine : Machine} {words : List String} {input : List UInt8}

/-- The machine after runs one after the other, each with its words and what is fed to it. -/
def runs (machine : Machine) (rows : List (List String × List UInt8)) : Machine :=
  rows.foldl (fun machine row => (machine.run row.1 row.2).2) machine

/-- A run that makes no file leaves the machine as it is. -/
theorem run_eq_self
    (h : ((Request.ofWords words).outcome (machine.surroundings input)).created = none) :
    (machine.run words input).2 = machine := by
  unfold run after
  simp only [h]

theorem run_of_code_ne_zero (h : (machine.run words input).1.code ≠ 0) :
    (machine.run words input).1.output = "" ∧ (machine.run words input).2 = machine := by
  obtain ⟨houtput, hcreated⟩ := Request.clean_outcome _ _ h
  exact ⟨houtput, run_eq_self hcreated⟩

theorem outcome_run_of_creates {path : String} (h : (Request.ofWords words).Creates path) :
    (machine.run words input).1 = (machine.surroundings input).create path :=
  Request.outcome_of_creates h _

/-- A settings file that is made is one more. -/
theorem run_of_creates {path : String} (h : (Request.ofWords words).Creates path)
    (hcode : (machine.run words input).1.code = 0) :
    (∃ fault, (machine.surroundings input).place path = .nothing fault none) ∧
      machine.Gains (machine.run words input).2 path (Utf8.encode ({} : Settings).toText) := by
  have houtcome := Request.outcome_of_creates h (machine.surroundings input)
  rw [outcome_run_of_creates h] at hcode
  have hcreated := Surroundings.created_of_code hcode
  obtain ⟨-, fault, hplace⟩ := Surroundings.place_of_created hcreated
  refine ⟨⟨fault, hplace⟩, ?_⟩
  unfold run after
  simp only [houtcome, hcreated]
  exact gains_write hplace _

/-- A run keeps every file: what it writes goes where it has found none. -/
theorem keeps_run (machine : Machine) (words : List String) (input : List UInt8) :
    machine.Keeps (machine.run words input).2 := by
  unfold run after
  simp only
  split
  · next path bytes hcreated =>
    obtain ⟨fault, hplace⟩ := Request.place_of_created hcreated
    exact keeps_write hplace bytes
  · exact Keeps.refl machine

theorem keeps_runs (machine : Machine) (rows : List (List String × List UInt8)) :
    machine.Keeps (machine.runs rows) := by
  induction rows generalizing machine with
  | nil => exact Keeps.refl machine
  | cons row rest ih => exact (keeps_run machine row.1 row.2).trans (ih _)

theorem runs_append (machine : Machine) (first later : List (List String × List UInt8)) :
    machine.runs (first ++ later) = (machine.runs first).runs later :=
  List.foldl_append

/-- **A run that fails leaves no trace, and no run damages a file.** Whatever the machine, the
words and what is fed to it: a run that fails prints nothing and leaves the machine as it is, and
so does every run that makes no settings file. One that makes them finds nothing at their path,
and adds one file, which the path then leads to. So a file that is there after some runs is there
after all later ones, with the same bytes, and every path that leads to a file goes on leading to
it. -/
theorem runs_keep_files :
    (∀ (machine : Machine) (words : List String) (input : List UInt8),
      ((machine.run words input).1.code ≠ 0 →
        (machine.run words input).1.output = "" ∧ (machine.run words input).2 = machine) ∧
      ((∀ path, ¬ (Request.ofWords words).Creates path) →
        (machine.run words input).2 = machine) ∧
      ∀ path, (Request.ofWords words).Creates path → (machine.run words input).1.code = 0 →
        (∃ fault, (machine.surroundings input).place path = .nothing fault none) ∧
          machine.Gains (machine.run words input).2 path (Utf8.encode ({} : Settings).toText)) ∧
    ∀ (machine : Machine) (first later : List (List String × List UInt8)),
      (∀ (names : List String) (content : List UInt8),
        (machine.runs first).file? names = some content →
        (machine.runs (first ++ later)).file? names = some content) ∧
      ∀ (path : String) (input content : List UInt8),
        ((machine.runs first).surroundings input).place path = .file content →
        ((machine.runs (first ++ later)).surroundings input).place path = .file content := by
  constructor
  · intro machine words input
    refine ⟨run_of_code_ne_zero, fun h => ?_, fun path => run_of_creates⟩
    exact run_eq_self (Request.created_outcome h _)
  · intro machine first later
    have hkeeps := keeps_runs (machine.runs first) later
    rw [runs_append]
    exact ⟨fun names content => hkeeps.file?_eq, fun path input content => (hkeeps.fed input).place_eq⟩

/-- Settings are made in the folder above that of the command, and then again: the second run
finds them. The file that was there stays, and is found by its path. -/
theorem runs_keep_files_again :
    let machine : Machine := ⟨["w"], [], [(["w", "a"], [1])]⟩
    let words := ["-c", "../x", "config", "init"]
    machine.Gains (machine.run words []).2 "../x" (Utf8.encode ({} : Settings).toText) ∧
      ((machine.run words []).2.run words []).1.code = 1 ∧
      ((machine.run words []).2.run words []).1.output = "" ∧
      ((machine.run words []).2.run words []).2 = (machine.run words []).2 ∧
      (machine.runs [(words, []), (words, [])]).file? ["w", "a"] = some [1] ∧
      ((machine.runs [(words, []), (words, [])]).surroundings []).place "../w/a" = .file [1] := by
  intro machine words
  have hcreates : (Request.ofWords words).Creates "../x" := ⟨⟨"../x", {}, .create⟩, rfl, rfl, rfl⟩
  have hrow : (machine.fed []).rowOf "../x" = .ok ["x"] := by
    rw [rowOf, namesOf_eq]
    decide +kernel
  have hlook : (machine.fed []).look ["x"] = .nothing .notFound none := by decide +kernel
  have hplace : (machine.surroundings []).place "../x" = .nothing .notFound none := by
    rw [← hlook]
    exact place_eq_look (by decide) (by decide) (by decide) hrow
  have hcode : (machine.run words []).1.code = 0 := by
    rw [outcome_run_of_creates hcreates, Surroundings.create, hplace]
  obtain ⟨-, hgains⟩ := (runs_keep_files.1 machine words []).2.2 "../x" hcreates hcode
  have hcode' : ((machine.run words []).2.run words []).1.code = 1 := by
    rw [outcome_run_of_creates hcreates, Surroundings.create, hgains.place_eq]
    rfl
  have hfails : ((machine.run words []).2.run words []).1.code ≠ 0 := by
    rw [hcode']
    decide
  obtain ⟨houtput, hfiles⟩ := (runs_keep_files.1 (machine.run words []).2 words []).1 hfails
  have hfound : (machine.runs []).file? ["w", "a"] = some [1] := by decide
  have hrow' : (machine.fed []).rowOf "../w/a" = .ok ["w", "a"] := by
    rw [rowOf, namesOf_eq]
    decide +kernel
  have hlook' : (machine.fed []).look ["w", "a"] = .file [1] := by decide +kernel
  have hled : ((machine.runs []).surroundings []).place "../w/a" = .file [1] := by
    rw [← hlook']
    exact place_eq_look (by decide) (by decide) (by decide) hrow'
  obtain ⟨hfile, hpath⟩ := runs_keep_files.2 machine [] [(words, []), (words, [])]
  exact ⟨hgains, hcode', houtput, hfiles, hfile _ _ hfound, hpath _ _ _ hled⟩

end Machine
end DataTerms

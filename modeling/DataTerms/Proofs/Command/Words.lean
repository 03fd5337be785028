/-
# Words that ask, and settings that are found

The words of the command line ask for a command, and the command finds its settings. The common
settings file lies in the folder of the command and is no device, so what is found there is the
same whatever is fed to the command. A word that does not begin with a dash is what a subcommand
works on.

Key definitions: `Machine.commonRow`, `Machine.Configured`, `Machine.Asks`.
Key theorems: `Machine.result_loadOrCommon`, `Request.readWords_word`, `Request.ofWords_decode`.
-/
import DataTerms.Proofs.Command.Machine

namespace DataTerms
namespace Machine

variable {machine : Machine}

/-! ### Settings -/

/-- The names that lead to the common settings file. -/
def commonRow (machine : Machine) : List String := machine.home ++ [Request.commonSettings]

/-- The common settings file is not there, and the settings are the common ones; or it is there,
and its text gives the settings. -/
def Configured (machine : Machine) (settings : Settings) : Prop :=
  machine.isFolder machine.commonRow = false ∧
    match machine.file? machine.commonRow with
    | none => settings = {}
    | some bytes => ∃ text, Utf8.decode bytes = .ok text ∧ Settings.parse text = .ok settings

theorem rowOf_commonSettings (machine : Machine) :
    machine.rowOf Request.commonSettings = .ok machine.commonRow := by
  have hnames : namesOf Request.commonSettings = [Request.commonSettings] := by
    rw [namesOf_eq]
    decide
  have hstart : machine.start Request.commonSettings = machine.home := if_neg (by decide)
  rw [rowOf, hnames, hstart]
  rfl

theorem lookup_devices_commonRow (machine : Machine) (input : List UInt8) :
    (devices input).lookup machine.commonRow = none := by
  refine List.lookup_eq_none_iff.mpr fun device hmem => bne_iff_ne.mpr fun heq => ?_
  have hlast : machine.commonRow.getLast? = some Request.commonSettings := List.getLast?_concat
  rw [heq] at hlast
  have hall : ∀ device ∈ devices input, device.1.getLast? ≠ some Request.commonSettings := by
    simp [devices, Request.commonSettings]
  exact hall device hmem hlast

theorem place_commonSettings (h : machine.isFolder machine.commonRow = false)
    (input : List UInt8) : (machine.surroundings input).place Request.commonSettings =
      match machine.file? machine.commonRow with
      | none => .nothing .notFound none
      | some bytes => .file bytes := by
  have hplace : (machine.surroundings input).place Request.commonSettings =
      (machine.fed input).look machine.commonRow :=
    place_eq_look (by decide) (by decide) (by decide) (rowOf_commonSettings _)
  have hshort : ¬ endsTooLong machine.commonRow = true := by
    rw [endsTooLong, commonRow, List.getLast?_concat]
    decide
  have hfolder : ¬ (machine.fed input).isFolder machine.commonRow = true := by
    rw [isFolder_fed]
    exact Bool.eq_false_iff.mp h
  rw [hplace, look, if_neg hshort, if_neg hfolder, file?_fed, lookup_devices_commonRow,
    Option.none_or]
  cases machine.file? machine.commonRow <;> rfl

/-- The settings are found, whatever is fed to the command. -/
theorem result_loadOrCommon {settings : Settings} (h : machine.Configured settings)
    (input : List UInt8) :
    (Settings.loadOrCommon (machine.surroundings input) Request.commonSettings).result =
      .ok settings := by
  obtain ⟨hfolder, hsettings⟩ := h
  have hplace := place_commonSettings hfolder input
  cases hfound : machine.file? machine.commonRow with
  | none =>
    rw [hfound] at hsettings hplace
    simp only at hsettings hplace
    rw [Settings.loadOrCommon, hplace, hsettings]
    rfl
  | some bytes =>
    rw [hfound] at hsettings hplace
    obtain ⟨text, htext, hparse⟩ := hsettings
    simp only at hplace
    simp [Settings.loadOrCommon, hplace, Place.isThere, Settings.load, Surroundings.readText,
      Place.read, htext, hparse, Except.mapError]

/-- Words ask for a command, and the settings that it reads are found. -/
def Asks (machine : Machine) (words : List String) (input : List UInt8) (settings : Settings)
    (command : Command) : Prop :=
  ∃ path log, Request.ofWords words = .run ⟨path, log, command⟩ ∧
    (Settings.loadOrCommon (machine.surroundings input) path).result = .ok settings

end Machine

namespace Request

/-! ### Words without a dash -/

variable {word : String}

theorem readDashed?_eq_none (h : word.toList.head? ≠ some '-') (level : Subcommand)
    (given : Given) : readDashed? level given word = none := by
  unfold readDashed?
  split
  · next heq => simp [heq] at h
  · next heq => simp [heq] at h
  · rfl

/-- What a subcommand works on is the first word without a dash. -/
theorem readWords_word {level : Subcommand} (hlevel : level.hasSource = true)
    (h : word.toList.head? ≠ some '-') (rest : List String) :
    readWords level {} none (word :: rest) = readWords level { word := some word } none rest := by
  have hname : level.subcommand? word = none := by
    cases level with
    | encode | decode => rfl
    | top | config | create | check => cases hlevel
  have hexplains : level.explains = false := by
    cases level with
    | encode | decode => rfl
    | top | config | create | check => cases hlevel
  have hdashes : word ≠ "--" := by
    rintro rfl
    exact h rfl
  have htake : Given.take {} level word = .ok { word := some word } := by
    rw [Given.take, if_pos ⟨hlevel, rfl⟩]
  rw [readWords, hname]
  simp [hexplains, hdashes, readDashed?_eq_none h, htake]

/-- A word is decoded, without other words. -/
theorem ofWords_decode (h : word.toList.head? ≠ some '-') :
    ofWords ["decode", word] = .run ⟨commonSettings, {}, .decode (.word word) .json⟩ := by
  have hlevels : readWords .top {} none ["decode", word] =
      (do return (.top, {}) :: (← readWords .decode {} none [word])) := rfl
  rw [ofWords, hlevels, readWords_word rfl h]
  rfl

/-- A word is decoded to the text of its term. -/
theorem ofWords_decode_text (h : word.toList.head? ≠ some '-') :
    ofWords ["decode", word, "--format", "rholang"] =
      .run ⟨commonSettings, {}, .decode (.word word) .text⟩ := by
  have hlevels : readWords .top {} none ["decode", word, "--format", "rholang"] =
      (do return (.top, {}) :: (← readWords .decode {} none [word, "--format", "rholang"])) := rfl
  rw [ofWords, hlevels, readWords_word rfl h]
  rfl

end Request
end DataTerms

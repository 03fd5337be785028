/-
# Settings

The settings of the command: its codec, and whether JSON goes over several lines. They are
read from a TOML document with a table for each. A table may also be given as an array,
whose first item is then the only setting it has; what is not given, or in a table without
the setting's name, has its default, and what nobody knows is disregarded. The limit of the
codec is checked.

Key definitions: `Settings`, `Settings.Fault`, `Settings.parse`, `Settings.toText`,
`Settings.render`.
-/
import DataTerms.Codec
import DataTerms.Json.Printer
import DataTerms.Toml.Document

namespace DataTerms

structure Settings where
  codec : Codec := {}
  /-- JSON goes over several lines. -/
  pretty : Bool := true
  deriving DecidableEq, Repr

namespace Settings

/-- Why a text gives no settings. -/
inductive Fault where
  /-- It is no document, or the document has a setting of the wrong kind. -/
  | notSettings
  /-- The limit of the codec is not within bounds. -/
  | badCodec (error : TermError)

/-- What is said of a text that gives no settings. -/
def Fault.message : Fault → String
  | .notSettings => "TOML parse error"
  | .badCodec error => s!"Invalid [codec] section: {error.message}"

/-- A setting that is given, or its default. -/
def settingOr {α : Type} (default : α) (read : Toml → Option α) : Option Toml → Option α
  | none => some default
  | some value => read value

/-- The only setting of a section. A day or a time counts as a section without a setting of
the name. -/
def inSection {α : Type} (name : String) (default : α) (read : Toml → Option α) :
    Toml → Option α
  | .table _ entries => settingOr default read (Keyed.find? name entries)
  | .array items => settingOr default read items.head?
  | .tables earlier last => settingOr default read ((earlier ++ [last]).head?.map (.table .header))
  | .moment _ => some default
  | _ => none

/-- A number of levels. -/
def levels? : Toml → Option Nat
  | .integer value => if 0 ≤ value then some value.toInt.toNat else none
  | _ => none

/-- A truth value. -/
def truth? : Toml → Option Bool
  | .boolean value => some value
  | _ => none

/-- The settings that a document gives, their values unchecked. -/
def ofEntries? (entries : Toml.Entries) : Option Settings := do
  let common := ({} : Codec).maxDepth
  let maxDepth ← settingOr common (inSection "max_depth" common levels?)
    (Keyed.find? "codec" entries)
  let pretty ← settingOr true (inSection "pretty" true truth?) (Keyed.find? "output" entries)
  return { codec := { maxDepth }, pretty }

/-- The settings that a text gives. -/
def parse (text : String) : Except Fault Settings :=
  match (Toml.parse? text).bind ofEntries? with
  | none => .error .notSettings
  | some settings =>
    match settings.codec.check with
    | .ok () => .ok settings
    | .error error => .error (.badCodec error)

/-- The text that gives the settings. -/
def toText (settings : Settings) : String :=
  s!"[codec]\nmax_depth = {settings.codec.maxDepth}\n\n[output]\npretty = {settings.pretty}\n"

/-- The text of JSON. -/
def render (settings : Settings) (json : Json) : String :=
  if settings.pretty then json.pretty else json.compact

end Settings
end DataTerms

/-
# Running the command

The command reads its settings, which are the common ones where there is no file with
them, then what it works on, and writes one line. What goes wrong ends the run with a line
that names the steps from the outermost to the innermost. Only the making of a settings
file leaves a file, and only where nothing was.

Key definitions: `Failure`, `Failure.message`, `Surroundings`, `Surroundings.encode`,
`Surroundings.decode`, `Surroundings.check`, `Surroundings.create`, `Invocation.outcome`,
`Request.outcome`, `Machine.run`, `Directory.run`.
-/
import DataTerms.Bytes.Hex
import DataTerms.Command.Invocation
import DataTerms.Command.Machine
import DataTerms.Json.Parser
import DataTerms.Settings
import DataTerms.Term.Json
import DataTerms.Term.Text
import DataTerms.Term.Value
import DataTerms.Text.Blank

namespace DataTerms

/-- Why a text file cannot be read. -/
inductive TextFault where
  | file (fault : FileFault)
  | notUtf8

/-- What is said of a text file that cannot be read. -/
def TextFault.message : TextFault → String
  | .file fault => fault.message
  | .notUtf8 => "stream did not contain valid UTF-8"

/-- What a run fails by. -/
inductive Failure where
  | unreadableSettings (path : String) (fault : TextFault)
  | badSettings (path : String) (fault : Settings.Fault)
  /-- There are no settings to check. -/
  | uncheckable (failure : Failure)
  | settingsExist (path : String)
  | unwritableSettings (path : String) (fault : FileFault)
  | unreadableInput (path : String) (fault : FileFault)
  | inputNotUtf8 (fault : Utf8.Fault)
  | inputNotJson
  | inputNotHex (fault : Hex.Fault)
  | encoding (error : TermError)
  | writing (error : TermError)
  | printing (error : TermError)
  | reading (error : TermError)
  | decoding (error : TermError)

/-- What is said of a failure. -/
def Failure.message : Failure → String
  | .unreadableSettings path fault => s!"Failed to read config file: {path}: {fault.message}"
  | .badSettings path fault => s!"Failed to parse config file: {path}: {fault.message}"
  | .uncheckable failure =>
    "Failed to load configuration. Run \x60rho config init\x60 to create a configuration file.: " ++
      failure.message
  | .settingsExist path =>
    s!"Configuration file already exists: {path}\n" ++
      "Use a different path or remove the existing file."
  | .unwritableSettings path fault => s!"Failed to write config file: {path}: {fault.message}"
  | .unreadableInput path fault => s!"Failed to read input file: {path}: {fault.message}"
  | .inputNotUtf8 fault => s!"Input is not valid UTF-8: {fault.message}"
  | .inputNotJson => "Input is not valid JSON"
  | .inputNotHex fault => s!"Input is not valid hex: {fault.message}"
  | .encoding error => s!"Failed to encode value: {error.message}"
  | .writing error => s!"Failed to serialize term: {error.message}"
  | .printing error => s!"Failed to print term: {error.message}"
  | .reading error => s!"Failed to decode wire bytes: {error.message}"
  | .decoding error => s!"Failed to decode term: {error.message}"

/-- What a run finds about it: what paths lead to, and what is fed to it. -/
structure Surroundings where
  place : String → Place
  input : List UInt8

/-- The text of a file. -/
def Surroundings.readText (surroundings : Surroundings) (path : String) :
    Except TextFault String := do
  let bytes ← (surroundings.place path).read.mapError .file
  (Utf8.decode bytes).mapError fun _ => .notUtf8

/-- The bytes to work on, of a file or fed to the command. -/
def Surroundings.readFile (surroundings : Surroundings) (path : String) :
    Except Failure (List UInt8) :=
  (surroundings.place path).read.mapError (.unreadableInput path)

namespace Settings

/-- The settings in a file. -/
def load (surroundings : Surroundings) (path : String) : Report Failure Settings := do
  let text ← Report.ofExcept ((surroundings.readText path).mapError (.unreadableSettings path))
  let settings ← Report.ofExcept ((Settings.parse text).mapError (.badSettings path))
  Report.log (.loaded path)
  return settings

/-- The settings in a file, or the common ones if there is none. -/
def loadOrCommon (surroundings : Surroundings) (path : String) : Report Failure Settings :=
  if (surroundings.place path).isThere then load surroundings path else pure {}

end Settings

namespace Outcome

/-- The notices for the events on the way to a result. -/
def noticesOf {ε α : Type} (report : Report ε α) : List Notice := report.events.map .event

/-- The end of a run by a failure, after notices. -/
def failed (notices : List Notice) (failure : Failure) : Outcome :=
  { code := 1, notices := notices ++ [.line ("Error: " ++ failure.message)] }

/-- The end of a run that writes one line. -/
def ofReport (report : Report Failure String) : Outcome :=
  match report.result with
  | .ok text => { code := 0, output := text ++ "\n", notices := noticesOf report }
  | .error failure => failed (noticesOf report) failure

end Outcome

namespace Surroundings

/-- The text that is to be encoded. -/
def readJsonText (surroundings : Surroundings) : Source → Except Failure String
  | .word text => .ok text
  | .file path => do
    (Utf8.decode (← surroundings.readFile path)).mapError .inputNotUtf8
  | .input => (Utf8.decode surroundings.input).mapError .inputNotUtf8

/-- The JSON that is to be encoded. -/
def readJson (surroundings : Surroundings) (source : Source) : Except Failure Json := do
  let text ← readJsonText surroundings source
  match Json.parse? Json.nestingLimit text with
  | some json => return json
  | none => throw .inputNotJson

/-- A term in one of the forms for what is encoded. -/
def writeEncoded (settings : Settings) (term : Term) : EncodeFormat → Report Failure String
  | .text => Report.ofExcept (term.text?.mapError .printing)
  | .hex => do return Hex.encode (← (settings.codec.toBytes term).mapError .writing)
  | .tree => return settings.render term.toJson

/-- Encodes JSON. -/
def encode (surroundings : Surroundings) (path : String) (source : Source)
    (format : EncodeFormat) : Report Failure String := do
  let settings ← Settings.loadOrCommon surroundings path
  let json ← Report.ofExcept (readJson surroundings source)
  let term ← (Term.ofJson? json).mapError .encoding
  writeEncoded settings term format

/-- The digits in a word: without the white space about them, and without `0x` before
them. -/
def digitsOf (word : String) : List Char :=
  match Text.trim word.toList with
  | '0' :: 'x' :: digits => digits
  | digits => digits

/-- The bytes that are to be decoded: the digits of a word, or the bytes of a file as they
are. -/
def readBytes (surroundings : Surroundings) : Source → Except Failure (List UInt8)
  | .word word => (Hex.decode (Utf8.encode (String.ofList (digitsOf word)))).mapError .inputNotHex
  | .file path => surroundings.readFile path
  | .input => .ok surroundings.input

/-- A term in one of the forms for what is decoded. -/
def writeDecoded (settings : Settings) (term : Term) : DecodeFormat → Report Failure String
  | .json => do return settings.render (← term.decode.mapError .decoding).toJson
  | .text => Report.ofExcept (term.text?.mapError .printing)
  | .tree => return settings.render term.toJson

/-- Decodes bytes. -/
def decode (surroundings : Surroundings) (path : String) (source : Source)
    (format : DecodeFormat) : Report Failure String := do
  let settings ← Settings.loadOrCommon surroundings path
  let bytes ← Report.ofExcept (readBytes surroundings source)
  let term ← (settings.codec.ofBytes bytes).mapError .reading
  writeDecoded settings term format

/-- Checks the settings in a file, and shows them. -/
def check (surroundings : Surroundings) (path : String) : Outcome :=
  let report := (Settings.load surroundings path).mapError .uncheckable
  let notices := .line "→ Validating configuration..." :: Outcome.noticesOf report
  match report.result with
  | .ok settings =>
    { code := 0
      notices := notices ++
        [.line "✓ Configuration is valid!", .line s!"  • max_depth: {settings.codec.maxDepth}",
          .line s!"  • pretty: {settings.pretty}"] }
  | .error failure => .failed notices failure

/-- Makes a file with the common settings. -/
def create (surroundings : Surroundings) (path : String) : Outcome :=
  match surroundings.place path with
  | .file _ | .folder => .failed [] (.settingsExist path)
  | .nothing _ (some fault) => .failed [] (.unwritableSettings path fault)
  | .nothing _ none =>
    { code := 0
      notices := [.line s!"✓ Created {path}"]
      created := some (path, Utf8.encode ({} : Settings).toText) }

end Surroundings

/-- Does what the command is to do. -/
def Invocation.outcome (invocation : Invocation) (surroundings : Surroundings) : Outcome :=
  match invocation.command with
  | .encode source format => .ofReport (surroundings.encode invocation.settings source format)
  | .decode source format => .ofReport (surroundings.decode invocation.settings source format)
  | .create => surroundings.create invocation.settings
  | .check => surroundings.check invocation.settings

/-- How the command is used. -/
def usage : String :=
  "\n".intercalate
    ["Usage: rho [-c FILE] [--log-json] [--verbose] COMMAND", "",
      "  encode [JSON] [-f FILE] [--format rholang|hex|ast]",
      "  decode [HEX] [-f FILE] [--format json|rholang|ast]", "  config init",
      "  config validate"]

/-- Does what the words of the command line ask for. No completions are kept, so none are
written. -/
def Request.outcome (request : Request) (surroundings : Surroundings) : Outcome :=
  match request with
  | .run invocation => invocation.outcome surroundings
  | .version => { code := 0, output := "rho 0.1.0\n" }
  | .help => { code := 0, output := usage ++ "\n" }
  | .completions => { code := 0 }
  | .misuse => { code := 2, notices := [.line usage] }

/-- How a request has the log shown. -/
def Request.log : Request → LogStyle
  | .run invocation => invocation.log
  | _ => {}

namespace Machine

/-- What a run finds on a machine. -/
def surroundings (machine : Machine) (input : List UInt8) : Surroundings :=
  ⟨(machine.fed input).place, input⟩

/-- The machine after a run. -/
def after (machine : Machine) (outcome : Outcome) : Machine :=
  match outcome.created with
  | some (path, bytes) => machine.write path bytes
  | none => machine

/-- Runs the command on a machine: what the run leaves, and the machine after it. -/
def run (machine : Machine) (words : List String) (input : List UInt8) : Outcome × Machine :=
  let outcome := (Request.ofWords words).outcome (machine.surroundings input)
  (outcome, machine.after outcome)

end Machine

/-- Files by their paths: those below a directory from there, and others from the root. -/
abbrev Directory := List (String × List UInt8)

namespace Directory

/-- The names that lead from the root to the directory. -/
def home : List String := ["tmp", "rho"]

/-- The folders that every machine has. -/
def commonFolders : List (List String) :=
  [["bin"], ["etc"], ["home"], ["lib"], ["opt"], ["proc"], ["root"], ["run"], ["sbin"], ["sys"],
    ["tmp"], ["usr"], ["var"]]

/-- The names in the path of a file, from the root on. -/
def namesOf (path : String) : List String :=
  match path.splitToList (· = '/') with
  | "" :: names => names
  | names => home ++ names

/-- The path of the file that names lead to from the root. -/
def pathOf (names : List String) : String :=
  if home.isPrefixOf names then "/".intercalate (names.drop home.length)
  else "/" ++ "/".intercalate names

/-- The machine that a directory with these files is on. -/
def machine (directory : Directory) : Machine where
  home := home
  folders := commonFolders
  files := directory.map fun file => (namesOf file.1, file.2)

/-- The files of a machine, by their paths. -/
def ofMachine (machine : Machine) : Directory :=
  machine.files.map fun file => (pathOf file.1, file.2)

/-- Runs the command in a directory: what the run leaves, and the files after it. -/
def run (directory : Directory) (words : List String) (input : List UInt8) :
    Outcome × Directory :=
  let (outcome, machine) := directory.machine.run words input
  (outcome, ofMachine machine)

end Directory
end DataTerms

/-
# The words of the command line

Words are read from the left. A word that names a subcommand goes one level down, a word
with dashes is a switch, and every other word is what the subcommand works on. Two dashes
alone say that only such words follow. A switch that takes a value has it in the same word
or as the next one, which then does not start with a dash, unless it is one dash alone. At
one level a switch is given once. The switches for the settings file and the log are known
at every level; of several settings files the innermost counts.

Key definitions: `Command`, `Source`, `EncodeFormat`, `DecodeFormat`, `Invocation`,
`Request`, `Request.ofWords`.
-/
import DataTerms.Command.Outcome

namespace DataTerms

/-- The forms in which the command writes what it encodes. -/
inductive EncodeFormat where
  | text
  | hex
  | tree
  deriving DecidableEq, Repr

/-- The form with a name. -/
def EncodeFormat.ofName? : String → Option EncodeFormat
  | "rholang" => some .text
  | "hex" => some .hex
  | "ast" => some .tree
  | _ => none

/-- The forms in which the command writes what it decodes. -/
inductive DecodeFormat where
  | json
  | text
  | tree
  deriving DecidableEq, Repr

/-- The form with a name. -/
def DecodeFormat.ofName? : String → Option DecodeFormat
  | "json" => some .json
  | "rholang" => some .text
  | "ast" => some .tree
  | _ => none

/-- Where the command finds what it works on. -/
inductive Source where
  | word (text : String)
  | file (path : String)
  /-- What is fed to the command. -/
  | input
  deriving DecidableEq, Repr

/-- What the command is to do. -/
inductive Command where
  | encode (source : Source) (format : EncodeFormat)
  | decode (source : Source) (format : DecodeFormat)
  /-- Make a file with the common settings. -/
  | create
  /-- Check the settings. -/
  | check
  deriving DecidableEq, Repr

/-- What the command is to do, and with which settings and log. -/
structure Invocation where
  settings : String
  log : LogStyle
  command : Command
  deriving DecidableEq, Repr

/-- What the words of the command line ask for. -/
inductive Request where
  | run (invocation : Invocation)
  | version
  | help
  | completions
  /-- Nothing that the command could do. -/
  | misuse
  deriving DecidableEq, Repr

namespace Request

/-- Switches. -/
inductive Switch where
  | settings
  | logJson
  | verbose
  | file
  | format
  | completions
  | help
  | version
  deriving DecidableEq, Repr

/-- The switch takes a value. -/
def Switch.takesValue : Switch → Bool
  | .settings | .file | .format | .completions => true
  | .logJson | .verbose | .help | .version => false

/-- Subcommands, and the command above them. -/
inductive Subcommand where
  | top
  | encode
  | decode
  | config
  | create
  | check
  deriving DecidableEq, Repr

namespace Subcommand

/-- The subcommand of a level with a name. -/
def subcommand? : Subcommand → String → Option Subcommand
  | .top, "encode" => some .encode
  | .top, "decode" => some .decode
  | .top, "config" => some .config
  | .config, "init" => some .create
  | .config, "validate" => some .check
  | _, _ => none

/-- The level has subcommands, and so one that explains them. -/
def explains (level : Subcommand) : Bool := level = .top ∨ level = .config

/-- The level works on something. -/
def hasSource (level : Subcommand) : Bool := level = .encode ∨ level = .decode

/-- The switch of a level with a long name. -/
def long? (level : Subcommand) : String → Option Switch
  | "config" => some .settings
  | "log-json" => some .logJson
  | "verbose" => some .verbose
  | "help" => some .help
  | "file" => if level.hasSource then some .file else none
  | "format" => if level.hasSource then some .format else none
  | "completions" => if level = .top then some .completions else none
  | "version" => if level = .top then some .version else none
  | _ => none

/-- The switch of a level with a short name. -/
def short? (level : Subcommand) : Char → Option Switch
  | 'c' => some .settings
  | 'h' => some .help
  | 'f' => if level.hasSource then some .file else none
  | 'V' => if level = .top then some .version else none
  | _ => none

/-- A switch of a level can have the value. -/
def accepts (level : Subcommand) : Switch → String → Bool
  | .format, value =>
    if level = .encode then (EncodeFormat.ofName? value).isSome
    else (DecodeFormat.ofName? value).isSome
  | .completions, value => value ∈ ["bash", "elvish", "fish", "powershell", "zsh"]
  | _, _ => true

end Subcommand

/-- The switches given at a level with their values, and the word to work on. -/
structure Given where
  switches : List (Switch × String) := []
  word : Option String := none

namespace Given

/-- The value of a switch. -/
def value? (given : Given) (switch : Switch) : Option String :=
  (given.switches.find? (·.1 = switch)).map (·.2)

/-- The switch is given. -/
def has (given : Given) (switch : Switch) : Bool := (given.value? switch).isSome

/-- Adds a switch with its value. -/
def give (given : Given) (level : Subcommand) (switch : Switch) (value : String) :
    Except Request Given :=
  if given.has switch ∨ ¬ level.accepts switch value then .error .misuse
  else .ok { given with switches := given.switches ++ [(switch, value)] }

/-- Adds a switch without a value. -/
def turn (given : Given) (level : Subcommand) (switch : Switch) : Except Request Given :=
  match switch with
  | .help => .error .help
  | .version => .error .version
  | switch => given.give level switch ""

/-- Adds the word to work on. -/
def take (given : Given) (level : Subcommand) (word : String) : Except Request Given :=
  if level.hasSource ∧ given.word = none then .ok { given with word := some word }
  else .error .misuse

end Given

/-- Reads a word with one dash, after it: switches by their short names, up to one with a
value. With it comes the switch whose value has to follow. -/
def readShort (level : Subcommand) (given : Given) :
    List Char → Except Request (Given × Option Switch)
  | [] => .ok (given, none)
  | c :: rest =>
    match level.short? c with
    | none => .error .misuse
    | some switch =>
      if switch.takesValue then
        match rest with
        | [] => .ok (given, some switch)
        | '=' :: value => do return (← given.give level switch (String.ofList value), none)
        | value => do return (← given.give level switch (String.ofList value), none)
      else do readShort level (← given.turn level switch) rest

/-- Reads a word with two dashes, after them: a switch by its long name, perhaps with its
value. With it comes the switch if its value has to follow. -/
def readLong (level : Subcommand) (given : Given) (word : List Char) :
    Except Request (Given × Option Switch) :=
  match level.long? (String.ofList (word.takeWhile (· != '='))) with
  | none => .error .misuse
  | some switch =>
    match switch.takesValue, word.dropWhile (· != '=') with
    | true, [] => .ok (given, some switch)
    | true, _ :: value => do return (← given.give level switch (String.ofList value), none)
    | false, [] => do return (← given.turn level switch, none)
    | false, _ :: _ => .error .misuse

/-- Reads a word with dashes, unless it is a dash alone. -/
def readDashed? (level : Subcommand) (given : Given) (word : String) :
    Option (Except Request (Given × Option Switch)) :=
  match word.toList with
  | '-' :: '-' :: name => some (readLong level given name)
  | '-' :: c :: rest => some (readShort level given (c :: rest))
  | _ => none

/-- Refuses what cannot be given together at a level, and a level that needs a
subcommand. -/
def finish (level : Subcommand) (given : Given) : Except Request (List (Subcommand × Given)) :=
  if level = .config ∨ (given.word.isSome ∧ given.has .file) then .error .misuse
  else .ok [(level, given)]

/-- Asks for the explanation of a subcommand, if the words name one. -/
def explain (level : Subcommand) : List String → Request
  | [] => .help
  | word :: rest =>
    match level.subcommand? word with
    | some level => explain level rest
    | none => if word = "help" ∧ level.explains then .help else .misuse

/-- Reads words from a level on, to what is given at each level. A switch that is `pending`
has its value next. -/
def readWords (level : Subcommand) (given : Given) (pending : Option Switch) :
    List String → Except Request (List (Subcommand × Given))
  | [] =>
    match pending with
    | none => finish level given
    | some _ => .error .misuse
  | word :: rest =>
    match pending with
    | some switch =>
      if (readDashed? level given word).isSome then .error .misuse
      else do readWords level (← given.give level switch word) none rest
    | none =>
      match level.subcommand? word with
      | some next => do return (level, given) :: (← readWords next {} none rest)
      | none =>
        if word = "help" ∧ level.explains then .error (explain level rest)
        else if word = "--" then do
          finish level (← rest.foldlM (fun given word => given.take level word) given)
        else
          match readDashed? level given word with
          | some result => do
            let (given, pending) ← result
            readWords level given pending rest
          | none => do readWords level (← given.take level word) none rest

/-- Where the thing to work on is. -/
def sourceOf (given : Given) : Source :=
  match given.word, given.value? .file with
  | some word, _ => .word word
  | none, some "-" => .input
  | none, some path => .file path
  | none, none => .input

/-- What the innermost level asks for. -/
def commandOf? : Subcommand × Given → Option Command
  | (.encode, given) =>
    some (.encode (sourceOf given)
      (((given.value? .format).bind EncodeFormat.ofName?).getD .text))
  | (.decode, given) =>
    some (.decode (sourceOf given)
      (((given.value? .format).bind DecodeFormat.ofName?).getD .json))
  | (.create, _) => some .create
  | (.check, _) => some .check
  | (.top, _) | (.config, _) => none

/-- The settings file that is read if none is given. -/
def commonSettings : String := "rho.toml"

/-- What is asked for at all levels. -/
def ofLevels (levels : List (Subcommand × Given)) : Request :=
  if levels.any fun level => level.2.has .completions then .completions
  else
    match levels.getLast?.bind commandOf? with
    | none => .help
    | some command =>
      let settings? := levels.reverse.findSome? fun level => level.2.value? .settings
      let given (switch : Switch) : Bool := levels.any fun level => level.2.has switch
      .run {
        settings := settings?.getD commonSettings
        log := { json := given .logJson, verbose := given .verbose }
        command }

/-- What the words of the command line ask for. -/
def ofWords (words : List String) : Request :=
  match readWords .top {} none words with
  | .ok levels => ofLevels levels
  | .error request => request

/-- What a request works on, if on anything. -/
def source? : Request → Option Source
  | .run ⟨_, _, .encode source _⟩ | .run ⟨_, _, .decode source _⟩ => some source
  | _ => none

/-- The paths of the files that a request may look for. -/
def paths (request : Request) : List String :=
  (match request with
    | .run invocation => [invocation.settings]
    | _ => []) ++
  match request.source? with
  | some (.file path) => [path]
  | _ => []

end Request
end DataTerms

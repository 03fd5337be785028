/-
# Files

The files of a machine and its folders, by the names that lead to them from the root, and the
folder in which the command runs. What a path leads to is found by walking it name by name: to a
file, to a folder, or to nothing; and where it leads to nothing, whether a file can be made there.
Every name but the last has to lead to a folder, and a stroke at the end asks that the last one
does too. Writing makes a file where there is none, and replaces what is in one that is there.
There are no links, and what is there may be read and written.

Key definitions: `FileFault`, `Place`, `Machine`, `Machine.look`, `Machine.place`,
`Machine.write`.
-/
namespace DataTerms

/-- Why a file cannot be read or made. -/
inductive FileFault where
  | notFound
  | isFolder
  /-- A file stands where the path needs a folder. -/
  | throughFile
  /-- The path, or a name in it, is longer than a machine takes. -/
  | tooLong
  deriving DecidableEq, Repr

/-- What is said of a file that cannot be read or made. -/
def FileFault.message : FileFault → String
  | .notFound => "No such file or directory (os error 2)"
  | .isFolder => "Is a directory (os error 21)"
  | .throughFile => "Not a directory (os error 20)"
  | .tooLong => "File name too long (os error 36)"

/-- What a path leads to. -/
inductive Place where
  | file (bytes : List UInt8)
  | folder
  /-- Nothing: why, and what a file that is to be made there fails by, if it does. -/
  | nothing (fault : FileFault) (obstacle : Option FileFault)
  deriving DecidableEq, Repr

namespace Place

/-- There is a file or a folder. -/
def isThere : Place → Bool
  | .file _ | .folder => true
  | .nothing .. => false

/-- The bytes of the file. -/
def read : Place → Except FileFault (List UInt8)
  | .file bytes => .ok bytes
  | .folder => .error .isFolder
  | .nothing fault _ => .error fault

/-- Nothing, to be read or to be made a file of. -/
def closed (fault : FileFault) : Place := .nothing fault (some fault)

/-- What a place is for a path that has to lead to a folder. A file that is to be made there
is taken for one. -/
def asFolder : Place → Place
  | .folder => .folder
  | .file _ => .nothing .throughFile (some .isFolder)
  | .nothing fault _ => .nothing fault (some .isFolder)

/-- A file can be made there, or what is in it replaced. -/
def isWritable : Place → Bool
  | .file _ | .nothing _ none => true
  | .folder | .nothing _ (some _) => false

end Place

/-- The files of a machine, and the folder in which the command runs. -/
structure Machine where
  /-- The names that lead from the root to the folder in which the command runs. -/
  home : List String
  /-- Folders, by the names that lead to them; what is on the way to one is a folder too. -/
  folders : List (List String)
  /-- The files, by the names that lead to them. -/
  files : List (List String × List UInt8)

namespace Machine

/-- The name that leads to the folder above. -/
def above : String := ".."

/-- The name that leads nowhere else. -/
def here : String := "."

/-- The greatest number of bytes in a name. -/
def nameLimit : Nat := 255

/-- The greatest number of bytes in a path. -/
def pathLimit : Nat := 4095

/-- The folder of the devices. -/
def deviceFolder : List String := ["dev"]

/-- What can be read on every machine: a device that is empty, and one with what is fed to the
command. -/
def devices (input : List UInt8) : List (List String × List UInt8) :=
  [(deviceFolder ++ ["null"], []), (deviceFolder ++ ["stdin"], input)]

/-- The names lead to a device. -/
def isDevice (names : List String) : Bool := ((devices []).lookup names).isSome

/-- The machine while the command is fed: what can be read from its devices is there too. -/
def fed (machine : Machine) (input : List UInt8) : Machine :=
  { machine with files := devices input ++ machine.files }

/-- The folders that are named, those of the command and of the devices, and those with files. -/
def knownFolders (machine : Machine) : List (List String) :=
  machine.home :: deviceFolder :: machine.folders ++ machine.files.map (·.1.dropLast)

/-- The names lead to a known folder, or to what is on the way to one. -/
def isFolder (machine : Machine) (names : List String) : Bool :=
  machine.knownFolders.any (names.isPrefixOf ·)

/-- What is in the file that the names lead to. -/
def file? (machine : Machine) (names : List String) : Option (List UInt8) :=
  machine.files.lookup names

/-- The names that lead to where a name leads from a folder. Nothing is above the root. -/
def step (folder : List String) (name : String) : List String :=
  if name = here then folder
  else if name = above then folder.dropLast
  else folder ++ [name]

/-- The last of the names is longer than a machine takes. -/
def endsTooLong (names : List String) : Bool :=
  names.getLast?.any fun name => nameLimit < name.utf8ByteSize

/-- What names lead to, all but the last of which lead to folders. -/
def look (machine : Machine) (names : List String) : Place :=
  if endsTooLong names then .closed .tooLong
  else if machine.isFolder names then .folder
  else
    match machine.file? names with
    | some bytes => .file bytes
    | none => .nothing .notFound none

/-- The names that lead to the folder to which further names lead from a folder. -/
def enter (machine : Machine) (folder : List String) :
    List String → Except FileFault (List String)
  | [] => .ok folder
  | name :: rest =>
    match machine.look (step folder name) with
    | .folder => enter machine (step folder name) rest
    | .file _ => .error .throughFile
    | .nothing fault _ => .error fault

/-- The names in a path. -/
def namesOf (path : String) : List String := (path.splitToList (· = '/')).filter (· ≠ "")

/-- The names that lead to the folder where a path starts: the root, or that of the command. -/
def start (machine : Machine) (path : String) : List String :=
  if path.toList.head? = some '/' then [] else machine.home

/-- The names that lead from the root to where a path leads, if all its names but the last lead
to folders. -/
def rowOf (machine : Machine) (path : String) : Except FileFault (List String) := do
  let folder ← machine.enter (machine.start path) (namesOf path).dropLast
  return (namesOf path).getLast?.elim folder (step folder)

/-- What a path leads to. A path without a single character leads to nothing. -/
def place (machine : Machine) (path : String) : Place :=
  if path = "" then .closed .notFound
  else if pathLimit < path.utf8ByteSize then .closed .tooLong
  else
    match machine.rowOf path with
    | .error fault => .closed fault
    | .ok names =>
      if path.toList.getLast? = some '/' then (machine.look names).asFolder
      else machine.look names

/-- The machine with a file under names, and no other there. A device keeps nothing. -/
def put (machine : Machine) (names : List String) (bytes : List UInt8) : Machine :=
  if isDevice names then machine
  else { machine with files := (names, bytes) :: machine.files.filter (·.1 ≠ names) }

/-- Writes a file at a path: makes it, or replaces what is in the one that is there. Where there
can be none, nothing is written. -/
def write (machine : Machine) (path : String) (bytes : List UInt8) : Machine :=
  match machine.rowOf path with
  | .error _ => machine
  | .ok names => if (machine.place path).isWritable then machine.put names bytes else machine

end Machine
end DataTerms

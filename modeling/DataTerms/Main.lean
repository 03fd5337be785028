/-
# The command

Looks for the files that the words of the command line name, and leaves what the run
leaves: the output, the notices beside it, the new file and the code.
-/
import DataTerms.Command.Run

namespace DataTerms

/-- Why a file cannot be read or made on this machine. -/
def faultOf : IO.Error → FileFault
  | .inappropriateType _ code _ => if code = 21 then .isFolder else .throughFile
  | .invalidArgument _ 36 _ => .tooLong
  | _ => .notFound

/-- What a path leads to on this machine. -/
def placeOf (path : String) : IO Place := do
  try return .file (← IO.FS.readBinFile path).data.toList
  catch error =>
    match faultOf error with
    | .isFolder => return .folder
    | fault => return .nothing fault none

/-- All that is fed to the command. -/
partial def readAll (stream : IO.FS.Stream) (read : ByteArray) : IO ByteArray := do
  let more ← stream.read 65536
  if more.isEmpty then return read else readAll stream (read ++ more)

/-- What the request finds on this machine. -/
def surroundingsOf (request : Request) : IO Surroundings := do
  let places ← request.paths.mapM fun path => return (path, ← placeOf path)
  let input ←
    if request.source? = some .input then readAll (← IO.getStdin) .empty else pure .empty
  return ⟨fun path => (places.lookup path).getD (.nothing .notFound none), input.data.toList⟩

/-- Makes the new file of a run. Where that fails, the run is one that found it cannot be
made. -/
def settle (request : Request) (surroundings : Surroundings) : IO Outcome := do
  let outcome := request.outcome surroundings
  match outcome.created with
  | none => return outcome
  | some (path, bytes) =>
    try
      IO.FS.writeBinFile path ⟨bytes.toArray⟩
      return outcome
    catch error =>
      let place := .nothing .notFound (some (faultOf error))
      return request.outcome { surroundings with place := fun _ => place }

/-- Shows a notice. -/
def showNotice (style : LogStyle) : Notice → IO Unit
  | .line text => IO.eprintln text
  | .event event => if style.shows event then IO.eprintln (style.line event) else pure ()

end DataTerms

open DataTerms in
/-- Runs the command. -/
def main (words : List String) : IO UInt32 := do
  let request := Request.ofWords words
  let outcome ← settle request (← surroundingsOf request)
  IO.print outcome.output
  outcome.notices.forM (showNotice request.log)
  return UInt32.ofNat outcome.code

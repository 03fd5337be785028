/-
# What a run of the command leaves

A run leaves a code, which is zero if all went well, a text on the output, notices beside
it, and perhaps a new file. A notice is a line of text or an event. Of the events those of
enough weight are shown, as lines of text or of JSON.

Key definitions: `Notice`, `Outcome`, `Outcome.messages`, `Outcome.logs`, `LogStyle.line`.
-/
import DataTerms.Json.Printer
import DataTerms.Report

namespace DataTerms

/-- What stands beside the output. -/
inductive Notice where
  | line (text : String)
  | event (event : Event)

/-- What a run leaves. -/
structure Outcome where
  code : Nat
  output : String := ""
  notices : List Notice := []
  /-- The path and the content of a new file. -/
  created : Option (String × List UInt8) := none

/-- How events are shown. -/
structure LogStyle where
  /-- As JSON. -/
  json : Bool := false
  /-- Also those that are no warnings. -/
  verbose : Bool := false
  deriving DecidableEq, Repr

namespace LogStyle

/-- The least weight of the events that are shown. -/
def least (style : LogStyle) : Level := if style.verbose then .debug else .warn

/-- The event is shown. -/
def shows (style : LogStyle) (event : Event) : Bool :=
  style.least.rank ≤ event.level.rank

/-- An event's field as JSON. -/
def fieldToJson : Event.Field → Json
  | .text value => .string value
  | .number value => .int value

/-- An event as JSON. -/
def toJson (event : Event) : Json :=
  Json.ofMembers
    ([("level", .string event.level.name), ("target", .string event.source),
        ("message", .string event.message)] ++
      event.fields.map fun field => (field.1, fieldToJson field.2))

/-- An event as a line of text. -/
def toText (event : Event) : String :=
  event.fields.foldl (fun line field => s!"{line} {field.1}={field.2.toText}")
    s!"{event.level.name} {event.source}: {event.message}"

/-- An event as a line. -/
def line (style : LogStyle) (event : Event) : String :=
  if style.json then (toJson event).compact else toText event

end LogStyle

namespace Outcome

/-- The lines of text among the notices. -/
def messages (outcome : Outcome) : String :=
  outcome.notices.foldl
    (fun text notice =>
      match notice with
      | .line line => text ++ line ++ "\n"
      | .event _ => text)
    ""

/-- The events among the notices that are shown. -/
def events (outcome : Outcome) (style : LogStyle) : List Event :=
  outcome.notices.filterMap fun
    | .event event => if style.shows event then some event else none
    | .line _ => none

end Outcome
end DataTerms

/-
# Reports

Working with terms leaves a trail of events beside its result, in the order in which they
happened, and up to the point of failure where there is one. A report is a result with
its events. An event has a level, the part of the program it comes from, a message and
fields.

Key definitions: `Event`, `Event.level`, `Event.source`, `Event.message`, `Event.fields`,
`Report`, `Report.log`, `Report.ofExcept`.
Key theorems: `Report.result_bind`, `Report.events_bind_of_ok`.
-/
import DataTerms.Error

namespace DataTerms

/-- How much an event matters. -/
inductive Level where
  | trace
  | debug
  | warn
  deriving DecidableEq, Repr

/-- The word for a level. -/
def Level.name : Level → String
  | .trace => "TRACE"
  | .debug => "DEBUG"
  | .warn => "WARN"

/-- The place of a level among the levels, the least important first. -/
def Level.rank : Level → Nat
  | .trace => 0
  | .debug => 1
  | .warn => 2

/-- What may happen on the way to a result. -/
inductive Event where
  /-- A value is about to become a term. -/
  | encoding (kind : Value.Kind)
  /-- A term is about to become a value. -/
  | decoding (kind : Term.Kind)
  /-- A term was written as bytes. -/
  | encoded (bytes depth : Nat)
  /-- A term was read from bytes. -/
  | decoded (bytes depth : Nat)
  /-- Bytes were no message. -/
  | rejected (bytes : Nat) (fault : Wire.Fault)
  /-- An entry's value takes the place of an earlier one's. -/
  | duplicate (path : Path)
  /-- The settings were read from a file. -/
  | loaded (file : String)

/-- The value of an event's field. -/
inductive Event.Field where
  | text (value : String)
  | number (value : Nat)

/-- A field's value as text. -/
def Event.Field.toText : Event.Field → String
  | .text value => value
  | .number value => toString value

namespace Event

/-- How much an event matters. -/
def level : Event → Level
  | .encoding _ | .decoding _ => .trace
  | .encoded .. | .decoded .. | .rejected .. | .loaded _ => .debug
  | .duplicate _ => .warn

/-- The part of the program that an event comes from. -/
def source : Event → String
  | .encoding _ => "rhoterm_codec::encoder"
  | .decoding _ | .duplicate _ => "rhoterm_codec::decoder"
  | .encoded .. | .decoded .. | .rejected .. => "rhoterm_codec::wire"
  | .loaded _ => "rho::config"

/-- What is said of an event. -/
def message : Event → String
  | .encoding _ => "encoding native value"
  | .decoding _ => "decoding term"
  | .encoded .. => "encoded term"
  | .decoded .. => "decoded term"
  | .rejected .. => "rejected wire bytes"
  | .duplicate _ => "duplicate send channel, later entry wins"
  | .loaded _ => "loaded configuration"

/-- The fields of an event with their names. -/
def fields : Event → List (String × Field)
  | .encoding kind => [("kind", .text kind.name)]
  | .decoding kind => [("kind", .text kind.name)]
  | .encoded bytes depth => [("bytes", .number bytes), ("depth", .number depth)]
  | .decoded bytes depth => [("bytes", .number bytes), ("depth", .number depth)]
  | .rejected bytes fault => [("bytes", .number bytes), ("error", .text fault.message)]
  | .duplicate path => [("path", .text path.text)]
  | .loaded file => [("path", .text file)]

end Event

/-- A result, or an error, with the events on the way to it. -/
structure Report (ε α : Type) where
  events : List Event
  result : Except ε α

namespace Report

variable {ε α β : Type}

/-- A result or an error without events. -/
def ofExcept (result : Except ε α) : Report ε α := ⟨[], result⟩

/-- An event. -/
def log (event : Event) : Report ε Unit := ⟨[event], .ok ()⟩

/-- An error. -/
def fail (error : ε) : Report ε α := ⟨[], .error error⟩

/-- One step after another; an error ends the work. -/
protected def bind (report : Report ε α) (next : α → Report ε β) : Report ε β :=
  match report with
  | ⟨events, .ok a⟩ => ⟨events ++ (next a).events, (next a).result⟩
  | ⟨events, .error error⟩ => ⟨events, .error error⟩

instance : Monad (Report ε) where
  pure a := ⟨[], .ok a⟩
  bind := Report.bind

/-- The report with another error in the place of its own. -/
def mapError {ε' : Type} (f : ε → ε') (report : Report ε α) : Report ε' α :=
  ⟨report.events, report.result.mapError f⟩

@[simp] theorem result_pure (a : α) : (pure a : Report ε α).result = .ok a := rfl

@[simp] theorem events_pure (a : α) : (pure a : Report ε α).events = [] := rfl

@[simp] theorem result_ofExcept (result : Except ε α) : (ofExcept result).result = result := rfl

@[simp] theorem events_ofExcept (result : Except ε α) : (ofExcept result).events = [] := rfl

@[simp] theorem result_log (event : Event) : (log event : Report ε Unit).result = .ok () := rfl

@[simp] theorem events_log (event : Event) : (log event : Report ε Unit).events = [event] := rfl

@[simp] theorem result_fail (error : ε) : (fail error : Report ε α).result = .error error := rfl

@[simp] theorem events_fail (error : ε) : (fail error : Report ε α).events = [] := rfl

/-- The result of steps is that of their results: events decide nothing. -/
@[simp] theorem result_bind (report : Report ε α) (next : α → Report ε β) :
    (report >>= next).result = report.result >>= fun a => (next a).result := by
  rcases report with ⟨_, _ | _⟩ <;> rfl

/-- The events of a step that succeeds come before those of the next. -/
theorem events_bind_of_ok {report : Report ε α} {a : α} (h : report.result = .ok a)
    (next : α → Report ε β) : (report >>= next).events = report.events ++ (next a).events := by
  rcases report with ⟨_, _ | _⟩ <;> cases h
  rfl

/-- After a step that fails nothing happens. -/
theorem events_bind_of_error {report : Report ε α} {error : ε}
    (h : report.result = .error error) (next : α → Report ε β) :
    (report >>= next).events = report.events := by
  rcases report with ⟨_, _ | _⟩ <;> cases h
  rfl

@[simp] theorem result_mapError {ε' : Type} (f : ε → ε') (report : Report ε α) :
    (report.mapError f).result = report.result.mapError f := rfl

@[simp] theorem events_mapError {ε' : Type} (f : ε → ε') (report : Report ε α) :
    (report.mapError f).events = report.events := rfl

end Report
end DataTerms

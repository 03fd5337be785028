/-
# TOML values

A TOML document is a table. A table remembers how it came to be, for that decides who may
still add to it. The elements of an array of tables are held with the last one apart,
because headers that go below the array go below that one.

Key definitions: `Toml`, `Toml.Origin`, `Toml.Moment`, `Toml.Key`.
-/
namespace DataTerms
namespace Toml

/-- How a table came to be. -/
inductive Origin where
  /-- By a header with its name. -/
  | header
  /-- By a header with the name of a table below it. -/
  | implied
  /-- By a key with the name of a value below it. -/
  | dotted
  /-- As a value between braces. -/
  | inline
  deriving DecidableEq, Repr

/-- A day. -/
structure Date where
  year : Nat
  month : Nat
  day : Nat
  deriving DecidableEq, Repr

/-- A time of the day. -/
structure Time where
  hour : Nat
  minute : Nat
  second : Nat
  nanosecond : Nat
  deriving DecidableEq, Repr

/-- A day, a time of the day, or both, and with both perhaps the minutes by which the
clock is ahead. -/
structure Moment where
  date : Option Date
  time : Option Time
  offset : Option Int
  deriving DecidableEq, Repr

/-- A key: the names of the tables on the way, and the name of the value. -/
structure Key where
  parents : List String
  name : String
  deriving DecidableEq, Repr

end Toml

inductive Toml where
  | string (value : String)
  | integer (value : Int64)
  | float (value : Float)
  | boolean (value : Bool)
  | moment (value : Toml.Moment)
  | array (items : List Toml)
  | table (origin : Toml.Origin) (entries : List (String × Toml))
  /-- An array of tables, the last element of which is `last`. -/
  | tables (earlier : List (List (String × Toml))) (last : List (String × Toml))

end DataTerms

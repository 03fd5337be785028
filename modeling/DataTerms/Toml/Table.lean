/-
# Who may add to a table

A name in a table is given once. Beyond that the origin of a table decides.

* A header `[a.b]` makes the table `b`, or takes it over where only tables below it had a
  header so far; the tables on the way are made as needed, and of an array of tables its
  last element is on the way.
* A header `[[a.b]]` makes an array of tables, or adds an element to one.
* A key `a.b` makes the table `a`, or adds to it where such a key made it; on the way to
  that table it also passes through tables that had no header of their own, and through the
  last elements of arrays of tables.

Nothing is added to a table between braces, nor to a value that is no table.

Key definitions: `Toml.atPath`, `Toml.openTable`, `Toml.openElement`, `Toml.addValue`.
-/
import DataTerms.Keyed
import DataTerms.Toml.Basic

namespace DataTerms
namespace Toml

/-- The entries of a table. -/
abbrev Entries := List (String × Toml)

/-- Changes the table at the path that a header names, of the table with the given
entries. -/
def atPath (change : Entries → Option Entries) : List String → Entries → Option Entries
  | [], entries => change entries
  | name :: path, entries =>
    match Keyed.find? name entries with
    | none => do return Keyed.insert name (.table .implied (← atPath change path [])) entries
    | some (.table .inline _) => none
    | some (.table origin inner) => do
      return Keyed.insert name (.table origin (← atPath change path inner)) entries
    | some (.tables earlier last) => do
      return Keyed.insert name (.tables earlier (← atPath change path last)) entries
    | some _ => none

/-- Opens the table that a header names in the table above it. -/
def openTable (name : String) (entries : Entries) : Option Entries :=
  match Keyed.find? name entries with
  | none => some (Keyed.insert name (.table .header []) entries)
  | some (.table .implied inner) => some (Keyed.insert name (.table .header inner) entries)
  | some _ => none

/-- Opens a new last element of the array of tables that a header names in the table above
it. -/
def openElement (name : String) (entries : Entries) : Option Entries :=
  match Keyed.find? name entries with
  | none => some (Keyed.insert name (.tables [] []) entries)
  | some (.tables earlier last) =>
    some (Keyed.insert name (.tables (earlier ++ [last]) []) entries)
  | some _ => none

/-- Gives a name its value. -/
def addEntry (name : String) (value : Toml) (entries : Entries) : Option Entries :=
  if (Keyed.find? name entries).isSome then none else some (Keyed.insert name value entries)

/-- Gives a key its value in the table with the given entries. The table right about the
value has to be one that such keys made, if it is not the given one. -/
def addValue (name : String) (value : Toml) : List String → Entries → Option Entries
  | [], entries => addEntry name value entries
  | parent :: path, entries =>
    match Keyed.find? parent entries with
    | none => do
      return Keyed.insert parent (.table .dotted (← addValue name value path [])) entries
    | some (.table .dotted inner) => do
      return Keyed.insert parent (.table .dotted (← addValue name value path inner)) entries
    | some (.table .implied inner) =>
      if path = [] then none
      else do
        return Keyed.insert parent (.table .implied (← addValue name value path inner)) entries
    | some (.tables earlier last) =>
      if path = [] then none
      else do
        return Keyed.insert parent (.tables earlier (← addValue name value path last)) entries
    | some _ => none

/-- The entries of a table between braces. -/
def entriesOf? (pairs : List (Key × Toml)) : Option Entries :=
  pairs.foldlM (fun entries (key, value) => addValue key.name value key.parents entries) []

end Toml
end DataTerms

/-
# Paths

The place of a node in a tree of data: the root, an item of the list at a path, or the
entry of the map at a path. The text of a path shows the steps from the root on, `$`,
with an item's index or an entry's quoted key between brackets.

Key definitions: `Path`, `Path.text`.
-/
import DataTerms.Text.Quoted

namespace DataTerms

inductive Path where
  | root
  /-- The item of a list with an index. -/
  | index (parent : Path) (i : Nat)
  /-- The entry of a map with a key. -/
  | key (parent : Path) (name : String)
  deriving DecidableEq, Repr

namespace Path

/-- The characters of a path's text. -/
def chars : Path → List Char
  | root => ['$']
  | index parent i => parent.chars ++ '[' :: Nat.toDigits 10 i ++ [']']
  | key parent name => parent.chars ++ '[' :: Text.quoted name.toList ++ [']']

/-- The text of a path. -/
def text (path : Path) : String := String.ofList path.chars

end Path
end DataTerms

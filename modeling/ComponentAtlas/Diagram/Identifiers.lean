import ComponentAtlas.Text.Letters

/-!
Identifiers for a diagram. Ids lose what a diagram cannot hold, and ids that come out alike are
told apart by numbers in the order in which they are first seen.
-/

namespace ComponentAtlas.Diagram

open Text

def isIdentifierChar (c : Char) : Bool :=
  isUpperLatin c || isLowerLatin c || c.isDigit || c == '_'

/-- What is left of an id; an id of which nothing is left is called `node`. -/
def identifierBase (id : String) : String :=
  match id.toList.filter isIdentifierChar with
  | [] => "node"
  | cs => String.ofList cs

/-- The identifiers of ids, each id once, in the order in which they are first seen. -/
abbrev Identifiers := List (String × String)

namespace Identifiers

def used (ids : Identifiers) : List String := ids.map (·.2)

/-- The base itself, then the base with the numbers from two on. -/
def numbered (base : String) : Nat → String
  | 0 => base
  | n + 1 => s!"{base}_{n + 2}"

/-- One of the first candidates is free, since there are more of them than identifiers in use. -/
def fresh (ids : Identifiers) (base : String) : String :=
  let used := ids.used
  (((List.range (used.length + 1)).map (numbered base)).find? (!used.contains ·)).getD base

def add (ids : Identifiers) (id : String) : Identifiers :=
  match ids.lookup id with
  | some _ => ids
  | none => ids ++ [(id, ids.fresh (identifierBase id))]

def ofList (all : List String) : Identifiers := all.foldl add []

def get (ids : Identifiers) (id : String) : String := (ids.lookup id).getD (identifierBase id)

end Identifiers

end ComponentAtlas.Diagram

import ComponentAtlas.Text.Pieces
import ComponentAtlas.Text.Recognizer

/-!
Lists of names between commas, each name possibly under an alias: `a, b as c`. Comments that reach
to the end of the line do not count.
-/

namespace ComponentAtlas

open Text Recognizer

/-- The text without comments; a comment starts with `#` or `//` and ends before a line feed. -/
def dropComments (inside : Bool) : List Char → List Char
  | [] => []
  | c :: rest =>
    if c == '\n' then c :: dropComments false rest
    else if inside || c == '#' || (c == '/' && rest.head? == some '/') then dropComments true rest
    else c :: dropComments false rest

/-- The word `as` between blanks. -/
def aliasMark : Recognizer Unit := do
  blanks1
  literal "as"
  blanks1

/-- Which side of an alias counts. -/
inductive AliasSide where
  | sourceName
  | localName
deriving DecidableEq

def AliasSide.pick (pieces : List (List Char)) : AliasSide → List Char
  | .sourceName => pieces.head?.getD []
  | .localName => pieces.getLast?.getD []

/-- The name that one item of a list stands for; a blank item stands for none. -/
def itemName? (side : AliasSide) (item : List Char) : Option String :=
  let item := trimChars item
  let name := trimChars (side.pick (aliasMark.splitBy item))
  if item.isEmpty || name.isEmpty then none else some (String.ofList name)

def splitNameChars (side : AliasSide) (s : List Char) : List String :=
  (splitOn ',' (dropComments false s)).filterMap (itemName? side)

/-- The names of a comma separated list, in order. -/
def splitNames (side : AliasSide) (s : String) : List String := splitNameChars side s.toList

end ComponentAtlas

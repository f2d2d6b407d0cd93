import ComponentAtlas.Text.Pieces
import ComponentAtlas.Text.Recognizer

/-!
What a declaration extends and implements, as a one-line description and back. The reader accepts
more than the writer produces: subscripts and keyword arguments after a name are dropped, and of a
dotted name only the last part stays.
-/

namespace ComponentAtlas

open Text Recognizer

structure Heritage where
  bases : List String
  interfaces : List String
deriving DecidableEq

def extendsMark : String := "Extends:"

def implementsMark : String := "Implements:"

/-- `Extends: A; Implements: X, Y`, each part only where it names something. -/
def Heritage.description? (h : Heritage) : Option String :=
  let part (mark : String) (names : List String) : List String :=
    if names.isEmpty then [] else [mark ++ " " ++ join ", " names]
  match part extendsMark h.bases ++ part implementsMark h.interfaces with
  | [] => none
  | parts => some (join "; " parts)

def isTypeStart (c : Char) : Bool :=
  (isUpperLatin c || isLowerLatin c) || c == '_' || c == '$'

def isTypePart (c : Char) : Bool := isWord c || c == '.' || c == '$'

/-- The name at the start of one item of a type list; an assignment is no type. -/
def typeName? (item : List Char) : Option String :=
  let item := trimChars item
  if item.contains '=' then none
  else match item with
    | [] => none
    | c :: rest =>
      if isTypeStart c then
        some (String.ofList (lastPiece '.' (c :: rest.takeWhile isTypePart)))
      else none

def typeNames (s : List Char) : List String := (splitOn ',' s).filterMap typeName?

/-- What a description says. -/
def Heritage.ofChars (s : List Char) : Heritage where
  bases := match afterStart? extendsMark.toList s with
    | some rest => typeNames (firstPiece ';' rest)
    | none => []
  interfaces := match cutAt? implementsMark.toList s with
    | some (_, rest) => typeNames (firstPiece ';' rest)
    | none => []

def Heritage.ofDescription (description : Option String) : Heritage :=
  match description with
  | none => ⟨[], []⟩
  | some s => Heritage.ofChars s.toList

end ComponentAtlas

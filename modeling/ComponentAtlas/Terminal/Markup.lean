import ComponentAtlas.Text.Case
import ComponentAtlas.Text.Pieces
import ComponentAtlas.Text.Recognizer

/-!
Text with style tags in square brackets, shown without colours: the tags do not show. A tag that
starts with a slash closes the last open tag, or the last open one of its name.
-/

namespace ComponentAtlas.Terminal

open Text Recognizer

def isTagStart (c : Char) : Bool :=
  ('a' ≤ c && c ≤ 'z') || c == '#' || c == '/' || c == '@'

/-- A tag with the backslashes before it, which may take its meaning away. -/
structure Tag where
  backslashes : Nat
  body : List Char

def tag : Recognizer Tag := do
  let slashes ← captured (many (· == '\\'))
  exactly '['
  let body ← captured (do
    let _ ← oneOf isTagStart
    many fun c => c != '[' && c != ']')
  exactly ']'
  return ⟨slashes.length, body.chars⟩

/-- Two backslashes stand for one, and a single one makes the tag plain text. -/
def Tag.shown (t : Tag) : List Char :=
  List.replicate (t.backslashes / 2) '\\' ++
    if t.backslashes % 2 == 1 then '[' :: t.body ++ [']'] else []

def Tag.isPlain (t : Tag) : Bool := t.backslashes % 2 == 1

def styleName (s : List Char) : String := lower (String.ofList (trimChars s))

/-- A tag closes one that is not open. -/
inductive MarkupError where
  | nothingToClose
deriving DecidableEq

/-- The open tags after a tag, the last one first. -/
def Tag.apply (t : Tag) (opened : List String) : Except MarkupError (List String) :=
  if t.isPlain then .ok opened
  else match firstPiece '=' t.body with
    | '/' :: rest =>
      let name := styleName rest
      if name == "" then if opened.isEmpty then .error .nothingToClose else .ok opened.tail
      else if opened.contains name then .ok (opened.erase name)
      else .error .nothingToClose
    | name => .ok (styleName name :: opened)

/-- Outside tags a backslash before a bracket does not show. -/
def plainShown : List Char → List Char
  | [] => []
  | '\\' :: '[' :: rest => '[' :: plainShown rest
  | c :: rest => c :: plainShown rest

/-- The pieces of text and the tags between them, in turn. -/
def showFrom (opened : List String) : List (List Char) → List Tag → Except MarkupError (List Char)
  | piece :: pieces, t :: tags => do
    let opened ← t.apply opened
    return plainShown piece ++ t.shown ++ (← showFrom opened pieces tags)
  | pieces, _ => .ok (pieces.flatMap plainShown)

def shown (s : String) : Except MarkupError String := do
  let cs := s.toList
  return String.ofList (← showFrom [] (tag.splitBy cs) ((tag.all cs).map (·.value)))

/-- The text of a line in a style. -/
def styled (style s : String) : String := s!"[{style}]{s}[/{style}]"

end ComponentAtlas.Terminal

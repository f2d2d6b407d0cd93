import ComponentAtlas.Text.Pieces

/-!
A rough body of a declaration. An arrow function is read from its arrow, a function declaration
from the brace after its parameters. A body that starts with a bracket ends with the bracket that
closes it; any other body is a piece of bounded length. No decision looks further than a window of
fixed size after the start of the declaration.
-/

namespace ComponentAtlas.TypeScript

open Text

/-- How far an arrow may stand from the start of its declaration. -/
def arrowWindow : Nat := 500

/-- How far brackets are sought from the start of the declaration. -/
def scanWindow : Nat := 5000

/-- The length of a body without brackets. -/
def implicitChunk : Nat := 2000

/-- The length of the piece taken where no body is found. -/
def fallbackChunk : Nat := 1000

/-- The length of the text up to the bracket that closes all brackets opened in it. -/
def closingLength? (opener closer : Char) (depth : Nat) : List Char → Option Nat
  | [] => none
  | c :: rest =>
    if c == opener then (closingLength? opener closer (depth + 1) rest).map (· + 1)
    else if c == closer then
      match depth with
      | 0 => (closingLength? opener closer 0 rest).map (· + 1)
      | 1 => some 1
      | d + 2 => (closingLength? opener closer (d + 1) rest).map (· + 1)
    else (closingLength? opener closer depth rest).map (· + 1)

/-- The bracket block at the start of `text`, if it closes within the first `room` characters. -/
def block? (opener closer : Char) (text : List Char) (room : Nat) : Option (List Char) :=
  (closingLength? opener closer 0 (text.take room)).map text.take

/-- The body at the start of `text`, where the window reaches over `room` more characters. -/
def bodyAt (text : List Char) (room : Nat) : List Char :=
  let lead := ((text.take room).takeWhile isBlank).length
  let body := text.drop lead
  let room := room - lead
  match body, room with
  | _, 0 => body.take fallbackChunk
  | [], _ => []
  | c :: _, _ =>
    let block :=
      if c == '{' then block? '{' '}' body room
      else if c == '(' then block? '(' ')' body room
      else none
    block.getD (body.take implicitChunk)

/-- Where the brace after a parameter list is sought from. -/
def parametersEnd (window : List Char) : Nat :=
  match find? ['('] window with
  | none => 0
  | some paren =>
    match closingLength? '(' ')' 0 (window.drop paren) with
    | some n => paren + n
    | none => paren

def declarationBody (text : List Char) : List Char :=
  let window := text.take scanWindow
  let searchFrom := parametersEnd window
  match find? ['{'] (window.drop searchFrom) with
  | none => text.take fallbackChunk
  | some d => bodyAt (text.drop (searchFrom + d)) (window.length - (searchFrom + d))

/-- The body of the declaration at the start of `text`. -/
def functionBody (isDeclaration : Bool) (text : List Char) : List Char :=
  let window := text.take scanWindow
  let arrow := if isDeclaration then none else find? ['=', '>'] (window.take arrowWindow)
  match arrow with
  | some a => bodyAt (text.drop (a + 2)) (window.length - (a + 2))
  | none => declarationBody text

end ComponentAtlas.TypeScript

import ComponentAtlas.Decimal.Reading
import ComponentAtlas.Text.Hex
import ComponentAtlas.Toml.Value

/-!
Settings files read as tables, from the outside in: comments go first, then the text is cut into
lines, a line into its two sides, and a side into its parts. Every cut is made outside texts and
brackets. A text that is no settings file has no table.
-/

namespace ComponentAtlas.Toml

open Text

/-- Where a character stands: in a text that this quote opened or in none, right after a backslash
there or not, and in how many brackets. -/
structure Nesting where
  quote : Option Char
  escaped : Bool
  depth : Nat
deriving DecidableEq

namespace Nesting

def outside : Nesting := ⟨none, false, 0⟩

def after (n : Nesting) (c : Char) : Nesting :=
  match n.quote with
  | some quote =>
    if n.escaped then { n with escaped := false }
    else if c == quote then { n with quote := none }
    else { n with escaped := quote == '"' && c == '\\' }
  | none =>
    if c == '"' || c == '\'' then { n with quote := some c }
    else if c == '[' then { n with depth := n.depth + 1 }
    else if c == ']' then { n with depth := n.depth - 1 }
    else n

end Nesting

/-- The text without its comments. A text or a bracket that is not closed is a fault, and so is a
text that runs over the end of a line. -/
def withoutComments? (n : Nesting) (inComment : Bool) : List Char → Option (List Char)
  | [] => if n = .outside then some [] else none
  | c :: rest =>
    if c == '\n' then
      if n.quote.isSome then none else (withoutComments? n false rest).map ('\n' :: ·)
    else if inComment || (c == '#' && n.quote.isNone) then withoutComments? n true rest
    else (withoutComments? (n.after c) false rest).map (c :: ·)

/-- The pieces between the separators that stand outside texts and brackets. -/
def cutOutside (sep : Char) (n : Nesting) : List Char → List (List Char)
  | [] => [[]]
  | c :: rest =>
    match cutOutside sep (n.after c) rest with
    | [] => [[c]]
    | piece :: pieces =>
      if c == sep && n = .outside then [] :: piece :: pieces else (c :: piece) :: pieces

def pieces (sep : Char) (s : List Char) : List (List Char) :=
  (cutOutside sep .outside s).map trimChars

/-! Texts. -/

/-- The characters that a backslash and a letter stand for. -/
def escapes : List (Char × Char) :=
  [('b', '\x08'), ('t', '\t'), ('n', '\n'), ('f', '\x0c'), ('r', '\r'), ('"', '"'), ('\\', '\\'),
    ('0', '\x00')]

def charOfHex? (digits : List Char) : Option Char :=
  match radixValue? 16 digits with
  | some n => if n.isValidChar then some (Char.ofNat n) else none
  | none => none

/-- The text up to a double quote, which has to come last. -/
def basicText? : List Char → Option (List Char)
  | [] => none
  | ['"'] => some []
  | '\\' :: 'u' :: a :: b :: c :: d :: rest => do
    let x ← charOfHex? [a, b, c, d]
    return x :: (← basicText? rest)
  | '\\' :: 'U' :: a :: b :: c :: d :: e :: f :: g :: h :: rest => do
    let x ← charOfHex? [a, b, c, d, e, f, g, h]
    return x :: (← basicText? rest)
  | '\\' :: c :: rest => do
    let x ← escapes.lookup c
    return x :: (← basicText? rest)
  | c :: rest => if c == '"' then none else (basicText? rest).map (c :: ·)

/-- The text up to a single quote, which has to come last. -/
def literalText? : List Char → Option (List Char)
  | [] => none
  | ['\''] => some []
  | c :: rest => if c == '\'' then none else (literalText? rest).map (c :: ·)

/-! Numbers. -/

/-- An underscore stands between two digits, and no zero leads but before a point or where a letter
after it names the base. -/
def isWellFormed (signed : Bool) (s : List Char) : Bool :=
  let bad := ["__", "_.", "._"]
  let start :=
    match s with
    | '0' :: c :: _ => c == '.' || (!signed && ['o', 'b', 'x'].contains c)
    | c :: _ => c != '_'
    | [] => false
  start && s.getLast? != some '_' && !bad.any fun needle => occursIn needle.toList s

def wholeNumber? (s : List Char) : Option Int :=
  match s with
  | '0' :: 'x' :: digits => (radixValue? 16 digits).map Int.ofNat
  | '0' :: 'o' :: digits => (radixValue? 8 digits).map Int.ofNat
  | '0' :: 'b' :: digits => (radixValue? 2 digits).map Int.ofNat
  | _ => (Decimal.whole? (String.ofList s)).toOption

def isFractional (s : List Char) : Bool :=
  s.contains '.' || (!s.contains 'x' && (s.contains 'e' || s.contains 'E'))

def isSpecial (s : List Char) : Bool :=
  let word := String.ofList (s.map Char.toLower)
  word == "inf" || word == "nan"

/-- A number without sign. Digits stand on both sides of a point. -/
def unsigned? (s : List Char) : Option Value :=
  if isFractional s then
    if s.head?.any Char.isDigit && s.getLast? != some '.' then
      (Decimal.float? (String.ofList s)).map .number
    else none
  else if isSpecial s then (Decimal.float? (String.ofList s)).map .number
  else (wholeNumber? s).map .whole

def negated : Value → Value
  | .whole n => .whole (-n)
  | .number x => .number (0.0 - x)
  | v => v

def number? (s : List Char) : Option Value :=
  let digits (signed : Bool) (body : List Char) : Option Value :=
    if isWellFormed signed body then unsigned? (body.filter (· != '_')) else none
  match s with
  | '-' :: body => (digits true body).map negated
  | '+' :: body => digits true body
  | body => digits false body

/-! Values. -/

def plainValue? (s : List Char) : Option Value :=
  if s == "true".toList then some (.truth true)
  else if s == "false".toList then some (.truth false)
  else number? s

def sameKind : Value → Value → Bool
  | .truth _, .truth _ | .whole _, .whole _ | .number _, .number _ | .text _, .text _
  | .list _, .list _ => true
  | _, _ => false

/-- The values of a list are of one kind. -/
def listOf? : List Value → Option Value
  | [] => some (.list [])
  | v :: rest => if rest.all (sameKind v) then some (.list (v :: rest)) else none

/-- What stands before a closing bracket that comes last. -/
def bracketed? (s : List Char) : Option (List Char) :=
  if s.getLast? == some ']' then some s.dropLast else none

/-- The value that a text stands for; lists are at most `levels` deep. -/
def valueWithin? (levels : Nat) (s : List Char) : Option Value :=
  match levels, s with
  | _, '"' :: rest => (basicText? rest).map fun cs => .text (String.ofList cs)
  | _, '\'' :: rest => (literalText? rest).map fun cs => .text (String.ofList cs)
  | 0, '[' :: _ => none
  | levels + 1, '[' :: rest => do
    let inner ← bracketed? rest
    let items := (pieces ',' inner).filter (!·.isEmpty)
    listOf? (← items.mapM (valueWithin? levels))
  | _, s => plainValue? s

/-- Lists cannot be deeper than the text is long. -/
def value? (s : List Char) : Option Value := valueWithin? s.length s

/-! Keys. -/

/-- The letters of a table's name outside quotes. -/
def isNameLetter (c : Char) : Bool := c.isAlphanum || c == '_' || c == '-'

/-- The letters of a key outside quotes, which may come from any script. -/
def isKeyLetter (c : Char) : Bool := isWord c || c == '-'

/-- One part of a key: letters of a class, or a text in quotes. -/
def keyPart? (isLetter : Char → Bool) (s : List Char) : Option String :=
  match s with
  | [] => none
  | '"' :: rest => (basicText? rest).map String.ofList
  | '\'' :: rest => (literalText? rest).map String.ofList
  | _ => if s.all isLetter then some (String.ofList s) else none

/-- The parts of a key, with dots between them. -/
def keyPath? (isLetter : Char → Bool) (s : List Char) : Option (List String) :=
  (pieces '.' s).mapM (keyPart? isLetter)

/-! Lines. -/

/-- What the lines so far say: the table, the path at which keys are set, and the tables that exist
only because a path leads through them. -/
structure Document where
  table : Table
  here : List String
  implied : List (List String)

namespace Document

def empty : Document := ⟨[], [], []⟩

/-- The paths to the tables that one passes on the way. -/
def onTheWay (path : List String) : List (List String) :=
  (List.range path.length).filterMap fun n => if n == 0 then none else some (path.take n)

/-- Keys are set at `path` from now on. No table is opened twice. -/
def enter? (d : Document) (path : List String) : Option Document :=
  match d.table.at? path with
  | some _ =>
    if d.implied.contains path then
      some { d with here := path, implied := d.implied.filter (· != path) }
    else none
  | none =>
    let fresh := (onTheWay path).filter fun p => (d.table.at? p).isNone
    (d.table.define? (.table []) path).map fun table => ⟨table, path, d.implied ++ fresh⟩

/-- A key is set once. -/
def set? (d : Document) (key : List String) (v : Value) : Option Document :=
  (d.table.define? v (d.here ++ key)).map fun table => { d with table }

def line? (d : Document) (line : List Char) : Option Document :=
  match line with
  | '[' :: rest => do d.enter? (← keyPath? isNameLetter (← bracketed? rest))
  | _ =>
    match pieces '=' line with
    | [key, text] => do d.set? (← keyPath? isKeyLetter key) (← value? text)
    | _ => none

end Document

/-- The table that a settings file holds. -/
def read? (s : List Char) : Option Table := do
  let text ← withoutComments? .outside false s
  let lines := (pieces '\n' text).filter (!·.isEmpty)
  let d ← lines.foldlM Document.line? Document.empty
  return d.table

end ComponentAtlas.Toml

import ComponentAtlas.Decimal.Shortest
import ComponentAtlas.Text.Pieces
import ComponentAtlas.Text.Quoted
import ComponentAtlas.Text.Recognizer
import ComponentAtlas.Toml.Value

/-!
Tables written as settings files: the keys of a table first, then the tables below it, outer ones
before inner ones and with a blank line in front of each. A missing value is left out.

The format has no escape of two digits. The place of one is marked by a backslash and an `x`, be it
the escape of a character or a backslash that stands before an `x` in the text. At a mark the
backslashes before it decide what is written: an `x` alone, or an escape of four digits.
-/

namespace ComponentAtlas.Toml

open Text

/-- The pieces of a text with escapes before, between and after the marks. -/
def aroundMarks (s : String) : List (List Char) :=
  (Recognizer.literal "\\x").splitBy (s.toList.flatMap (escapeIn '"'))

/-- The text with one backslash for every two. -/
def halveBackslashes : List Char → List Char
  | '\\' :: '\\' :: rest => '\\' :: halveBackslashes rest
  | c :: rest => c :: halveBackslashes rest
  | [] => []

/-- How many backslashes end a text. -/
def lastBackslashes (s : List Char) : Nat := (s.reverse.takeWhile (· == '\\')).length

/-- What is written for a mark: an `x` where no backslash stands before it, or an odd number of them
behind the first character of the text. Else an escape of four digits begins. -/
def markAfter (before : List Char) : List Char :=
  if lastBackslashes before == 0 || lastBackslashes before.tail % 2 == 1 then ['x']
  else ['u', '0', '0']

/-- The pieces joined with what is written for the marks. Before each mark the backslashes are
halved anew. -/
def joinAtMarks (before : List Char) : List (List Char) → List Char
  | [] => before
  | piece :: rest =>
    let before := halveBackslashes before
    joinAtMarks (before ++ markAfter before ++ piece) rest

/-- A mark that comes first is dropped. -/
def escaped (s : String) : List Char :=
  match aroundMarks s with
  | [] :: first :: rest | first :: rest => joinAtMarks first rest
  | [] => []

def textInQuotes (s : String) : String := String.ofList ('"' :: escaped s ++ ['"'])

/-- A text that begins with its only mark has no written form. -/
def isWritableText (s : String) : Bool :=
  match aroundMarks s with
  | [[], _] => false
  | _ => true

/-- The exponent of a small number has no zero in front. -/
def numberText (x : Float) : String :=
  let text := (Decimal.text x).toList
  match cutAt? "e-0".toList text with
  | some (digits, exponent) => String.ofList (digits ++ 'e' :: '-' :: exponent)
  | none => String.ofList text

def isBareKey (key : String) : Bool :=
  key != "" && key.toList.all fun c => c.isAlphanum || c == '_' || c == '-'

def keyText (key : String) : String := if isBareKey key then key else textInQuotes key

def isWritableKey (key : String) : Bool := isBareKey key || isWritableText key

mutual

def Value.isWritable : Value → Bool
  | .null | .truth _ | .whole _ | .number _ => true
  | .text s => isWritableText s
  | .list items => areWritable items
  | .table entries => entriesAreWritable entries

def areWritable : List Value → Bool
  | [] => true
  | v :: rest => v.isWritable && areWritable rest

def entriesAreWritable : List (String × Value) → Bool
  | [] => true
  | (key, v) :: rest => isWritableKey key && v.isWritable && entriesAreWritable rest

end

mutual

def Value.written : Value → String
  | .null => ""
  | .truth b => if b then "true" else "false"
  | .whole n => toString n
  | .number x => numberText x
  | .text s => textInQuotes s
  | .list items => "[" ++ itemsWritten items ++ "]"
  | .table entries => "\x7b" ++ entriesWritten entries ++ "\x7d"

/-- Every item has a blank before it and a comma after it. -/
def itemsWritten : List Value → String
  | [] => ""
  | v :: rest => " " ++ v.written ++ "," ++ itemsWritten rest

def entriesWritten : List (String × Value) → String
  | [] => ""
  | [(key, v)] => " " ++ keyText key ++ " = " ++ v.written ++ " "
  | (key, v) :: rest => " " ++ keyText key ++ " = " ++ v.written ++ "," ++ entriesWritten rest

end

def entryLine (key : String) : Value → String
  | .null | .table _ => ""
  | v => keyText key ++ " = " ++ v.written ++ "\n"

/-- The lines of the keys that hold no table. -/
def entryLines (t : Table) : String := join "" (t.map fun (key, v) => entryLine key v)

def hasTables (t : Table) : Bool := t.any fun (_, v) => v.table?.isSome

/-- A table with the dotted name that leads to it and the number of names in it. -/
structure Part where
  depth : Nat
  name : String
  table : Table

/-- The tables below a table, each followed by those below it. -/
def partsBelow (depth : Nat) (lead : String) : Table → List Part
  | [] => []
  | (key, .table below) :: rest =>
    let name := lead ++ keyText key
    ⟨depth, name, below⟩ :: partsBelow (depth + 1) (name ++ ".") below ++ partsBelow depth lead rest
  | _ :: rest => partsBelow depth lead rest

/-- A table that only holds tables needs no heading of its own. -/
def Part.text? (p : Part) : Option String :=
  let lines := entryLines p.table
  if lines == "" && hasTables p.table then none else some (s!"[{p.name}]\n" ++ lines)

/-- The lines of a table and of all tables below it. -/
def tableText (t : Table) : String :=
  let parts := (partsBelow 1 "" t).mergeSort fun a b => a.depth ≤ b.depth
  let top := entryLines t
  let texts := parts.filterMap Part.text?
  join "\n" (if top == "" then texts else top :: texts)

/-- The settings file that holds a table, if all of its texts have a written form. -/
def write? (t : Table) : Option String := if entriesAreWritable t then some (tableText t) else none

end ComponentAtlas.Toml

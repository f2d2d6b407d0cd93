import ComponentAtlas.Decimal.Shortest
import ComponentAtlas.Graph.Basic
import ComponentAtlas.Text.Hex
import ComponentAtlas.Text.Pieces

/-!
Graphs as JSON, one value a line and two blanks deeper for each level. Only printable ASCII is
written; any other character is escaped in UTF-16 units.
-/

namespace ComponentAtlas

open Text

inductive Json where
  | null
  | whole (n : Int)
  | number (x : Float)
  | text (s : String)
  | list (items : List Json)
  | fields (entries : List (String × Json))

namespace Json

def unit (n : Nat) : List Char := '\\' :: 'u' :: hexDigits 4 n

/-- A character in one UTF-16 unit, or in two beyond the first 2¹⁶. -/
def units (c : Char) : List Char :=
  let n := c.toNat
  if n < 0x10000 then unit n
  else unit (0xD800 + (n - 0x10000) / 0x400) ++ unit (0xDC00 + (n - 0x10000) % 0x400)

def escapeChar (c : Char) : List Char :=
  if c == '"' || c == '\\' then ['\\', c]
  else if c == '\n' then ['\\', 'n']
  else if c == '\r' then ['\\', 'r']
  else if c == '\t' then ['\\', 't']
  else if c == '\x08' then ['\\', 'b']
  else if c == '\x0c' then ['\\', 'f']
  else if 32 ≤ c.toNat && c.toNat < 127 then [c]
  else units c

def textInQuotes (s : String) : String :=
  String.ofList ('"' :: s.toList.flatMap escapeChar ++ ['"'])

def numberText (x : Float) : String :=
  if x.isNaN then "NaN" else if x.isInf then (if x < 0.0 then "-Infinity" else "Infinity")
  else Decimal.text x

def margin (level : Nat) : String := String.ofList (List.replicate (2 * level) ' ')

/-- What stands between two brackets, each item on a line of its own. -/
def enclosed (left right : String) (level : Nat) (items : List String) : String :=
  if items.isEmpty then left ++ right
  else
    let lead := "\n" ++ margin (level + 1)
    left ++ lead ++ join ("," ++ lead) items ++ "\n" ++ margin level ++ right

mutual

/-- The text of a value that starts on a line of the given level. -/
def textAt (level : Nat) : Json → String
  | .null => "null"
  | .whole n => toString n
  | .number x => numberText x
  | .text s => textInQuotes s
  | .list items => enclosed "[" "]" level (itemTexts (level + 1) items)
  | .fields entries => enclosed "\x7b" "\x7d" level (entryTexts (level + 1) entries)

def itemTexts (level : Nat) : List Json → List String
  | [] => []
  | v :: rest => v.textAt level :: itemTexts level rest

def entryTexts (level : Nat) : List (String × Json) → List String
  | [] => []
  | (key, v) :: rest => (textInQuotes key ++ ": " ++ v.textAt level) :: entryTexts level rest

end

def toText (v : Json) : String := v.textAt 0

def texts (items : List String) : Json := .list (items.map .text)

def optional {α : Type} (f : α → Json) : Option α → Json
  | none => .null
  | some a => f a

end Json

def Node.toJson (n : Node) : Json := .fields [
  ("id", .text n.id),
  ("name", .text n.name),
  ("kind", .text n.kind.name),
  ("file_path", .text n.path),
  ("line", .whole n.line),
  ("column", .whole n.column),
  ("language", .text n.language.name),
  ("description", Json.optional .text n.description),
  ("exports", Json.texts n.exports),
  ("edit_status", .text n.status.name),
  ("error_message", Json.optional .text n.message),
  ("last_modified", Json.optional .number n.modified)]

def Edge.toJson (e : Edge) : Json := .fields [
  ("source", .text e.source),
  ("target", .text e.target),
  ("relationship", .text e.relationship.name),
  ("names", Json.optional Json.texts e.names)]

def Graph.toJson (g : Graph) : Json := .fields [
  ("nodes", .list (g.nodes.map Node.toJson)),
  ("edges", .list (g.edges.map Edge.toJson)),
  ("root_path", .text g.root),
  ("generated_at", .number g.generatedAt),
  ("languages", Json.texts (g.languages.map (·.name)))]

end ComponentAtlas

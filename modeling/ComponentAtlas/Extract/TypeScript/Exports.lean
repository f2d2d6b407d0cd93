import ComponentAtlas.Source.Basic
import ComponentAtlas.Source.Names

/-!
Which names a TypeScript text exports, and under which names each of them is exported.
-/

namespace ComponentAtlas.TypeScript

open Text Recognizer

/-- Local names in the order of their first export, each with the names it is exported under. -/
abbrev ExportTable := List (String × List String)

/-- One more exported name for a local name; a name already there is not repeated. -/
def ExportTable.add (table : ExportTable) (localName exported : String) : ExportTable :=
  match table with
  | [] => [(localName, [exported])]
  | (n, names) :: rest =>
    if n == localName then
      (n, if names.contains exported then names else names ++ [exported]) :: rest
    else (n, names) :: ExportTable.add rest localName exported

def ExportTable.names (table : ExportTable) (localName : String) : List String :=
  (table.lookup localName).getD []

def wordThenBlanks (words : List String) : Recognizer Unit := do
  anyOf words
  blanks1

/-- `function` with an optional star, whose blanks may be missing. -/
def functionMark : Recognizer Unit := do
  literal "function"
  blanks
  let _ ← optional (exactly '*')
  blanks

def asyncMark : Recognizer Unit := wordThenBlanks ["async"]

def defaultMark : Recognizer Unit := wordThenBlanks ["default"]

structure InlineExport where
  isDefault : Bool
  name : Span

/-- `export default class A`, `export const a` and their kin. -/
def inlineExport : Recognizer InlineExport := do
  wordThenBlanks ["export"]
  let isDefault ← optional defaultMark
  let _ ← optional (wordThenBlanks ["declare"])
  let _ ← optional (wordThenBlanks ["abstract"])
  (do let _ ← optional asyncMark
      functionMark) <|>
    wordThenBlanks ["const", "let", "var", "class", "interface", "type", "enum"]
  let name ← word
  pure ⟨isDefault.isSome, name⟩

/-- `export { a, b as c }` that no source follows. -/
def exportClause : Recognizer Span := do
  literal "export"
  blanks
  exactly '{'
  let names ← captured (many1 (· != '}'))
  exactly '}'
  notFollowedBy (do blanks; literal "from")
  pure names

def isIdentifierStart (c : Char) : Bool :=
  (isUpperLatin c || isLowerLatin c) || c == '_' || c == '$'

/-- A line `export default name`. -/
def defaultExportLine : Recognizer Span := do
  lineStart
  blanks
  wordThenBlanks ["export"]
  wordThenBlanks ["default"]
  notFollowedBy (do
    anyOf ["function", "class", "async", "abstract"]
    wordEdge)
  let name ← captured (do
    let _ ← oneOf isIdentifierStart
    many fun c => isWord c || c == '$')
  blanks
  let _ ← optional (exactly ';')
  blanks
  lineEnd
  pure name

/-- The local and the exported name of one item of a clause. -/
def exportItem? (item : List Char) : Option (String × String) :=
  let pieces := (aliasMark.splitBy (trimChars item)).map trimChars
  let pieces := pieces.filter (!·.isEmpty)
  match pieces.head?, pieces.getLast? with
  | some first, some last => some (String.ofList first, String.ofList last)
  | _, _ => none

/-- Every pair of a local and an exported name, in the order of the forms and of the text. -/
def exportPairs (content : List Char) : List (String × String) :=
  (inlineExport.all content).flatMap (fun m =>
    let name := m.value.name.text
    (name, name) :: if m.value.isDefault then [(name, defaultExport)] else []) ++
  (exportClause.all content).flatMap (fun m => (splitOn ',' m.value.chars).filterMap exportItem?) ++
  (defaultExportLine.all content).map fun m => (m.value.text, defaultExport)

def exportsOf (content : List Char) : ExportTable :=
  (exportPairs content).foldl (fun table (name, exported) => table.add name exported) []

end ComponentAtlas.TypeScript

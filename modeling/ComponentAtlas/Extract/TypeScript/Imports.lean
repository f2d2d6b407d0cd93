import ComponentAtlas.Source.Basic
import ComponentAtlas.Source.Names

/-!
Import and re-export statements of TypeScript and JavaScript. The forms are sought one after
another over the whole text, so the imports come grouped by form.
-/

namespace ComponentAtlas.TypeScript

open Text Recognizer

def isQuote (c : Char) : Bool := c == '\'' || c == '"'

/-- A source between quotes, which need not be of one kind. -/
def quotedSource : Recognizer Span := do
  let _ ← oneOf isQuote
  let source ← captured (many1 (!isQuote ·))
  let _ ← oneOf isQuote
  pure source

def fromSource : Recognizer Span := do
  literal "from"
  blanks
  quotedSource

/-- The mark of imports that bring in types only. -/
def typeMark : Recognizer Unit := do
  literal "type"
  blanks1

/-- A default name in front of other imports. -/
def leadingDefault : Recognizer Span := do
  let name ← word
  blanks
  exactly ','
  blanks
  pure name

def braces : Recognizer Span := do
  exactly '{'
  let names ← captured (many1 (· != '}'))
  exactly '}'
  pure names

structure ImportMatch where
  default? : Option Span
  names : Span
  source : Span

/-- `import D, { a, b as c } from "m"`, the default name being optional. -/
def braceImport : Recognizer ImportMatch := do
  literal "import"
  blanks1
  let _ ← optional typeMark
  let default? ← optional leadingDefault
  let names ← braces
  blanks
  let source ← fromSource
  pure ⟨default?, names, source⟩

/-- `import D from "m"`. -/
def defaultImport : Recognizer ImportMatch := do
  literal "import"
  blanks1
  let _ ← optional typeMark
  notFollowedBy (do literal "type"; wordEdge)
  let name ← word
  blanks1
  let source ← fromSource
  pure ⟨none, name, source⟩

/-- `import D, * as N from "m"`, the default name being optional. -/
def starImport : Recognizer ImportMatch := do
  literal "import"
  blanks1
  let default? ← optional leadingDefault
  exactly '*'
  blanks
  literal "as"
  blanks1
  let name ← word
  blanks1
  let source ← fromSource
  pure ⟨default?, name, source⟩

/-- `export { a, b as c } from "m"`. -/
def braceReexport : Recognizer ImportMatch := do
  literal "export"
  blanks1
  let _ ← optional typeMark
  let names ← braces
  blanks
  let source ← fromSource
  pure ⟨none, names, source⟩

def exportStar : Recognizer Unit := do
  literal "export"
  blanks
  exactly '*'
  blanks

/-- `export * from "m"`. -/
def starReexport : Recognizer Span := do
  exportStar
  fromSource

/-- `export * as N from "m"`. -/
def namedStarReexport : Recognizer ImportMatch := do
  exportStar
  literal "as"
  blanks1
  let name ← word
  blanks1
  let source ← fromSource
  pure ⟨none, name, source⟩

/-- The import of a default name in front of other imports. -/
def ImportMatch.defaultPart (m : ImportMatch) : List ImportStatement :=
  m.default?.toList.map fun d => ⟨m.source.text, [d.text], true, false, false⟩

/-- The name without the mark of a type import. -/
def dropTypeMark (name : String) : String :=
  match afterStart? "type ".toList name.toList with
  | some rest => String.ofList (trimChars rest)
  | none => name

def ofNames (source : String) (isReexport : Bool) (names : List String) : List ImportStatement :=
  if names.isEmpty then [] else [⟨source, names, false, false, isReexport⟩]

def ImportMatch.braceStatements (m : ImportMatch) : List ImportStatement :=
  let names := (splitNameChars .sourceName m.names.chars).map dropTypeMark
  m.defaultPart ++ ofNames m.source.text false (names.filter (· != ""))

def ImportMatch.defaultStatement (m : ImportMatch) : ImportStatement :=
  ⟨m.source.text, [m.names.text], true, false, false⟩

def ImportMatch.starStatements (m : ImportMatch) : List ImportStatement :=
  m.defaultPart ++ [⟨m.source.text, [m.names.text], false, true, false⟩]

def importsOf (content : List Char) : List ImportStatement :=
  (braceImport.all content).flatMap (·.value.braceStatements) ++
  (defaultImport.all content).map (·.value.defaultStatement) ++
  (starImport.all content).flatMap (·.value.starStatements)

def ImportMatch.braceReexports (m : ImportMatch) : List ImportStatement :=
  ofNames m.source.text true (splitNameChars .sourceName m.names.chars)

def reexportsOf (content : List Char) : List ImportStatement :=
  (braceReexport.all content).flatMap (·.value.braceReexports) ++
  (starReexport.all content).map (fun m => ⟨m.value.text, [everything], false, true, true⟩) ++
  (namedStarReexport.all content).map fun m =>
    ⟨m.value.source.text, [m.value.names.text], false, true, true⟩

end ComponentAtlas.TypeScript

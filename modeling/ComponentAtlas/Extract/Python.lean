import ComponentAtlas.Extract.Findings
import ComponentAtlas.Source.Names
import ComponentAtlas.Source.Inheritance

/-!
What a Python text declares at the top level and what it imports. Base classes go into the
description as they stand in the text, with blanks and line breaks joined.
-/

namespace ComponentAtlas.Python

open Text Recognizer

def isDottedPart (c : Char) : Bool := isWord c || c == '.'

/-- Anything on the line before a comment. -/
def beforeComment : Recognizer Span := captured (many1 fun c => c != '#' && c != '\n')

def indent : Recognizer Unit := many fun c => c == ' ' || c == '\t'

structure FromImport where
  module : Span
  names : Span

/-- `from m import names` at the start of a line. -/
def fromImport : Recognizer FromImport := do
  lineStart
  indent
  literal "from"
  blanks1
  let module ← captured (many1 isDottedPart)
  blanks1
  literal "import"
  blanks1
  let names ← beforeComment
  pure ⟨module, names⟩

/-- Names in parentheses after `import`, which may be spread over lines. -/
def parenthesizedNames : Recognizer Span := do
  literal "import"
  blanks
  exactly '('
  let names ← captured (many (· != ')'))
  exactly ')'
  pure names

/-- `import a, b as c` at the start of a line. -/
def plainImport : Recognizer Span := do
  lineStart
  indent
  literal "import"
  blanks1
  beforeComment

structure ClassMatch where
  name : Span
  bases? : Option Span

/-- A class statement at the start of a line. -/
def classStatement : Recognizer ClassMatch := do
  lineStart
  literal "class"
  blanks1
  let name ← word
  let bases? ← optional do
    blanks
    exactly '('
    let bases ← captured (many (· != ')'))
    exactly ')'
    pure bases
  blanks
  exactly ':'
  pure ⟨name, bases?⟩

/-- A function statement at the start of a line. -/
def functionStatement : Recognizer Span := do
  lineStart
  let _ ← optional (do literal "async"; blanks1)
  literal "def"
  blanks1
  let name ← word
  blanks
  exactly '('
  pure name

/-- The path that a module with leading dots denotes, seen from the importing file. One dot is its
own directory, and each further dot is one level up. -/
def moduleSource (module : String) : String :=
  let name := module.toList.dropWhile (· == '.')
  let dots := module.length - name.length
  let way := if name.isEmpty then [] else [String.ofList (replaceChar '.' '/' name)]
  match dots with
  | 0 => module
  | 1 => join "/" ("." :: way)
  | n => join "/" (List.replicate (n - 1) ".." ++ way)

/-- The text up to the first closing parenthesis, which must exist. -/
def upToClose? (s : List Char) : Option (List Char) :=
  (find? [')'] s).map fun n => s.take (n + 1)

/-- The names of a from-import; those in parentheses are read up to the closing one. -/
def FromImport.importedNames (m : Found FromImport) : List String :=
  let names := trimChars m.value.names.chars
  if names.head? == some '(' then
    match upToClose? m.start.rest with
    | none => []
    | some statement =>
      match parenthesizedNames.first? statement with
      | some n => splitNameChars .sourceName n.value.chars
      | none => []
  else splitNameChars .sourceName (trimRightOf (· == '\\') names)

def fromImports (content : List Char) : List ImportStatement :=
  (fromImport.all content).filterMap fun m =>
    match FromImport.importedNames m with
    | [] => none
    | names => some ⟨moduleSource m.value.module.text, names, false, false, false⟩

/-- One item of a plain import; anything but a dotted name is none. -/
def importItem? (item : List Char) : Option ImportStatement :=
  let pieces := (aliasMark.splitBy (trimChars item)).map trimChars
  match pieces with
  | [] => none
  | module :: aliases =>
    if module.isEmpty || !module.all isDottedPart then none
    else
      let name := aliases.head?.getD (lastPiece '.' module)
      some ⟨String.ofList module, [String.ofList name], false, true, false⟩

def plainImports (content : List Char) : List ImportStatement :=
  (plainImport.all content).flatMap fun m => (splitOn ',' m.value.chars).filterMap importItem?

/-- Names with one underscore in front, or two on both sides, are not for use from outside. -/
def isPrivateName (name : List Char) : Bool :=
  let mark := ['_', '_']
  (startsWith mark name && endsWith mark name) || (startsWith ['_'] name && !startsWith mark name)

def topLevel {α : Type} (m : Found α) (name : Span) (kind : Kind) (description : Option String) :
    Candidate :=
  ⟨name.text, kind, m.start.offset, some 0, description, [name.text]⟩

def ClassMatch.description? (c : ClassMatch) : Option String :=
  match c.bases? with
  | none => none
  | some bases =>
    match words bases.chars with
    | [] => none
    | ws => some (extendsMark ++ " " ++ String.ofList (joinChars [' '] ws))

def classes (content : List Char) : List Candidate :=
  (classStatement.all content).map fun m => topLevel m m.value.name .cls m.value.description?

def functions (content : List Char) : List Candidate :=
  (functionStatement.all content).filterMap fun m =>
    if isPrivateName m.value.chars then none else some (topLevel m m.value .function none)

/-- The kind that name and place suggest. -/
def classify (name path : String) : Kind :=
  let h := Hints.of name path
  if h.folderIs ["views"] || h.fileHas "view" then .component
  else if h.folderIs ["models"] || h.fileHas "model" then .cls
  else if h.nameHas ["service"] || h.folderIs ["services"] then .service
  else if h.nameHas ["api", "route"] || h.folderIs ["api", "routes"] then .api
  else if h.nameHas ["util", "helper"] || h.folderIs ["utils", "helpers"] then .util
  else if h.nameHas ["config"] || h.fileHas "config" || h.file == "settings.py".toList then .config
  else if startsWith "test".toList h.name || startsWith "test_".toList h.file then .function
  else .unknown

/-- Everything that is noticed in the text of the file at `path`. -/
def findings (path : String) (content : List Char) : Findings where
  language := .python
  candidates := (classes content ++ functions content).map fun c =>
    { c with kind := classify c.name path }
  imports := fromImports content ++ plainImports content
  failure := none

end ComponentAtlas.Python

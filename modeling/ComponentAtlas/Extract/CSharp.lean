import ComponentAtlas.Extract.Findings
import ComponentAtlas.Source.Inheritance
import ComponentAtlas.Text.Recognizer

/-!
What a C# text declares and uses: classes, interfaces and enumerations. Where a namespace is
declared, a name is exported both bare and qualified by it.
-/

namespace ComponentAtlas.CSharp

open Text Recognizer

def isDottedPart (c : Char) : Bool := isWord c || c == '.'

def indent : Recognizer Unit := many fun c => c == ' ' || c == '\t'

def usingMark : Recognizer Unit := do
  lineStart
  indent
  let _ ← optional (do literal "global"; blanks1)
  literal "using"
  blanks1

/-- `using A.B;` at the start of a line. -/
def usingDirective : Recognizer Span := do
  usingMark
  let _ ← optional (do literal "static"; blanks1)
  let name ← captured (many1 isDottedPart)
  blanks
  exactly ';'
  pure name

/-- `using X = A.B;` at the start of a line; the value is what the alias stands for. -/
def usingAlias : Recognizer Span := do
  usingMark
  let _ ← word
  blanks
  exactly '='
  blanks
  let target ← captured (many1 isDottedPart)
  blanks
  exactly ';'
  pure target

def namespaceMark : Recognizer Span := do
  wordEdge
  literal "namespace"
  blanks1
  captured (many1 isDottedPart)

/-- An attribute in square brackets on one line. -/
def attributeList : Recognizer Unit := do
  exactly '['
  many fun c => c != ']' && c != '\n'
  exactly ']'
  blanks

def modifierNames : List String :=
  ["public", "private", "protected", "internal", "abstract", "sealed", "static", "partial",
    "unsafe", "new", "readonly"]

def modifier : Recognizer Unit := do
  anyOf modifierNames
  blanks1

/-- What stands on the line before the keyword of a declaration, and the keyword. -/
def declarationStart (keyword : String) : Recognizer Unit := do
  lineStart
  indent
  repeated attributeList
  repeated modifier
  literal keyword
  blanks1

structure TypeMatch where
  name : Span
  bases? : Option Span

def beforeBody (c : Char) : Bool := c != '{' && c != ';'

/-- Type parameters, bases and constraints after a name, up to the opening brace. -/
def typeTail : Recognizer (Option Span) := do
  let _ ← optional do
    exactly '<'
    many1 fun c => c != '>' && c != '{'
    exactly '>'
  let bases? ← optional do
    blanks
    exactly ':'
    blanks
    captured (fewest1 beforeBody)
  let _ ← optional do
    blanks1
    literal "where"
    blanks1
    fewest1 beforeBody
  blanks
  exactly '{'
  pure bases?

def classForm : Recognizer TypeMatch := do
  declarationStart "class"
  let name ← word
  let bases? ← typeTail
  pure ⟨name, bases?⟩

/-- Only names in the form of interface names count. -/
def interfaceForm : Recognizer TypeMatch := do
  declarationStart "interface"
  let name ← captured do
    exactly 'I'
    let _ ← oneOf isUpperLatin
    many isWord
  let bases? ← typeTail
  pure ⟨name, bases?⟩

def enumForm : Recognizer Span := do
  declarationStart "enum"
  let name ← word
  let _ ← optional do
    blanks
    exactly ':'
    blanks
    many1 isWord
  blanks
  exactly '{'
  pure name

/-- The text before the word `where`. -/
def beforeConstraints (s : List Char) : List Char :=
  let constraintMark : Recognizer Unit := do
    wordEdge
    literal "where"
    wordEdge
  match constraintMark.first? s with
  | some m => s.take m.start.offset
  | none => s

/-- The items between commas outside of angle brackets, without what the brackets hold. -/
def topLevelItems (depth : Int) (item : List Char) : List Char → List (List Char)
  | [] => [item.reverse]
  | c :: rest =>
    if c == '<' then topLevelItems (depth + 1) item rest
    else if c == '>' then topLevelItems (depth - 1) item rest
    else if depth != 0 then topLevelItems depth item rest
    else if c == ',' then item.reverse :: topLevelItems 0 [] rest
    else topLevelItems depth (c :: item) rest

/-- The last part of each type of a base list, type arguments and constraints apart. -/
def baseNames (s : List Char) : List String :=
  let names := (topLevelItems 0 [] (beforeConstraints s)).map fun item =>
    lastPiece '.' (trimChars item)
  (names.filter (!·.isEmpty)).map String.ofList

/-- A name such as `IDisposable`. -/
def isInterfaceName (name : String) : Bool :=
  match name.toList with
  | 'I' :: c :: _ => isUppercase c
  | _ => false

/-- Base classes and interfaces told apart by their names. -/
def partitionBases (names : List String) : Heritage where
  bases := names.filter (!isInterfaceName ·)
  interfaces := names.filter isInterfaceName

def namespaceOf? (content : List Char) : Option String :=
  (namespaceMark.first? content).map (·.value.text)

def qualifiedNames (name : String) (space : Option String) : List String :=
  match space with
  | none => [name]
  | some space => if space == "" then [name] else [name, space ++ "." ++ name]

/-- The kind that base classes, name and place suggest, else the one that was noticed. -/
def classify (name path : String) (bases : List String) (noticed : Kind) : Kind :=
  let h := Hints.of name path
  if bases.contains "MonoBehaviour" then .component
  else if bases.contains "ScriptableObject" then .config
  else if h.nameHas ["service"] || h.folderIs ["services"] then .service
  else if h.nameHas ["controller"] || h.folderIs ["controllers"] then .api
  else if h.nameHas ["manager", "repository", "repo"] then .service
  else if h.nameHas ["handler"] then .function
  else if h.folderIs ["models", "entities"] then .cls
  else if isInterfaceName name then .type
  else if h.nameHas ["util", "helper"] || h.folderIs ["utils"] then .util
  else if h.nameHas ["config", "settings"] then .config
  else if noticed = .type then .type
  else .cls

/-- How many blanks and tabs stand at the start of a text; nothing but these up to its end is a
failure. -/
def indentLength? : List Char → Option Nat
  | [] => none
  | c :: rest => if c == ' ' || c == '\t' then (indentLength? rest).map (· + 1) else some 0

/-- The first character that is neither blank nor tab from the start of the line of the name on. -/
def lineIndentEnd? (content : List Char) (name : Span) : Option Nat :=
  let lineStart := name.start.offset - lastLineLength (content.take name.start.offset)
  (indentLength? (content.drop lineStart)).map (lineStart + ·)

/-- A text with its path and the namespace that it declares. -/
structure CodeUnit where
  path : String
  content : List Char
  space : Option String

def CodeUnit.of (path : String) (content : List Char) : CodeUnit :=
  ⟨path, content, namespaceOf? content⟩

/-- A declaration as the text has it, before its place and its kind are known. -/
structure Notice where
  name : Span
  noticed : Kind
  bases : List String
  description : Option String

/-- The candidate for a declaration, if its place can be told, with the kind that was noticed. -/
def CodeUnit.candidate? (u : CodeUnit) (n : Notice) : Option Candidate :=
  (lineIndentEnd? u.content n.name).map fun offset => {
    name := n.name.text
    kind := n.noticed
    offset := offset
    column := none
    description := n.description
    exportedNames := qualifiedNames n.name.text u.space }

def CodeUnit.classified? (u : CodeUnit) (n : Notice) : Option Candidate :=
  (u.candidate? n).map fun c => { c with kind := classify c.name u.path n.bases n.noticed }

def TypeMatch.bases (m : TypeMatch) : List String :=
  match m.bases? with
  | some s => baseNames s.chars
  | none => []

def classNotices (content : List Char) : List Notice :=
  (classForm.all content).map fun m =>
    let bases := m.value.bases
    ⟨m.value.name, .cls, bases, (partitionBases bases).description?⟩

/-- Whatever an interface extends counts as a base. -/
def interfaceNotices (content : List Char) : List Notice :=
  (interfaceForm.all content).map fun m =>
    let bases := m.value.bases
    ⟨m.value.name, .type, bases, (Heritage.mk bases []).description?⟩

def enumNotices (content : List Char) : List Notice :=
  (enumForm.all content).map fun m => ⟨m.value, .type, [], none⟩

def notices (content : List Char) : List Notice :=
  classNotices content ++ interfaceNotices content ++ enumNotices content

def lastName (name : List Char) : String := String.ofList (lastPiece '.' name)

def usings (content : List Char) : List ImportStatement :=
  (usingDirective.all content).map (fun m =>
    ⟨m.value.text, [lastName m.value.chars], false, true, false⟩) ++
  (usingAlias.all content).map fun m =>
    ⟨m.value.text, [lastName m.value.chars], false, false, false⟩

/-- Why a place cannot be told. -/
def beyondEnd : String := "string index out of range"

/-- The candidates before the first place that cannot be told. They are not classified then. -/
def CodeUnit.unclassified (u : CodeUnit) : List Candidate :=
  (((notices u.content).map u.candidate?).takeWhile Option.isSome).filterMap id

/-- Everything that is noticed in the text of the file at `path`. -/
def findings (path : String) (content : List Char) : Findings :=
  let u := CodeUnit.of path content
  match (notices content).mapM u.classified? with
  | some candidates => ⟨.csharp, candidates, usings content, none⟩
  | none => ⟨.csharp, u.unclassified, usings content, some beyondEnd⟩

end ComponentAtlas.CSharp

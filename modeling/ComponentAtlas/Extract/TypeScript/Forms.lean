import ComponentAtlas.Extract.TypeScript.Exports

/-!
The forms in which TypeScript and JavaScript declare components, classes and functions.
-/

namespace ComponentAtlas.TypeScript

open Text Recognizer

def exportMark : Recognizer Unit := wordThenBlanks ["export"]

/-- `export` or `export default` in front of a declaration, if it is exported. -/
def exportOrDefaultMark : Recognizer (Option Unit) :=
  optional do
    exportMark
    let _ ← optional defaultMark

/-- A word that starts with a Latin capital. -/
def capitalWord : Recognizer Span :=
  captured do
    let _ ← oneOf isUpperLatin
    many isWord

/-- Type arguments or parameters without angle brackets inside. -/
def typeArguments : Recognizer Unit := do
  exactly '<'
  many (· != '>')
  exactly '>'

/-- Type arguments whose arguments may have type arguments of their own. -/
def nestedTypeArguments : Recognizer Unit := do
  let isPlain (c : Char) : Bool := c != '<' && c != '>'
  let inner : Recognizer Unit := do
    exactly '<'
    many isPlain
    exactly '>'
  exactly '<'
  repeated ((do let _ ← oneOf isPlain) <|> inner)
  exactly '>'

def libraryMark : Recognizer (Option Unit) := optional (literal "React.")

/-- `: FC<Props>` and its kin between the name and the equals sign. -/
def componentTypeClause : Recognizer Unit := do
  exactly ':'
  blanks
  let _ ← libraryMark
  anyOf ["FC", "VFC", "FunctionComponent", "ComponentType"]
  let _ ← optional nestedTypeArguments
  blanks

/-- Parameters in parentheses or a single name. -/
def arrowParameters : Recognizer Unit :=
  (do exactly '('
      many (· != ')')
      exactly ')') <|>
  many1 isWord

/-- `: Type`, as short as what follows allows. -/
def typeClause : Recognizer Unit := do
  exactly ':'
  blanks
  fewest1 (· != '=')

/-- Parameters, a return type if there is one, and the arrow. -/
def arrowHead : Recognizer Unit := do
  let _ ← optional (do typeArguments; blanks)
  arrowParameters
  blanks
  let _ ← optional typeClause
  blanks
  literal "=>"

def bindingMark : Recognizer Unit := wordThenBlanks ["const", "let"]

/-- An arrow function bound to a capital name. -/
def arrowComponent : Recognizer Span := do
  let _ ← optional exportMark
  bindingMark
  let name ← capitalWord
  blanks
  let _ ← optional componentTypeClause
  exactly '='
  blanks
  let _ ← optional asyncMark
  arrowHead
  pure name

/-- A function declaration with a capital name. -/
def functionComponent : Recognizer Span := do
  let _ ← exportOrDefaultMark
  wordThenBlanks ["function"]
  let name ← capitalWord
  blanks
  let _ ← optional typeArguments
  blanks
  exactly '('
  pure name

/-- A class that extends one of the library's component classes. -/
def classComponent : Recognizer Span := do
  let _ ← exportOrDefaultMark
  wordThenBlanks ["class"]
  let name ← word
  let _ ← optional typeArguments
  blanks1
  wordThenBlanks ["extends"]
  let _ ← libraryMark
  anyOf ["Component", "PureComponent"]
  wordEdge
  pure name

/-- A capital name bound to a call of one of the library's wrappers. -/
def wrappedComponent (wrapper : String) : Recognizer Span := do
  let _ ← optional exportMark
  bindingMark
  let name ← capitalWord
  blanks
  exactly '='
  blanks
  let _ ← libraryMark
  literal wrapper
  blanks
  let _ ← optional typeArguments
  blanks
  exactly '('
  pure name

/-- Type parameters that end before the body. -/
def classTypeArguments : Recognizer Unit := do
  exactly '<'
  many fun c => c != '>' && c != '{'
  exactly '>'

structure ClassMatch where
  name : Span
  base? : Option Span
  interfaces? : Option Span

def isInterfaceList (c : Char) : Bool :=
  isWord c || isBlank c || c == '.' || c == ',' || c == '<' || c == '>'

def extendsClause : Recognizer Span := do
  blanks1
  wordThenBlanks ["extends"]
  let base ← captured (many1 fun c => isWord c || c == '.')
  let _ ← optional classTypeArguments
  pure base

def implementsClause : Recognizer Span := do
  blanks1
  wordThenBlanks ["implements"]
  captured (fewest1 isInterfaceList)

/-- A class with its base class and interfaces. -/
def classDeclaration : Recognizer ClassMatch := do
  let _ ← exportOrDefaultMark
  let _ ← optional (wordThenBlanks ["abstract"])
  wordThenBlanks ["class"]
  let name ← word
  let _ ← optional classTypeArguments
  let base? ← optional extendsClause
  let interfaces? ← optional implementsClause
  blanks
  exactly '{'
  pure ⟨name, base?, interfaces?⟩

def exportedFunction : Recognizer Span := do
  exportMark
  let _ ← optional defaultMark
  let _ ← optional asyncMark
  functionMark
  let name ← word
  blanks
  let _ ← optional typeArguments
  blanks
  exactly '('
  pure name

/-- An exported name bound to an arrow function or a function expression. -/
def exportedArrow : Recognizer Span := do
  exportMark
  bindingMark
  let name ← word
  blanks
  let _ ← optional typeClause
  exactly '='
  blanks
  let _ ← optional asyncMark
  arrowHead <|> (do literal "function"; wordEdge)
  pure name

end ComponentAtlas.TypeScript

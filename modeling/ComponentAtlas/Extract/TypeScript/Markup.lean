import ComponentAtlas.Text.Pieces
import ComponentAtlas.Text.Recognizer

/-!
Signs of interface markup in a text, and of component types in a signature.
-/

namespace ComponentAtlas.TypeScript

open Text Recognizer

def endsTagName (c : Char) : Bool := isBlank c || c == '/' || c == '>'

/-- `<Name` followed by a blank, a slash or the end of the tag. -/
def componentTag : Recognizer Unit := do
  exactly '<'
  let _ ← oneOf isUpperLatin
  many isWord
  let _ ← oneOf endsTagName

/-- `</Name>`. -/
def closingComponentTag : Recognizer Unit := do
  literal "</"
  let _ ← oneOf isUpperLatin
  many isWord
  exactly '>'

/-- An opening angle bracket after `mark`, possibly in parentheses. -/
def tagAfter (mark : String) : Recognizer Unit := do
  literal mark
  blanks
  let _ ← optional (exactly '(')
  blanks
  exactly '<'

/-- `<name` followed by a blank, a slash or the end of the tag. -/
def elementTag : Recognizer Unit := do
  exactly '<'
  many1 isLowerLatin
  let _ ← oneOf endsTagName

/-- `<first-second`. -/
def dashedTag : Recognizer Unit := do
  exactly '<'
  many1 isLowerLatin
  exactly '-'
  many1 isLowerLatin

/-- The attribute or property `name`. -/
def property (name : String) : Recognizer Unit := do
  literal name
  let _ ← oneOf fun c => c == '=' || c == ':'

/-- Braces on one line. -/
def bracedLine : Recognizer Unit := do
  exactly '{'
  many (· != '\n')
  exactly '}'

def angled : Recognizer Unit := do
  exactly '<'
  many1 (· != '>')
  exactly '>'

/-- Whether the text looks like it renders markup. -/
def hasMarkup (s : List Char) : Bool :=
  componentTag.occurs s || closingComponentTag.occurs s ||
  (tagAfter "return").occurs s || (tagAfter "=>").occurs s ||
  occursIn ['<', '>'] s || occursIn ['<', '/', '>'] s ||
  elementTag.occurs s || dashedTag.occurs s ||
  (property "className").occurs s || (property "onClick").occurs s ||
  (bracedLine.occurs s && angled.occurs s)

/-- A type after a colon by one of the names, possibly taken from the library's namespace. -/
def typedAs (names : List String) : Recognizer Unit := do
  exactly ':'
  blanks
  let _ ← optional (literal "React.")
  anyOf names

def call (name : String) : Recognizer Unit := do
  literal name
  blanks
  exactly '('

/-- Whether a signature says that it is a component. -/
def isComponentSignature (s : List Char) : Bool :=
  (typedAs ["FC", "FunctionComponent", "ComponentType", "VFC", "PropsWithChildren"]).occurs s ||
  (typedAs ["ReactElement", "ReactNode", "JSX.Element"]).occurs s ||
  (call "memo").occurs s || (call "forwardRef").occurs s

end ComponentAtlas.TypeScript

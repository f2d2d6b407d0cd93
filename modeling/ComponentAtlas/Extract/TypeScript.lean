import ComponentAtlas.Extract.Findings
import ComponentAtlas.Extract.TypeScript.Imports
import ComponentAtlas.Extract.TypeScript.Forms
import ComponentAtlas.Extract.TypeScript.Body
import ComponentAtlas.Extract.TypeScript.Markup
import ComponentAtlas.Source.Inheritance

/-!
What a TypeScript or JavaScript text declares and imports. Components come first, then classes,
then exported functions, so a name that fits several forms is what the earlier form makes of it.
-/

namespace ComponentAtlas.TypeScript

open Text Recognizer

def candidate {α : Type} (m : Found α) (name : Span) (kind : Kind) : Candidate :=
  ⟨name.text, kind, m.start.offset, none, none, []⟩

/-- Arrow functions with markup in their bodies or a component type in their signatures. -/
def arrowComponents (content : List Char) : List Candidate :=
  (arrowComponent.all content).filterMap fun m =>
    if hasMarkup (functionBody false m.start.rest) || isComponentSignature m.span.chars then
      some (candidate m m.value .component)
    else none

def functionComponents (content : List Char) : List Candidate :=
  (functionComponent.all content).filterMap fun m =>
    if hasMarkup (functionBody true m.start.rest) then some (candidate m m.value .component)
    else none

def classComponents (content : List Char) : List Candidate :=
  (classComponent.all content).map fun m => candidate m m.value .component

/-- Wrapped functions with markup or an arrow in what is wrapped. -/
def wrappedComponents (wrapper : String) (content : List Char) : List Candidate :=
  ((wrappedComponent wrapper).all content).filterMap fun m =>
    let body := functionBody false m.start.rest
    if hasMarkup body || occursIn ['=', '>'] body then some (candidate m m.value .component)
    else none

/-- The classes that make a class a component. -/
def componentBases : List String :=
  ["Component", "PureComponent", "React.Component", "React.PureComponent"]

def ClassMatch.heritage (c : ClassMatch) : Heritage where
  bases := c.base?.toList.map (·.text)
  interfaces := match c.interfaces? with
    | some names => splitNameChars .sourceName names.chars
    | none => []

def classes (content : List Char) : List Candidate :=
  (classDeclaration.all content).filterMap fun m =>
    let heritage := m.value.heritage
    if heritage.bases.any componentBases.contains then none
    else some { candidate m m.value.name .cls with description := heritage.description? }

def functions (content : List Char) : List Candidate :=
  (exportedFunction.all content).map (fun m => candidate m m.value .function) ++
  (exportedArrow.all content).map fun m => candidate m m.value .function

def candidates (content : List Char) : List Candidate :=
  arrowComponents content ++ functionComponents content ++ classComponents content ++
  wrappedComponents "memo" content ++ wrappedComponents "forwardRef" content ++
  classes content ++ functions content

/-- A name such as `useState`. -/
def isHookName (name : List Char) : Bool :=
  match afterStart? "use".toList name with
  | some (c :: _) => isUpperLatin c || c.isDigit || c == '_'
  | _ => false

/-- The kind that name and place suggest, else the one that was noticed, else what the text
shows. -/
def classify (name path : String) (content : List Char) (noticed : Kind) : Kind :=
  let h := Hints.of name path
  if isHookName name.toList then .hook
  else if h.nameHas ["context", "provider"] then .context
  else if h.nameHas ["service"] || h.folderIs ["services"] then .service
  else if h.nameHas ["api"] || h.folderIs ["api"] then .api
  else if h.nameHas ["store", "slice", "reducer"] then .store
  else if h.nameHas ["util", "helper"] || h.folderIs ["utils", "helpers"] then .util
  else if endsWith ".d.ts".toList h.file || h.folderIs ["types"] || h.nameHas ["types"] then .type
  else if h.nameHas ["config"] || h.fileHas "config" then .config
  else if noticed = .component || noticed = .function || noticed = .cls then noticed
  else if hasMarkup content then .component
  else .unknown

/-- Everything that is noticed in the text of the file at `path`. -/
def findings (path : String) (content : List Char) (language : Option Language) : Findings where
  language := language.getD .typescript
  candidates :=
    let exported := exportsOf content
    (candidates content).map fun c => { c with
      kind := classify c.name path content c.kind
      exportedNames := exported.names c.name }
  imports := importsOf content ++ reexportsOf content
  failure := none

end ComponentAtlas.TypeScript

import ComponentAtlas.Extract.TypeScript
import ComponentAtlas.Extract.Python
import ComponentAtlas.Extract.CSharp

/-!
Extraction of a file's facts by the extractor of its language. The language is told by the
extension of the path; a path with another extension is refused.
-/

namespace ComponentAtlas

inductive Extractor where
  | typescript
  | python
  | csharp
deriving DecidableEq

namespace Extractor

def languages : Extractor → List Language
  | typescript => [.typescript, .javascript, .react]
  | python => [.python]
  | csharp => [.csharp]

def ofLanguage : Language → Extractor
  | .typescript | .javascript | .react => typescript
  | .python => python
  | .csharp => csharp

def supports (e : Extractor) (language : Language) : Bool := e.languages.contains language

end Extractor

/-- The extensions of source files, in the order in which files are visited. -/
def languageTable : List (String × Language) :=
  [(".ts", .typescript), (".tsx", .react), (".js", .javascript), (".jsx", .react),
    (".py", .python), (".cs", .csharp)]

/-- The language of a file by its extension, in whatever case that is written. -/
def languageOf? (path : String) : Option Language :=
  languageTable.lookup (Text.lower (Path.suffix path))

def Extractor.findings (e : Extractor) (path : String) (content : List Char)
    (language : Option Language) : Findings :=
  match e with
  | typescript => TypeScript.findings path content language
  | python => Python.findings path content
  | csharp => CSharp.findings path content

/-- The facts that `e` finds; where no language is given the one of the path is taken. -/
def Extractor.extract (e : Extractor) (path : String) (content : List Char)
    (language : Option Language) : Extraction :=
  (e.findings path content (language.or (languageOf? path))).toExtraction path content

def unsupported (path : String) : Extraction :=
  ⟨path, [], [], ["Unsupported file type: " ++ Path.suffix path]⟩

/-- The facts of the file at `path` with the given content. -/
def extract (path : String) (content : List Char) : Extraction :=
  match languageOf? path with
  | none => unsupported path
  | some language => (Extractor.ofLanguage language).extract path content (some language)

end ComponentAtlas

import ComponentAtlas.Text.Case
import ComponentAtlas.Text.Lines
import ComponentAtlas.Source.Basic
import ComponentAtlas.Path

/-!
From what an extractor notices in a text to the facts of the file. A name is declared once: of
several candidates with one name the first stays, and a candidate without a name is none.
-/

namespace ComponentAtlas

open Text

/-- A declaration noticed at an offset. Its column is the one of the offset unless stated. -/
structure Candidate where
  name : String
  kind : Kind
  offset : Nat
  column : Option Nat
  description : Option String
  exportedNames : List String

/-- The candidates whose names are neither empty, nor taken, nor had by an earlier one. -/
def claimNames (taken : List String) : List Candidate → List Candidate
  | [] => []
  | c :: rest =>
    if c.name == "" || taken.contains c.name then claimNames taken rest
    else c :: claimNames (c.name :: taken) rest

/-- What an extractor notices, up to the failure that stopped it if there is one. -/
structure Findings where
  language : Language
  candidates : List Candidate
  imports : List ImportStatement
  failure : Option String

def Candidate.declare (path : String) (content : List Char) (language : Language)
    (c : Candidate) : Declaration where
  name := c.name
  kind := c.kind
  path := path
  line := lineNumber content c.offset
  column := c.column.getD (columnNumber content c.offset)
  language := language
  description := c.description
  exportedNames := c.exportedNames

/-- A failure without a message of its own. -/
def unnamedFailure : String := "Parse error"

def failureMessage (message : String) : String := if message == "" then unnamedFailure else message

/-- The facts of a file; a failure keeps what was found before it. -/
def Findings.toExtraction (path : String) (content : List Char) (f : Findings) : Extraction where
  path := path
  declarations := (claimNames [] f.candidates).map (Candidate.declare path content f.language)
  imports := f.imports
  errors := f.failure.toList.map failureMessage

/-- Notices the names at the start of the text and stops. -/
def Findings.failing (names : List String) (message : String) : Findings where
  language := .python
  candidates := names.map fun n => ⟨n, .cls, 0, none, none, []⟩
  imports := []
  failure := some message

/-! Hints that names and places give about the kind of a declaration. -/

/-- The lower-case texts that classification looks at. -/
structure Hints where
  name : List Char
  file : List Char
  folder : List Char

def Hints.of (name path : String) : Hints where
  name := lowerChars name.toList
  file := lowerChars (Path.fileName path).toList
  folder := lowerChars (Path.parentName path).toList

def Hints.nameHas (h : Hints) (parts : List String) : Bool :=
  parts.any fun p => occursIn p.toList h.name

def Hints.fileHas (h : Hints) (part : String) : Bool := occursIn part.toList h.file

def Hints.folderIs (h : Hints) (names : List String) : Bool :=
  names.any fun n => n.toList == h.folder

end ComponentAtlas

import ComponentAtlas.Extract
import ComponentAtlas.Workspace.Exclusion
import ComponentAtlas.Workspace.Tree

/-!
A scan of a workspace: all source files below its root, one extension after another and within one
extension by path, name by name. A scan that is cancelled stops before the next file and keeps what
it has.
-/

namespace ComponentAtlas.Workspace

open Text

/-- Paths are compared name by name, and names by code point. -/
def pathLe : List String → List String → Bool
  | [], _ => true
  | _ :: _, [] => false
  | a :: as, b :: bs => if a == b then pathLe as bs else decide (a < b)

/-- The extensions of source files, in the order in which files are visited. -/
def extensions : List String := languageTable.map (·.1)

def hasExtension (extension : String) (names : Names) : Bool :=
  endsWith extension.toList (names.getLast?.getD "").toList

/-- The files and folders whose names end in an extension, in the order of their paths. -/
def placesNamed (t : Tree) (root : Names) (extension : String) : List Names :=
  ((t.placesBelow root).filter (hasExtension extension)).mergeSort pathLe

/-- The facts of a file with the given bytes. A file that cannot be read has a fault instead. -/
def extractBytes (path : String) (bytes : List UInt8) : Extraction :=
  if (languageOf? path).isNone then unsupported path
  else match readText bytes with
    | .ok content => extract path content
    | .error fault => ⟨path, [], [], [fault.message]⟩

def extractFile (t : Tree) (names : Names) : Extraction :=
  extractBytes (Tree.pathText names) ((t.file? names).getD [])

/-- A signal to stop. It is given before a scan, or by whoever hears the reports of visited files:
`upon` says whether it comes when these reports have been heard. -/
structure Token where
  given : Bool
  upon : List Extraction → Bool

namespace Token

def live : Token := ⟨false, fun _ => false⟩

def cancelled : Token := ⟨true, fun _ => false⟩

def cancelledAfter (files : Nat) : Token := ⟨files == 0, fun heard => files ≤ heard.length⟩

end Token

/-- What a scan has found so far: how many files it visited, what it reported of each of them, and
which of them are results and errors. -/
structure Scan where
  filesScanned : Nat
  reports : List Extraction
  results : List Extraction
  errors : List Extraction

namespace Scan

def start : Scan := ⟨0, [], [], []⟩

/-- Files with facts are results, and files with errors are errors; a file may be both. -/
def add (s : Scan) (e : Extraction) : Scan where
  filesScanned := s.filesScanned + 1
  reports := s.reports ++ [e]
  results := if e.isEmpty then s.results else s.results ++ [e]
  errors := if e.errors.isEmpty then s.errors else s.errors ++ [e]

/-- The paths of the visited files as they were reported. -/
def visited (s : Scan) : List String := s.reports.map (·.path)

end Scan

/-- A scan at work: whether the signal has been given, and what it has found so far. -/
structure Walk where
  cancelled : Bool
  found : Scan

namespace Walk

/-- Takes the steps one after another; before each one the signal may end it all. -/
def steps {α : Type} (step : Walk → α → Walk) (w : Walk) : List α → Walk
  | [] => w
  | a :: rest => if w.cancelled then w else steps step (step w a) rest

/-- Visits the file at `place` and reports it, upon which the signal may be given. -/
def visit (t : Tree) (token : Token) (w : Walk) (place : Names) : Walk :=
  let found := w.found.add (extractFile t place)
  ⟨w.cancelled || token.upon found.reports, found⟩

/-- Passes by a folder and by a file that is left out, and visits any other file. -/
def pass (t : Tree) (root : Names) (patterns : List String) (token : Token) (w : Walk)
    (names : Names) : Walk :=
  if !t.isFile (root ++ names) || isExcluded patterns names then w
  else w.visit t token (root ++ names)

/-- Passes all places of one extension. -/
def passNamed (t : Tree) (root : Names) (patterns : List String) (token : Token) (w : Walk)
    (extension : String) : Walk :=
  w.steps (pass t root patterns token) (placesNamed t root extension)

end Walk

/-- The scan of the workspace at `root`, without the files that the patterns fit. -/
def scan (t : Tree) (root : Names) (patterns : List String) (token : Token) : Scan :=
  let start : Walk := ⟨token.given, Scan.start⟩
  (start.steps (Walk.passNamed t root patterns token) extensions).found

end ComponentAtlas.Workspace

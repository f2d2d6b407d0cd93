import Std.Data.HashMap
import ComponentAtlas.Graph.Basic
import ComponentAtlas.Path

/-!
Nodes placed in files, and the tables by which imports find them: by a path and an exported name,
by the path of the file, and by an exported name alone. Where several nodes fit one path and name,
the first one is found.
-/

namespace ComponentAtlas

variable [Path.WorkingDirectory]

/-- A node with the standard absolute path of its file and the paths under which it is filed. -/
structure Placed where
  node : Node
  file : String
  keys : List String

/-- The standard absolute form of a file's path. -/
def fileKey (path : String) : String := Path.standard (Path.absolute path)

/-- The absolute path, the path from the root, and that without its extension. -/
def filingKeys (root file : String) : List String :=
  let fromRoot := Path.standard (Path.relative file root)
  [file, fromRoot, Path.withoutExtension fromRoot]

/-- The root of a workspace in the form that the graph shows. -/
def rootKey (root : String) : String := Path.standard (Path.resolve root)

/-- `p` after `placed`, unless its file already has a node with its id. -/
def placeNode (placed : List Placed) (p : Placed) : List Placed :=
  if placed.any fun q => q.file == p.file && q.node.id == p.node.id then placed else placed ++ [p]

def placeFile (root : String) (placed : List Placed) (e : Extraction) : List Placed :=
  let file := fileKey e.path
  let keys := filingKeys root file
  (e.declarations.map fun d => Placed.mk (Node.ofDeclaration d) file keys).foldl placeNode placed

/-- All declarations of the files in order, each id once per file. -/
def placeAll (root : String) (files : List Extraction) : List Placed :=
  files.foldl (placeFile root) []

structure Index where
  byExport : Std.HashMap (String × String) Node
  byFile : Std.HashMap String (List Node)
  byName : Std.HashMap String (List Node)

namespace Index

def empty : Index := ⟨∅, ∅, ∅⟩

/-- The first node filed under a path and a name stays. -/
def fileExport (table : Std.HashMap (String × String) Node) (node : Node) (key : String × String) :
    Std.HashMap (String × String) Node :=
  table.insertIfNew key node

def append (table : Std.HashMap String (List Node)) (key : String) (node : Node) :
    Std.HashMap String (List Node) :=
  table.insert key (table.getD key [] ++ [node])

def exportKeys (p : Placed) : List (String × String) :=
  p.node.exports.flatMap fun name => p.keys.map fun key => (key, name)

def add (index : Index) (p : Placed) : Index where
  byExport := (exportKeys p).foldl (fun table key => fileExport table p.node key) index.byExport
  byFile := append index.byFile p.file p.node
  byName := p.node.exports.foldl (fun table name => append table name p.node) index.byName

def ofPlaced (placed : List Placed) : Index := placed.foldl add empty

def exporter? (index : Index) (path name : String) : Option Node := index.byExport[(path, name)]?

def inFile (index : Index) (path : String) : List Node := index.byFile.getD path []

def exporting (index : Index) (name : String) : List Node := index.byName.getD name []

end Index

end ComponentAtlas

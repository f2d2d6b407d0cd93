import ComponentAtlas.Graph.Index

/-!
Resolution of one import statement to the nodes that it brings in. A relative source is tried as
every file that it may denote; what no path leads to is sought by name in the whole workspace, if
that is allowed.
-/

namespace ComponentAtlas

/-- The extensions that a source may leave out, in the order in which they are tried. -/
def sourceExtensions : List String := [".ts", ".tsx", ".js", ".jsx", ".py", ".cs"]

/-- The names of files that stand for their directories. -/
def directoryFiles : List String := ["index", "__init__"]

/-- The paths that a relative source may denote, seen from the importing file. -/
def candidatePaths (source importer : String) : List String :=
  let base := Path.standard (Path.joined (Path.directory importer) source)
  (sourceExtensions ++ [""]).map (base ++ ·) ++
  directoryFiles.flatMap fun file => sourceExtensions.map fun ext => s!"{base}/{file}{ext}"

/-- A node with the names under which it is imported. -/
structure Target where
  node : Node
  names : List String

/-- One more name for the target with the id of `node`; a new id comes last. -/
def addTarget (node : Node) (name : String) : List Target → List Target
  | [] => [⟨node, [name]⟩]
  | t :: rest =>
    if t.node.id == node.id then
      { t with names := if t.names.contains name then t.names else t.names ++ [name] } :: rest
    else t :: addTarget node name rest

def groupTargets (found : List (Node × String)) : List Target :=
  found.foldl (fun targets (node, name) => addTarget node name targets) []

def ImportStatement.wantsAll (i : ImportStatement) (name : String) : Bool :=
  name == everything || i.isNamespace

/-- What `name` denotes in the file at `path`. -/
def nodesInFile (index : Index) (i : ImportStatement) (path name : String) : List Node :=
  if i.wantsAll name then index.inFile path
  else match index.exporter? path name with
    | some node => [node]
    | none => if i.isDefault then (index.exporter? path defaultExport).toList else []

def foundByPath (index : Index) (i : ImportStatement) (importer : String) :
    List (Node × String) :=
  if i.isRelative then
    (candidatePaths i.source importer).flatMap fun path =>
      i.names.flatMap fun name => (nodesInFile index i path name).map (·, name)
  else []

def foundByName (index : Index) (i : ImportStatement) : List (Node × String) :=
  (i.names.filter fun name => name != everything && name != defaultExport).flatMap fun name =>
    (index.exporting name).map (·, name)

/-- The nodes that a statement imports; `byName` allows the search in the whole workspace. -/
def resolve (index : Index) (byName : Bool) (i : ImportStatement) (importer : String) :
    List Target :=
  let found := foundByPath index i importer
  if found.isEmpty && byName then groupTargets (foundByName index i) else groupTargets found

end ComponentAtlas

import ComponentAtlas.Graph.Resolve
import ComponentAtlas.Source.Inheritance

/-!
The graph of a workspace. Every declaration of an importing file is linked to everything that the
file's imports bring in, and every declaration to the first one by the name of each base class and
interface. A link found again adds its names to the edge that is already there.
-/

namespace ComponentAtlas

variable [Path.WorkingDirectory]

/-- A relationship found between two ids. -/
structure Link where
  source : String
  target : String
  relationship : Relationship
  names : Option (List String)

def appendNew (names more : List String) : List String :=
  more.foldl (fun names name => if names.contains name then names else names ++ [name]) names

/-- The names of an edge after a link found again. -/
def mergeNames (old new : Option (List String)) : Option (List String) :=
  match new with
  | none => old
  | some more => some (appendNew (old.getD []) more)

/-- The edges after one more link. No edge leads from an id to itself. -/
def addEdge (edges : List Edge) (l : Link) : List Edge :=
  if l.source == l.target then edges
  else match edges with
    | [] => [⟨l.source, l.target, l.relationship, l.names⟩]
    | e :: rest =>
      if e.key = (l.source, l.target, l.relationship) then
        { e with names := mergeNames e.names l.names } :: rest
      else e :: addEdge rest l

/-- The links of one file's imports. -/
def importLinks (index : Index) (byName : Bool) (e : Extraction) : List Link :=
  let importer := fileKey e.path
  match index.inFile importer with
  | [] => []
  | sources =>
    e.imports.flatMap fun i =>
      let targets := resolve index byName i importer
      sources.flatMap fun source => targets.map fun t =>
        ⟨source.id, t.node.id, .imports, some t.names⟩

/-- The first node of that name with another id. -/
def firstNamed (nodes : List Node) (name exceptId : String) : Option Node :=
  nodes.find? fun n => n.name == name && n.id != exceptId

def heritageLinks (nodes : List Node) (n : Node) : List Link :=
  let h := Heritage.ofDescription n.description
  let link (relationship : Relationship) (name : String) : Option Link :=
    (firstNamed nodes name n.id).map fun t => ⟨n.id, t.id, relationship, none⟩
  h.bases.filterMap (link .extends) ++ h.interfaces.filterMap (link .implements)

def addNew {α : Type} [DecidableEq α] (seen : List α) (a : α) : List α :=
  if a ∈ seen then seen else seen ++ [a]

/-- The graph of the files under `root`, made at the time `now`. -/
def Graph.build (byName : Bool) (files : List Extraction) (root : String) (now : Float) : Graph :=
  let root := rootKey root
  let placed := placeAll root files
  let index := Index.ofPlaced placed
  let nodes := placed.map (·.node)
  let links := files.flatMap (importLinks index byName) ++ nodes.flatMap (heritageLinks nodes)
  { nodes
    edges := links.foldl addEdge []
    root
    generatedAt := now
    languages := (nodes.map (·.language)).foldl addNew [] }

/-- The tables that the graph of the files is built with. -/
def Index.ofFiles (files : List Extraction) (root : String) : Index :=
  Index.ofPlaced (placeAll (rootKey root) files)

end ComponentAtlas

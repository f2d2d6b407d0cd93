import ComponentAtlas.Source.Basic
import ComponentAtlas.Tally

/-!
The component graph: declarations as nodes and their relationships as edges. Ids may repeat and
edges may name ids that no node has; what a function does then follows from its definition.
-/

namespace ComponentAtlas

inductive Relationship where
  | imports
  | exports
  | extends
  | implements
  | uses
  | provides
  | consumes
deriving DecidableEq

namespace Relationship

def all : List Relationship := [imports, exports, .extends, implements, uses, provides, consumes]

def name : Relationship → String
  | imports => "imports"
  | exports => "exports"
  | .extends => "extends"
  | implements => "implements"
  | uses => "uses"
  | provides => "provides"
  | consumes => "consumes"

def named (word : String) : Except UnknownWord Relationship :=
  memberNamed "RelationshipType" name all word

end Relationship

/-- What is being done to a component. -/
inductive EditStatus where
  | idle
  | queued
  | editing
  | completed
  | error
  | skipped
  | manual
deriving DecidableEq

namespace EditStatus

def all : List EditStatus := [idle, queued, editing, completed, error, skipped, manual]

def name : EditStatus → String
  | idle => "idle"
  | queued => "queued"
  | editing => "editing"
  | completed => "completed"
  | error => "error"
  | skipped => "skipped"
  | manual => "manual"

def named (word : String) : Except UnknownWord EditStatus := memberNamed "EditStatus" name all word

end EditStatus

structure Node where
  id : String
  name : String
  kind : Kind
  path : String
  line : Int
  column : Int
  language : Language
  description : Option String
  exports : List String
  status : EditStatus
  message : Option String
  modified : Option Float

def Node.ofDeclaration (d : Declaration) : Node where
  id := d.id
  name := d.name
  kind := d.kind
  path := d.path
  line := d.line
  column := d.column
  language := d.language
  description := d.description
  exports := d.exportedNames
  status := .idle
  message := none
  modified := none

def Node.location (n : Node) : String := s!"{n.path}:{n.line}:{n.column}"

/-- An edge without names is one that names do not apply to. -/
structure Edge where
  source : String
  target : String
  relationship : Relationship
  names : Option (List String)
deriving DecidableEq

/-- The id of the source, the id of the target and the relationship. -/
abbrev EdgeKey := String × String × Relationship

def Edge.key (e : Edge) : EdgeKey := (e.source, e.target, e.relationship)

structure Graph where
  nodes : List Node
  edges : List Edge
  root : String
  generatedAt : Float
  languages : List Language

namespace Graph

def node? (g : Graph) (id : String) : Option Node := g.nodes.find? (·.id == id)

def nodesNamed (g : Graph) (name : String) : List Node := g.nodes.filter (·.name == name)

/-- How many edge ends each id has: the ids of the nodes first, then the other ends of edges. -/
def connectionCounts (g : Graph) : Tally String :=
  let start := g.nodes.foldl (fun t n => t.add n.id 0) Tally.empty
  g.edges.foldl (fun t e => (t.add e.source 1).add e.target 1) start

end Graph

end ComponentAtlas

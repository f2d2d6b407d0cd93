import ComponentAtlas.Graph.Build
import ComponentAtlas.Report
import ComponentAtlas.Settings.Layers
import ComponentAtlas.Status.Overlay
import ComponentAtlas.Workspace.Scan

/-!
Work on one workspace over time. A session keeps the graph of the last scan as it was built and the
edit statuses beside it; what it shows is the graph with the statuses filled in. The files and the
time are given to every operation that needs them.
-/

namespace ComponentAtlas

variable [Path.WorkingDirectory]

structure Session where
  root : Names
  settings : Settings
  overlay : Overlay
  built : Option Graph
  errors : List Extraction

namespace Session

inductive Error where
  | notBuilt
  | unknownNode (id : String)
  | time (e : TimeError)

def Error.message : Error → String
  | .notBuilt => "No component graph has been built yet. Call refresh() first."
  | .unknownNode id => UnknownNode.message ⟨id⟩
  | .time e => e.message

def start (root : Names) (settings : Settings) : Session :=
  ⟨root, settings, Overlay.new none, none, []⟩

def rootPath (s : Session) : String := Tree.pathText s.root

/-- Scans the workspace and builds its graph. Statuses of nodes that are still there stay. -/
def refresh (s : Session) (t : Tree) (token : Workspace.Token) (now : Float) : Session :=
  let scan := Workspace.scan t s.root (s.settings .excludePatterns) token
  let g := Graph.build (s.settings .fallbackResolution) scan.results s.rootPath now
  { s with overlay := s.overlay.bind g, built := some g, errors := scan.errors }

/-- The graph with the statuses filled in. -/
def graph (s : Session) : Except Error Graph :=
  match s.built with
  | none => .error .notBuilt
  | some g => .ok (s.overlay.apply g)

/-- The node with the given id, or else the first one with that name. -/
def find (s : Session) (ref : String) : Except Error Node := do
  let g ← s.graph
  match (g.node? ref).or (g.nodesNamed ref).head? with
  | some n => .ok n
  | none => .error (.unknownNode ref)

def setStatus (s : Session) (id : String) (status : EditStatus) (message : Option String)
    (now : Float) : Except Error Session :=
  match s.built with
  | none => .error .notBuilt
  | some _ =>
    match s.overlay.set id status message now with
    | .ok overlay => .ok { s with overlay }
    | .error e => .error (.unknownNode e.id)

def resetStatuses (s : Session) (keepCompleted : Bool) : Session :=
  { s with overlay := s.overlay.reset keepCompleted }

/-- How far around a node one looks if nothing else is asked for. -/
def usualDepth : Int := 2

/-- No look goes further than the settings allow. -/
def depth (s : Session) (asked : Option Int) : Int :=
  min (asked.getD usualDepth) (s.settings .maxDepth)

def diagram (s : Session) (config : Option Diagram.Config) : Except Error String := do
  return Diagram.draw (← s.graph) (config.getD s.settings.diagram)

def focus (s : Session) (ref : String) (asked : Option Int) : Except Error Graph := do
  let n ← s.find ref
  return (← s.graph).around n.id (s.depth asked)

def focusDiagram (s : Session) (ref : String) (asked : Option Int) : Except Error String := do
  let n ← s.find ref
  return Diagram.drawAround (← s.graph) n.id (s.depth asked) s.settings.diagram

def stats (s : Session) : Except Error Stats := do
  return (← s.graph).stats

def markdown (s : Session) (title : String) : Except Error String := do
  (Report.markdown (← s.graph) title s.settings.diagram).mapError .time

end Session

end ComponentAtlas

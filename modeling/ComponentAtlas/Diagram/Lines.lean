import ComponentAtlas.Diagram.Config
import ComponentAtlas.Diagram.Identifiers
import ComponentAtlas.Diagram.Selection
import ComponentAtlas.Graph.Build
import ComponentAtlas.Graph.Neighbourhood

/-!
A flowchart as a list of lines, each line as what it says, and its text.
-/

namespace ComponentAtlas.Diagram

open Text

variable [Path.WorkingDirectory]

def groupName : Kind → String
  | .component => "Components"
  | .cls => "Classes"
  | .function => "Functions"
  | .module => "Modules"
  | .service => "Services"
  | .hook => "Hooks"
  | .context => "Context"
  | .store => "State"
  | .api => "API"
  | .util => "Utilities"
  | .type => "Types"
  | .config => "Config"
  | .unknown => "Other"

/-- The brackets around a node's label. -/
def shape : Kind → String × String
  | .component | .module | .unknown => ("[", "]")
  | .hook | .function => ("([", "])")
  | .service | .api => ("[[", "]]")
  | .context | .store => ("[(", ")]")
  | .cls => ("[/", "/]")
  | .type | .config => ("\x7b\x7b", "\x7d\x7d")
  | .util => ("(", ")")

def icon? : EditStatus → Option String
  | .idle => none
  | .queued => some "⏳"
  | .editing => some "✏️"
  | .completed => some "✅"
  | .error => some "❌"
  | .skipped => some "⏭️"
  | .manual => some "👤"

def arrow : Relationship → String
  | .imports | .uses => "-->"
  | .exports | .implements => "-.->"
  | .extends => "===>"
  | .provides => "o-->"
  | .consumes => "-->o"

def classDefinitions : List String := [
  "classDef component fill:#61dafb,stroke:#333,stroke-width:2px",
  "classDef service fill:#68d391,stroke:#333,stroke-width:2px",
  "classDef hook fill:#f6ad55,stroke:#333,stroke-width:2px",
  "classDef context fill:#b794f4,stroke:#333,stroke-width:2px",
  "classDef api fill:#fc8181,stroke:#333,stroke-width:2px",
  "classDef util fill:#90cdf4,stroke:#333,stroke-width:2px",
  "classDef editing fill:#fef3c7,stroke:#f59e0b,stroke-width:3px",
  "classDef completed fill:#d1fae5,stroke:#10b981,stroke-width:2px",
  "classDef error fill:#fee2e2,stroke:#ef4444,stroke-width:2px",
  "classDef queued fill:#e5e7eb,stroke:#6b7280,stroke-width:2px,stroke-dasharray: 5 5"]

/-- Classes of nodes by kind, in the order of their lines. -/
def kindClasses : List (String × List Kind) :=
  [("component", [.component]), ("service", [.service]), ("hook", [.hook]),
    ("context", [.context, .store]), ("api", [.api]), ("util", [.util])]

/-- Statuses with a class of their own. Their lines come last, so they win. -/
def statusClasses : List EditStatus := [.editing, .completed, .error, .queued]

inductive Line where
  | theme (theme : Theme)
  | heading (direction : Direction)
  | blank
  | groupStart (kind : Kind)
  | node (identifier : String) (node : Node)
  | groupEnd
  | remark (title : String)
  | link (source target : String) (edge : Edge) (labelled : Bool)
  | click (identifier : String) (node : Node) (path : String)
  | classDefinition (text : String)
  | members (identifiers : List String) (className : String)

/-- A label cannot hold a double quote. -/
def label (s : String) : String :=
  String.ofList (s.toList.flatMap fun c => if c == '"' then "#quot;".toList else [c])

/-- The status and the name of a node. -/
def caption (n : Node) : String :=
  match icon? n.status with
  | some icon => icon ++ " " ++ n.name
  | none => n.name

/-- The first three names, with dots where there are more. -/
def namesLabel (names : List String) : String :=
  join ", " (names.take 3) ++ if 3 < names.length then "..." else ""

def linkText (source target : String) (e : Edge) (labelled : Bool) : String :=
  let plain := source ++ " " ++ arrow e.relationship ++ " " ++ target
  match labelled, e.names with
  | true, some (n :: more) =>
    source ++ " " ++ arrow e.relationship ++ "|\"" ++ label (namesLabel (n :: more)) ++ "\"| " ++
      target
  | _, _ => plain

def Line.text : Line → String
  | .theme t => "%%\x7binit: \x7b'theme': '" ++ t.name ++ "'\x7d\x7d%%"
  | .heading d => "flowchart " ++ d.name
  | .blank => ""
  | .groupStart kind => "  subgraph " ++ groupName kind
  | .node identifier n =>
    "    " ++ identifier ++ (shape n.kind).1 ++ "\"" ++ label (caption n) ++ "\"" ++
      (shape n.kind).2
  | .groupEnd => "  end"
  | .remark title => "  %% " ++ title
  | .link source target e labelled => "  " ++ linkText source target e labelled
  | .click identifier n path =>
    "  click " ++ identifier ++ " \"vscode://file/" ++ n.path ++ ":" ++ toString n.line ++
      "\" \"" ++ path ++ "\""
  | .classDefinition text => "  " ++ text
  | .members identifiers className => "  class " ++ join "," identifiers ++ " " ++ className

/-- The path of a file as seen from the root, where there is a root and a path. -/
def shownPath (path root : String) : String :=
  if root == "" || path == "" then path else Path.forwardSlashes (Path.relative path root)

def themeLines (config : Config) : List Line :=
  if config.theme = .plain then [] else [.theme config.theme]

/-- The ids in the order in which they get their identifiers: nodes first, then ends of edges. -/
def identifiersOf (s : Graph.Selection) : Identifiers :=
  Identifiers.ofList (s.nodes.map (·.id) ++ s.edges.flatMap fun e => [e.source, e.target])

/-- One block per kind, in the order in which the kinds are first seen. -/
def groupLines (ids : Identifiers) (nodes : List Node) : List Line :=
  ((nodes.map (·.kind)).foldl addNew []).flatMap fun kind =>
    .groupStart kind :: (nodes.filter (·.kind = kind)).map (fun n => .node (ids.get n.id) n) ++
      [.groupEnd, .blank]

def linkLines (ids : Identifiers) (edges : List Edge) (labelled : Bool) : List Line :=
  edges.map fun e => .link (ids.get e.source) (ids.get e.target) e labelled

def clickLines (ids : Identifiers) (nodes : List Node) (root : String) : List Line :=
  nodes.map fun n => .click (ids.get n.id) n (shownPath n.path root)

def memberLine (ids : Identifiers) (className : String) (members : List Node) : List Line :=
  if members.isEmpty then [] else [.members (members.map fun n => ids.get n.id) className]

def classLines (ids : Identifiers) (nodes : List Node) : List Line :=
  kindClasses.flatMap (fun (className, kinds) =>
    memberLine ids className (nodes.filter fun n => kinds.contains n.kind)) ++
  statusClasses.flatMap fun status =>
    memberLine ids status.name (nodes.filter (·.status = status))

/-- The lines of the diagram of a graph. -/
def lines (g : Graph) (config : Config) : List Line :=
  let s := g.select config.maxNodes
  let ids := identifiersOf s
  themeLines config ++ [.heading config.direction, .blank] ++
  groupLines ids s.nodes ++
  [.remark "Relationships"] ++ linkLines ids s.edges config.showLabels ++
  [.blank, .remark "Click handlers"] ++ clickLines ids s.nodes g.root ++
  [.blank, .remark "Styling"] ++ classDefinitions.map .classDefinition ++
  classLines ids s.nodes

def draw (g : Graph) (config : Config) : String :=
  join "\n" ((lines g config).map Line.text)

/-- The diagram of the part of a graph around one node. -/
def drawAround (g : Graph) (focus : String) (hops : Int) (config : Config) : String :=
  draw (g.around focus hops) config

end ComponentAtlas.Diagram

import ComponentAtlas.Calendar
import ComponentAtlas.Diagram.Lines
import ComponentAtlas.Graph.Stats

/-!
The report on a graph as Markdown: its diagram, its counts, and when it was made.
-/

namespace ComponentAtlas.Report

open Text

variable [Path.WorkingDirectory]

def defaultTitle : String := "Component Map"

def kindCounts (g : Graph) : String :=
  join "\n" ((Tally.ofList (g.nodes.map (·.kind))).map fun (kind, n) =>
    s!"- **{Diagram.groupName kind}**: {n}")

def body (g : Graph) (title generated : String) (config : Diagram.Config) : String :=
  let stats := g.stats
  let languages := join ", " (g.languages.map (·.name))
  s!"# {title}\n\n" ++
  s!"Generated: {generated}\n\n" ++
  "## Component Diagram\n\n" ++
  "```mermaid\n" ++
  s!"{Diagram.draw g config}\n" ++
  "```\n\n" ++
  "## Statistics\n\n" ++
  s!"- **Total Components**: {stats.nodes}\n" ++
  s!"- **Total Relationships**: {stats.edges}\n" ++
  s!"- **Languages**: {languages}\n" ++
  s!"- **Average Connections**: {Decimal.text stats.averageConnections}\n\n" ++
  "## Components by Type\n\n" ++
  s!"{kindCounts g}\n"

/-- The report, where the time of the graph has a date. -/
def markdown (g : Graph) (title : String) (config : Diagram.Config) : Except TimeError String :=
  (showTime g.generatedAt).map fun generated => body g title generated config

end ComponentAtlas.Report

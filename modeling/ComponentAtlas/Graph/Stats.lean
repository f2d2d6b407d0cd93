import ComponentAtlas.Graph.Basic
import ComponentAtlas.Decimal.Shortest

/-!
Counts over a graph.
-/

namespace ComponentAtlas

structure Stats where
  nodes : Nat
  edges : Nat
  byKind : Tally Kind
  byLanguage : Tally Language
  averageConnections : Float

/-- The edge ends at the nodes of the graph, a repeated id counting for each of its nodes. -/
def Graph.connectionTotal (g : Graph) : Nat :=
  let counts := g.connectionCounts
  g.nodes.foldl (fun total n => total + counts.count n.id) 0

/-- The edge ends per node, to two places. -/
def Graph.averageConnections (g : Graph) : Float :=
  if g.nodes.isEmpty then 0.0
  else Decimal.roundToHundredths (g.connectionTotal.toFloat / g.nodes.length.toFloat)

def Graph.stats (g : Graph) : Stats where
  nodes := g.nodes.length
  edges := g.edges.length
  byKind := Tally.ofList (g.nodes.map (·.kind))
  byLanguage := Tally.ofList (g.nodes.map (·.language))
  averageConnections := g.averageConnections

end ComponentAtlas

import ComponentAtlas.Graph.Basic

/-!
The nodes that a diagram shows where the graph has too many: those with the most connections, and
of equally connected ones the earlier.
-/

namespace ComponentAtlas.Graph

structure Selection where
  nodes : List Node
  edges : List Edge

/-- The nodes from the best connected down, equally connected ones in their order. -/
def ranked (g : Graph) : List Node :=
  let counts := g.connectionCounts
  let scored := g.nodes.map fun n => (n, counts.count n.id)
  (scored.mergeSort fun a b => b.2 ≤ a.2).map (·.1)

/-- How many nodes of `total` a cap keeps. A cap below zero leaves out that many. -/
def capSize (total : Nat) (cap : Int) : Nat :=
  if cap < 0 then total - cap.natAbs else cap.toNat

/-- The best connected nodes up to the cap, in the order of the graph, with the edges among them.
A graph within the cap is kept as it is. -/
def select (g : Graph) (cap : Int) : Selection :=
  if g.nodes.length ≤ cap then ⟨g.nodes, g.edges⟩
  else
    let keep := (g.ranked.take (capSize g.nodes.length cap)).map (·.id)
    ⟨g.nodes.filter fun n => keep.contains n.id,
      g.edges.filter fun e => keep.contains e.source && keep.contains e.target⟩

end ComponentAtlas.Graph

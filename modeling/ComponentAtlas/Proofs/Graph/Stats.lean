import ComponentAtlas.Graph.Stats
import ComponentAtlas.Proofs.Diagram.Selection
import ComponentAtlas.Proofs.Tally

/-!
What the counts over a graph add up to. Every edge adds two ends, so the ends that all ids have are
twice the edges, also where edges name ids that no node has or lead back to where they start. Going
over the nodes instead gives the same sum only where no two nodes share an id and every end is one
of a node: only then are the ids that have ends those of the nodes.
-/

namespace ComponentAtlas

section Ends

/-- Both ends of every edge, the source first. -/
def Graph.ends (g : Graph) : List String := g.edges.flatMap fun e => [e.source, e.target]

@[simp]
theorem length_ends (g : Graph) : g.ends.length = 2 * g.edges.length := by
  rw [Graph.ends, List.length_flatMap]
  simp [Nat.mul_comm]

theorem degree_eq (g : Graph) (id : String) :
    g.degree id = g.edges.countP (·.source = id) + g.edges.countP (·.target = id) := by
  rw [Graph.degree]
  induction g.edges with
  | nil => rfl
  | cons e es ih =>
      simp only [List.flatMap_cons, List.count_append, ih, List.countP_cons, List.count_cons,
        List.count_nil, beq_iff_eq, decide_eq_true_eq]
      omega

theorem connectionCounts_eq_table (g : Graph) :
    g.connectionCounts = (Tally.counting String).table
      ((g.nodes.map (·.id)).map (fun id => (id, 0)) ++ g.ends.map fun id => (id, 1)) := by
  rw [← Tally.foldl_add_eq_table, List.foldl_append, List.foldl_map, List.foldl_map, List.foldl_map,
    Graph.ends, List.foldl_flatMap]
  rfl

/-- The ids of the nodes have a row each, and so has every other end of an edge. -/
theorem connectionCounts_eq (g : Graph) :
    g.connectionCounts = (g.nodes.map (·.id) ++ g.ends).eraseDups.map fun id =>
      (id, g.degree id) := by
  rw [connectionCounts_eq_table, Tally.table_counting, List.map_append, Tally.map_fst_counted,
    Tally.map_fst_counted]
  refine List.map_congr_left fun id _ => ?_
  rw [List.filter_append, List.map_append, List.sum_append, Tally.sum_filter_counted,
    Tally.sum_filter_counted, Graph.degree, ← Graph.ends]
  simp

theorem connectionCounts_sum (g : Graph) :
    (g.connectionCounts.map Prod.snd).sum = 2 * g.edges.length := by
  rw [connectionCounts_eq_table, Tally.sum_table, List.map_append, List.sum_append,
    Tally.sum_counted, Tally.sum_counted]
  simp

end Ends

section Average

variable {g : Graph} (distinct : (g.nodes.map (·.id)).Nodup)
  (joined : ∀ e ∈ g.edges, e.source ∈ g.nodes.map (·.id) ∧ e.target ∈ g.nodes.map (·.id))

theorem connectionTotal_eq (g : Graph) :
    g.connectionTotal = ((g.nodes.map (·.id)).map g.degree).sum := by
  rw [Graph.connectionTotal, List.sum_eq_foldl, List.foldl_map, List.foldl_map]
  simp only [connectionCounts_count]

include distinct joined

/-- No id has ends but those of the nodes. -/
theorem connectionCounts_of_joined :
    g.connectionCounts = (g.nodes.map (·.id)).map fun id => (id, g.degree id) := by
  have known : ∀ id ∈ g.ends, id ∈ g.nodes.map (·.id) := by
    intro id member
    obtain ⟨e, he, side⟩ := List.mem_flatMap.mp member
    rw [List.mem_pair] at side
    exact side.elim (fun same => same ▸ (joined e he).1) fun same => same ▸ (joined e he).2
  have none_else : g.ends.removeAll (g.nodes.map (·.id)) = [] := by
    refine List.filter_eq_nil_iff.mpr fun id member => ?_
    simpa using known id member
  rw [connectionCounts_eq, List.eraseDups_append, none_else, eraseDups_of_nodup distinct,
    List.eraseDups_nil, List.append_nil]

/-- The ends at the nodes are twice the edges. -/
theorem connectionTotal_of_joined : g.connectionTotal = 2 * g.edges.length := by
  have ends : (g.connectionCounts.map Prod.snd).sum = g.connectionTotal := by
    rw [connectionCounts_of_joined distinct joined, List.map_map, connectionTotal_eq]
    rfl
  rw [← ends, connectionCounts_sum]

end Average

/-- Ids are counted in the order in which they are first named, by nodes and then by edges, each
with the edges that leave it and those that enter it, and all counts together are twice the edges.
Kinds and languages are counted in the order of their first nodes, and all of each are the nodes.
Where no two nodes share an id and edges join nodes, the total behind the average is twice the edges
too. -/
theorem stats_add_up (g : Graph) :
    (g.connectionCounts = (g.nodes.map (·.id) ++ g.ends).eraseDups.map fun id =>
        (id, g.edges.countP (·.source = id) + g.edges.countP (·.target = id))) ∧
      (g.connectionCounts.map (·.2)).sum = 2 * g.edges.length ∧
      (g.stats.byKind = (g.nodes.map (·.kind)).eraseDups.map fun kind =>
        (kind, g.nodes.countP (·.kind = kind))) ∧
      (g.stats.byKind.map (·.2)).sum = g.stats.nodes ∧
      (g.stats.byLanguage = (g.nodes.map (·.language)).eraseDups.map fun language =>
        (language, g.nodes.countP (·.language = language))) ∧
      (g.stats.byLanguage.map (·.2)).sum = g.stats.nodes ∧
      ((g.nodes.map (·.id)).Nodup →
        (∀ e ∈ g.edges, e.source ∈ g.nodes.map (·.id) ∧ e.target ∈ g.nodes.map (·.id)) →
        g.connectionTotal = 2 * g.edges.length ∧
          (g.nodes ≠ [] → g.stats.averageConnections = Decimal.roundToHundredths
            ((2 * g.edges.length).toFloat / g.nodes.length.toFloat))) := by
  refine ⟨?_, connectionCounts_sum g, ?_, ?_, ?_, ?_, ?_⟩
  · rw [connectionCounts_eq]
    simp only [degree_eq]
  · exact Tally.ofList_map_eq _ g.nodes
  · exact (Tally.sum_ofList _).trans (List.length_map _)
  · exact Tally.ofList_map_eq _ g.nodes
  · exact (Tally.sum_ofList _).trans (List.length_map _)
  · intro distinct joined
    have total := connectionTotal_of_joined distinct joined
    refine ⟨total, fun some_node => ?_⟩
    rw [Graph.stats, Graph.averageConnections, total, if_neg]
    rwa [List.isEmpty_iff]

/-- Two edges among three functions, one of them from a function to itself. -/
theorem stats_add_up_looped :
    (selfReferring.nodes.map (·.id)).Nodup ∧
      (∀ e ∈ selfReferring.edges, e.source ∈ selfReferring.nodes.map (·.id) ∧
        e.target ∈ selfReferring.nodes.map (·.id)) ∧
      selfReferring.connectionCounts = [("fizz", 1), ("hub", 2), ("buzz", 1)] ∧
      selfReferring.stats.byKind = [(.function, 3)] ∧ selfReferring.connectionTotal = 4 := by
  have distinct : (selfReferring.nodes.map (·.id)).Nodup := by decide
  have joined : ∀ e ∈ selfReferring.edges, e.source ∈ selfReferring.nodes.map (·.id) ∧
      e.target ∈ selfReferring.nodes.map (·.id) := by decide
  obtain ⟨counts, _, kinds, _, _, _, average⟩ := stats_add_up selfReferring
  refine ⟨distinct, joined, ?_, ?_, (average distinct joined).1⟩
  · rw [counts]
    decide
  · rw [kinds]
    decide

end ComponentAtlas

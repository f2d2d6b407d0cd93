import ComponentAtlas.Proofs.Diagram.Focus

/-!
What a cap keeps of a graph. Ranking before is a strict order in which any two nodes compare, so
whatever is kept ranks before whatever is dropped; and the edges that stay are those among the nodes
that are kept, also where edges name ids that no node has.
-/

namespace ComponentAtlas

section Order

variable {g : Graph}

theorem Graph.RanksBefore.trans {k m n : Node} (first : g.RanksBefore k m)
    (second : g.RanksBefore m n) : g.RanksBefore k n := by
  unfold Graph.RanksBefore at *
  omega

theorem position_lt_iff (distinct : (g.nodes.map (·.id)).Nodup) {m n : Node} (hm : m ∈ g.nodes)
    (hn : n ∈ g.nodes) : g.position m.id < g.position n.id ↔ [m, n].Sublist g.nodes := by
  constructor
  · intro before
    have apart : m ≠ n := by
      rintro rfl
      exact Nat.lt_irrefl _ before
    refine (sublist_or_sublist hm hn apart).resolve_right fun swapped => ?_
    exact Nat.lt_asymm before (idxOf_lt_of_sublist distinct (swapped.map Node.id))
  · intro pair
    exact idxOf_lt_of_sublist distinct (pair.map Node.id)

theorem ranksBefore_or_ranksBefore (distinct : (g.nodes.map (·.id)).Nodup) {m n : Node}
    (hm : m ∈ g.nodes) (hn : n ∈ g.nodes) (apart : m ≠ n) :
    g.RanksBefore m n ∨ g.RanksBefore n m := by
  have places := sublist_or_sublist hm hn apart
  rw [← position_lt_iff distinct hm hn, ← position_lt_iff distinct hn hm] at places
  unfold Graph.RanksBefore
  omega

/-- Fewer nodes rank before one that ranks before another. -/
theorem ahead_length_le {m n : Node} (h : g.RanksBefore m n) :
    (g.ahead m).length ≤ (g.ahead n).length := by
  refine (List.monotone_filter_right g.nodes fun k before => ?_).length_le
  exact decide_eq_true ((of_decide_eq_true before : g.RanksBefore k m).trans h)

theorem kept_ranksBefore (distinct : (g.nodes.map (·.id)).Nodup) {cap : ℕ} {a b : Node}
    (ha : a ∈ g.kept cap) (hb : b ∈ g.nodes) (dropped : b ∉ g.kept cap) : g.RanksBefore a b := by
  rw [Graph.kept, List.mem_filter, decide_eq_true_eq] at ha dropped
  have apart : a ≠ b := by
    rintro rfl
    exact dropped ha
  refine (ranksBefore_or_ranksBefore distinct ha.1 hb apart).resolve_right fun before => ?_
  exact dropped ⟨hb, (ahead_length_le before).trans_lt ha.2⟩

end Order

section Selection

/-- As many nodes as the graph has and the cap allows are kept, in the order of the graph. One that
is kept has more edge ends than one that is dropped, or as many and an earlier place. Where
something is dropped, the edges with both ends kept stay in their order, and where nothing is, all
edges do. -/
theorem select_keeps_best {g : Graph} (distinct : (g.nodes.map (·.id)).Nodup) (cap : ℕ) :
    let kept := (g.select cap).nodes
    kept.Sublist g.nodes ∧ kept.length = min g.nodes.length cap ∧
      (∀ a ∈ kept, ∀ b ∈ g.nodes, b ∉ kept →
        g.degree b.id < g.degree a.id ∨
          g.degree b.id = g.degree a.id ∧ [a, b].Sublist g.nodes) ∧
      (g.select cap).edges =
        if cap < g.nodes.length then
          g.edges.filter fun e => e.source ∈ kept.map (·.id) ∧ e.target ∈ kept.map (·.id)
        else g.edges := by
  dsimp only
  rw [select_nodes distinct]
  refine ⟨List.filter_sublist, ?_, ?_, ?_⟩
  · rw [kept_length distinct, Nat.min_comm]
  · intro a ha b hb dropped
    rw [← position_lt_iff distinct (List.mem_filter.mp ha).1 hb]
    exact kept_ranksBefore distinct ha hb dropped
  · split
    · rename_i cut
      exact select_edges_of_cut distinct cut
    · rename_i fits
      rw [select_of_fits (Nat.le_of_not_lt fits)]

/-- Three functions, of which one refers to itself and so has two edge ends. -/
def selfReferring : Graph where
  nodes := ["fizz", "hub", "buzz"].map Diagram.functionNode
  edges := [⟨"hub", "hub", .uses, none⟩, ⟨"fizz", "buzz", .imports, some ["buzz"]⟩]
  root := "/proj"
  generatedAt := 0
  languages := [.typescript]

/-- With room for two, the tie between the other two is broken for the earlier one, and only the
edge of the best connected one to itself stays. -/
theorem select_keeps_best_tied :
    let kept := (selfReferring.select (2 : ℕ)).nodes
    (selfReferring.nodes.map (·.id)).Nodup ∧ kept.map (·.id) = ["fizz", "hub"] ∧
      [Diagram.functionNode "fizz", Diagram.functionNode "buzz"].Sublist selfReferring.nodes ∧
      (selfReferring.select (2 : ℕ)).edges = [⟨"hub", "hub", .uses, none⟩] := by
  have distinct : (selfReferring.nodes.map (·.id)).Nodup := by decide
  obtain ⟨_, _, best, edges⟩ := select_keeps_best distinct 2
  have ids : (selfReferring.select (2 : ℕ)).nodes.map (·.id) = ["fizz", "hub"] := by
    rw [select_nodes distinct]
    decide +kernel
  refine ⟨distinct, ids, ?_, ?_⟩
  · have kept : Diagram.functionNode "fizz" ∈ (selfReferring.select (2 : ℕ)).nodes := by
      rw [mem_select_nodes distinct List.mem_cons_self]
      decide +kernel
    have dropped : Diagram.functionNode "buzz" ∉ (selfReferring.select (2 : ℕ)).nodes := by
      intro member
      have id := List.mem_map_of_mem (f := (·.id)) member
      rw [ids] at id
      exact absurd id (by decide)
    have tied : ¬ selfReferring.degree "buzz" < selfReferring.degree "fizz" := by decide +kernel
    have known : Diagram.functionNode "buzz" ∈ selfReferring.nodes := by simp [selfReferring]
    exact ((best _ kept _ known dropped).resolve_left tied).2
  · rw [edges, ids, if_pos (by decide)]
    decide

end Selection

end ComponentAtlas

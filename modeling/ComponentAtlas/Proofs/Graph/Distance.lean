import Mathlib.Combinatorics.SimpleGraph.Metric
import ComponentAtlas.Graph.Neighbourhood

/-!
Neighbourhoods and distance. Edges passed in both directions make an undirected graph on all ids
that edges name. The search with a queue finds what a search by layers finds, and that is exactly
the ids within a distance of its start. The part of a graph around a node is therefore told by
distance alone.
-/

namespace ComponentAtlas

section Distance

variable {V : Type} {G : SimpleGraph V}

theorem edist_le_iff_walk {u v : V} {k : ℕ} :
    G.edist u v ≤ k ↔ ∃ p : G.Walk u v, p.length ≤ k := by
  constructor
  · intro near
    have finite : G.edist u v ≠ ⊤ := ne_top_of_le_ne_top (ENat.natCast_ne_top k) near
    obtain ⟨p, hp⟩ := G.exists_walk_of_edist_ne_top finite
    exact ⟨p, by rwa [← hp, Nat.cast_le] at near⟩
  · rintro ⟨p, hp⟩
    exact (G.edist_le p).trans (Nat.cast_le.mpr hp)

theorem edist_le_zero_iff {u v : V} : G.edist u v ≤ (0 : ℕ) ↔ u = v := by
  rw [Nat.cast_zero, nonpos_iff_eq_zero, SimpleGraph.edist_eq_zero_iff]

/-- What lies within one more edge is the start itself or lies within the rest of a neighbour. -/
theorem edist_le_succ_iff {u w : V} {k : ℕ} :
    G.edist u w ≤ (k + 1 : ℕ) ↔ u = w ∨ ∃ v, G.Adj u v ∧ G.edist v w ≤ k := by
  simp only [edist_le_iff_walk]
  constructor
  · rintro ⟨p, hp⟩
    cases p with
    | nil => exact .inl rfl
    | cons step rest => exact .inr ⟨_, step, rest, Nat.le_of_succ_le_succ hp⟩
  · rintro (rfl | ⟨v, step, rest, hrest⟩)
    · exact ⟨.nil, Nat.zero_le _⟩
    · exact ⟨.cons step rest, Nat.succ_le_succ hrest⟩

end Distance

/-- The ids as points; the two ends of an edge are joined, whichever way the edge leads. -/
def endGraph (edges : List Edge) : SimpleGraph String :=
  SimpleGraph.fromRel fun a b => ∃ e ∈ edges, e.source = a ∧ e.target = b

section Layers

/-- The neighbours of seen ids that are not seen yet, each once. -/
def newNeighbours (edges : List Edge) (seen : List String) : List String :=
  ((seen.flatMap (neighbours edges)).filter (!seen.contains ·)).eraseDups

/-- The ids that at most `hops` edges lead to from an id of `seen`, one layer after the other. -/
def reach (edges : List Edge) : ℕ → List String → List String
  | 0, seen => seen
  | hops + 1, seen => reach edges hops (seen ++ newNeighbours edges seen)

theorem mem_neighbours {edges : List Edge} {u v : String} :
    v ∈ neighbours edges u ↔
      ∃ e ∈ edges, e.source = u ∧ e.target = v ∨ e.target = u ∧ e.source = v := by
  have each : ∀ end₁ end₂ : String, v ∈ (if end₁ == u then [end₂] else []) ↔
      end₁ = u ∧ end₂ = v := by
    intro end₁ end₂
    by_cases h : end₁ = u
    · rw [if_pos (beq_iff_eq.mpr h), List.mem_singleton, and_iff_right h, eq_comm]
    · rw [if_neg (by simpa using h)]
      exact iff_of_false List.not_mem_nil fun both => h both.1
  simp only [neighbours, List.mem_flatMap, List.mem_append, each]

theorem adj_iff_mem_neighbours {edges : List Edge} {u v : String} (apart : u ≠ v) :
    (endGraph edges).Adj u v ↔ v ∈ neighbours edges u := by
  rw [mem_neighbours, endGraph, SimpleGraph.fromRel_adj, and_iff_right apart, ← exists_or]
  refine exists_congr fun e => ?_
  rw [← and_or_left, and_comm (a := e.source = v)]

theorem mem_newNeighbours {edges : List Edge} {seen : List String} {v : String} :
    v ∈ newNeighbours edges seen ↔ v ∉ seen ∧ ∃ u ∈ seen, v ∈ neighbours edges u := by
  rw [newNeighbours, List.mem_eraseDups, List.mem_filter, List.mem_flatMap, and_comm]
  simp only [Bool.not_eq_true', List.contains_eq_mem, decide_eq_false_iff_not]

/-- The layers find what lies within `hops` of something seen. The ids seen before and those of the
next layer together lie within one edge of the former, which carries the induction. -/
theorem mem_reach (edges : List Edge) (hops : ℕ) (seen : List String) (v : String) :
    v ∈ reach edges hops seen ↔ ∃ u ∈ seen, (endGraph edges).edist u v ≤ hops := by
  induction hops generalizing seen with
  | zero => simp only [reach, edist_le_zero_iff, exists_eq_right]
  | succ hops ih =>
      rw [reach, ih]
      constructor
      · rintro ⟨u, hu, near⟩
        rcases List.mem_append.mp hu with old | new
        · exact ⟨u, old, near.trans (Nat.cast_le.mpr hops.le_succ)⟩
        · obtain ⟨unseen, s, hs, step⟩ := mem_newNeighbours.mp new
          have apart : s ≠ u := fun same => unseen (same ▸ hs)
          have adj := (adj_iff_mem_neighbours apart).mpr step
          exact ⟨s, hs, edist_le_succ_iff.mpr (.inr ⟨u, adj, near⟩)⟩
      · rintro ⟨s, hs, near⟩
        rcases edist_le_succ_iff.mp near with rfl | ⟨u, adj, near⟩
        · exact ⟨s, List.mem_append_left _ hs, by simp⟩
        · by_cases old : u ∈ seen
          · exact ⟨u, List.mem_append_left _ old, near⟩
          · have step := (adj_iff_mem_neighbours adj.ne).mp adj
            exact ⟨u, List.mem_append_right _ (mem_newNeighbours.mpr ⟨old, s, hs, step⟩), near⟩

theorem mem_reach_congr {seen seen' : List String} (same : ∀ u, u ∈ seen ↔ u ∈ seen')
    (edges : List Edge) (hops : ℕ) (v : String) :
    v ∈ reach edges hops seen ↔ v ∈ reach edges hops seen' := by
  simp only [mem_reach, same]

end Layers

section Queue

/-- The ids of a list that are not visited, each at its first place. -/
def firstSeen (visited : List String) : List String → List String
  | [] => []
  | id :: ids =>
    if visited.contains id then firstSeen visited ids
    else id :: firstSeen (visited ++ [id]) ids

theorem mem_firstSeen {visited ids : List String} {v : String} :
    v ∈ firstSeen visited ids ↔ v ∈ ids ∧ v ∉ visited := by
  induction ids generalizing visited with
  | nil => simp [firstSeen]
  | cons id ids ih =>
      rw [firstSeen]
      split
      · rename_i old
        have known : id ∈ visited := List.contains_iff_mem.mp old
        rw [ih, List.mem_cons]
        exact ⟨fun h => ⟨.inr h.1, h.2⟩,
          fun h => ⟨h.1.resolve_left fun same => h.2 (same ▸ known), h.2⟩⟩
      · rename_i new
        have unknown : id ∉ visited := mt List.contains_iff_mem.mpr new
        rw [List.mem_cons, ih, List.mem_cons, List.mem_append, List.mem_singleton]
        by_cases same : v = id
        · simp [same, unknown]
        · simp [same]

theorem firstSeen_append (visited first second : List String) :
    firstSeen visited (first ++ second) = firstSeen visited first ++
      firstSeen (visited ++ firstSeen visited first) second := by
  induction first generalizing visited with
  | nil => rw [List.nil_append, firstSeen, List.append_nil, List.nil_append]
  | cons id ids ih =>
      rw [List.cons_append, firstSeen, firstSeen]
      split
      · exact ih visited
      · rw [ih, List.cons_append, List.append_assoc, List.singleton_append]

theorem foldl_see (hops : ℕ) (ids visited : List String) (queue : List (String × ℕ)) :
    ids.foldl (Search.see hops) ⟨visited, queue⟩ =
      ⟨visited ++ firstSeen visited ids, queue ++ (firstSeen visited ids).map (·, hops)⟩ := by
  induction ids generalizing visited queue with
  | nil => simp [firstSeen]
  | cons id ids ih =>
      rw [List.foldl_cons, Search.see, firstSeen]
      split
      · exact ih visited queue
      · rw [ih, List.append_assoc, List.append_assoc]
        rfl

variable {edges : List Edge} {maxHops hops : ℕ}

/-- Ids at the limit only leave the queue. -/
theorem run_of_limit (limit : maxHops ≤ hops) (visited level : List String) :
    Search.run edges maxHops ⟨visited, level.map (·, hops)⟩ = visited := by
  induction level with
  | nil => rw [List.map_nil, Search.run]
  | cons id level ih => rw [List.map_cons, Search.run, if_pos limit, ih]

variable (edges) in
/-- The queue holds one level of ids and what was seen of the next. When the level is through, all
neighbours of its ids are visited, and the queue holds the next level alone. -/
theorem run_level (below : hops < maxHops) (visited level next : List String) :
    Search.run edges maxHops ⟨visited, level.map (·, hops) ++ next.map (·, hops + 1)⟩ =
      let found := firstSeen visited (level.flatMap (neighbours edges))
      Search.run edges maxHops ⟨visited ++ found, (next ++ found).map (·, hops + 1)⟩ := by
  induction level generalizing visited next with
  | nil => simp [firstSeen]
  | cons id level ih =>
      rw [List.map_cons, List.cons_append, Search.run, if_neg (Nat.not_le.mpr below), foldl_see,
        List.append_assoc, ← List.map_append, ih, List.flatMap_cons, firstSeen_append]
      simp only [List.append_assoc]

/-- The queue finds what the layers find. Only ids of the level that stands in the queue may have
neighbours that are not visited, which carries the induction. -/
theorem mem_run_level {left : ℕ} (limit : hops + left = maxHops) {visited level : List String}
    (inside : ∀ u ∈ level, u ∈ visited)
    (closed : ∀ u ∈ visited, u ∉ level → ∀ v ∈ neighbours edges u, v ∈ visited) (v : String) :
    v ∈ Search.run edges maxHops ⟨visited, level.map (·, hops)⟩ ↔
      v ∈ reach edges left visited := by
  induction left generalizing hops visited level with
  | zero => rw [run_of_limit (by omega), reach]
  | succ left ih =>
      have through := run_level edges (by omega : hops < maxHops) visited level []
      rw [List.map_nil, List.append_nil] at through
      dsimp only at through
      have found {u : String} : u ∈ firstSeen visited (level.flatMap (neighbours edges)) ↔
          u ∈ newNeighbours edges visited := by
        rw [mem_firstSeen, List.mem_flatMap, mem_newNeighbours, and_comm]
        refine and_congr_right fun unseen => ?_
        constructor
        · exact fun ⟨s, hs, step⟩ => ⟨s, inside s hs, step⟩
        · rintro ⟨s, hs, step⟩
          by_contra elsewhere
          exact unseen (closed s hs (fun here => elsewhere ⟨s, here, step⟩) u step)
      rw [through, List.nil_append, reach, ih (by omega)]
      · refine mem_reach_congr (fun u => ?_) edges left v
        rw [List.mem_append, List.mem_append, found]
      · exact fun u hu => List.mem_append_right _ hu
      · intro u hu old w step
        have seen := (List.mem_append.mp hu).resolve_right old
        rw [List.mem_append]
        by_cases here : w ∈ visited
        · exact .inl here
        · exact .inr (found.mpr (mem_newNeighbours.mpr ⟨here, u, seen, step⟩))

theorem mem_run_start (edges : List Edge) (maxHops : ℕ) (focus v : String) :
    v ∈ (Search.start focus).run edges maxHops ↔ v ∈ reach edges maxHops [focus] :=
  mem_run_level (Nat.zero_add _) (fun _ h => h) (fun _ h other => absurd h other) v

end Queue

/-- At most `hops` edges lead from `focus` to the id. -/
def Graph.Within (g : Graph) (focus : String) (hops : ℕ) (id : String) : Prop :=
  (endGraph g.edges).edist focus id ≤ hops

theorem mem_reach_focus (g : Graph) (focus : String) (hops : ℕ) (id : String) :
    id ∈ reach g.edges hops [focus] ↔ g.Within focus hops id := by
  rw [mem_reach, Graph.Within]
  simp only [List.mem_singleton, exists_eq_left]

theorem within_focus (g : Graph) (focus : String) (hops : ℕ) : g.Within focus hops focus := by
  rw [Graph.Within, SimpleGraph.edist_self]
  exact zero_le

theorem restrict_congr {ids ids' : List String} (same : ∀ id, id ∈ ids ↔ id ∈ ids') (g : Graph) :
    g.restrict ids = g.restrict ids' := by
  have contains : ∀ id, ids.contains id = ids'.contains id :=
    fun id => by rw [Bool.eq_iff_iff, List.contains_iff_mem, List.contains_iff_mem, same]
  simp only [Graph.restrict, contains]

/-- Around a node, layers give what the queue gives. -/
theorem around_of_known {g : Graph} {focus : String} (known : ∃ n ∈ g.nodes, n.id = focus)
    (hops : ℕ) : g.around focus hops = g.restrict (reach g.edges hops [focus]) := by
  obtain ⟨n, hn, id⟩ := known
  rw [Graph.around, Int.toNat_natCast]
  cases found : g.node? focus with
  | none => exact absurd (beq_iff_eq.mpr id) (List.find?_eq_none.mp found n hn)
  | some first => exact restrict_congr (mem_run_start g.edges hops focus) g

theorem around_of_unknown {g : Graph} {focus : String} (unknown : ¬ ∃ n ∈ g.nodes, n.id = focus)
    (hops : ℕ) : g.around focus hops = { g with nodes := [], edges := [], languages := [] } := by
  rw [Graph.around]
  cases found : g.node? focus with
  | none => rfl
  | some first =>
      have id := beq_iff_eq.mp (List.find?_some (p := fun n : Node => n.id == focus) found)
      exact absurd ⟨first, List.mem_of_find?_eq_some found, id⟩ unknown

open Classical in
/-- The graph around a node is the graph on the ids within the distance, in the order of the whole
graph, also where ids repeat or edges name ids that no node has. Around an id that no node has
there is nothing. -/
theorem around_eq_within (g : Graph) (focus : String) (hops : ℕ) :
    g.around focus hops =
      if ∃ n ∈ g.nodes, n.id = focus then
        { g with
          nodes := g.nodes.filter fun n => g.Within focus hops n.id
          edges := g.edges.filter fun e =>
            g.Within focus hops e.source ∧ g.Within focus hops e.target
          languages := g.languages.filter fun l =>
            ∃ n ∈ g.nodes, g.Within focus hops n.id ∧ n.language = l }
      else { g with nodes := [], edges := [], languages := [] } := by
  have kept : ∀ id, (reach g.edges hops [focus]).contains id =
      decide (g.Within focus hops id) := by
    intro id
    rw [List.contains_eq_mem, decide_eq_decide]
    exact mem_reach_focus g focus hops id
  split
  · rename_i known
    rw [around_of_known known, Graph.restrict]
    simp only [kept]
    congr 1
    case e_edges =>
      refine List.filter_congr fun e _ => ?_
      rw [Bool.eq_iff_iff]
      simp
    case e_languages =>
      refine List.filter_congr fun l _ => ?_
      rw [Bool.eq_iff_iff]
      simp
  · rename_i unknown
    exact around_of_unknown unknown hops

end ComponentAtlas

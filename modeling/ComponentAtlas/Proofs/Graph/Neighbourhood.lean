import ComponentAtlas.Proofs.Graph.Distance

/-!
Neighbourhoods of neighbourhoods. What lies within the smaller of two distances is reached over
edges that lie within the larger one, so the part of a graph around a node, taken again around the
same node, is the part within the smaller distance.
-/

namespace ComponentAtlas

section Distance

variable {g : Graph} {focus id : String}

theorem Graph.Within.mono {hops more : ℕ} (h : g.Within focus hops id) (le : hops ≤ more) :
    g.Within focus more id :=
  h.trans (Nat.cast_le.mpr le)

theorem within_zero_iff : g.Within focus 0 id ↔ id = focus :=
  edist_le_zero_iff.trans eq_comm

theorem within_min_iff {hops more : ℕ} :
    g.Within focus (min hops more) id ↔ g.Within focus hops id ∧ g.Within focus more id := by
  constructor
  · intro near
    exact ⟨near.mono (Nat.min_le_left _ _), near.mono (Nat.min_le_right _ _)⟩
  · rintro ⟨near, far⟩
    rcases Nat.le_total hops more with le | le
    · rwa [Nat.min_eq_left le]
    · rwa [Nat.min_eq_right le]

/-- A way from the focus that is not empty ends with an edge. -/
theorem within_succ_iff {hops : ℕ} :
    g.Within focus (hops + 1) id ↔
      id = focus ∨ ∃ v, (endGraph g.edges).Adj id v ∧ g.Within focus hops v := by
  simp only [Graph.Within, SimpleGraph.edist_comm (u := focus)]
  exact edist_le_succ_iff

end Distance

section Restriction

theorem adj_restrict {g : Graph} {ids : List String} {u v : String} :
    (endGraph (g.restrict ids).edges).Adj u v ↔
      (endGraph g.edges).Adj u v ∧ u ∈ ids ∧ v ∈ ids := by
  simp only [endGraph, SimpleGraph.fromRel_adj, Graph.restrict, List.mem_filter, Bool.and_eq_true,
    List.contains_iff_mem]
  constructor
  · rintro ⟨apart, ⟨e, ⟨he, hs, ht⟩, rfl, rfl⟩ | ⟨e, ⟨he, hs, ht⟩, rfl, rfl⟩⟩
    · exact ⟨⟨apart, .inl ⟨e, he, rfl, rfl⟩⟩, hs, ht⟩
    · exact ⟨⟨apart, .inr ⟨e, he, rfl, rfl⟩⟩, ht, hs⟩
  · rintro ⟨⟨apart, ⟨e, he, rfl, rfl⟩ | ⟨e, he, rfl, rfl⟩⟩, hu, hv⟩
    · exact ⟨apart, .inl ⟨e, ⟨he, hu, hv⟩, rfl, rfl⟩⟩
    · exact ⟨apart, .inr ⟨e, ⟨he, hv, hu⟩, rfl, rfl⟩⟩

/-- Restricting twice is restricting to what is kept both times. The languages follow, as one of a
node that is kept both times is one of a node that is kept the first time. -/
theorem restrict_restrict {g : Graph} {first second both : List String}
    (meet : ∀ id, id ∈ both ↔ id ∈ second ∧ id ∈ first) :
    (g.restrict first).restrict second = g.restrict both := by
  have contains : ∀ id, both.contains id = (second.contains id && first.contains id) := by
    intro id
    rw [Bool.eq_iff_iff, Bool.and_eq_true]
    simpa only [List.contains_iff_mem] using meet id
  have nodes :
      (g.nodes.filter fun n => first.contains n.id).filter (fun n => second.contains n.id) =
        g.nodes.filter fun n => both.contains n.id := by
    rw [List.filter_filter]
    exact List.filter_congr fun n _ => (contains n.id).symm
  unfold Graph.restrict
  dsimp only
  rw [nodes]
  congr 1
  case e_edges =>
    rw [List.filter_filter]
    refine List.filter_congr fun e _ => ?_
    rw [contains, contains]
    ac_rfl
  case e_languages =>
    rw [List.filter_filter]
    refine List.filter_congr fun l _ => ?_
    rw [Bool.and_eq_left_iff_imp, List.any_eq_true, List.any_eq_true]
    rintro ⟨n, hn, language⟩
    rw [← nodes] at hn
    exact ⟨n, (List.mem_filter.mp hn).1, language⟩

end Restriction

section Nesting

/-- In the part of a graph within `radius` of the focus, ways are as long as in the whole graph and
none leads further than that. The induction is on the length of a way, and its last edge lies in
the part because both of its ends do. -/
theorem within_restrict_reach (g : Graph) (focus : String) (hops radius : ℕ) (id : String) :
    (g.restrict (reach g.edges radius [focus])).Within focus hops id ↔
      g.Within focus (min hops radius) id := by
  induction hops generalizing id with
  | zero => rw [Nat.zero_min, within_zero_iff, within_zero_iff]
  | succ hops ih =>
      simp only [within_succ_iff, adj_restrict, mem_reach_focus, ih]
      constructor
      · rintro (rfl | ⟨v, ⟨step, inside, _⟩, near⟩)
        · exact within_focus g id _
        · have next : g.Within focus (min hops radius + 1) id :=
            within_succ_iff.mpr (.inr ⟨v, step, near⟩)
          exact (within_min_iff.mpr ⟨next, inside⟩).mono (by omega)
      · intro near
        cases radius with
        | zero => exact .inl (within_zero_iff.mp near)
        | succ radius =>
            have inside := near.mono (Nat.min_le_right _ _)
            rw [Nat.succ_min_succ, within_succ_iff] at near
            rcases near with same | ⟨v, step, near⟩
            · exact .inl same
            · exact .inr ⟨v, ⟨step, inside, near.mono (by omega)⟩, near.mono (by omega)⟩

/-- The part around a node, taken again around it, is the part within the smaller distance: each
distance up to the first radius is the same in the part as in the whole graph. Nothing is asked of
the graph, nor of the focus for the two parts to be equal. -/
theorem around_around (g : Graph) (focus : String) (hops radius : ℕ) :
    (g.around focus radius).around focus hops = g.around focus (min hops radius : ℕ) ∧
      ((∃ n ∈ g.nodes, n.id = focus) → ∀ id,
        (g.around focus radius).Within focus hops id ↔ g.Within focus (min hops radius) id) := by
  by_cases known : ∃ n ∈ g.nodes, n.id = focus
  · have still_known : ∃ n ∈ (g.restrict (reach g.edges radius [focus])).nodes, n.id = focus := by
      obtain ⟨n, hn, same⟩ := known
      have near := (mem_reach_focus g focus radius focus).mpr (within_focus g focus radius)
      exact ⟨n, List.mem_filter.mpr ⟨hn, List.contains_iff_mem.mpr (same ▸ near)⟩, same⟩
    have distances := within_restrict_reach g focus hops radius
    rw [around_of_known known, around_of_known known, around_of_known still_known]
    refine ⟨restrict_restrict fun id => ?_, fun _ => distances⟩
    simp only [mem_reach_focus, distances]
    exact (and_iff_left_of_imp fun near => near.mono (Nat.min_le_right _ _)).symm
  · refine ⟨?_, fun h => absurd h known⟩
    rw [around_of_unknown known, around_of_unknown known, around_of_unknown (by simp)]

end Nesting

end ComponentAtlas

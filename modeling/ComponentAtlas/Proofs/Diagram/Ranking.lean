import Mathlib.Data.List.Nodup
import Mathlib.Data.List.Sublists
import ComponentAtlas.Diagram.Selection

/-!
Which nodes a diagram keeps. Nodes are ranked by the number of edge ends at them, and of equal ones
the earlier comes first, so where ids differ the ranking is strict: a node is kept under a cap
exactly where fewer nodes than the cap rank before it.
-/

namespace ComponentAtlas

section Counting

variable {α : Type} [DecidableEq α]

theorem Tally.count_add (t : Tally α) (a b : α) (n : ℕ) :
    (t.add a n).count b = t.count b + if a = b then n else 0 := by
  induction t with
  | nil => simp [Tally.add, Tally.count]
  | cons entry rest ih =>
      obtain ⟨c, m⟩ := entry
      by_cases here : c = a
      · subst here
        by_cases asked : c = b <;> simp [Tally.add, Tally.count, asked]
      · by_cases asked : c = b
        · subst asked
          simp [Tally.add, Tally.count, here, Ne.symm here]
        · simp [Tally.add, Tally.count, here, asked, ih]

/-- How many edge ends an id has. -/
def Graph.degree (g : Graph) (id : String) : ℕ :=
  (g.edges.flatMap fun e => [e.source, e.target]).count id

theorem connectionCounts_count (g : Graph) (id : String) :
    g.connectionCounts.count id = g.degree id := by
  have nodes : ∀ (ns : List Node) (t : Tally String),
      (ns.foldl (fun t n => t.add n.id 0) t).count id = t.count id := by
    intro ns
    induction ns with
    | nil => exact fun _ => rfl
    | cons n ns ih =>
        intro t
        rw [List.foldl_cons, ih, Tally.count_add, ite_self, Nat.add_zero]
  have edges : ∀ (es : List Edge) (t : Tally String),
      (es.foldl (fun t e => (t.add e.source 1).add e.target 1) t).count id =
        t.count id + (es.flatMap fun e => [e.source, e.target]).count id := by
    intro es
    induction es with
    | nil => exact fun _ => rfl
    | cons e es ih =>
        intro t
        rw [List.foldl_cons, ih, Tally.count_add, Tally.count_add, List.flatMap_cons]
        simp only [List.cons_append, List.nil_append, List.count_cons, beq_iff_eq]
        omega
  rw [Graph.connectionCounts, edges, nodes, Graph.degree]
  exact Nat.zero_add _

end Counting

section Ranking

/-- Where the first node with the id stands. -/
def Graph.position (g : Graph) (id : String) : ℕ := (g.nodes.map (·.id)).idxOf id

/-- `m` has more edge ends than `n`, or as many and stands before it. -/
def Graph.RanksBefore (g : Graph) (m n : Node) : Prop :=
  g.degree n.id < g.degree m.id ∨
    g.degree n.id = g.degree m.id ∧ g.position m.id < g.position n.id

instance (g : Graph) (m n : Node) : Decidable (g.RanksBefore m n) := by
  unfold Graph.RanksBefore
  infer_instance

/-- The nodes that rank before `n`. -/
def Graph.ahead (g : Graph) (n : Node) : List Node := g.nodes.filter fun m => g.RanksBefore m n

theorem Graph.RanksBefore.irrefl (g : Graph) (n : Node) : ¬ g.RanksBefore n n := by
  unfold Graph.RanksBefore
  omega

theorem Graph.RanksBefore.asymm {g : Graph} {m n : Node} (h : g.RanksBefore m n) :
    ¬ g.RanksBefore n m := by
  unfold Graph.RanksBefore at *
  omega

/-- The order by which nodes are sorted. -/
def Graph.atLeast (g : Graph) (m n : Node) : Bool := g.degree n.id ≤ g.degree m.id

theorem ranked_eq_mergeSort (g : Graph) : g.ranked = g.nodes.mergeSort g.atLeast := by
  have scored : (g.nodes.map fun n => (n, g.connectionCounts.count n.id)).mergeSort
      (fun a b => decide (b.2 ≤ a.2)) =
        (g.nodes.mergeSort g.atLeast).map fun n => (n, g.connectionCounts.count n.id) := by
    refine (List.map_mergeSort fun m _ n _ => ?_).symm
    rw [Graph.atLeast, connectionCounts_count, connectionCounts_count]
  rw [Graph.ranked, scored, List.map_map]
  exact List.map_id _

theorem ranked_perm (g : Graph) : g.ranked.Perm g.nodes := by
  rw [ranked_eq_mergeSort]
  exact List.mergeSort_perm _ _

theorem idxOf_lt_of_sublist {α : Type} [DecidableEq α] {as : List α} (distinct : as.Nodup)
    {a b : α} (h : [a, b].Sublist as) : as.idxOf a < as.idxOf b := by
  induction as with
  | nil => exact absurd h.length_le (Nat.not_succ_le_zero 1)
  | cons first rest ih =>
      rw [List.nodup_cons] at distinct
      cases h with
      | cons _ later =>
          have here : ∀ c ∈ [a, b], first ≠ c := by
            rintro c member rfl
            exact distinct.1 (later.subset member)
          rw [List.idxOf_cons_ne _ (here a (by simp)), List.idxOf_cons_ne _ (here b (by simp))]
          exact Nat.succ_lt_succ (ih distinct.2 later)
      | cons_cons _ later =>
          have other : a ≠ b := by
            rintro rfl
            exact distinct.1 (later.subset List.mem_cons_self)
          rw [List.idxOf_cons_self, List.idxOf_cons_ne _ other]
          exact Nat.succ_pos _

theorem sublist_or_sublist {α : Type} {as : List α} {a b : α} (ha : a ∈ as) (hb : b ∈ as)
    (h : a ≠ b) : [a, b].Sublist as ∨ [b, a].Sublist as := by
  obtain ⟨before, after, rfl⟩ := List.append_of_mem ha
  rcases List.mem_append.mp hb with earlier | later
  · right
    exact (List.singleton_sublist.mpr earlier).append
      (List.singleton_sublist.mpr List.mem_cons_self)
  · left
    have after_a : b ∈ after := (List.mem_cons.mp later).resolve_left h.symm
    have tail : [a, b].Sublist (a :: after) := (List.singleton_sublist.mpr after_a).cons_cons a
    exact tail.trans (List.sublist_append_right before _)

/-- The ranking is strict. Sorting alone leaves the order of equally connected nodes open; that it
is their order in the graph is the stability of the sort. -/
theorem ranked_pairwise {g : Graph} (distinct : (g.nodes.map (·.id)).Nodup) :
    g.ranked.Pairwise g.RanksBefore := by
  have trans : ∀ a b c : Node, g.atLeast a b → g.atLeast b c → g.atLeast a c := by
    simp only [Graph.atLeast, decide_eq_true_eq]
    omega
  have total : ∀ a b : Node, g.atLeast a b || g.atLeast b a := by
    simp only [Graph.atLeast, Bool.or_eq_true, decide_eq_true_eq]
    omega
  have ranked_ids : (g.ranked.map (·.id)).Nodup :=
    ((ranked_perm g).map (·.id)).nodup_iff.mpr distinct
  have sorted := List.pairwise_mergeSort trans total g.nodes
  rw [← ranked_eq_mergeSort, List.pairwise_iff_forall_sublist] at sorted
  rw [List.pairwise_iff_forall_sublist]
  intro m n pair
  have place := idxOf_lt_of_sublist ranked_ids (pair.map Node.id)
  have connected : g.degree n.id ≤ g.degree m.id := of_decide_eq_true (sorted pair)
  rcases Nat.lt_or_eq_of_le connected with more | equal
  · exact .inl more
  · refine .inr ⟨equal, ?_⟩
    have apart : m ≠ n := by
      rintro rfl
      exact Nat.lt_irrefl _ place
    have member : ∀ k ∈ [m, n], k ∈ g.nodes := fun k hk =>
      (ranked_perm g).mem_iff.mp (pair.subset hk)
    rcases sublist_or_sublist (member m (by simp)) (member n (by simp)) apart with kept | swapped
    · exact idxOf_lt_of_sublist distinct (kept.map Node.id)
    · have reversed : [n, m].Sublist g.ranked := by
        rw [ranked_eq_mergeSort]
        exact List.pair_sublist_mergeSort trans total (decide_eq_true equal.ge) swapped
      exact absurd (idxOf_lt_of_sublist ranked_ids (reversed.map Node.id)) (Nat.lt_asymm place)

/-- In a strict ranking the elements in front of one are those that rank before it. -/
theorem filter_eq_before {α : Type} {R : α → α → Prop} [DecidableRel R] {before after : List α}
    {a : α} (irrefl : ¬ R a a) (asymm : ∀ b, R a b → ¬ R b a)
    (h : (before ++ a :: after).Pairwise R) :
    (before ++ a :: after).filter (R · a) = before := by
  rw [List.pairwise_append, List.pairwise_cons] at h
  obtain ⟨_, ⟨behind, _⟩, front⟩ := h
  have kept : before.filter (R · a) = before :=
    List.filter_eq_self.mpr fun b hb => decide_eq_true (front b hb a List.mem_cons_self)
  have dropped : after.filter (R · a) = [] :=
    List.filter_eq_nil_iff.mpr fun b hb => by simpa using asymm b (behind b hb)
  simp [kept, dropped, irrefl]

/-- A node is among the first of the ranking where fewer nodes rank before it. -/
theorem mem_take_ranked_iff {g : Graph} (distinct : (g.nodes.map (·.id)).Nodup) {n : Node}
    (hn : n ∈ g.nodes) (cap : ℕ) : n ∈ g.ranked.take cap ↔ (g.ahead n).length < cap := by
  have nodup : g.ranked.Nodup := (ranked_perm g).nodup_iff.mpr distinct.of_map
  obtain ⟨before, after, split⟩ := List.append_of_mem ((ranked_perm g).mem_iff.mpr hn)
  have front : before.length = (g.ahead n).length := by
    have strict := ranked_pairwise distinct
    rw [split] at strict
    rw [← filter_eq_before (Graph.RanksBefore.irrefl g n) (fun _ h => h.asymm) strict, ← split,
      Graph.ahead]
    exact ((ranked_perm g).filter _).length_eq
  rw [← front, split]
  rw [split, List.nodup_append] at nodup
  have fresh : n ∉ before := fun member =>
    nodup.2.2 n member n List.mem_cons_self rfl
  constructor
  · intro member
    by_contra short
    rw [List.take_append_of_le_length (Nat.le_of_not_lt short)] at member
    exact fresh (List.mem_of_mem_take member)
  · intro room
    obtain ⟨rest, rfl⟩ := Nat.exists_eq_add_of_lt room
    rw [Nat.add_assoc, List.take_length_add_append]
    exact List.mem_append_right _ List.mem_cons_self

/-- No node ranks before itself, so fewer than all do. -/
theorem ahead_length_lt {g : Graph} {n : Node} (hn : n ∈ g.nodes) :
    (g.ahead n).length < g.nodes.length := by
  rw [Graph.ahead, List.length_filter_lt_length_iff_exists]
  exact ⟨n, hn, by simpa using Graph.RanksBefore.irrefl g n⟩

/-- The nodes that a cap keeps. -/
def Graph.kept (g : Graph) (cap : ℕ) : List Node := g.nodes.filter fun n => (g.ahead n).length < cap

theorem Graph.kept_of_fits {g : Graph} {cap : ℕ} (fits : g.nodes.length ≤ cap) :
    g.kept cap = g.nodes :=
  List.filter_eq_self.mpr fun _ hn => decide_eq_true ((ahead_length_lt hn).trans_le fits)

theorem capSize_natCast (total cap : ℕ) : Graph.capSize total cap = cap := by
  rw [Graph.capSize, if_neg (Int.not_lt.mpr (Int.natCast_nonneg cap)), Int.toNat_natCast]

/-- The first of the ranking are the nodes that are kept. -/
theorem mem_take_ranked_iff_mem_kept {g : Graph} (distinct : (g.nodes.map (·.id)).Nodup) (cap : ℕ)
    (n : Node) : n ∈ g.ranked.take cap ↔ n ∈ g.kept cap := by
  rw [Graph.kept, List.mem_filter, decide_eq_true_eq]
  constructor
  · intro first
    have member := (ranked_perm g).mem_iff.mp (List.mem_of_mem_take first)
    exact ⟨member, (mem_take_ranked_iff distinct member cap).mp first⟩
  · rintro ⟨member, few⟩
    exact (mem_take_ranked_iff distinct member cap).mpr few

theorem mem_take_ranked_ids {g : Graph} (distinct : (g.nodes.map (·.id)).Nodup) (cap : ℕ)
    (id : String) : id ∈ (g.ranked.take cap).map (·.id) ↔ id ∈ (g.kept cap).map (·.id) := by
  simp only [List.mem_map, mem_take_ranked_iff_mem_kept distinct]

/-- As many nodes are kept as the cap allows and the graph has. -/
theorem kept_length {g : Graph} (distinct : (g.nodes.map (·.id)).Nodup) (cap : ℕ) :
    (g.kept cap).length = min cap g.nodes.length := by
  have ranked_nodup : g.ranked.Nodup := (ranked_perm g).nodup_iff.mpr distinct.of_map
  have first_nodup : (g.ranked.take cap).Nodup := ranked_nodup.sublist (List.take_sublist _ _)
  have kept_nodup : (g.kept cap).Nodup := distinct.of_map.filter _
  have same : (g.kept cap).Perm (g.ranked.take cap) :=
    (List.perm_ext_iff_of_nodup kept_nodup first_nodup).mpr fun n =>
      (mem_take_ranked_iff_mem_kept distinct cap n).symm
  rw [same.length_eq, List.length_take, (ranked_perm g).length_eq]

theorem select_of_fits {g : Graph} {cap : ℕ} (fits : g.nodes.length ≤ cap) :
    g.select cap = ⟨g.nodes, g.edges⟩ := by
  rw [Graph.select, if_pos (Int.ofNat_le.mpr fits)]

theorem select_nodes {g : Graph} (distinct : (g.nodes.map (·.id)).Nodup) (cap : ℕ) :
    (g.select cap).nodes = g.kept cap := by
  rw [Graph.select]
  split
  · rename_i fits
    exact (Graph.kept_of_fits (Int.ofNat_le.mp fits)).symm
  · refine List.filter_congr fun n hn => ?_
    rw [capSize_natCast, List.contains_eq_mem]
    refine decide_eq_decide.mpr ((mem_take_ranked_ids distinct cap n.id).trans ?_)
    simp only [List.mem_map, Graph.kept, List.mem_filter, decide_eq_true_eq]
    constructor
    · rintro ⟨m, ⟨hm, few⟩, same⟩
      exact List.inj_on_of_nodup_map distinct hm hn same ▸ few
    · intro few
      exact ⟨n, ⟨hn, few⟩, rfl⟩

/-- A graph over the cap loses the edges with an end that is not kept. -/
theorem select_edges_of_cut {g : Graph} (distinct : (g.nodes.map (·.id)).Nodup) {cap : ℕ}
    (cut : cap < g.nodes.length) :
    (g.select cap).edges = g.edges.filter fun e =>
      e.source ∈ (g.kept cap).map (·.id) ∧ e.target ∈ (g.kept cap).map (·.id) := by
  rw [Graph.select, if_neg (Int.not_le.mpr (Int.ofNat_lt.mpr cut))]
  refine List.filter_congr fun e _ => ?_
  rw [capSize_natCast, Bool.eq_iff_iff]
  simp only [Bool.and_eq_true, List.contains_iff_mem, mem_take_ranked_ids distinct,
    decide_eq_true_eq]

/-- Where edges join nodes of the graph, those among the nodes that are kept are kept. -/
theorem select_eq {g : Graph} (distinct : (g.nodes.map (·.id)).Nodup)
    (joined : ∀ e ∈ g.edges, e.source ∈ g.nodes.map (·.id) ∧ e.target ∈ g.nodes.map (·.id))
    (cap : ℕ) :
    g.select cap = ⟨g.kept cap, g.edges.filter fun e =>
      e.source ∈ (g.kept cap).map (·.id) ∧ e.target ∈ (g.kept cap).map (·.id)⟩ := by
  have edges : (g.select cap).edges = g.edges.filter fun e =>
      e.source ∈ (g.kept cap).map (·.id) ∧ e.target ∈ (g.kept cap).map (·.id) := by
    rcases Nat.lt_or_ge cap g.nodes.length with cut | fits
    · exact select_edges_of_cut distinct cut
    · rw [select_of_fits fits, Graph.kept_of_fits fits]
      exact (List.filter_eq_self.mpr fun e he => decide_eq_true (joined e he)).symm
  rw [← edges, ← select_nodes distinct]

theorem mem_select_nodes {g : Graph} (distinct : (g.nodes.map (·.id)).Nodup) {n : Node}
    (hn : n ∈ g.nodes) (cap : ℕ) : n ∈ (g.select cap).nodes ↔ (g.ahead n).length < cap := by
  rw [select_nodes distinct, Graph.kept, List.mem_filter, decide_eq_true_eq]
  exact and_iff_right hn

end Ranking

end ComponentAtlas

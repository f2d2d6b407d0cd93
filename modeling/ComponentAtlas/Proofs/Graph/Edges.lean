import ComponentAtlas.Proofs.Graph.Resolution

/-!
Links becoming edges. The edges made of any links are a table: an edge stands where some link with
two different ends has its key, and its names are those of all links with that key merged in order.
The links themselves join collected nodes, by an import with names or by heritage without.
-/

namespace ComponentAtlas

section Merging

/-- The names that links of one key leave on their edge. -/
def mergeAll : List (Option (List String)) → Option (List String)
  | [] => none
  | names :: rest => rest.foldl mergeNames names

theorem appendNew_eq_eraseDups (names more : List String) :
    appendNew names.eraseDups more = (names ++ more).eraseDups := by
  rw [← foldl_addMissing, appendNew]
  simp only [List.contains_iff_mem]

theorem foldl_mergeNames_none (rest : List (Option (List String))) (h : ∀ n ∈ rest, n = none) :
    rest.foldl mergeNames none = none := by
  induction rest with
  | nil => rfl
  | cons n rest ih =>
      rw [List.foldl_cons, h n List.mem_cons_self]
      exact ih fun m hm => h m (List.mem_cons_of_mem _ hm)

theorem mergeAll_none {lists : List (Option (List String))} (h : ∀ n ∈ lists, n = none) :
    mergeAll lists = none := by
  cases lists with
  | nil => rfl
  | cons n rest =>
      rw [h n List.mem_cons_self]
      exact foldl_mergeNames_none rest fun m hm => h m (List.mem_cons_of_mem _ hm)

theorem foldl_mergeNames_some (names : List String) (rest : List (List String)) :
    (rest.map some).foldl mergeNames (some names.eraseDups) =
      some (names ++ rest.flatten).eraseDups := by
  induction rest generalizing names with
  | nil => simp
  | cons more rest ih =>
      have step : mergeNames (some names.eraseDups) (some more) =
          some (names ++ more).eraseDups := congrArg some (appendNew_eq_eraseDups names more)
      rw [List.map_cons, List.foldl_cons, step, ih, List.flatten_cons, List.append_assoc]

/-- Where every link has names and repeats none, the edge has all of them, each once. -/
theorem mergeAll_some {lists : List (List String)} (h : lists ≠ [])
    (nodup : ∀ names ∈ lists, names.Nodup) :
    mergeAll (lists.map some) = some lists.flatten.eraseDups := by
  cases lists with
  | nil => exact absurd rfl h
  | cons names rest =>
      rw [List.flatten_cons, ← foldl_mergeNames_some,
        eraseDups_of_nodup (nodup names List.mem_cons_self)]
      rfl

end Merging

section Links

def Link.key (l : Link) : EdgeKey := (l.source, l.target, l.relationship)

theorem Link.key_eq_iff {l : Link} {source target : String} {relationship : Relationship} :
    l.key = (source, target, relationship) ↔
      l.source = source ∧ l.target = target ∧ l.relationship = relationship := by
  rw [Link.key, Prod.mk.injEq, Prod.mk.injEq]

/-- Edges are told apart by key; the names of a link found again are merged. -/
def linking : Entry Link Edge EdgeKey where
  itemKey := Link.key
  rowKey := Edge.key
  start l := ⟨l.source, l.target, l.relationship, l.names⟩
  change l e := { e with names := mergeNames e.names l.names }
  rowKey_start _ := rfl
  rowKey_change _ _ := rfl

theorem linking_rowOf? (links : List Link) :
    linking.rowOf? links = links.head?.map fun l =>
      ⟨l.source, l.target, l.relationship, mergeAll (links.map (·.names))⟩ := by
  have merged : ∀ (rest : List Link) (e : Edge),
      rest.foldl (fun e l => linking.change l e) e =
        { e with names := (rest.map (·.names)).foldl mergeNames e.names } := by
    intro rest
    induction rest with
    | nil => exact fun _ => rfl
    | cons l rest ih =>
        intro e
        rw [List.foldl_cons, ih]
        rfl
  cases links with
  | nil => rfl
  | cons l rest => exact congrArg some (merged rest _)

theorem addEdge_eq_enter (edges : List Edge) (l : Link) :
    addEdge edges l = if l.source ≠ l.target then linking.enter l edges else edges := by
  by_cases loop : l.source = l.target
  · rw [if_neg (not_not.mpr loop)]
    cases edges <;> simp [addEdge, loop]
  · rw [if_pos loop]
    induction edges with
    | nil => simp [addEdge, loop, Entry.enter, linking]
    | cons e rest ih =>
        rw [addEdge, Entry.enter, ih, if_neg (mt beq_iff_eq.mp loop)]
        rfl

theorem edges_eq_table (links : List Link) :
    links.foldl addEdge [] = linking.table (links.filter fun l => l.source ≠ l.target) := by
  rw [Entry.table, List.foldl_filter]
  congr 1
  funext edges l
  rw [addEdge_eq_enter]
  by_cases loop : l.source = l.target <;> simp [loop]

theorem edges_keys_nodup (links : List Link) :
    ((links.foldl addEdge []).map Edge.key).Nodup := by
  rw [edges_eq_table]
  exact linking.table_keys_nodup _

/-- Edges of other relationships have no part in those of some. -/
theorem edges_filter (p : Relationship → Bool) (links : List Link) :
    (links.foldl addEdge []).filter (p ·.relationship) =
      (links.filter (p ·.relationship)).foldl addEdge [] := by
  rw [edges_eq_table, edges_eq_table, List.filter_comm]
  exact linking.table_filter (fun k => p k.2.2) _

def linksOf (links : List Link) (k : EdgeKey) : List Link := links.filter fun l => l.key = k

theorem mem_linksOf {links : List Link} {k : EdgeKey} {l : Link} :
    l ∈ linksOf links k ↔ l ∈ links ∧ l.key = k := by
  rw [linksOf, List.mem_filter, decide_eq_true_eq]

/-- Links that lead back to where they start make no edge. -/
theorem linksOf_proper (links : List Link) {k : EdgeKey} :
    linksOf (links.filter fun l => l.source ≠ l.target) k =
      if k.1 ≠ k.2.1 then linksOf links k else [] := by
  rw [linksOf, List.filter_filter]
  split
  · rename_i proper
    refine List.filter_congr fun l _ => ?_
    by_cases h : l.key = k
    · have ends : l.source ≠ l.target := by rw [← h] at proper; exact proper
      simp [h, ends]
    · simp [h]
  · rename_i loop
    refine List.filter_eq_nil_iff.mpr fun l _ => ?_
    by_cases h : l.key = k
    · have ends : l.source = l.target := by rw [← h] at loop; exact not_not.mp loop
      simp [ends]
    · simp [h]

/-- The edges of any links: two different ends, a link between them, the names merged. -/
theorem mem_edges_iff (links : List Link) (e : Edge) :
    e ∈ links.foldl addEdge [] ↔ e.source ≠ e.target ∧ linksOf links e.key ≠ [] ∧
      e.names = mergeAll ((linksOf links e.key).map (·.names)) := by
  rw [edges_eq_table, Entry.mem_table_iff]
  change linking.rowOf? (linksOf _ e.key) = _ ↔ _
  rw [linksOf_proper, linking_rowOf?]
  by_cases proper : e.source = e.target
  · have loop : ¬ e.key.1 ≠ e.key.2.1 := not_not.mpr proper
    simp [loop, proper]
  · rw [if_pos (show e.key.1 ≠ e.key.2.1 from proper)]
    cases shape : linksOf links e.key with
    | nil => simp
    | cons l rest =>
        have key : l.key = e.key := (mem_linksOf.mp (shape ▸ List.mem_cons_self)).2
        obtain ⟨source, target, relationship⟩ := Link.key_eq_iff.mp key
        rw [List.head?_cons, Option.map_some, source, target, relationship, Option.some.injEq]
        constructor
        · intro same
          exact ⟨proper, List.cons_ne_nil l rest, (congrArg Edge.names same).symm⟩
        · rintro ⟨_, _, names⟩
          rw [← names]

end Links

end ComponentAtlas

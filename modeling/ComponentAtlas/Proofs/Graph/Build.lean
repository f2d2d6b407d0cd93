import ComponentAtlas.Proofs.Graph.Edges

/-!
The edges of a workspace. An import edge stands exactly where a statement of some file brings the
target in and the file declares the source, whatever the order of the files, and it carries what
the statements bring, each name once. All edges join two different nodes of the graph, no two have
one key, and names are kept for imports only.
-/

namespace ComponentAtlas

def collected [Path.WorkingDirectory] (files : List Extraction) (root : String) : List Node :=
  (placeAll (rootKey root) files).map (·.node)

/-- The links of all imports, file by file, and then those of heritage. -/
def workspaceLinks [Path.WorkingDirectory] (byName : Bool) (files : List Extraction) (root : String)
    : List Link :=
  files.flatMap (importLinks (Index.ofFiles files root) byName) ++
    (collected files root).flatMap (heritageLinks (collected files root))

@[simp]
theorem build_nodes [Path.WorkingDirectory] (byName : Bool) (files : List Extraction)
    (root : String) (now : Float) :
    (Graph.build byName files root now).nodes = collected files root := rfl

@[simp]
theorem build_edges [Path.WorkingDirectory] (byName : Bool) (files : List Extraction)
    (root : String) (now : Float) :
    (Graph.build byName files root now).edges =
      (workspaceLinks byName files root).foldl addEdge [] := rfl

section Soundness

/-- The links of one file, statement by statement; a file without nodes has none. -/
theorem importLinks_eq [Path.WorkingDirectory] (files : List Extraction) (root : String)
    (byName : Bool) (e : Extraction) :
    importLinks (Index.ofFiles files root) byName e =
      e.imports.flatMap fun i =>
        (nodesAt (placeAll (rootKey root) files) (fileKey e.path)).flatMap fun source =>
          (resolve (Index.ofFiles files root) byName i (fileKey e.path)).map fun t =>
            ⟨source.id, t.node.id, .imports, some t.names⟩ := by
  have sources : (Index.ofFiles files root).inFile (fileKey e.path) =
      nodesAt (placeAll (rootKey root) files) (fileKey e.path) := Index.inFile_ofPlaced _ _
  rw [importLinks]
  dsimp only
  rw [sources]
  split
  · rename_i none_there
    simp [none_there]
  · rfl

theorem nodesAt_subset [Path.WorkingDirectory] {files : List Extraction} {root path : String}
    {n : Node} (h : n ∈ nodesAt (placeAll (rootKey root) files) path) :
    n ∈ collected files root := by
  obtain ⟨p, hp, rfl⟩ := List.mem_map.mp h
  exact List.mem_map_of_mem (List.mem_filter.mp hp).1

theorem target_collected [Path.WorkingDirectory] {files : List Extraction} {root path : String}
    {byName : Bool} {i : ImportStatement} {t : Target}
    (h : t ∈ resolve (Index.ofFiles files root) byName i (fileKey path)) :
    t.node ∈ collected files root := by
  rw [resolve_ofFiles files root byName i (isAbsolute_fileKey path), resolveByScan,
    ← groupTargets_eq_grouped] at h
  obtain ⟨f, hf, node⟩ := (mem_groupTargets h).1
  rw [← node]
  split at hf
  · obtain ⟨name, _, named⟩ := List.mem_flatMap.mp hf
    obtain ⟨n, exporter, rfl⟩ := List.mem_map.mp named
    exact (List.mem_filter.mp exporter).1
  · obtain ⟨p, hp, same, _⟩ := pathPass_file hf
    exact same ▸ List.mem_map_of_mem hp

theorem target_names {index : Index} {byName : Bool} {i : ImportStatement} {importer : String}
    {t : Target} (h : t ∈ resolve index byName i importer) : t.names ≠ [] ∧ t.names.Nodup := by
  rw [resolve] at h
  split at h <;> exact (mem_groupTargets h).2

/-- What holds of every link: its ends are ids of nodes, and it has names, none of them twice,
exactly where it comes from an import. -/
structure Link.Sound (nodes : List Node) (l : Link) : Prop where
  source_mem : ∃ n ∈ nodes, n.id = l.source
  target_mem : ∃ n ∈ nodes, n.id = l.target
  names_fit : (l.relationship = .imports ∧ ∃ names, l.names = some names ∧ names ≠ [] ∧
      names.Nodup) ∨
    ((l.relationship = .extends ∨ l.relationship = .implements) ∧ l.names = none)

theorem not_heritage {r : Relationship} (h : r = .imports) :
    ¬ (r = .extends ∨ r = .implements) := by
  rw [h]
  decide

theorem Link.Sound.named {nodes : List Node} {l : Link} (h : l.Sound nodes)
    (imported : l.relationship = .imports) :
    ∃ names, l.names = some names ∧ names ≠ [] ∧ names.Nodup := by
  rcases h.names_fit with ⟨_, named⟩ | ⟨heritage, _⟩
  · exact named
  · exact absurd heritage (not_heritage imported)

theorem Link.Sound.unnamed {nodes : List Node} {l : Link} (h : l.Sound nodes)
    (other : l.relationship ≠ .imports) :
    (l.relationship = .extends ∨ l.relationship = .implements) ∧ l.names = none :=
  h.names_fit.resolve_left fun imported => other imported.1

theorem importLinks_sound [Path.WorkingDirectory] {files : List Extraction} {root : String}
    {byName : Bool} {e : Extraction} {l : Link}
    (h : l ∈ importLinks (Index.ofFiles files root) byName e) :
    l.Sound (collected files root) := by
  rw [importLinks_eq] at h
  obtain ⟨i, _, h⟩ := List.mem_flatMap.mp h
  obtain ⟨source, hsource, h⟩ := List.mem_flatMap.mp h
  obtain ⟨t, ht, rfl⟩ := List.mem_map.mp h
  exact ⟨⟨source, nodesAt_subset hsource, rfl⟩, ⟨t.node, target_collected ht, rfl⟩,
    .inl ⟨rfl, t.names, rfl, target_names ht⟩⟩

theorem importLinks_relationship [Path.WorkingDirectory] {files : List Extraction} {root : String}
    {byName : Bool} {e : Extraction} {l : Link}
    (h : l ∈ importLinks (Index.ofFiles files root) byName e) :
    l.relationship = .imports := by
  rw [importLinks_eq] at h
  obtain ⟨i, _, h⟩ := List.mem_flatMap.mp h
  obtain ⟨n, _, h⟩ := List.mem_flatMap.mp h
  obtain ⟨t, _, rfl⟩ := List.mem_map.mp h
  rfl

/-- A link of heritage leads from the node to another one, without names. -/
theorem mem_heritageLinks {nodes : List Node} {n : Node} {l : Link}
    (h : l ∈ heritageLinks nodes n) :
    l.source = n.id ∧ (∃ t ∈ nodes, t.id = l.target) ∧
      (l.relationship = .extends ∨ l.relationship = .implements) ∧ l.names = none := by
  rw [heritageLinks] at h
  rcases List.mem_append.mp h with base | interface
  · obtain ⟨name, _, found⟩ := List.mem_filterMap.mp base
    obtain ⟨t, ht, rfl⟩ := Option.map_eq_some_iff.mp found
    exact ⟨rfl, ⟨t, List.mem_of_find?_eq_some ht, rfl⟩, .inl rfl, rfl⟩
  · obtain ⟨name, _, found⟩ := List.mem_filterMap.mp interface
    obtain ⟨t, ht, rfl⟩ := Option.map_eq_some_iff.mp found
    exact ⟨rfl, ⟨t, List.mem_of_find?_eq_some ht, rfl⟩, .inr rfl, rfl⟩

theorem workspaceLinks_sound [Path.WorkingDirectory] {byName : Bool} {files : List Extraction}
    {root : String} {l : Link} (h : l ∈ workspaceLinks byName files root) :
    l.Sound (collected files root) := by
  rcases List.mem_append.mp h with imported | inherited
  · obtain ⟨e, _, hl⟩ := List.mem_flatMap.mp imported
    exact importLinks_sound hl
  · obtain ⟨n, hn, hl⟩ := List.mem_flatMap.mp inherited
    obtain ⟨source, target, kind, unnamed⟩ := mem_heritageLinks hl
    exact ⟨⟨n, hn, source.symm⟩, target, .inr ⟨kind, unnamed⟩⟩

end Soundness

/-- What the edges of a graph are to satisfy. -/
structure WellJoined (g : Graph) : Prop where
  ends_are_nodes : ∀ e ∈ g.edges, (∃ n ∈ g.nodes, n.id = e.source) ∧ ∃ n ∈ g.nodes, n.id = e.target
  no_loops : ∀ e ∈ g.edges, e.source ≠ e.target
  keys_differ : (g.edges.map fun e => (e.source, e.target, e.relationship)).Nodup
  relationships : ∀ e ∈ g.edges, e.relationship = .imports ∨ e.relationship = .extends ∨
    e.relationship = .implements
  imports_named : ∀ e ∈ g.edges, e.relationship = .imports →
    ∃ names, e.names = some names ∧ names ≠ [] ∧ names.Nodup
  heritage_unnamed : ∀ e ∈ g.edges, e.relationship = .extends ∨ e.relationship = .implements →
    e.names = none

section Imports

/-- An edge comes from a link with its ends and its relationship. -/
theorem edge_link [Path.WorkingDirectory] {byName : Bool} {files : List Extraction} {root : String}
    {e : Edge} (h : e ∈ (workspaceLinks byName files root).foldl addEdge []) :
    ∃ l ∈ workspaceLinks byName files root, l.key = e.key := by
  obtain ⟨_, nonempty, _⟩ := (mem_edges_iff _ e).mp h
  obtain ⟨l, hl⟩ := List.exists_mem_of_ne_nil _ nonempty
  exact ⟨l, mem_linksOf.mp hl⟩

/-- An edge has the names of all links between its ends where these come from imports, and none
where they come from heritage. -/
theorem edge_names [Path.WorkingDirectory] {byName : Bool} {files : List Extraction} {root : String}
    {e : Edge} (h : e ∈ (workspaceLinks byName files root).foldl addEdge []) :
    (e.relationship = .imports ∧ e.names = some
      ((linksOf (workspaceLinks byName files root) e.key).flatMap fun l =>
        l.names.getD []).eraseDups) ∨
    ((e.relationship = .extends ∨ e.relationship = .implements) ∧ e.names = none) := by
  obtain ⟨_, nonempty, names⟩ := (mem_edges_iff _ e).mp h
  have sound : ∀ l ∈ linksOf (workspaceLinks byName files root) e.key,
      l.Sound (collected files root) ∧ l.relationship = e.relationship := by
    intro l hl
    obtain ⟨member, key⟩ := mem_linksOf.mp hl
    exact ⟨workspaceLinks_sound member, (Link.key_eq_iff.mp key).2.2⟩
  generalize linksOf (workspaceLinks byName files root) e.key = links at nonempty names sound ⊢
  by_cases imported : e.relationship = .imports
  · have listed : ∀ l ∈ links, l.names = some (l.names.getD []) ∧ (l.names.getD []).Nodup := by
      intro l hl
      obtain ⟨fits, kind⟩ := sound l hl
      obtain ⟨xs, hxs, _, nodup⟩ := fits.named (kind.trans imported)
      rw [hxs]
      exact ⟨rfl, nodup⟩
    have lists : links.map (·.names) = (links.map fun l => l.names.getD []).map some := by
      rw [List.map_map]
      exact List.map_congr_left fun l hl => (listed l hl).1
    have nodup : ∀ xs ∈ links.map fun l => l.names.getD [], xs.Nodup := by
      intro xs hxs
      obtain ⟨l, hl, rfl⟩ := List.mem_map.mp hxs
      exact (listed l hl).2
    refine .inl ⟨imported, ?_⟩
    rw [names, lists, mergeAll_some (mt List.map_eq_nil_iff.mp nonempty) nodup, List.flatMap]
  · have heritage : ∀ l ∈ links, (e.relationship = .extends ∨ e.relationship = .implements) ∧
        l.names = none := by
      intro l hl
      obtain ⟨fits, kind⟩ := sound l hl
      exact kind ▸ fits.unnamed fun import_link => imported (kind ▸ import_link)
    obtain ⟨first, hfirst⟩ := List.exists_mem_of_ne_nil links nonempty
    refine .inr ⟨(heritage first hfirst).1, ?_⟩
    rw [names, mergeAll_none]
    intro xs hxs
    obtain ⟨l, hl, rfl⟩ := List.mem_map.mp hxs
    exact (heritage l hl).2

/-- A statement of some file brings `target` in, and the file declares `source`. -/
def BringsIn [Path.WorkingDirectory] (byName : Bool) (files : List Extraction)
    (root source target : String) : Prop :=
  ∃ r ∈ files, ∃ i ∈ r.imports,
    (∃ n ∈ nodesAt (placeAll (rootKey root) files) (fileKey r.path), n.id = source) ∧
    ∃ t ∈ resolve (Index.ofFiles files root) byName i (fileKey r.path), t.node.id = target

/-- The names under which the statements of the files that declare `source` bring `target` in,
statement by statement. -/
def broughtNames [Path.WorkingDirectory] (byName : Bool) (files : List Extraction)
    (root source target : String) :
    List String :=
  files.flatMap fun r : Extraction =>
    if ∃ n ∈ nodesAt (placeAll (rootKey root) files) (fileKey r.path), n.id = source then
      r.imports.flatMap fun i =>
        ((resolve (Index.ofFiles files root) byName i (fileKey r.path)).filter
          (·.node.id = target)).flatMap (·.names)
    else []

/-- Of nodes with different ids at most one has the id asked for. -/
theorem flatMap_of_ids_nodup {nodes : List Node} (h : (nodes.map (·.id)).Nodup) (id : String)
    (names : List String) :
    (nodes.flatMap fun n => if n.id = id then names else []) =
      if ∃ n ∈ nodes, n.id = id then names else [] := by
  induction nodes with
  | nil => simp
  | cons n nodes ih =>
      rw [List.map_cons, List.nodup_cons] at h
      rw [List.flatMap_cons, ih h.2]
      by_cases here : n.id = id
      · have later : ¬ ∃ m ∈ nodes, m.id = id := by
          rintro ⟨m, hm, same⟩
          exact h.1 (List.mem_map.mpr ⟨m, hm, same.trans here.symm⟩)
        simp [here, later]
      · simp [here]

theorem importLinks_names [Path.WorkingDirectory] (byName : Bool) (files : List Extraction)
    (root : String) (r : Extraction) (source target : String) :
    ((linksOf (importLinks (Index.ofFiles files root) byName r) (source, target, .imports)).flatMap
      fun l => l.names.getD []) =
    if ∃ n ∈ nodesAt (placeAll (rootKey root) files) (fileKey r.path), n.id = source then
      r.imports.flatMap fun i =>
        ((resolve (Index.ofFiles files root) byName i (fileKey r.path)).filter
          (·.node.id = target)).flatMap (·.names)
    else [] := by
  have distinct :
      ((nodesAt (placeAll (rootKey root) files) (fileKey r.path)).map (·.id)).Nodup := by
    rw [nodesAt, List.map_map]
    exact ids_nodup_in_file _ files _
  have each : ∀ (n : Node) (targets : List Target),
      (((targets.map fun t : Target => (⟨n.id, t.node.id, .imports, some t.names⟩ : Link)).filter
        fun l => l.key = (source, target, .imports)).flatMap fun l => l.names.getD []) =
      if n.id = source then (targets.filter (·.node.id = target)).flatMap (·.names) else [] := by
    intro n targets
    rw [List.filter_map, List.flatMap_map]
    by_cases hs : n.id = source
    · simp [Link.key, hs, Function.comp_def]
    · simp [Link.key, hs, Function.comp_def]
  rw [importLinks_eq, linksOf, List.filter_flatMap, List.flatMap_assoc]
  simp only [List.filter_flatMap, List.flatMap_assoc, each, flatMap_of_ids_nodup distinct]
  split
  · rfl
  · simp

theorem workspaceLinks_names [Path.WorkingDirectory] (byName : Bool) (files : List Extraction)
    (root : String) (source target : String) :
    ((linksOf (workspaceLinks byName files root) (source, target, .imports)).flatMap
      fun l => l.names.getD []) = broughtNames byName files root source target := by
  have inherited : linksOf ((collected files root).flatMap (heritageLinks (collected files root)))
      (source, target, .imports) = [] := by
    rw [linksOf, List.filter_eq_nil_iff]
    intro l hl
    obtain ⟨n, hn, hl⟩ := List.mem_flatMap.mp hl
    have heritage := (mem_heritageLinks hl).2.2.1
    simp only [decide_eq_true_eq]
    intro key
    exact not_heritage (Link.key_eq_iff.mp key).2.2 heritage
  rw [workspaceLinks, linksOf, List.filter_append, ← linksOf, ← linksOf, inherited,
    List.append_nil, broughtNames, linksOf, List.filter_flatMap, List.flatMap_assoc]
  congr 1
  funext r
  exact importLinks_names byName files root r source target

theorem linksOf_imports_iff [Path.WorkingDirectory] (byName : Bool) (files : List Extraction)
    (root source target : String) :
    linksOf (workspaceLinks byName files root) (source, target, .imports) ≠ [] ↔
      BringsIn byName files root source target := by
  constructor
  · intro some_link
    obtain ⟨l, hl⟩ := List.exists_mem_of_ne_nil _ some_link
    obtain ⟨member, key⟩ := mem_linksOf.mp hl
    obtain ⟨from_source, to_target, kind⟩ := Link.key_eq_iff.mp key
    rcases List.mem_append.mp member with imported | inherited
    · obtain ⟨r, hr, hl⟩ := List.mem_flatMap.mp imported
      rw [importLinks_eq] at hl
      obtain ⟨i, hi, hl⟩ := List.mem_flatMap.mp hl
      obtain ⟨n, hn, hl⟩ := List.mem_flatMap.mp hl
      obtain ⟨t, ht, rfl⟩ := List.mem_map.mp hl
      exact ⟨r, hr, i, hi, ⟨n, hn, from_source⟩, ⟨t, ht, to_target⟩⟩
    · obtain ⟨n, _, hl⟩ := List.mem_flatMap.mp inherited
      exact absurd (mem_heritageLinks hl).2.2.1 (not_heritage kind)
  · rintro ⟨r, hr, i, hi, ⟨n, hn, rfl⟩, ⟨t, ht, rfl⟩⟩
    refine List.ne_nil_of_mem (a := ⟨n.id, t.node.id, .imports, some t.names⟩)
      (mem_linksOf.mpr ⟨List.mem_append_left _ (List.mem_flatMap.mpr ⟨r, hr, ?_⟩), rfl⟩)
    rw [importLinks_eq]
    exact List.mem_flatMap.mpr ⟨i, hi, List.mem_flatMap.mpr ⟨n, hn, List.mem_map_of_mem ht⟩⟩

end Imports

/-- There is an import edge exactly where a statement brings the target into a file that declares
the source, unless these are one; its names are all that the statements bring, each once. -/
theorem build_imports [Path.WorkingDirectory] (byName : Bool) (files : List Extraction)
    (root : String) (now : Float) (source target : String) :
    ((∃ e ∈ (Graph.build byName files root now).edges, e.key = (source, target, .imports)) ↔
      source ≠ target ∧ BringsIn byName files root source target) ∧
    ∀ e ∈ (Graph.build byName files root now).edges, e.key = (source, target, .imports) →
      e.names = some (broughtNames byName files root source target).eraseDups := by
  rw [build_edges, ← linksOf_imports_iff]
  constructor
  · constructor
    · rintro ⟨e, he, key⟩
      obtain ⟨proper, some_link, _⟩ := (mem_edges_iff _ e).mp he
      obtain ⟨from_source, ends⟩ := Prod.mk.inj key
      rw [from_source, (Prod.mk.inj ends).1] at proper
      exact ⟨proper, key ▸ some_link⟩
    · rintro ⟨proper, some_link⟩
      let links := linksOf (workspaceLinks byName files root) (source, target, .imports)
      exact ⟨⟨source, target, .imports, mergeAll (links.map (·.names))⟩,
        (mem_edges_iff _ _).mpr ⟨proper, some_link, rfl⟩, rfl⟩
  · intro e he key
    rcases edge_names he with ⟨_, names⟩ | ⟨heritage, _⟩
    · rw [names, key, workspaceLinks_names]
    · exact absurd heritage (not_heritage (congrArg (fun k : EdgeKey => k.2.2) key))

/-- The edges of every graph that is built join two different of its nodes, have keys of their own,
and carry names, none of them twice, exactly where they are imports. -/
theorem build_wellJoined [Path.WorkingDirectory] (byName : Bool) (files : List Extraction)
    (root : String) (now : Float) :
    WellJoined (Graph.build byName files root now) := by
  constructor
  case ends_are_nodes =>
    intro e he
    obtain ⟨l, hl, key⟩ := edge_link he
    obtain ⟨source, target, _⟩ := Link.key_eq_iff.mp key
    have sound := workspaceLinks_sound hl
    exact ⟨source ▸ sound.source_mem, target ▸ sound.target_mem⟩
  case no_loops => exact fun e he => ((mem_edges_iff _ e).mp he).1
  case keys_differ => exact edges_keys_nodup _
  case relationships =>
    intro e he
    rcases edge_names he with ⟨imported, _⟩ | ⟨heritage, _⟩
    · exact .inl imported
    · exact .inr heritage
  case imports_named =>
    intro e he imported
    obtain ⟨l, hl, key⟩ := edge_link he
    have import_link : l.relationship = .imports := (Link.key_eq_iff.mp key).2.2.trans imported
    obtain ⟨xs, hxs, some_name, _⟩ := (workspaceLinks_sound hl).named import_link
    obtain ⟨x, hx⟩ := List.exists_mem_of_ne_nil xs some_name
    have brought : x ∈ l.names.getD [] := by
      rw [hxs]
      exact hx
    rcases edge_names he with ⟨_, listed⟩ | ⟨heritage, _⟩
    · refine ⟨_, listed, ?_, eraseDups_nodup _⟩
      exact List.ne_nil_of_mem (List.mem_eraseDups.mpr
        (List.mem_flatMap.mpr ⟨l, mem_linksOf.mpr ⟨hl, key⟩, brought⟩))
    · exact absurd heritage (not_heritage imported)
  case heritage_unnamed =>
    intro e he heritage
    rcases edge_names he with ⟨imported, _⟩ | ⟨_, unnamed⟩
    · exact absurd heritage (not_heritage imported)
    · exact unnamed

end ComponentAtlas

import ComponentAtlas.Proofs.Graph.Build

/-!
Which relationships a workspace has, said of one statement or one description at a time. A name is
on an import edge exactly where some statement finds the target under it, and an edge of heritage
stands exactly where some node lists the name of which the target is the first node.
-/

namespace ComponentAtlas

section Imports

/-- What a statement finds: the nodes at the places of its source, or, where there are none and that
is allowed, the nodes of its names in the whole workspace. -/
def found (placed : List Placed) (byName : Bool) (i : ImportStatement) (importer : String) :
    List (Node × String) :=
  if (pathPass placed i importer).isEmpty && byName then namePass placed i
  else pathPass placed i importer

theorem resolve_eq_grouped [Path.WorkingDirectory] (byName : Bool) (files : List Extraction)
    (root : String) (i : ImportStatement) (path : String) :
    resolve (Index.ofFiles files root) byName i (fileKey path) =
      grouped (found (placeAll (rootKey root) files) byName i (fileKey path)) :=
  resolve_ofFiles files root byName i (isAbsolute_fileKey path)

/-- Grouping loses nothing: an id has a name exactly where it was found under it. -/
theorem mem_grouped_iff {fs : List (Node × String)} {id name : String} :
    (∃ t ∈ grouped fs, t.node.id = id ∧ name ∈ t.names) ↔ ∃ f ∈ fs, f.1.id = id ∧ f.2 = name := by
  constructor
  · rintro ⟨t, ht, rfl, named⟩
    obtain ⟨id, _, first⟩ := List.mem_filterMap.mp ht
    obtain ⟨f, hf, rfl⟩ := Option.map_eq_some_iff.mp first
    obtain ⟨g, hg, rfl⟩ := List.mem_map.mp (List.mem_eraseDups.mp named)
    obtain ⟨member, same⟩ := List.mem_filter.mp hg
    have key : f.1.id = id := by simpa using List.find?_some hf
    exact ⟨g, member, (of_decide_eq_true same).trans key.symm, rfl⟩
  · rintro ⟨f, hf, rfl, rfl⟩
    have some_first : (fs.find? (·.1.id = f.1.id)).isSome :=
      List.find?_isSome.mpr ⟨f, hf, decide_eq_true rfl⟩
    obtain ⟨first, hfirst⟩ := Option.isSome_iff_exists.mp some_first
    refine ⟨⟨first.1, ((fs.filter (·.1.id = f.1.id)).map (·.2)).eraseDups⟩, ?_, ?_, ?_⟩
    · refine List.mem_filterMap.mpr ⟨f.1.id, List.mem_eraseDups.mpr (List.mem_map_of_mem hf), ?_⟩
      rw [hfirst]
      rfl
    · simpa using List.find?_some hfirst
    · exact List.mem_eraseDups.mpr
        (List.mem_map_of_mem (List.mem_filter.mpr ⟨hf, decide_eq_true rfl⟩))

/-- A file that declares `source` has a statement that finds `target` under the name. -/
def FindsUnder [Path.WorkingDirectory] (byName : Bool) (files : List Extraction)
    (root source target name : String) :
    Prop :=
  ∃ r ∈ files,
    (∃ n ∈ nodesAt (placeAll (rootKey root) files) (fileKey r.path), n.id = source) ∧
    ∃ i ∈ r.imports, ∃ f ∈ found (placeAll (rootKey root) files) byName i (fileKey r.path),
      f.1.id = target ∧ f.2 = name

theorem mem_broughtNames_iff [Path.WorkingDirectory] {byName : Bool} {files : List Extraction}
    {root source target name : String} :
    name ∈ broughtNames byName files root source target ↔
      FindsUnder byName files root source target name := by
  have one : ∀ (r : Extraction) (i : ImportStatement),
      name ∈ ((resolve (Index.ofFiles files root) byName i (fileKey r.path)).filter
        (·.node.id = target)).flatMap (·.names) ↔
      ∃ f ∈ found (placeAll (rootKey root) files) byName i (fileKey r.path),
        f.1.id = target ∧ f.2 = name := by
    intro r i
    rw [resolve_eq_grouped, ← mem_grouped_iff]
    simp only [List.mem_flatMap, List.mem_filter, decide_eq_true_eq, and_assoc]
  have conditional : ∀ (P : Prop) [Decidable P] (names : List String),
      name ∈ (if P then names else []) ↔ P ∧ name ∈ names := by
    intro P _ names
    by_cases h : P <;> simp [h]
  simp only [broughtNames, List.mem_flatMap, conditional, FindsUnder]
  refine exists_congr fun r => and_congr_right fun _ => and_congr_right fun _ => ?_
  exact exists_congr fun i => and_congr_right fun _ => List.mem_flatMap.symm.trans (one r i)

/-- Every target comes with a name. -/
theorem bringsIn_iff [Path.WorkingDirectory] {byName : Bool} {files : List Extraction}
    {root source target : String} :
    BringsIn byName files root source target ↔
      ∃ name, FindsUnder byName files root source target name := by
  constructor
  · rintro ⟨r, hr, i, hi, declared, t, ht, id⟩
    obtain ⟨name, named⟩ := List.exists_mem_of_ne_nil _ (target_names ht).1
    rw [resolve_eq_grouped] at ht
    exact ⟨name, r, hr, declared, i, hi, mem_grouped_iff.mp ⟨t, ht, id, named⟩⟩
  · rintro ⟨name, r, hr, declared, i, hi, hf⟩
    obtain ⟨t, ht, id, _⟩ := mem_grouped_iff.mpr hf
    rw [← resolve_eq_grouped] at ht
    exact ⟨r, hr, i, hi, declared, t, ht, id⟩

theorem mem_edge_keys_iff [Path.WorkingDirectory] {byName : Bool} {files : List Extraction}
    {root : String} {now : Float} {k : EdgeKey} :
    k ∈ (Graph.build byName files root now).edges.map Edge.key ↔
      k.1 ≠ k.2.1 ∧ linksOf (workspaceLinks byName files root) k ≠ [] := by
  rw [build_edges, List.mem_map]
  constructor
  · rintro ⟨e, he, rfl⟩
    obtain ⟨proper, some_link, _⟩ := (mem_edges_iff _ e).mp he
    exact ⟨proper, some_link⟩
  · rintro ⟨proper, some_link⟩
    let links := linksOf (workspaceLinks byName files root) k
    exact ⟨⟨k.1, k.2.1, k.2.2, mergeAll (links.map (·.names))⟩,
      (mem_edges_iff _ _).mpr ⟨proper, some_link, rfl⟩, rfl⟩

theorem import_key_iff [Path.WorkingDirectory] {byName : Bool} {files : List Extraction}
    {root : String} {now : Float} {source target : String} :
    (source, target, .imports) ∈ (Graph.build byName files root now).edges.map Edge.key ↔
      source ≠ target ∧ ∃ name, FindsUnder byName files root source target name := by
  rw [mem_edge_keys_iff, linksOf_imports_iff, bringsIn_iff]

/-- An import edge leads from `source` to `target` and carries the name. -/
def Graph.Imports (g : Graph) (source target name : String) : Prop :=
  ∃ e ∈ g.edges, e.key = (source, target, .imports) ∧ ∃ names, e.names = some names ∧ name ∈ names

theorem edge_import_names [Path.WorkingDirectory] {byName : Bool} {files : List Extraction}
    {root : String} {now : Float} {source target : String} {e : Edge}
    (he : e ∈ (Graph.build byName files root now).edges) (key : e.key = (source, target, .imports))
    :
    e.names = some (broughtNames byName files root source target).eraseDups := by
  rcases edge_names he with ⟨_, names⟩ | ⟨heritage, _⟩
  · rw [names, key, workspaceLinks_names]
  · exact absurd heritage (not_heritage (congrArg (fun k : EdgeKey => k.2.2) key))

theorem imports_iff_findsUnder [Path.WorkingDirectory] {byName : Bool} {files : List Extraction}
    {root : String} {now : Float} {source target name : String} :
    (Graph.build byName files root now).Imports source target name ↔
      source ≠ target ∧ FindsUnder byName files root source target name := by
  constructor
  · rintro ⟨e, he, key, names, hnames, named⟩
    rw [edge_import_names he key] at hnames
    cases hnames
    have proper := (import_key_iff.mp (key ▸ List.mem_map_of_mem (f := Edge.key) he)).1
    exact ⟨proper, mem_broughtNames_iff.mp (List.mem_eraseDups.mp named)⟩
  · rintro ⟨proper, finds⟩
    obtain ⟨e, he, key⟩ := List.mem_map.mp (import_key_iff.mpr ⟨proper, name, finds⟩)
    exact ⟨e, he, key, _, edge_import_names he key,
      List.mem_eraseDups.mpr (mem_broughtNames_iff.mpr finds)⟩

end Imports

section Heritage

/-- The names that a node lists as what it extends or implements. -/
def Node.listed (n : Node) : Relationship → List String
  | .extends => (Heritage.ofDescription n.description).bases
  | .implements => (Heritage.ofDescription n.description).interfaces
  | _ => []

theorem mem_heritageLinks_iff {nodes : List Node} {n : Node} {l : Link} :
    l ∈ heritageLinks nodes n ↔ l.source = n.id ∧ l.names = none ∧
      ∃ name ∈ n.listed l.relationship, ∃ t, firstNamed nodes name n.id = some t ∧
        t.id = l.target := by
  have part : ∀ (names : List String) (r : Relationship),
      l ∈ names.filterMap (fun name => (firstNamed nodes name n.id).map fun t =>
        (⟨n.id, t.id, r, none⟩ : Link)) ↔
      l.source = n.id ∧ l.relationship = r ∧ l.names = none ∧
        ∃ name ∈ names, ∃ t, firstNamed nodes name n.id = some t ∧ t.id = l.target := by
    intro names r
    simp only [List.mem_filterMap, Option.map_eq_some_iff]
    constructor
    · rintro ⟨name, hname, t, ht, rfl⟩
      exact ⟨rfl, rfl, rfl, name, hname, t, ht, rfl⟩
    · obtain ⟨source, target, relationship, carried⟩ := l
      rintro ⟨rfl, rfl, rfl, name, hname, t, ht, rfl⟩
      exact ⟨name, hname, t, ht, rfl⟩
  rw [heritageLinks, List.mem_append, part, part]
  cases kind : l.relationship <;> simp [Node.listed]

theorem heritage_key_iff [Path.WorkingDirectory] {byName : Bool} {files : List Extraction}
    {root : String} {now : Float} {source target : String} {r : Relationship} (h : r ≠ .imports) :
    (source, target, r) ∈ (Graph.build byName files root now).edges.map Edge.key ↔
      ∃ n ∈ collected files root, n.id = source ∧ ∃ name ∈ n.listed r,
        ∃ t, firstNamed (collected files root) name source = some t ∧ t.id = target := by
  rw [mem_edge_keys_iff]
  constructor
  · rintro ⟨_, some_link⟩
    obtain ⟨l, hl⟩ := List.exists_mem_of_ne_nil _ some_link
    obtain ⟨member, key⟩ := mem_linksOf.mp hl
    obtain ⟨rfl, rfl, rfl⟩ := Link.key_eq_iff.mp key
    rcases List.mem_append.mp member with imported | inherited
    · obtain ⟨e, _, hl⟩ := List.mem_flatMap.mp imported
      exact absurd (importLinks_relationship hl) h
    · obtain ⟨n, hn, hl⟩ := List.mem_flatMap.mp inherited
      obtain ⟨from_n, _, listed⟩ := mem_heritageLinks_iff.mp hl
      rw [← from_n] at listed
      exact ⟨n, hn, from_n.symm, listed⟩
  · rintro ⟨n, hn, rfl, name, hname, t, ht, rfl⟩
    have other := List.find?_some ht
    simp only [Bool.and_eq_true, bne_iff_ne] at other
    refine ⟨other.2.symm, ?_⟩
    refine List.ne_nil_of_mem (a := ⟨n.id, t.id, r, none⟩) (mem_linksOf.mpr ⟨?_, rfl⟩)
    refine List.mem_append_right _ (List.mem_flatMap.mpr ⟨n, hn, ?_⟩)
    exact mem_heritageLinks_iff.mpr ⟨rfl, rfl, name, hname, t, ht, rfl⟩

end Heritage

end ComponentAtlas

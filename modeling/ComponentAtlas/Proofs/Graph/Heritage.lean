import ComponentAtlas.Proofs.Graph.Relations

/-!
Heritage beside imports. A listed name leads to the first other node of that name and to no other
one. Both kinds of edges are kept in one list, and still each is what it would be alone: without
imports the edges are those of heritage, and without descriptions they are the imports.
-/

namespace ComponentAtlas

/-- The first node of that name among those with another id. -/
def IsFirstNamed (nodes : List Node) (name exceptId : String) (m : Node) : Prop :=
  ∃ before after, nodes = before ++ m :: after ∧ m.name = name ∧ m.id ≠ exceptId ∧
    ∀ k ∈ before, k.name = name → k.id = exceptId

theorem firstNamed_eq_some_iff {nodes : List Node} {name exceptId : String} {m : Node} :
    firstNamed nodes name exceptId = some m ↔ IsFirstNamed nodes name exceptId m := by
  unfold firstNamed
  rw [List.find?_eq_some_iff_append]
  simp only [Bool.and_eq_true, beq_iff_eq, bne_iff_ne, Bool.not_eq_true']
  have passed : ∀ k : Node, (k.name == name && k.id != exceptId) = false ↔
      (k.name = name → k.id = exceptId) := by
    intro k
    simp
  simp only [passed]
  constructor
  · rintro ⟨⟨named, other⟩, before, after, split, first⟩
    exact ⟨before, after, split, named, other, first⟩
  · rintro ⟨before, after, split, named, other, first⟩
    exact ⟨⟨named, other⟩, before, after, split, first⟩

theorem IsFirstNamed.unique {nodes : List Node} {name exceptId : String} {m m' : Node}
    (h : IsFirstNamed nodes name exceptId m) (h' : IsFirstNamed nodes name exceptId m') :
    m = m' := by
  rw [← firstNamed_eq_some_iff] at h h'
  rw [h] at h'
  exact Option.some.inj h'

section Kinds

theorem workspaceLinks_filter [Path.WorkingDirectory] (p : Relationship → Bool) (byName : Bool)
    (files : List Extraction) (root : String) (heritage : p .extends = p .implements) :
    (workspaceLinks byName files root).filter (p ·.relationship) =
      (if p .imports then files.flatMap (importLinks (Index.ofFiles files root) byName) else []) ++
      if p .extends then (collected files root).flatMap (heritageLinks (collected files root))
      else [] := by
  have all_or_none : ∀ (links : List Link) (b : Bool), (∀ l ∈ links, p l.relationship = b) →
      links.filter (p ·.relationship) = if b then links else [] := by
    intro links b h
    cases b with
    | false => exact List.filter_eq_nil_iff.mpr fun l hl => by rw [h l hl]; exact Bool.false_ne_true
    | true => exact List.filter_eq_self.mpr h
  unfold workspaceLinks
  rw [List.filter_append]
  congr 1
  · apply all_or_none
    intro l hl
    obtain ⟨e, _, hl⟩ := List.mem_flatMap.mp hl
    rw [importLinks_relationship hl]
  · apply all_or_none
    intro l hl
    obtain ⟨n, _, hl⟩ := List.mem_flatMap.mp hl
    rcases (mem_heritageLinks hl).2.2.1 with extending | implementing
    · rw [extending]
    · rw [implementing, heritage]

end Kinds

section WithoutImports

def Extraction.withoutImports (e : Extraction) : Extraction := { e with imports := [] }

theorem placeAll_withoutImports [Path.WorkingDirectory] (root : String) (files : List Extraction) :
    placeAll root (files.map Extraction.withoutImports) = placeAll root files := by
  rw [placeAll_eq_table, placeAll_eq_table, List.flatMap_map]
  rfl

theorem workspaceLinks_withoutImports [Path.WorkingDirectory] (byName : Bool)
    (files : List Extraction) (root : String) :
    workspaceLinks byName (files.map Extraction.withoutImports) root =
      (workspaceLinks byName files root).filter (·.relationship ≠ .imports) := by
  have nodes : collected (files.map Extraction.withoutImports) root = collected files root := by
    unfold collected
    rw [placeAll_withoutImports]
  rw [workspaceLinks_filter (fun r => decide (r ≠ .imports)) byName files root (by decide)]
  unfold workspaceLinks
  rw [nodes]
  congr 1
  apply List.flatMap_eq_nil_iff.mpr
  intro e he
  obtain ⟨e, _, rfl⟩ := List.mem_map.mp he
  rw [importLinks_eq]
  rfl

end WithoutImports

section WithoutDescriptions

def Declaration.undescribed (d : Declaration) : Declaration := { d with description := none }

def Extraction.undescribed (e : Extraction) : Extraction :=
  { e with declarations := e.declarations.map Declaration.undescribed }

def Node.undescribed (n : Node) : Node := { n with description := none }

def Placed.undescribed (p : Placed) : Placed := { p with node := p.node.undescribed }

def Target.undescribed (t : Target) : Target := { t with node := t.node.undescribed }

variable (placed : List Placed) (i : ImportStatement) (importer path name : String)

theorem placeAll_undescribed [Path.WorkingDirectory] (root : String) (files : List Extraction) :
    placeAll root (files.map Extraction.undescribed) =
      (placeAll root files).map Placed.undescribed := by
  have offered : ∀ e : Extraction,
      offers root e.undescribed = (offers root e).map Placed.undescribed := by
    intro e
    unfold offers
    rw [List.map_map]
    exact List.map_map
  rw [placeAll_eq_table, placeAll_eq_table, List.flatMap_map]
  simp only [offered]
  rw [← List.map_flatMap]
  apply placing.table_map
  case itemKey => exact fun _ => rfl
  case rowKey => exact fun _ => rfl
  case start => exact fun _ => rfl
  case change => exact fun _ _ => rfl

theorem nodesAt_undescribed :
    nodesAt (placed.map Placed.undescribed) path = (nodesAt placed path).map Node.undescribed := by
  unfold nodesAt
  rw [List.filter_map, List.map_map, List.map_map]
  rfl

theorem firstExporter?_undescribed :
    firstExporter? (placed.map Placed.undescribed) path name =
      (firstExporter? placed path name).map Node.undescribed := by
  unfold firstExporter?
  rw [nodesAt_undescribed, List.find?_map]
  rfl

theorem denoted_undescribed :
    denoted (placed.map Placed.undescribed) i path name =
      (denoted placed i path name).map Node.undescribed := by
  unfold denoted
  rw [nodesAt_undescribed, firstExporter?_undescribed, firstExporter?_undescribed]
  split
  · rfl
  · cases firstExporter? placed path name with
    | some node => rfl
    | none =>
        cases i.isDefault with
        | false => rfl
        | true => cases firstExporter? placed path defaultExport <;> rfl

/-- What is found with the descriptions taken off the nodes. -/
def foundUndescribed (f : Node × String) : Node × String := (f.1.undescribed, f.2)

theorem found_undescribed (byName : Bool) :
    found (placed.map Placed.undescribed) byName i importer =
      (found placed byName i importer).map foundUndescribed := by
  have named : ∀ (nodes : List Node) (name : String),
      (nodes.map Node.undescribed).map (·, name) = (nodes.map (·, name)).map foundUndescribed := by
    intro nodes name
    rw [List.map_map, List.map_map]
    rfl
  have byPath : pathPass (placed.map Placed.undescribed) i importer =
      (pathPass placed i importer).map foundUndescribed := by
    unfold pathPass
    split
    · simp only [denoted_undescribed, named, List.map_flatMap]
    · rfl
  have searched : namePass (placed.map Placed.undescribed) i =
      (namePass placed i).map foundUndescribed := by
    have exporting : ∀ name, exporters (placed.map Placed.undescribed) name =
        (exporters placed name).map Node.undescribed := by
      intro name
      unfold exporters
      rw [List.map_map, List.filter_map, List.filter_map, List.map_map]
      rfl
    unfold namePass
    simp only [exporting, named, List.map_flatMap]
  unfold found
  rw [byPath, searched, List.isEmpty_map]
  split <;> rfl

theorem grouped_undescribed (fs : List (Node × String)) :
    grouped (fs.map foundUndescribed) = (grouped fs).map Target.undescribed := by
  simp only [← groupTargets_eq_grouped, groupTargets_eq_table]
  apply targeting.table_map
  case itemKey => exact fun _ => rfl
  case rowKey => exact fun _ => rfl
  case start => exact fun _ => rfl
  case change => exact fun _ _ => rfl

theorem importLinks_undescribed [Path.WorkingDirectory] (byName : Bool) (files : List Extraction)
    (root : String) (e : Extraction) :
    importLinks (Index.ofFiles (files.map Extraction.undescribed) root) byName e.undescribed =
      importLinks (Index.ofFiles files root) byName e := by
  have path : e.undescribed.path = e.path := rfl
  have imports : e.undescribed.imports = e.imports := rfl
  simp only [importLinks_eq, resolve_eq_grouped, path, imports, placeAll_undescribed,
    nodesAt_undescribed, found_undescribed, grouped_undescribed, List.map_map, List.flatMap_map]
  rfl

theorem workspaceLinks_undescribed [Path.WorkingDirectory] (byName : Bool) (files : List Extraction)
    (root : String) :
    workspaceLinks byName (files.map Extraction.undescribed) root =
      (workspaceLinks byName files root).filter (·.relationship = .imports) := by
  have nodes : collected (files.map Extraction.undescribed) root =
      (collected files root).map Node.undescribed := by
    unfold collected
    rw [placeAll_undescribed, List.map_map, List.map_map]
    rfl
  rw [workspaceLinks_filter (fun r => decide (r = .imports)) byName files root (by decide)]
  unfold workspaceLinks
  rw [nodes, List.flatMap_map]
  simp only [importLinks_undescribed]
  congr 1
  apply List.flatMap_eq_nil_iff.mpr
  intro n hn
  obtain ⟨n, _, rfl⟩ := List.mem_map.mp hn
  rfl

end WithoutDescriptions

/-- An edge of heritage leads from a node to the first other node of a name that its description
lists, and each listed name has one such node at most. Imports and heritage do not touch each
other. -/
theorem build_heritage [Path.WorkingDirectory] (byName : Bool) (files : List Extraction)
    (root : String) (now : Float) :
    let g := Graph.build byName files root now
    (∀ source target, (∃ e ∈ g.edges, e.key = (source, target, .extends)) ↔
      ∃ n ∈ g.nodes, n.id = source ∧ ∃ base ∈ (Heritage.ofDescription n.description).bases,
        ∃ t, IsFirstNamed g.nodes base source t ∧ t.id = target) ∧
    (∀ source target, (∃ e ∈ g.edges, e.key = (source, target, .implements)) ↔
      ∃ n ∈ g.nodes, n.id = source ∧
        ∃ interface ∈ (Heritage.ofDescription n.description).interfaces,
          ∃ t, IsFirstNamed g.nodes interface source t ∧ t.id = target) ∧
    (∀ name source t t', IsFirstNamed g.nodes name source t →
      IsFirstNamed g.nodes name source t' → t = t') ∧
    (Graph.build byName (files.map Extraction.withoutImports) root now).edges =
      g.edges.filter (·.relationship ≠ .imports) ∧
    (Graph.build byName (files.map Extraction.undescribed) root now).edges =
      g.edges.filter (·.relationship = .imports) := by
  intro g
  have listed : ∀ r, r ≠ .imports → ∀ source target,
      (∃ e ∈ g.edges, e.key = (source, target, r)) ↔
        ∃ n ∈ g.nodes, n.id = source ∧ ∃ name ∈ n.listed r,
          ∃ t, IsFirstNamed g.nodes name source t ∧ t.id = target := by
    intro r other source target
    rw [← List.mem_map, heritage_key_iff other]
    simp only [firstNamed_eq_some_iff]
    rfl
  refine ⟨?_, ?_, ?_, ?_, ?_⟩
  · exact listed .extends (by decide)
  · exact listed .implements (by decide)
  · intro name source t t' h h'
    exact h.unique h'
  · rw [build_edges, build_edges, workspaceLinks_withoutImports]
    exact (edges_filter (fun r => decide (r ≠ .imports)) _).symm
  · rw [build_edges, build_edges, workspaceLinks_undescribed]
    exact (edges_filter (fun r => decide (r = .imports)) _).symm

end ComponentAtlas

import Mathlib.Data.List.Infix
import ComponentAtlas.Proofs.Graph.Order

/-!
What only adds relationships. The search by name answers statements for which no path leads to
anything, and more files put more nodes behind the ones that are there. In both cases every edge
stays, with its names, and in the first one whatever is new comes from such a statement.
-/

namespace ComponentAtlas

/-- The edge `e'` stands where `e` does and has its names; an edge without names stays without. -/
structure Edge.Within (e e' : Edge) : Prop where
  key : e'.key = e.key
  unnamed : e.names = none → e'.names = none
  named : ∀ names, e.names = some names → ∃ names', e'.names = some names' ∧ names ⊆ names'

theorem heritage_edge_names [Path.WorkingDirectory] {byName : Bool} {files : List Extraction}
    {root : String} {now : Float} {e : Edge} (he : e ∈ (Graph.build byName files root now).edges)
    (other : e.relationship ≠ .imports) : e.names = none := by
  rcases edge_names he with ⟨imported, _⟩ | ⟨_, unnamed⟩
  · exact absurd imported other
  · exact unnamed

/-- Edges stay where statements find what they found and heritage leads where it led. -/
theorem edges_within [Path.WorkingDirectory] {byName byName' : Bool}
    {files files' : List Extraction}
    {root root' : String} {now now' : Float}
    (finds : ∀ source target name, FindsUnder byName files root source target name →
      FindsUnder byName' files' root' source target name)
    (inherits : ∀ source target r, r ≠ .imports →
      (source, target, r) ∈ (Graph.build byName files root now).edges.map Edge.key →
      (source, target, r) ∈ (Graph.build byName' files' root' now').edges.map Edge.key) :
    ∀ e ∈ (Graph.build byName files root now).edges,
      ∃ e' ∈ (Graph.build byName' files' root' now').edges, e.Within e' := by
  intro e he
  have here : e.key ∈ (Graph.build byName files root now).edges.map Edge.key :=
    List.mem_map_of_mem he
  by_cases imported : e.relationship = .imports
  · have key : e.key = (e.source, e.target, .imports) := by rw [Edge.key, imported]
    have names := edge_import_names he key
    rw [key, import_key_iff] at here
    obtain ⟨proper, name, found⟩ := here
    have there : (e.source, e.target, .imports) ∈
        (Graph.build byName' files' root' now').edges.map Edge.key :=
      import_key_iff.mpr ⟨proper, name, finds _ _ _ found⟩
    obtain ⟨e', he', key'⟩ := List.mem_map.mp there
    have names' := edge_import_names he' key'
    refine ⟨e', he', key'.trans key.symm, ?_, ?_⟩
    · intro unnamed
      rw [unnamed] at names
      cases names
    · intro listed hlisted
      rw [names] at hlisted
      cases hlisted
      refine ⟨_, names', ?_⟩
      intro x hx
      rw [List.mem_eraseDups, mem_broughtNames_iff] at hx ⊢
      exact finds _ _ _ hx
  · have names := heritage_edge_names he imported
    obtain ⟨e', he', key'⟩ := List.mem_map.mp (inherits _ _ _ imported here)
    have same : e'.relationship = e.relationship := congrArg (fun k : EdgeKey => k.2.2) key'
    have names' := heritage_edge_names he' (same ▸ imported)
    refine ⟨e', he', key', ?_, ?_⟩
    · intro _
      exact names'
    · intro listed hlisted
      rw [names] at hlisted
      cases hlisted

section ByName

/-- The statement `i` of the file `r`, which declares `source`, imports `target` under the name. -/
structure Contributes [Path.WorkingDirectory] (byName : Bool) (files : List Extraction)
    (root : String) (r : Extraction) (i : ImportStatement) (source target name : String) :
    Prop where
  file_mem : r ∈ files
  declares : ∃ n ∈ nodesAt (placeAll (rootKey root) files) (fileKey r.path), n.id = source
  statement_mem : i ∈ r.imports
  resolves : ∃ t ∈ resolve (Index.ofFiles files root) byName i (fileKey r.path),
    t.node.id = target ∧ name ∈ t.names

/-- Some statement imports `target` under the name, and none that does has found anything by
path. -/
def OnlyByName [Path.WorkingDirectory] (files : List Extraction) (root source target name : String)
    : Prop :=
  (∃ r i, Contributes true files root r i source target name) ∧
    ∀ r i, Contributes true files root r i source target name →
      foundByPath (Index.ofFiles files root) i (fileKey r.path) = []

variable {files : List Extraction} {root source target name : String}

theorem findsUnder_iff_contributes [Path.WorkingDirectory] {byName : Bool} :
    FindsUnder byName files root source target name ↔
      ∃ r i, Contributes byName files root r i source target name := by
  constructor
  · rintro ⟨r, hr, declares, i, hi, found⟩
    rw [← mem_grouped_iff, ← resolve_eq_grouped] at found
    exact ⟨r, i, hr, declares, hi, found⟩
  · rintro ⟨r, i, hr, declares, hi, resolves⟩
    rw [resolve_eq_grouped, mem_grouped_iff] at resolves
    exact ⟨r, hr, declares, i, hi, resolves⟩

theorem imports_iff_contributes [Path.WorkingDirectory] {byName : Bool} {now : Float} :
    (Graph.build byName files root now).Imports source target name ↔
      source ≠ target ∧ ∃ r i, Contributes byName files root r i source target name := by
  rw [imports_iff_findsUnder, findsUnder_iff_contributes]

/-- Where a path leads to something, the search by name is not made. -/
theorem resolve_of_foundByPath {index : Index} {i : ImportStatement} {importer : String}
    (h : foundByPath index i importer ≠ []) :
    resolve index true i importer = resolve index false i importer := by
  have nonempty : (foundByPath index i importer).isEmpty = false := List.isEmpty_eq_false_iff.mpr h
  simp only [resolve, nonempty, Bool.false_and, Bool.false_eq_true, if_false, Bool.and_false]

theorem foundByPath_of_resolve {index : Index} {i : ImportStatement} {importer : String}
    {t : Target} (h : t ∈ resolve index false i importer) :
    foundByPath index i importer ≠ [] := by
  intro nothing
  simp only [resolve, nothing, Bool.and_false, Bool.false_eq_true, if_false] at h
  exact absurd h List.not_mem_nil

theorem Contributes.byName [Path.WorkingDirectory] {r : Extraction} {i : ImportStatement}
    (h : Contributes false files root r i source target name) :
    Contributes true files root r i source target name := by
  obtain ⟨t, ht, fits⟩ := h.resolves
  have same := resolve_of_foundByPath (foundByPath_of_resolve ht)
  exact { h with resolves := ⟨t, same ▸ ht, fits⟩ }

theorem Contributes.byPath [Path.WorkingDirectory] {r : Extraction} {i : ImportStatement}
    (h : Contributes true files root r i source target name)
    (found : foundByPath (Index.ofFiles files root) i (fileKey r.path) ≠ []) :
    Contributes false files root r i source target name := by
  obtain ⟨t, ht, fits⟩ := h.resolves
  exact { h with resolves := ⟨t, resolve_of_foundByPath found ▸ ht, fits⟩ }

theorem onlyByName_of_new [Path.WorkingDirectory] {now now' : Float}
    (there : (Graph.build true files root now').Imports source target name)
    (new : ¬ (Graph.build false files root now).Imports source target name) :
    OnlyByName files root source target name := by
  rw [imports_iff_contributes] at there new
  obtain ⟨proper, contributed⟩ := there
  refine ⟨contributed, ?_⟩
  intro r i h
  by_contra found
  exact new ⟨proper, r, i, h.byPath found⟩

end ByName

/-- Allowing the search by name keeps the nodes and every edge with its names. An import or a name
of an import that it adds comes from statements alone that find nothing by path. -/
theorem build_byName_adds [Path.WorkingDirectory] (files : List Extraction) (root : String)
    (now now' : Float) :
    (Graph.build true files root now').nodes = (Graph.build false files root now).nodes ∧
    (∀ e ∈ (Graph.build false files root now).edges,
      ∃ e' ∈ (Graph.build true files root now').edges, e.Within e') ∧
    (∀ source target name, (Graph.build true files root now').Imports source target name →
      ¬ (Graph.build false files root now).Imports source target name →
        OnlyByName files root source target name) ∧
    ∀ source target,
      (source, target, .imports) ∈ (Graph.build true files root now').edges.map Edge.key →
      (source, target, .imports) ∉ (Graph.build false files root now).edges.map Edge.key →
        (∃ name, (Graph.build true files root now').Imports source target name) ∧
        ∀ name, (Graph.build true files root now').Imports source target name →
          OnlyByName files root source target name := by
  refine ⟨rfl, ?_, ?_, ?_⟩
  · apply edges_within
    · intro source target name h
      obtain ⟨r, i, contributes⟩ := findsUnder_iff_contributes.mp h
      exact findsUnder_iff_contributes.mpr ⟨r, i, contributes.byName⟩
    · intro source target r other h
      rw [heritage_key_iff other] at h ⊢
      exact h
  · intro source target name there new
    exact onlyByName_of_new there new
  · intro source target there new
    constructor
    · obtain ⟨proper, name, found⟩ := import_key_iff.mp there
      exact ⟨name, imports_iff_findsUnder.mpr ⟨proper, found⟩⟩
    · intro name there
      have absent : ¬ (Graph.build false files root now).Imports source target name := by
        rintro ⟨e, he, key, _⟩
        exact new (key ▸ List.mem_map_of_mem he)
      exact onlyByName_of_new there absent

/-- The edge is there without the search, and the search adds a name to it. -/
theorem build_byName_adds_walk :
    let app : Extraction :=
      { functionFile "/p/a.ts" "main" with
        imports := [⟨"lib", ["walk"], false, false, false⟩, ⟨"./b", ["run"], false, false, false⟩] }
    let lib : Extraction :=
      ⟨"/p/b.ts", [⟨"run", .function, "/p/b.ts", 1, 0, .typescript, none, ["run", "walk"]⟩], [], []⟩
    let g := Graph.build false [app, lib] "/p" 0
    g.Imports (nodeId "/p/a.ts" "main") (nodeId "/p/b.ts" "run") "run" ∧
      OnlyByName [app, lib] "/p" (nodeId "/p/a.ts" "main") (nodeId "/p/b.ts" "run") "walk" := by
  intro app lib g
  have before : g.Imports (nodeId "/p/a.ts" "main") (nodeId "/p/b.ts" "run") "run" ∧
      ¬ g.Imports (nodeId "/p/a.ts" "main") (nodeId "/p/b.ts" "run") "walk" := by
    simp only [g, imports_iff_findsUnder]
    unfold FindsUnder
    decide +kernel
  have after : (Graph.build true [app, lib] "/p" 1).Imports (nodeId "/p/a.ts" "main")
      (nodeId "/p/b.ts" "run") "walk" := by
    rw [imports_iff_findsUnder]
    unfold FindsUnder
    decide +kernel
  exact ⟨before.1, (build_byName_adds [app, lib] "/p" 0 1).2.2.1 _ _ _ after before.2⟩

section MoreFiles

theorem prefix_placeNode (placed : List Placed) (p : Placed) : placed <+: placeNode placed p := by
  unfold placeNode
  split
  · exact List.prefix_refl _
  · exact List.prefix_append _ _

theorem prefix_foldl {α β : Type} {f : List β → α → List β} (step : ∀ l a, l <+: f l a)
    (as : List α) (l : List β) : l <+: as.foldl f l := by
  induction as generalizing l with
  | nil => exact List.prefix_refl _
  | cons a as ih => exact (step l a).trans (ih (f l a))

theorem prefix_placeAll [Path.WorkingDirectory] (root : String) (files more : List Extraction) :
    placeAll root files <+: placeAll root (files ++ more) := by
  unfold placeAll
  rw [List.foldl_append]
  apply prefix_foldl
  intro placed e
  exact prefix_foldl prefix_placeNode _ _

theorem collected_prefix [Path.WorkingDirectory] (root : String) (files more : List Extraction) :
    collected files root <+: collected (files ++ more) root :=
  (prefix_placeAll (rootKey root) files more).map Placed.node

theorem firstNamed_of_prefix {nodes nodes' : List Node} (h : nodes <+: nodes')
    {name exceptId : String} {t : Node} (found : firstNamed nodes name exceptId = some t) :
    firstNamed nodes' name exceptId = some t :=
  h.find?_eq_some found

theorem denoted_of_nodesAt {placed placed' : List Placed} {path : String}
    (h : nodesAt placed' path = nodesAt placed path) (i : ImportStatement) (name : String) :
    denoted placed' i path name = denoted placed i path name := by
  simp only [denoted, firstExporter?, h]

theorem denoted_of_no_nodes {placed : List Placed} {path : String} (h : nodesAt placed path = [])
    (i : ImportStatement) (name : String) : denoted placed i path name = [] := by
  simp [denoted, firstExporter?, h]

theorem pathPass_subset {placed placed' : List Placed}
    (h : ∀ path, nodesAt placed path = [] ∨ nodesAt placed' path = nodesAt placed path)
    (i : ImportStatement) (importer : String) :
    pathPass placed i importer ⊆ pathPass placed' i importer := by
  -- A source denotes places one by one; those that held nothing may hold something now.
  have each : ∀ path name, denoted placed i path name ⊆ denoted placed' i path name := by
    intro path name
    rcases h path with empty | same
    · rw [denoted_of_no_nodes empty]
      exact List.nil_subset _
    · rw [denoted_of_nodesAt same]
      exact List.Subset.refl _
  intro f hf
  unfold pathPass at hf ⊢
  split at hf
  · rename_i relative
    rw [if_pos relative]
    obtain ⟨path, hpath, hf⟩ := List.mem_flatMap.mp hf
    obtain ⟨name, hname, hf⟩ := List.mem_flatMap.mp hf
    obtain ⟨n, hn, rfl⟩ := List.mem_map.mp hf
    refine List.mem_flatMap.mpr ⟨path, hpath, List.mem_flatMap.mpr ⟨name, hname, ?_⟩⟩
    exact List.mem_map_of_mem (each path name hn)
  · exact absurd hf List.not_mem_nil

theorem found_false (placed : List Placed) (i : ImportStatement) (importer : String) :
    found placed false i importer = pathPass placed i importer := by
  rw [found, Bool.and_false, if_neg Bool.false_ne_true]

section Apart

variable [Path.WorkingDirectory] {files more : List Extraction}
  (apart : ∀ e ∈ more, ∀ r ∈ files, fileKey e.path ≠ fileKey r.path)
include apart

theorem nodesAt_append (root : String) {r : Extraction} (hr : r ∈ files) :
    nodesAt (placeAll root (files ++ more)) (fileKey r.path) =
      nodesAt (placeAll root files) (fileKey r.path) := by
  have none_new : more.filter (fileKey ·.path = fileKey r.path) = [] := by
    apply List.filter_eq_nil_iff.mpr
    intro e he
    simpa using apart e he r hr
  unfold nodesAt
  rw [placeAll_filter, placeAll_filter, List.filter_append, none_new, List.append_nil]

theorem nodesAt_kept (root path : String) :
    nodesAt (placeAll root files) path = [] ∨
      nodesAt (placeAll root (files ++ more)) path = nodesAt (placeAll root files) path := by
  by_cases known : ∃ r ∈ files, fileKey r.path = path
  · obtain ⟨r, hr, rfl⟩ := known
    exact .inr (nodesAt_append apart root hr)
  · left
    rw [nodesAt, placeAll_filter]
    have no_file : files.filter (fileKey ·.path = path) = [] := by
      apply List.filter_eq_nil_iff.mpr
      intro r hr here
      exact known ⟨r, hr, of_decide_eq_true here⟩
    rw [no_file]
    rfl

theorem findsUnder_append {root source target name : String}
    (h : FindsUnder false files root source target name) :
    FindsUnder false (files ++ more) root source target name := by
  obtain ⟨r, hr, declares, i, hi, f, hf, fits⟩ := h
  refine ⟨r, List.mem_append_left _ hr, ?_, i, hi, f, ?_, fits⟩
  · rw [nodesAt_append apart _ hr]
    exact declares
  · rw [found_false] at hf ⊢
    exact pathPass_subset (nodesAt_kept apart _) i _ hf

end Apart

/-- Without the search by name, files at other paths only add to a graph: its nodes come first, and
every edge stays with its names. -/
theorem build_append [Path.WorkingDirectory] {files more : List Extraction}
    (apart : ∀ e ∈ more, ∀ r ∈ files, fileKey e.path ≠ fileKey r.path) (root : String)
    (now now' : Float) :
    (Graph.build false files root now).nodes <+:
      (Graph.build false (files ++ more) root now').nodes ∧
    ∀ e ∈ (Graph.build false files root now).edges,
      ∃ e' ∈ (Graph.build false (files ++ more) root now').edges, e.Within e' := by
  have nodes := collected_prefix root files more
  refine ⟨nodes, ?_⟩
  apply edges_within
  · intro source target name h
    exact findsUnder_append apart h
  · intro source target r other h
    rw [heritage_key_iff other] at h ⊢
    obtain ⟨n, hn, id, name, listed, t, first, target_id⟩ := h
    exact ⟨n, nodes.subset hn, id, name, listed, t, firstNamed_of_prefix nodes first, target_id⟩

/-- The new file stands for the same place as the one that is imported and exports the same name. -/
theorem build_append_beside :
    let app : Extraction :=
      { functionFile "/p/a.ts" "main" with imports := [⟨"./util", ["run"], false, false, false⟩] }
    let files := [app, functionFile "/p/util.ts" "run"]
    let more := [functionFile "/p/util/index.ts" "run"]
    (∀ e ∈ more, ∀ r ∈ files, fileKey e.path ≠ fileKey r.path) ∧
      (Graph.build false (files ++ more) "/p" 1).Imports (nodeId "/p/a.ts" "main")
        (nodeId "/p/util.ts" "run") "run" := by
  intro app files more
  have apart : ∀ e ∈ more, ∀ r ∈ files, fileKey e.path ≠ fileKey r.path := by decide +kernel
  have before : (Graph.build false files "/p" 0).Imports (nodeId "/p/a.ts" "main")
      (nodeId "/p/util.ts" "run") "run" := by
    rw [imports_iff_findsUnder]
    unfold FindsUnder
    decide +kernel
  obtain ⟨e, he, key, names, listed, named⟩ := before
  obtain ⟨e', he', within⟩ := (build_append apart "/p" 0 1).2 e he
  obtain ⟨names', listed', kept⟩ := within.named names listed
  exact ⟨apart, e', he', within.key.trans key, names', listed', kept named⟩

end MoreFiles

end ComponentAtlas

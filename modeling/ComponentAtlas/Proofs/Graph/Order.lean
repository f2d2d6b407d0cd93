import Mathlib.Data.List.Nodup
import ComponentAtlas.Proofs.Graph.Relations

/-!
The order of the files. Where no two of them have one path, a file holds the same nodes in the same
order wherever it stands, so what a statement finds by path does not depend on the others; the
search by name finds the same nodes, in some order. Only the first node of a name can be another
one, and not where names differ.
-/

namespace ComponentAtlas

theorem filter_key_eq_of_perm {α κ : Type} [DecidableEq κ] {key : α → κ} {as bs : List α}
    (distinct : (bs.map key).Nodup) (h : as.Perm bs) (k : κ) :
    as.filter (key · = k) = bs.filter (key · = k) := by
  have keys : (bs.filter (key · = k)).map key = List.replicate (bs.filter (key · = k)).length k :=
    List.map_eq_replicate_iff.mpr fun a ha => of_decide_eq_true (List.mem_filter.mp ha).2
  have one : (bs.filter (key · = k)).length ≤ 1 := by
    rw [← List.nodup_replicate (a := k), ← keys]
    exact distinct.sublist (List.filter_sublist.map key)
  have same := h.filter (key · = k)
  match bs.filter (key · = k), one, same with
  | [], _, same => exact same.eq_nil
  | [b], _, same => exact List.perm_singleton.mp same

variable {files files' : List Extraction}

section Placing

variable (root : String)

theorem offers_filter [Path.WorkingDirectory] (e : Extraction) (path : String) :
    (offers root e).filter (·.file == path) =
      if fileKey e.path = path then offers root e else [] := by
  have filed : ∀ p ∈ offers root e, p.file = fileKey e.path := by
    intro p hp
    obtain ⟨d, _, rfl⟩ := List.mem_map.mp hp
    rfl
  split
  · rename_i here
    exact List.filter_eq_self.mpr fun p hp => beq_iff_eq.mpr ((filed p hp).trans here)
  · rename_i elsewhere
    exact List.filter_eq_nil_iff.mpr fun p hp same =>
      elsewhere ((filed p hp).symm.trans (beq_iff_eq.mp same))

/-- What is placed in a file comes from the extractions of that file alone. -/
theorem placeAll_filter [Path.WorkingDirectory] (files : List Extraction) (path : String) :
    (placeAll root files).filter (·.file == path) =
      placeAll root (files.filter (fileKey ·.path = path)) := by
  have offered : (files.flatMap (offers root)).filter (·.file == path) =
      (files.filter (fileKey ·.path = path)).flatMap (offers root) := by
    rw [List.filter_flatMap]
    induction files with
    | nil => rfl
    | cons e files ih =>
        rw [List.flatMap_cons, offers_filter, ih, List.filter_cons]
        by_cases here : fileKey e.path = path <;> simp [here]
  rw [placeAll_eq_table, placeAll_eq_table, ← offered]
  exact placing.table_filter (·.1 == path) (files.flatMap (offers root))

variable [Path.WorkingDirectory] (distinct : (files.map (fileKey ·.path)).Nodup)
  (h : files'.Perm files)
include distinct h

theorem placeAll_filter_of_perm (path : String) :
    (placeAll root files').filter (·.file == path) =
      (placeAll root files).filter (·.file == path) := by
  rw [placeAll_filter, placeAll_filter, filter_key_eq_of_perm distinct h]

theorem nodesAt_of_perm (path : String) :
    nodesAt (placeAll root files') path = nodesAt (placeAll root files) path := by
  rw [nodesAt, placeAll_filter_of_perm root distinct h, nodesAt]

theorem placeAll_of_perm : (placeAll root files').Perm (placeAll root files) := by
  have nodup : ∀ fs, (placeAll root fs).Nodup := fun fs => (placeAll_keys_nodup root fs).of_map
  -- Neither list repeats a node, so it is enough that each file has the same ones in both.
  refine (List.perm_ext_iff_of_nodup (nodup files') (nodup files)).mpr fun p => ?_
  have own : ∀ fs, p ∈ placeAll root fs ↔ p ∈ (placeAll root fs).filter (·.file == p.file) :=
    fun fs => by simp
  rw [own files', own files, placeAll_filter_of_perm root distinct h]

theorem collected_of_perm : (collected files' root).Perm (collected files root) :=
  (placeAll_of_perm (rootKey root) distinct h).map Placed.node

end Placing

section Finding

variable {placed placed' : List Placed}

/-- The places of a source are read one by one, each by itself. -/
theorem pathPass_congr (h : ∀ path, nodesAt placed' path = nodesAt placed path)
    (i : ImportStatement) (importer : String) :
    pathPass placed' i importer = pathPass placed i importer := by
  simp only [pathPass, denoted, firstExporter?, h]

theorem mem_namePass_of_perm (h : placed'.Perm placed) (i : ImportStatement)
    (f : Node × String) : f ∈ namePass placed' i ↔ f ∈ namePass placed i := by
  have same : ∀ name n, n ∈ exporters placed' name ↔ n ∈ exporters placed name := fun name n =>
    ((h.map (·.node)).filter fun n => name ∈ n.exports).mem_iff
  simp only [namePass, List.mem_flatMap, List.mem_map, same]

theorem mem_found_of_perm (h : placed'.Perm placed)
    (files_same : ∀ path, nodesAt placed' path = nodesAt placed path) (byName : Bool)
    (i : ImportStatement) (importer : String) (f : Node × String) :
    f ∈ found placed' byName i importer ↔ f ∈ found placed byName i importer := by
  rw [found, found, pathPass_congr files_same]
  split
  · exact mem_namePass_of_perm h i f
  · rfl

theorem findsUnder_of_perm [Path.WorkingDirectory] (distinct : (files.map (fileKey ·.path)).Nodup)
    (h : files'.Perm files) (byName : Bool) (root source target name : String) :
    FindsUnder byName files' root source target name ↔
      FindsUnder byName files root source target name := by
  have nodes := nodesAt_of_perm (rootKey root) distinct h
  have finds := mem_found_of_perm (placeAll_of_perm (rootKey root) distinct h) nodes byName
  simp only [FindsUnder, h.mem_iff, nodes, finds]

/-- Of nodes with different names the first one of a name is the only one. -/
theorem firstNamed_of_perm {nodes nodes' : List Node} (distinct : (nodes.map (·.name)).Nodup)
    (h : nodes'.Perm nodes) (name exceptId : String) :
    firstNamed nodes' name exceptId = firstNamed nodes name exceptId := by
  have cut : ∀ ns : List Node, firstNamed ns name exceptId =
      (ns.filter (·.name = name)).find? (·.id != exceptId) := by
    intro ns
    rw [List.find?_filter, firstNamed]
    exact List.find?_congr fun n _ => by rw [Bool.eq_iff_iff]; simp
  rw [cut, cut, filter_key_eq_of_perm distinct h]

end Finding

/-- Files in another order give the same nodes up to order, imports between the same ids with the
same names, and, where no two nodes have one name, the same relationships. -/
theorem build_of_perm [Path.WorkingDirectory] (distinct : (files.map (fileKey ·.path)).Nodup)
    (h : files'.Perm files) (byName : Bool) (root : String) (now now' : Float) :
    (Graph.build byName files' root now').nodes.Perm (Graph.build byName files root now).nodes ∧
    (∀ source target,
      (source, target, .imports) ∈ (Graph.build byName files' root now').edges.map Edge.key ↔
        (source, target, .imports) ∈ (Graph.build byName files root now).edges.map Edge.key) ∧
    (∀ e ∈ (Graph.build byName files root now).edges,
      ∀ e' ∈ (Graph.build byName files' root now').edges,
        e.relationship = .imports → e'.key = e.key →
          ∃ names names', e.names = some names ∧ e'.names = some names' ∧
            ∀ name, name ∈ names' ↔ name ∈ names) ∧
    (((Graph.build byName files root now).nodes.map (·.name)).Nodup → ∀ k,
      k ∈ (Graph.build byName files' root now').edges.map Edge.key ↔
        k ∈ (Graph.build byName files root now).edges.map Edge.key) := by
  have nodes := collected_of_perm root distinct h
  have finds := findsUnder_of_perm distinct h byName root
  have imports : ∀ source target,
      (source, target, .imports) ∈ (Graph.build byName files' root now').edges.map Edge.key ↔
        (source, target, .imports) ∈ (Graph.build byName files root now).edges.map Edge.key := by
    intro source target
    simp only [import_key_iff, finds]
  refine ⟨nodes, imports, ?_, ?_⟩
  · intro e he e' he' imported key
    have listed := edge_import_names he (Prod.ext rfl (Prod.ext rfl imported))
    have listed' := edge_import_names he' (key.trans (Prod.ext rfl (Prod.ext rfl imported)))
    refine ⟨_, _, listed, listed', fun name => ?_⟩
    rw [List.mem_eraseDups, List.mem_eraseDups, mem_broughtNames_iff, mem_broughtNames_iff, finds]
  · rintro names_differ ⟨source, target, r⟩
    by_cases imported : r = .imports
    · exact imported ▸ imports source target
    · rw [build_nodes] at names_differ
      simp only [heritage_key_iff imported, nodes.mem_iff, firstNamed_of_perm names_differ nodes]

/-- A file that imports from the other one may come before it or after it. -/
theorem build_of_perm_swapped :
    let app : Extraction :=
      { functionFile "/p/a.ts" "main" with imports := [⟨"./b", ["run"], false, false, false⟩] }
    let files := [app, functionFile "/p/b.ts" "run"]
    (files.map (fileKey ·.path)).Nodup ∧ files.reverse.Perm files ∧
      ((Graph.build true files "/p" 0).nodes.map (·.name)).Nodup ∧
      ∀ k, k ∈ (Graph.build true files.reverse "/p" 1).edges.map Edge.key ↔
        k ∈ (Graph.build true files "/p" 0).edges.map Edge.key := by
  intro app files
  have distinct : (files.map (fileKey ·.path)).Nodup := by decide +kernel
  have names : ((Graph.build true files "/p" 0).nodes.map (·.name)).Nodup := by
    rw [build_nodes]
    decide +kernel
  exact ⟨distinct, files.reverse_perm, names,
    (build_of_perm distinct files.reverse_perm true "/p" 0 1).2.2.2 names⟩

end ComponentAtlas

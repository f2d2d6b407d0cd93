import ComponentAtlas.Proofs.Graph.Relations
import ComponentAtlas.Proofs.Path.Way

/-!
Imports by a relative source. The way from the directory of a file to a place, written as the
source of a statement, reaches every file that stands for the place: the file itself without its
extension, or a directory by the file that stands for it. What the file exports under a name of
the statement is then imported under that name, with or without the search by name.
-/

namespace ComponentAtlas

/-- The file is the place with an extension, or speaks for the place as a directory. -/
def StandsFor (file place : String) : Prop :=
  ∃ ext ∈ sourceExtensions, file = place ++ ext ∨
    ∃ name ∈ directoryFiles, file = place ++ "/" ++ name ++ ext

section Places

theorem StandsFor.of_file {P : Char → Prop} {file place : String} (h : StandsFor file place)
    (h_file : Path.Over P file) : Path.Over P place := by
  intro c hc
  obtain ⟨ext, _, rfl | ⟨name, _, rfl⟩⟩ := h
  · exact h_file c (by simp [hc])
  · exact h_file c (by simp [hc])

theorem StandsFor.mem_candidatePaths {file place source importer : String}
    (h : StandsFor file place)
    (lands : Path.standard (Path.joined (Path.directory importer) source) = place) :
    file ∈ candidatePaths source importer := by
  unfold candidatePaths
  dsimp only
  rw [lands]
  obtain ⟨ext, hext, rfl | ⟨name, hname, rfl⟩⟩ := h
  · exact List.mem_append_left _ (List.mem_map_of_mem (List.mem_append_left _ hext))
  · refine List.mem_append_right _ (List.mem_flatMap.mpr ⟨name, hname, ?_⟩)
    exact List.mem_map.mpr ⟨ext, hext, rfl⟩

theorem mem_candidatePaths_iff {place source importer file : String}
    (lands : Path.standard (Path.joined (Path.directory importer) source) = place) :
    file ∈ candidatePaths source importer ↔ file = place ∨ StandsFor file place := by
  constructor
  · intro h
    rw [candidatePaths, lands] at h
    rcases List.mem_append.mp h with beside | below
    · obtain ⟨ext, hext, rfl⟩ := List.mem_map.mp beside
      rcases List.mem_append.mp hext with known | none
      · exact .inr ⟨ext, known, .inl rfl⟩
      · rw [List.mem_singleton.mp none, String.append_empty]
        exact .inl rfl
    · obtain ⟨name, hname, inside⟩ := List.mem_flatMap.mp below
      obtain ⟨ext, hext, rfl⟩ := List.mem_map.mp inside
      exact .inr ⟨ext, hext, .inr ⟨name, hname, rfl⟩⟩
  · rintro (rfl | stands)
    · rw [candidatePaths, lands]
      refine List.mem_append_left _ (List.mem_map.mpr ⟨"", ?_, String.append_empty⟩)
      exact List.mem_append_right _ (List.mem_singleton.mpr rfl)
    · exact stands.mem_candidatePaths lands

/-- The way to a place without backslashes ends there also in the form that the graph compares. -/
theorem standard_joined_way {importer place source : String} (himporter : Path.Normal importer)
    (hplace : Path.Normal place) (plain : Path.Over (· ≠ '\\') place)
    (h : source = Path.way (Path.directory importer) place ∨
      source = Path.way (Path.directory importer) place ++ "/") :
    Path.standard (Path.joined (Path.directory importer) source) = place := by
  rw [Path.standard, (Path.normalize_joined_way himporter hplace h).2, Path.forwardSlashes_eq plain]

end Places

section Finding

variable {placed : List Placed} {i : ImportStatement} {importer file name : String} {n : Node}

theorem mem_pathPass (relative : i.source.toList.head? = some '.')
    (hfile : file ∈ candidatePaths i.source importer) (named : name ∈ i.names)
    (single : name ≠ everything) (plain : i.isNamespace = false)
    (first : firstExporter? placed file name = some n) :
    (n, name) ∈ pathPass placed i importer := by
  have denotes : n ∈ denoted placed i file name := by
    rw [denoted, if_neg (by simp [single, plain]), first]
    exact List.mem_singleton.mpr rfl
  rw [pathPass, if_pos relative]
  refine List.mem_flatMap.mpr ⟨file, hfile, List.mem_flatMap.mpr ⟨name, named, ?_⟩⟩
  exact List.mem_map_of_mem denotes

/-- What is found by path is found in any case: the search by name only replaces an empty result. -/
theorem mem_found_of_mem_pathPass (byName : Bool) {f : Node × String}
    (h : f ∈ pathPass placed i importer) : f ∈ found placed byName i importer := by
  have nonempty : (pathPass placed i importer).isEmpty = false :=
    List.isEmpty_eq_false_iff.mpr (List.ne_nil_of_mem h)
  rw [found, nonempty, Bool.false_and, if_neg Bool.false_ne_true]
  exact h

theorem firstExporter?_file_plain [Path.WorkingDirectory] {root : String} {files : List Extraction}
    (h : firstExporter? (placeAll root files) file name = some n) :
    Path.Over (· ≠ '\\') file := by
  obtain ⟨p, hp, _⟩ := List.mem_map.mp (List.mem_of_find?_eq_some h)
  obtain ⟨placed_there, here⟩ := List.mem_filter.mp hp
  obtain ⟨e, _, key, _⟩ := placeAll_filed placed_there
  rw [← beq_iff_eq.mp here, key]
  exact Path.forwardSlashes_over _

end Finding

/-- A relative import is never missed: where the source of a statement is the way from the
directory of its file to a place, every node of the file is linked to the first node that a file
standing for the place exports under a name of the statement, and the edge carries the name. -/
theorem build_relative_import [Path.WorkingDirectory] (byName : Bool) {files : List Extraction}
    {root : String}
    (now : Float) {r : Extraction} {i : ImportStatement} {place file name : String} {s t : Node}
    (hr : r ∈ files) (hi : i ∈ r.imports)
    (importer : Path.Normal (fileKey r.path)) (there : Path.Normal place)
    (stands : StandsFor file place)
    (source : i.source = Path.way (Path.directory (fileKey r.path)) place ∨
      i.source = Path.way (Path.directory (fileKey r.path)) place ++ "/")
    (plain : i.isNamespace = false) (named : name ∈ i.names) (single : name ≠ everything)
    (first : firstExporter? (placeAll (rootKey root) files) file name = some t)
    (declared : s ∈ nodesAt (placeAll (rootKey root) files) (fileKey r.path))
    (other : s.id ≠ t.id) :
    (Graph.build byName files root now).Imports s.id t.id name := by
  have no_backslash := stands.of_file (firstExporter?_file_plain first)
  have lands := standard_joined_way importer there no_backslash source
  have relative := (Path.normalize_joined_way importer there source).1
  have member := mem_pathPass relative (stands.mem_candidatePaths lands) named single plain first
  have found_there := mem_found_of_mem_pathPass byName member
  exact imports_iff_findsUnder.mpr
    ⟨other, r, hr, ⟨s, declared, rfl⟩, i, hi, (t, name), found_there, rfl, rfl⟩

/-- The statement leads up once and down to a directory with an index file. -/
theorem build_relative_import_index :
    let app : Extraction :=
      { functionFile "/p/a/m.ts" "f" with imports := [⟨"../b", ["g"], false, false, false⟩] }
    let index := functionFile "/p/b/index.ts" "g"
    (Graph.build false [app, index] "/p" 0).Imports (nodeId "/p/a/m.ts" "f")
      (nodeId "/p/b/index.ts" "g") "g" := by
  intro app index
  have here : ∃ s ∈ nodesAt (placeAll (rootKey "/p") [app, index]) (fileKey app.path),
      s.id = nodeId "/p/a/m.ts" "f" := by decide +kernel
  have there : ∃ t ∈ firstExporter? (placeAll (rootKey "/p") [app, index]) "/p/b/index.ts" "g",
      t.id = nodeId "/p/b/index.ts" "g" := by decide +kernel
  have differ : nodeId "/p/a/m.ts" "f" ≠ nodeId "/p/b/index.ts" "g" := by decide +kernel
  have absent : '\\' ∉ (Path.absolute app.path).toList := by decide +kernel
  have normal : Path.Normal (fileKey app.path) :=
    normal_fileKey (fun _ hc same => absent (same ▸ hc)) (by decide +kernel)
  have place : Path.Normal "/p/b" := ⟨by decide +kernel, by decide +kernel⟩
  have stands : StandsFor "/p/b/index.ts" "/p/b" :=
    ⟨".ts", List.mem_cons_self, .inr ⟨"index", List.mem_cons_self, by decide +kernel⟩⟩
  have source : "../b" = Path.way (Path.directory (fileKey app.path)) "/p/b" := by decide +kernel
  obtain ⟨s, declared, hs⟩ := here
  obtain ⟨t, first, ht⟩ := there
  rw [← hs, ← ht] at differ ⊢
  exact build_relative_import false 0 List.mem_cons_self List.mem_cons_self normal place stands
    (.inl source) rfl List.mem_cons_self (by decide) first declared differ

end ComponentAtlas

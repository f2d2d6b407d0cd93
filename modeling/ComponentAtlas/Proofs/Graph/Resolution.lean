import Mathlib.Data.List.Basic
import Mathlib.Data.List.Find
import ComponentAtlas.Graph.Build
import ComponentAtlas.Proofs.Graph.FileKey
import ComponentAtlas.Proofs.Graph.Index
import ComponentAtlas.Proofs.Graph.Placement

/-!
Resolution without tables. A statement is read off the list of collected nodes and the paths of
their files alone: the relative and shortened paths under which nodes are filed as well are never
reached, since every place that a relative source may denote is absolute and they are not.
-/

namespace ComponentAtlas

/-- The nodes of the file at `path`, in the order of collection. -/
def nodesAt (placed : List Placed) (path : String) : List Node :=
  (placed.filter (·.file == path)).map (·.node)

def firstExporter? (placed : List Placed) (path name : String) : Option Node :=
  (nodesAt placed path).find? fun n => name ∈ n.exports

def exporters (placed : List Placed) (name : String) : List Node :=
  (placed.map (·.node)).filter fun n => name ∈ n.exports

/-- What a name of a statement denotes in the file at `path`. -/
def denoted (placed : List Placed) (i : ImportStatement) (path name : String) : List Node :=
  if name = everything ∨ i.isNamespace then nodesAt placed path
  else match firstExporter? placed path name with
    | some node => [node]
    | none => if i.isDefault then (firstExporter? placed path defaultExport).toList else []

/-- What the places that a relative source may denote hold, place by place and name by name. -/
def pathPass (placed : List Placed) (i : ImportStatement) (importer : String) :
    List (Node × String) :=
  if i.source.toList.head? = some '.' then
    (candidatePaths i.source importer).flatMap fun path =>
      i.names.flatMap fun name => (denoted placed i path name).map (·, name)
  else []

/-- What the whole workspace exports under the names of a statement. -/
def namePass (placed : List Placed) (i : ImportStatement) : List (Node × String) :=
  (i.names.filter fun name => name ≠ everything ∧ name ≠ defaultExport).flatMap fun name =>
    (exporters placed name).map (·, name)

/-- One target for each id in the order in which ids are found: the first node found with that
id, under the different names with which the id is found. -/
def grouped (found : List (Node × String)) : List Target :=
  (found.map (·.1.id)).eraseDups.filterMap fun id =>
    (found.find? (·.1.id = id)).map fun first =>
      ⟨first.1, ((found.filter (·.1.id = id)).map (·.2)).eraseDups⟩

def resolveByScan (placed : List Placed) (byName : Bool) (i : ImportStatement)
    (importer : String) : List Target :=
  let found := pathPass placed i importer
  grouped (if found.isEmpty && byName then namePass placed i else found)

section Grouping

/-- Targets are told apart by id; a name found again is not added again. -/
def targeting : Entry (Node × String) Target String where
  itemKey found := found.1.id
  rowKey t := t.node.id
  start found := ⟨found.1, [found.2]⟩
  change found t :=
    { t with names := if t.names.contains found.2 then t.names else t.names ++ [found.2] }
  rowKey_start _ := rfl
  rowKey_change _ _ := rfl

theorem addTarget_eq_enter (node : Node) (name : String) (targets : List Target) :
    addTarget node name targets = targeting.enter (node, name) targets := by
  induction targets with
  | nil => rfl
  | cons t rest ih =>
      rw [addTarget, Entry.enter, ih]
      by_cases h : t.node.id = node.id
      · have same : targeting.rowKey t = targeting.itemKey (node, name) := h
        rw [if_pos (beq_iff_eq.mpr h), if_pos same]
        rfl
      · have other : ¬ targeting.rowKey t = targeting.itemKey (node, name) := h
        rw [if_neg (mt beq_iff_eq.mp h), if_neg other]

theorem groupTargets_eq_table (found : List (Node × String)) :
    groupTargets found = targeting.table found := by
  rw [groupTargets, Entry.table]
  congr 1
  funext targets f
  exact addTarget_eq_enter f.1 f.2 targets

theorem targeting_foldl (rest : List (Node × String)) (node : Node) (names : List String) :
    rest.foldl (fun t f => targeting.change f t) ⟨node, names.eraseDups⟩ =
      ⟨node, (names ++ rest.map (·.2)).eraseDups⟩ := by
  induction rest generalizing names with
  | nil => simp
  | cons f rest ih =>
      have step : targeting.change f ⟨node, names.eraseDups⟩ =
          ⟨node, (names ++ [f.2]).eraseDups⟩ := by
        simp only [targeting, List.contains_iff_mem, List.mem_eraseDups, eraseDups_concat]
      rw [List.foldl_cons, step, ih, List.append_assoc]
      rfl

theorem targeting_rowOf? (found : List (Node × String)) :
    targeting.rowOf? found =
      found.head?.map fun first => ⟨first.1, (found.map (·.2)).eraseDups⟩ := by
  cases found with
  | nil => rfl
  | cons first rest => exact congrArg some (targeting_foldl rest first.1 [first.2])

theorem groupTargets_eq_grouped (found : List (Node × String)) :
    groupTargets found = grouped found := by
  rw [groupTargets_eq_table, Entry.table_eq, grouped]
  congr 1
  funext id
  rw [targeting_rowOf?, Entry.itemsOf, List.head?_filter]
  rfl

theorem groupTargets_ids_nodup (found : List (Node × String)) :
    ((groupTargets found).map (·.node.id)).Nodup := by
  rw [groupTargets_eq_table]
  exact targeting.table_keys_nodup found

/-- A target is a node that was found, under names that are not repeated. -/
theorem mem_groupTargets {found : List (Node × String)} {t : Target}
    (h : t ∈ groupTargets found) :
    (∃ f ∈ found, f.1 = t.node) ∧ t.names ≠ [] ∧ t.names.Nodup := by
  rw [groupTargets_eq_grouped, grouped, List.mem_filterMap] at h
  obtain ⟨id, _, h⟩ := h
  obtain ⟨first, hfirst, rfl⟩ := Option.map_eq_some_iff.mp h
  have member := List.mem_of_find?_eq_some hfirst
  have holds := List.find?_some hfirst
  have kept : first ∈ found.filter (·.1.id = id) := List.mem_filter.mpr ⟨member, holds⟩
  have named : first.2 ∈ ((found.filter (·.1.id = id)).map (·.2)).eraseDups :=
    List.mem_eraseDups.mpr (List.mem_map_of_mem kept)
  exact ⟨⟨first, member, rfl⟩, List.ne_nil_of_mem named, eraseDups_nodup _⟩

end Grouping

section Scanning

theorem candidatePaths_absolute {source importer path : String}
    (h : Path.isAbsolute importer = true) (member : path ∈ candidatePaths source importer) :
    Path.isAbsolute path = true := by
  have base : Path.isAbsolute
      (Path.standard (Path.joined (Path.directory importer) source)) = true :=
    Path.isAbsolute_standard (Path.isAbsolute_joined (Path.isAbsolute_directory h))
  rw [candidatePaths, List.mem_append, List.mem_map, List.mem_flatMap] at member
  rcases member with ⟨ext, _, rfl⟩ | ⟨file, _, inside⟩
  · exact Path.isAbsolute_append ext base
  · obtain ⟨ext, _, rfl⟩ := List.mem_map.mp inside
    exact Path.isAbsolute_append _ (Path.isAbsolute_append _ (Path.isAbsolute_append _ base))

/-- Of the paths under which a file is filed only its own one is absolute. -/
theorem mem_filingKeys_iff [Path.WorkingDirectory] {root file path : String}
    (plain : Path.Over (· ≠ '\\') file) (own : Path.isAbsolute file = true)
    (h : Path.isAbsolute path = true) :
    path ∈ filingKeys root file ↔ file = path := by
  have inside : Path.Over (· ≠ '\\') (Path.absolute file) :=
    Path.absolute_over (by decide) (by decide) plain fun relative =>
      absurd (own.symm.trans relative) (by decide)
  have way : Path.isAbsolute (Path.standard (Path.relative file root)) = false := by
    rw [Path.isAbsolute_standard_of_over (Path.relative_over (by decide) (by decide) root inside)]
    exact Path.isAbsolute_relative file root
  have short := Path.isAbsolute_withoutExtension way
  have apart : ∀ key, Path.isAbsolute key = false → path ≠ key := by
    intro key relative same
    rw [same, relative] at h
    exact Bool.false_ne_true h
  have notWay := apart _ way
  have notShort := apart _ short
  simp only [filingKeys, List.mem_cons, List.not_mem_nil, or_false, notWay, notShort]
  exact eq_comm

theorem exporter?_ofFiles [Path.WorkingDirectory] (files : List Extraction) (root : String)
    {path : String} (name : String) (h : Path.isAbsolute path = true) :
    (Index.ofFiles files root).exporter? path name =
      firstExporter? (placeAll (rootKey root) files) path name := by
  rw [Index.ofFiles, Index.exporter?_ofPlaced, firstExporter?, nodesAt, List.find?_map,
    List.find?_filter]
  congr 1
  refine List.find?_congr fun p hp => ?_
  obtain ⟨e, _, file, keys⟩ := placeAll_filed hp
  have plain : Path.Over (· ≠ '\\') p.file := file ▸ Path.forwardSlashes_over _
  have own : Path.isAbsolute p.file = true := file ▸ isAbsolute_fileKey e.path
  simp only [keys, mem_filingKeys_iff plain own h, Function.comp_apply, beq_iff_eq,
    decide_eq_true_eq]

theorem nodesInFile_ofFiles [Path.WorkingDirectory] (files : List Extraction) (root : String)
    (i : ImportStatement) {path : String} (name : String) (h : Path.isAbsolute path = true) :
    nodesInFile (Index.ofFiles files root) i path name =
      denoted (placeAll (rootKey root) files) i path name := by
  have file : (Index.ofFiles files root).inFile path =
      nodesAt (placeAll (rootKey root) files) path := Index.inFile_ofPlaced _ _
  simp only [nodesInFile, exporter?_ofFiles files root _ h, file, ImportStatement.wantsAll,
    Bool.or_eq_true, beq_iff_eq]
  rfl

theorem foundByPath_ofFiles [Path.WorkingDirectory] (files : List Extraction) (root : String)
    (i : ImportStatement) {importer : String} (h : Path.isAbsolute importer = true) :
    foundByPath (Index.ofFiles files root) i importer =
      pathPass (placeAll (rootKey root) files) i importer := by
  have starts : i.isRelative = true ↔ i.source.toList.head? = some '.' := beq_iff_eq
  simp only [foundByPath, pathPass, starts]
  split
  · refine List.flatMap_congr fun path member => List.flatMap_congr fun name _ => ?_
    rw [nodesInFile_ofFiles files root i name (candidatePaths_absolute h member)]
  · rfl

/-- A node found under a name as often as it exports it is found as if it did so once. -/
theorem exporting_once (placed : List Placed) (name : String) (targets : List Target) :
    (((Index.ofPlaced placed).exporting name).map (·, name)).foldl
        (fun rows f => targeting.enter f rows) targets =
      ((exporters placed name).map (·, name)).foldl
        (fun rows f => targeting.enter f rows) targets := by
  rw [Index.exporting_ofPlaced, exporters]
  induction placed generalizing targets with
  | nil => rfl
  | cons p placed ih =>
      have start : targeting.change (p.node, name) (targeting.start (p.node, name)) =
          targeting.start (p.node, name) := by simp [targeting]
      have again : ∀ t, targeting.change (p.node, name) (targeting.change (p.node, name) t) =
          targeting.change (p.node, name) t := by
        intro t
        by_cases h : name ∈ t.names <;> simp [targeting, h]
      rw [List.flatMap_cons, List.map_append, List.foldl_append, List.map_replicate,
        targeting.foldl_enter_replicate start again, ih, List.map_cons]
      by_cases h : name ∈ p.node.exports
      · have some_time : p.node.exports.count name ≠ 0 := mt List.count_eq_zero.mp (not_not.mpr h)
        simp [h, some_time]
      · have never : p.node.exports.count name = 0 := List.count_eq_zero.mpr h
        simp [h, never]

theorem groupTargets_foundByName (placed : List Placed) (i : ImportStatement) :
    groupTargets (foundByName (Index.ofPlaced placed) i) = groupTargets (namePass placed i) := by
  have names : (i.names.filter fun name => name != everything && name != defaultExport) =
      i.names.filter fun name => name ≠ everything ∧ name ≠ defaultExport :=
    List.filter_congr fun name _ => by rw [Bool.eq_iff_iff]; simp
  rw [groupTargets_eq_table, groupTargets_eq_table, Entry.table, Entry.table, foundByName, namePass,
    List.foldl_flatMap, List.foldl_flatMap, names]
  congr 1
  funext targets name
  exact exporting_once placed name targets

theorem resolve_ofFiles [Path.WorkingDirectory] (files : List Extraction) (root : String)
    (byName : Bool) (i : ImportStatement) {importer : String} (h : Path.isAbsolute importer = true)
    :
    resolve (Index.ofFiles files root) byName i importer =
      resolveByScan (placeAll (rootKey root) files) byName i importer := by
  have fallback : groupTargets (foundByName (Index.ofFiles files root) i) =
      grouped (namePass (placeAll (rootKey root) files) i) := by
    rw [Index.ofFiles, groupTargets_foundByName, groupTargets_eq_grouped]
  simp only [resolve, foundByPath_ofFiles files root i h, fallback, groupTargets_eq_grouped,
    resolveByScan]
  exact (apply_ite grouped _ _ _).symm

theorem mem_nodesAt_of_mem_denoted {placed : List Placed} {i : ImportStatement} {path name : String}
    {n : Node} (h : n ∈ denoted placed i path name) : n ∈ nodesAt placed path := by
  have first : ∀ x m, firstExporter? placed path x = some m → m ∈ nodesAt placed path :=
    fun _ _ found => List.mem_of_find?_eq_some found
  rw [denoted] at h
  split at h
  · exact h
  · split at h
    · rename_i m found
      exact List.mem_singleton.mp h ▸ first name m found
    · split at h
      · exact first defaultExport n (Option.mem_toList.mp h)
      · exact absurd h List.not_mem_nil

/-- A node of a file that a source may denote. -/
theorem pathPass_file {placed : List Placed} {i : ImportStatement} {importer : String}
    {f : Node × String} (h : f ∈ pathPass placed i importer) :
    ∃ p ∈ placed, p.node = f.1 ∧ p.file ∈ candidatePaths i.source importer := by
  have within : ∀ path, ∀ n ∈ nodesAt placed path, ∃ p ∈ placed, p.node = n ∧ p.file = path := by
    intro path n hn
    obtain ⟨p, member, rfl⟩ := List.mem_map.mp hn
    exact ⟨p, (List.mem_filter.mp member).1, rfl, by simpa using (List.mem_filter.mp member).2⟩
  rw [pathPass] at h
  split at h
  · obtain ⟨path, hpath, h⟩ := List.mem_flatMap.mp h
    obtain ⟨name, _, h⟩ := List.mem_flatMap.mp h
    obtain ⟨n, hn, rfl⟩ := List.mem_map.mp h
    obtain ⟨p, hp, node, file⟩ := within path n (mem_nodesAt_of_mem_denoted hn)
    exact ⟨p, hp, node, file ▸ hpath⟩
  · exact absurd h List.not_mem_nil

end Scanning

/-- Resolution from an absolute path reads nothing but the collected nodes and the absolute paths
of their files. Targets differ in their ids and no target repeats a name. What is found without a
search by name lies in a file at one of the places that the source may denote. -/
theorem resolve_eq_scan [Path.WorkingDirectory] (files : List Extraction) (root : String)
    (byName : Bool) (i : ImportStatement) (importer : String) (h : Path.isAbsolute importer = true)
    :
    resolve (Index.ofFiles files root) byName i importer =
        resolveByScan (placeAll (rootKey root) files) byName i importer ∧
      ((resolve (Index.ofFiles files root) byName i importer).map (·.node.id)).Nodup ∧
      (∀ t ∈ resolve (Index.ofFiles files root) byName i importer, t.names.Nodup) ∧
      ∀ t ∈ resolve (Index.ofFiles files root) false i importer,
        ∃ p ∈ placeAll (rootKey root) files,
          p.node = t.node ∧ p.file ∈ candidatePaths i.source importer := by
  refine ⟨resolve_ofFiles files root byName i h, ?_, ?_, ?_⟩
  · rw [resolve]
    split <;> exact groupTargets_ids_nodup _
  · intro t ht
    rw [resolve] at ht
    split at ht <;> exact (mem_groupTargets ht).2.2
  · intro t ht
    rw [resolve_ofFiles files root false i h, resolveByScan, Bool.and_false,
      if_neg Bool.false_ne_true, ← groupTargets_eq_grouped] at ht
    obtain ⟨f, hf, node⟩ := (mem_groupTargets ht).1
    exact node ▸ pathPass_file hf

/-- The file `util.ts` of the root has the relative key that a file beside the importer might be
taken to denote, and is not found for it. -/
theorem resolve_eq_scan_beside :
    Path.isAbsolute "/proj/src/app.ts" = true ∧
      (resolve (Index.ofFiles
          [functionFile "/proj/util.ts" "run", functionFile "/proj/src/util.ts" "run"]
          "/proj") true ⟨"./util", ["run"], false, false, false⟩ "/proj/src/app.ts").map
        (fun t => (t.node.path, t.names)) = [("/proj/src/util.ts", ["run"])] := by
  refine ⟨by decide, ?_⟩
  rw [(resolve_eq_scan _ _ _ _ "/proj/src/app.ts" (by decide)).1]
  decide +kernel

end ComponentAtlas

import ComponentAtlas.Graph.Index
import ComponentAtlas.Proofs.Table

/-!
Where the nodes of a workspace come from. Every file offers its declarations as nodes; an offered
node is collected unless its file already has a node with its id. What is collected is therefore a
table with the first offer of every file and id.
-/

namespace ComponentAtlas

/-- The declarations of one file as nodes under the keys of the file. -/
def offers [Path.WorkingDirectory] (root : String) (e : Extraction) : List Placed :=
  e.declarations.map fun d =>
    ⟨Node.ofDeclaration d, fileKey e.path, filingKeys root (fileKey e.path)⟩

/-- A file with one function, exported under its own name, and no imports. -/
def functionFile (path name : String) : Extraction :=
  ⟨path, [⟨name, .function, path, 1, 0, .typescript, none, [name]⟩], [], []⟩

def Placed.key (p : Placed) : String × String := (p.file, p.node.id)

/-- Collected nodes are told apart by file and id, and the first one stays as it is. -/
def placing : Entry Placed Placed (String × String) where
  itemKey := Placed.key
  rowKey := Placed.key
  start p := p
  change _ row := row
  rowKey_start _ := rfl
  rowKey_change _ _ := rfl

theorem placing_rowOf? (items : List Placed) : placing.rowOf? items = items.head? := by
  cases items with
  | nil => rfl
  | cons p rest =>
      have keeps : rest.foldl (fun row b => placing.change b row) p = p := by
        induction rest with
        | nil => rfl
        | cons _ _ ih => exact ih
      exact congrArg some keeps

theorem placeNode_eq_enter (placed : List Placed) (p : Placed) :
    placeNode placed p = placing.enter p placed := by
  induction placed with
  | nil => rfl
  | cons q placed ih =>
      rw [Entry.enter]
      by_cases h : q.key = p.key
      · obtain ⟨file, id⟩ := Prod.mk.inj h
        have held : placeNode (q :: placed) p = q :: placed := by
          simp [placeNode, file, id]
        rw [held, if_pos (show placing.rowKey q = placing.itemKey p from h)]
        rfl
      · have apart : (q.file == p.file && q.node.id == p.node.id) = false := by
          rw [Bool.eq_false_iff]
          intro both
          simp only [Bool.and_eq_true, beq_iff_eq] at both
          exact h (Prod.ext both.1 both.2)
        rw [if_neg (show ¬ placing.rowKey q = placing.itemKey p from h), ← ih]
        simp only [placeNode, List.any_cons, apart, Bool.false_or]
        split <;> rfl

theorem placeAll_eq_table [Path.WorkingDirectory] (root : String) (files : List Extraction) :
    placeAll root files = placing.table (files.flatMap (offers root)) := by
  rw [Entry.table, List.foldl_flatMap, placeAll]
  congr 1
  funext placed e
  change (offers root e).foldl placeNode placed = _
  congr 1
  funext placed p
  exact placeNode_eq_enter placed p

theorem placeAll_keys_nodup [Path.WorkingDirectory] (root : String) (files : List Extraction) :
    ((placeAll root files).map Placed.key).Nodup := by
  rw [placeAll_eq_table]
  exact placing.table_keys_nodup _

/-- A file has a node with an id exactly where it declares something with that id. -/
theorem mem_placeAll_keys [Path.WorkingDirectory] (root : String) (files : List Extraction)
    (file id : String) :
    (file, id) ∈ (placeAll root files).map Placed.key ↔
      ∃ e ∈ files, ∃ d ∈ e.declarations, fileKey e.path = file ∧ d.id = id := by
  rw [placeAll_eq_table, show Placed.key = placing.rowKey from rfl, Entry.mem_table_keys]
  simp only [offers, placing, Placed.key, Node.ofDeclaration, List.map_flatMap, List.map_map,
    List.mem_flatMap, List.mem_map, Function.comp_apply, Prod.mk.injEq]

theorem mem_offers_of_mem_placeAll [Path.WorkingDirectory] {root : String} {files : List Extraction}
    {p : Placed} (h : p ∈ placeAll root files) : ∃ e ∈ files, p ∈ offers root e := by
  rw [placeAll_eq_table, Entry.mem_table_iff, placing_rowOf?] at h
  have offered := List.mem_of_mem_filter (List.mem_of_head? h)
  exact List.mem_flatMap.mp offered

/-- The keys of a collected node are those of its file, which is one of the files given. -/
theorem placeAll_filed [Path.WorkingDirectory] {root : String} {files : List Extraction}
    {p : Placed} (h : p ∈ placeAll root files) :
    ∃ e ∈ files, p.file = fileKey e.path ∧ p.keys = filingKeys root p.file := by
  obtain ⟨e, he, offered⟩ := mem_offers_of_mem_placeAll h
  obtain ⟨d, _, rfl⟩ := List.mem_map.mp offered
  exact ⟨e, he, rfl, rfl⟩

/-- Within one file all ids differ. -/
theorem ids_nodup_in_file [Path.WorkingDirectory] (root : String) (files : List Extraction)
    (file : String) :
    (((placeAll root files).filter (·.file == file)).map (·.node.id)).Nodup := by
  have keys : (((placeAll root files).filter (·.file == file)).map Placed.key).Nodup :=
    (placeAll_keys_nodup root files).sublist (List.filter_sublist.map Placed.key)
  have paired : ((placeAll root files).filter (·.file == file)).map Placed.key =
      (((placeAll root files).filter (·.file == file)).map (·.node.id)).map (file, ·) := by
    rw [List.map_map]
    refine List.map_congr_left fun p hp => ?_
    have hfile : p.file = file := by simpa using (List.mem_filter.mp hp).2
    simp only [Placed.key, Function.comp_apply, hfile]
  rw [paired] at keys
  exact keys.of_map _

end ComponentAtlas

import Std.Data.HashMap.Lemmas
import ComponentAtlas.Graph.Index

/-!
What the tables of an index hold, said of the list of placed nodes alone: under a path and a name
the first node filed under that path that exports the name, under a file all its nodes, and under
a name every node once for each time that it exports the name.
-/

namespace ComponentAtlas.Index

theorem fileExport_get (table : Std.HashMap (String × String) Node) (node : Node)
    (key k : String × String) :
    (fileExport table node key)[k]? = table[k]?.or (if key = k then some node else none) := by
  rw [fileExport, Std.HashMap.getElem?_insertIfNew]
  by_cases h : key = k
  · subst h
    by_cases taken : key ∈ table <;> simp [taken]
  · simp [h]

theorem fileExports_get (keys : List (String × String)) (node : Node) (k : String × String)
    (table : Std.HashMap (String × String) Node) :
    (keys.foldl (fun table key => fileExport table node key) table)[k]? =
      table[k]?.or (if k ∈ keys then some node else none) := by
  induction keys generalizing table with
  | nil => simp
  | cons key keys ih =>
      rw [List.foldl_cons, ih, fileExport_get, Option.or_assoc]
      congr 1
      by_cases h : key = k
      · simp [h]
      · have h' : k ≠ key := fun e => h e.symm
        simp [h, h']

theorem append_getD (table : Std.HashMap String (List Node)) (key k : String) (node : Node) :
    (append table key node).getD k [] = table.getD k [] ++ if key = k then [node] else [] := by
  rw [append, Std.HashMap.getD_insert]
  by_cases h : key = k <;> simp [h]

theorem appends_getD (names : List String) (node : Node) (k : String)
    (table : Std.HashMap String (List Node)) :
    (names.foldl (fun table name => append table name node) table).getD k [] =
      table.getD k [] ++ List.replicate (names.count k) node := by
  induction names generalizing table with
  | nil => simp
  | cons name names ih =>
      rw [List.foldl_cons, ih, append_getD, List.append_assoc]
      congr 1
      by_cases h : name = k
      · simp [h, List.replicate_succ]
      · simp [h]

theorem mem_exportKeys (p : Placed) (path name : String) :
    (path, name) ∈ exportKeys p ↔ path ∈ p.keys ∧ name ∈ p.node.exports := by
  simp only [exportKeys, List.mem_flatMap, List.mem_map, Prod.mk.injEq]
  constructor
  · rintro ⟨n, hn, key, hkey, rfl, rfl⟩
    exact ⟨hkey, hn⟩
  · rintro ⟨hpath, hname⟩
    exact ⟨name, hname, path, hpath, rfl, rfl⟩

theorem exporter?_add (index : Index) (p : Placed) (path name : String) :
    (index.add p).exporter? path name = (index.exporter? path name).or
      (if path ∈ p.keys ∧ name ∈ p.node.exports then some p.node else none) := by
  simp only [exporter?, add, fileExports_get, mem_exportKeys]

theorem inFile_add (index : Index) (p : Placed) (path : String) :
    (index.add p).inFile path = index.inFile path ++ if p.file = path then [p.node] else [] :=
  append_getD _ _ _ _

theorem exporting_add (index : Index) (p : Placed) (name : String) :
    (index.add p).exporting name =
      index.exporting name ++ List.replicate (p.node.exports.count name) p.node :=
  appends_getD _ _ _ _

/-- The first node filed under the path that exports the name. -/
theorem exporter?_ofPlaced (placed : List Placed) (path name : String) :
    (ofPlaced placed).exporter? path name =
      (placed.find? fun p => path ∈ p.keys ∧ name ∈ p.node.exports).map (·.node) := by
  have run : ∀ index : Index, (placed.foldl add index).exporter? path name =
      (index.exporter? path name).or
        ((placed.find? fun p => path ∈ p.keys ∧ name ∈ p.node.exports).map (·.node)) := by
    induction placed with
    | nil => simp
    | cons p placed ih =>
        intro index
        rw [List.foldl_cons, ih, exporter?_add, Option.or_assoc]
        congr 1
        by_cases h : path ∈ p.keys ∧ name ∈ p.node.exports <;> simp [h]
  rw [ofPlaced, run]
  simp [empty, exporter?]

/-- The nodes of a file in the order in which they were placed. -/
theorem inFile_ofPlaced (placed : List Placed) (path : String) :
    (ofPlaced placed).inFile path = (placed.filter (·.file == path)).map (·.node) := by
  have run : ∀ index : Index, (placed.foldl add index).inFile path =
      index.inFile path ++ (placed.filter (·.file == path)).map (·.node) := by
    induction placed with
    | nil => simp
    | cons p placed ih =>
        intro index
        rw [List.foldl_cons, ih, inFile_add, List.append_assoc]
        congr 1
        by_cases h : p.file = path <;> simp [h]
  rw [ofPlaced, run]
  simp [empty, inFile]

/-- A node that lists a name twice among its exports is found twice under it. -/
theorem exporting_ofPlaced (placed : List Placed) (name : String) :
    (ofPlaced placed).exporting name =
      placed.flatMap fun p => List.replicate (p.node.exports.count name) p.node := by
  have run : ∀ index : Index, (placed.foldl add index).exporting name = index.exporting name ++
      placed.flatMap fun p => List.replicate (p.node.exports.count name) p.node := by
    induction placed with
    | nil => simp
    | cons p placed ih =>
        intro index
        rw [List.foldl_cons, ih, exporting_add, List.append_assoc, List.flatMap_cons]
  rw [ofPlaced, run]
  simp [empty, exporting]

end ComponentAtlas.Index

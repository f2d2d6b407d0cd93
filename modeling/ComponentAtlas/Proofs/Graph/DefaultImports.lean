import ComponentAtlas.Proofs.Graph.RelativeImports

/-!
Default imports. The importer chooses the name of what it imports by default, and the file is first
asked for an export of that name. So a statement reaches the default export of a file exactly where
no other node of the file is the first to export the chosen name.
-/

namespace ComponentAtlas

/-- A statement that imports what a file exports by default, under a name of its own. -/
structure ImportsDefault (i : ImportStatement) (name : String) : Prop where
  relative : i.source.toList.head? = some '.'
  single : i.names = [name]
  plain : i.isNamespace = false
  byDefault : i.isDefault = true

/-- No other node of the file at `path` stands in the way of `n` where `name` is sought there. -/
def Unshadowed (placed : List Placed) (path name : String) (n : Node) : Prop :=
  if name = everything then ∀ m ∈ nodesAt placed path, m = n
  else ∀ m, firstExporter? placed path name = some m → m = n

section Denoting

variable {placed : List Placed} {i : ImportStatement} {importer path name : String} {n : Node}

theorem mem_denoted_default (h : ImportsDefault i name)
    (first : firstExporter? placed path defaultExport = some n) :
    (∀ m, m ∈ denoted placed i path name ↔ m = n) ↔ Unshadowed placed path name n := by
  have inside : n ∈ nodesAt placed path := List.mem_of_find?_eq_some first
  rw [denoted, Unshadowed]
  by_cases all : name = everything
  · rw [if_pos (.inl all), if_pos all]
    exact ⟨fun same m hm => (same m).mp hm, fun only m => ⟨only m, fun e => e ▸ inside⟩⟩
  · rw [if_neg (by simp [all, h.plain]), if_neg all]
    cases named : firstExporter? placed path name with
    | none => simp [h.byDefault, first]
    | some x =>
        simp only [List.mem_singleton, Option.some.injEq]
        exact ⟨fun same m e => (same m).mp e.symm, fun only m => by rw [only x rfl]⟩

theorem denoted_default_ne_nil (h : ImportsDefault i name)
    (first : firstExporter? placed path defaultExport = some n) :
    denoted placed i path name ≠ [] := by
  have inside : n ∈ nodesAt placed path := List.mem_of_find?_eq_some first
  rw [denoted]
  split
  · exact List.ne_nil_of_mem inside
  · cases firstExporter? placed path name <;> simp [h.byDefault, first]

theorem mem_pathPass_default (h : ImportsDefault i name) {f : Node × String} :
    f ∈ pathPass placed i importer ↔ f.2 = name ∧
      ∃ path ∈ candidatePaths i.source importer, f.1 ∈ denoted placed i path name := by
  obtain ⟨m, x⟩ := f
  rw [pathPass, if_pos h.relative, h.single]
  simp only [List.mem_flatMap, List.mem_singleton, exists_eq_left, List.mem_map, Prod.mk.injEq]
  constructor
  · rintro ⟨path, member, m, found, rfl, rfl⟩
    exact ⟨rfl, path, member, found⟩
  · rintro ⟨rfl, path, member, found⟩
    exact ⟨path, member, m, found, rfl, rfl⟩

end Denoting

section Targets

variable {placed : List Placed} {i : ImportStatement} {importer path name : String} {m : Node}
  {t : Target}

/-- No node of another file has the id of a node of the file at `path`. -/
def KeepsIds (placed : List Placed) (path : String) : Prop :=
  ∀ p ∈ placed, ∀ m ∈ nodesAt placed path, p.node.id = m.id → p.file = path

instance : Decidable (KeepsIds placed path) :=
  inferInstanceAs (Decidable (∀ p ∈ placed, ∀ m ∈ nodesAt placed path, _ → _))

theorem KeepsIds.file_eq (own : KeepsIds placed path) {there : String} {m' : Node}
    (h' : m' ∈ nodesAt placed there) (h : m ∈ nodesAt placed path) (same : m'.id = m.id) :
    there = path := by
  obtain ⟨p, hp, rfl⟩ := List.mem_map.mp h'
  obtain ⟨member, file⟩ := List.mem_filter.mp hp
  exact (beq_iff_eq.mp file).symm.trans (own p member m h same)

theorem found_default (byName : Bool) (h : ImportsDefault i name)
    (candidate : path ∈ candidatePaths i.source importer)
    (some_there : denoted placed i path name ≠ []) :
    found placed byName i importer = pathPass placed i importer := by
  obtain ⟨m, hm⟩ := List.exists_mem_of_ne_nil _ some_there
  have member : (m, name) ∈ pathPass placed i importer :=
    (mem_pathPass_default h).mpr ⟨rfl, path, candidate, hm⟩
  have nonempty := List.isEmpty_eq_false_iff.mpr (List.ne_nil_of_mem member)
  rw [found, nonempty, Bool.false_and, if_neg Bool.false_ne_true]

/-- A target that lies in the file was found there, under the name of the statement. -/
theorem denoted_of_target (h : ImportsDefault i name) (own : KeepsIds placed path)
    (target : t ∈ grouped (pathPass placed i importer)) (inside : t.node ∈ nodesAt placed path) :
    t.node ∈ denoted placed i path name ∧ t.names = [name] := by
  have under : ∀ x ∈ t.names, x = name := by
    intro x hx
    obtain ⟨f, hf, _, rfl⟩ := mem_grouped_iff.mp ⟨t, target, rfl, hx⟩
    exact ((mem_pathPass_default h).mp hf).1
  rw [← groupTargets_eq_grouped] at target
  obtain ⟨⟨f, hf, node⟩, some_name, differ⟩ := mem_groupTargets target
  obtain ⟨_, there, _, found_there⟩ := (mem_pathPass_default h).mp hf
  rw [node] at found_there
  have file := own.file_eq (mem_nodesAt_of_mem_denoted found_there) inside rfl
  refine ⟨file ▸ found_there, List.perm_singleton.mp ?_⟩
  obtain ⟨x, hx⟩ := List.exists_mem_of_ne_nil _ some_name
  refine (List.perm_ext_iff_of_nodup differ (List.nodup_singleton name)).mpr fun y => ?_
  rw [List.mem_singleton]
  exact ⟨under y, fun same => same.trans (under x hx).symm ▸ hx⟩

/-- What is found in the file becomes a target as it is. -/
theorem target_of_denoted (h : ImportsDefault i name) (own : KeepsIds placed path)
    (unique : ((nodesAt placed path).map (·.id)).Nodup)
    (candidate : path ∈ candidatePaths i.source importer)
    (found_there : m ∈ denoted placed i path name) :
    ⟨m, [name]⟩ ∈ grouped (pathPass placed i importer) := by
  have inside := mem_nodesAt_of_mem_denoted found_there
  have member : (m, name) ∈ pathPass placed i importer :=
    (mem_pathPass_default h).mpr ⟨rfl, path, candidate, found_there⟩
  obtain ⟨⟨node, names⟩, target, same, _⟩ := mem_grouped_iff.mpr ⟨(m, name), member, rfl, rfl⟩
  have entered := target
  rw [← groupTargets_eq_grouped] at entered
  obtain ⟨f, hf, rfl⟩ := (mem_groupTargets entered).1
  obtain ⟨_, there, _, there_found⟩ := (mem_pathPass_default h).mp hf
  -- Targets are grouped by id, and it takes both hypotheses on ids to tell that this one is `m`.
  have file := own.file_eq (mem_nodesAt_of_mem_denoted there_found) inside same
  have here : f.1 ∈ nodesAt placed path := file ▸ mem_nodesAt_of_mem_denoted there_found
  obtain rfl : f.1 = m := List.inj_on_of_nodup_map unique here inside same
  obtain rfl : names = [name] := (denoted_of_target h own target here).2
  exact target

end Targets

/-- The only target of a default import in a file is the first node that the file exports by
default, under the name that the importer chose, exactly where no other node of the file stands in
the way under that name. -/
theorem resolve_default_iff [Path.WorkingDirectory] (byName : Bool) {files : List Extraction}
    {root : String} {i : ImportStatement} {importer path name : String} {n : Node}
    (h : ImportsDefault i name) (candidate : path ∈ candidatePaths i.source (fileKey importer))
    (first : firstExporter? (placeAll (rootKey root) files) path defaultExport = some n)
    (own : KeepsIds (placeAll (rootKey root) files) path) :
    (∀ t, t ∈ resolve (Index.ofFiles files root) byName i (fileKey importer) ∧
        t.node ∈ nodesAt (placeAll (rootKey root) files) path ↔ t = ⟨n, [name]⟩) ↔
      Unshadowed (placeAll (rootKey root) files) path name n := by
  have unique : ((nodesAt (placeAll (rootKey root) files) path).map (·.id)).Nodup := by
    rw [nodesAt, List.map_map]
    exact ids_nodup_in_file (rootKey root) files path
  rw [← mem_denoted_default h first, resolve_eq_grouped,
    found_default byName h candidate (denoted_default_ne_nil h first)]
  constructor
  · intro only m
    constructor
    · intro found_there
      have target := target_of_denoted h own unique candidate found_there
      have same := (only ⟨m, [name]⟩).mp ⟨target, mem_nodesAt_of_mem_denoted found_there⟩
      exact congrArg Target.node same
    · rintro rfl
      obtain ⟨target, inside⟩ := (only ⟨m, [name]⟩).mpr rfl
      exact (denoted_of_target h own target inside).1
  · intro only t
    constructor
    · rintro ⟨target, inside⟩
      obtain ⟨found_there, names⟩ := denoted_of_target h own target inside
      obtain ⟨node, _⟩ := t
      cases names
      rw [(only node).mp found_there]
    · rintro rfl
      have found_there := (only n).mpr rfl
      exact ⟨target_of_denoted h own unique candidate found_there,
        mem_nodesAt_of_mem_denoted found_there⟩

/-- A file with a function that it exports by name and one that it also exports by default. -/
def twoExports (path named main : String) : Extraction :=
  ⟨path, [⟨named, .function, path, 1, 0, .typescript, none, [named]⟩,
    ⟨main, .function, path, 2, 0, .typescript, none, [main, defaultExport]⟩], [], []⟩

/-- Under a name that the file does not export the default export is reached. -/
theorem resolve_default_iff_free :
    let placed := placeAll (rootKey "/proj") [twoExports "/proj/thing.ts" "Thing" "makeThing"]
    let index := Index.ofFiles [twoExports "/proj/thing.ts" "Thing" "makeThing"] "/proj"
    ∃ n, firstExporter? placed "/proj/thing.ts" defaultExport = some n ∧ n.name = "makeThing" ∧
      ∀ t, t ∈ resolve index true ⟨"./thing", ["make"], true, false, false⟩
          (fileKey "/proj/user.ts") ∧ t.node ∈ nodesAt placed "/proj/thing.ts" ↔
        t = ⟨n, ["make"]⟩ := by
  intro placed index
  have default : ∃ n ∈ firstExporter? placed "/proj/thing.ts" defaultExport,
      n.name = "makeThing" := by decide +kernel
  have absent : (firstExporter? placed "/proj/thing.ts" "make").isNone := by decide +kernel
  obtain ⟨n, first, name⟩ := default
  have free : Unshadowed placed "/proj/thing.ts" "make" n := by
    rw [Unshadowed, if_neg (by decide), Option.isNone_iff_eq_none.mp absent]
    simp
  exact ⟨n, first, name, (resolve_default_iff true ⟨by decide, rfl, rfl, rfl⟩
    (by decide +kernel) first (by decide +kernel)).mpr free⟩

/-- The name that the importer chose is that of another export of the file. -/
theorem resolve_default_shadowed :
    (firstExporter? (placeAll (rootKey "/proj") [twoExports "/proj/thing.ts" "Thing" "makeThing"])
        "/proj/thing.ts" defaultExport).map (·.name) = some "makeThing" ∧
      (resolve (Index.ofFiles [twoExports "/proj/thing.ts" "Thing" "makeThing"] "/proj") true
          ⟨"./thing", ["Thing"], true, false, false⟩ (fileKey "/proj/user.ts")).map
        (fun t => (t.node.name, t.names)) = [("Thing", ["Thing"])] := by
  rw [resolve_eq_grouped]
  decide +kernel

end ComponentAtlas

import ComponentAtlas.Proofs.Graph.Build
import ComponentAtlas.Proofs.NodeId

/-!
When all nodes of a workspace have different ids. Within a file they always do, and nodes of
different names do in any files. Nodes of one name in two files have different ids only as far as
the hashes of the two paths differ, so ids repeat exactly where those hashes meet.
-/

namespace ComponentAtlas

/-- Two files declare one name under paths that its id does not tell apart. -/
def HashClash [Path.WorkingDirectory] (files : List Extraction) : Prop :=
  ∃ e ∈ files, ∃ e' ∈ files, fileKey e.path ≠ fileKey e'.path ∧
    ∃ d ∈ e.declarations, ∃ d' ∈ e'.declarations, d.name = d'.name ∧ HashesMeet d.path d'.path

/-- The place that a node is shown with tells its file, its line and its column, whatever the path
of the file is: of the three only the path may hold a colon. -/
theorem Node.location_eq_iff (a b : Node) : a.location = b.location ↔
    a.path = b.path ∧ a.line = b.line ∧ a.column = b.column := by
  have no_colon : ∀ i : Int, ':' ∉ (toString i).toList := fun i colon =>
    (Text.mem_toString_int colon).elim (fun digit => absurd digit (by decide)) (by decide)
  have shape : ∀ n : Node, n.location.toList =
      (n.path.toList ++ ':' :: (toString n.line).toList) ++ ':' :: (toString n.column).toList := by
    intro n
    have shown : n.location = n.path ++ ":" ++ toString n.line ++ ":" ++ toString n.column := rfl
    rw [shown]
    simp only [String.toList_append, List.append_assoc]
    rfl
  constructor
  · intro same
    have chars := congrArg String.toList same
    rw [shape, shape] at chars
    obtain ⟨front, columns⟩ := Text.append_cons_inj (no_colon _) (no_colon _) chars
    obtain ⟨paths, lines⟩ := Text.append_cons_inj (no_colon _) (no_colon _) front
    exact ⟨String.toList_injective paths, Text.toString_int_inj (String.toList_injective lines),
      Text.toString_int_inj (String.toList_injective columns)⟩
  · rintro ⟨paths, lines, columns⟩
    rw [Node.location, Node.location, paths, lines, columns]

theorem declaration_id_eq_iff (d d' : Declaration) :
    d.id = d'.id ↔ d.name = d'.name ∧ HashesMeet d.path d'.path :=
  nodeId_eq_iff d.path d'.path d.name d'.name

/-- Nodes share an id in two files exactly where the declarations of the files clash. -/
theorem shared_id_iff [Path.WorkingDirectory] (root : String) (files : List Extraction) :
    (∃ p ∈ placeAll root files, ∃ q ∈ placeAll root files,
        p.node.id = q.node.id ∧ p.file ≠ q.file) ↔ HashClash files := by
  have held : ∀ p ∈ placeAll root files,
      ∃ e ∈ files, ∃ d ∈ e.declarations, fileKey e.path = p.file ∧ d.id = p.node.id :=
    fun p hp => (mem_placeAll_keys root files p.file p.node.id).mp (List.mem_map_of_mem hp)
  have kept : ∀ e ∈ files, ∀ d ∈ e.declarations,
      ∃ p ∈ placeAll root files, p.file = fileKey e.path ∧ p.node.id = d.id := by
    intro e he d hd
    have key := (mem_placeAll_keys root files (fileKey e.path) d.id).mpr ⟨e, he, d, hd, rfl, rfl⟩
    obtain ⟨p, hp, same⟩ := List.mem_map.mp key
    exact ⟨p, hp, Prod.ext_iff.mp same⟩
  constructor
  · rintro ⟨p, hp, q, hq, ids, files_differ⟩
    obtain ⟨e, he, d, hd, file, id⟩ := held p hp
    obtain ⟨e', he', d', hd', file', id'⟩ := held q hq
    rw [← file, ← file'] at files_differ
    refine ⟨e, he, e', he', files_differ, d, hd, d', hd', ?_⟩
    exact (declaration_id_eq_iff d d').mp (id.trans (ids.trans id'.symm))
  · rintro ⟨e, he, e', he', files_differ, d, hd, d', hd', clash⟩
    obtain ⟨p, hp, file, id⟩ := kept e he d hd
    obtain ⟨q, hq, file', id'⟩ := kept e' he' d' hd'
    rw [← file, ← file'] at files_differ
    refine ⟨p, hp, q, hq, ?_, files_differ⟩
    exact id.trans (((declaration_id_eq_iff d d').mpr clash).trans id'.symm)

/-- File and id tell nodes apart, so ids alone do where no two files share one. -/
theorem placeAll_ids_nodup_iff [Path.WorkingDirectory] (root : String) (files : List Extraction) :
    ((placeAll root files).map (·.node.id)).Nodup ↔
      ∀ p ∈ placeAll root files, ∀ q ∈ placeAll root files,
        p.node.id = q.node.id → p.file = q.file := by
  have keys := placeAll_keys_nodup root files
  constructor
  · intro nodup p hp q hq ids
    exact congrArg Placed.file (List.inj_on_of_nodup_map nodup hp hq ids)
  · intro apart
    refine List.Nodup.map_on (fun p hp q hq ids => ?_) keys.of_map
    exact List.inj_on_of_nodup_map keys hp hq (Prod.ext (apart p hp q hq ids) ids)

theorem collected_id [Path.WorkingDirectory] {files : List Extraction} {root : String} {n : Node}
    (h : n ∈ collected files root) : ∃ path, n.id = nodeId path n.name := by
  obtain ⟨p, hp, rfl⟩ := List.mem_map.mp h
  obtain ⟨e, _, offered⟩ := mem_offers_of_mem_placeAll hp
  obtain ⟨d, _, rfl⟩ := List.mem_map.mp offered
  exact ⟨d.path, rfl⟩

/-- The ids of a graph are pairwise different exactly where no two files clash. Nodes with one id
have one name in any case. -/
theorem build_ids_nodup_iff [Path.WorkingDirectory] (byName : Bool) (files : List Extraction)
    (root : String) (now : Float) :
    (((Graph.build byName files root now).nodes.map (·.id)).Nodup ↔ ¬ HashClash files) ∧
      ∀ m ∈ (Graph.build byName files root now).nodes,
        ∀ n ∈ (Graph.build byName files root now).nodes, m.id = n.id → m.name = n.name := by
  rw [build_nodes]
  constructor
  · rw [collected, List.map_map, ← shared_id_iff (rootKey root) files]
    simp only [not_exists, not_and, ne_eq, not_not]
    exact placeAll_ids_nodup_iff (rootKey root) files
  · intro m hm n hn ids
    obtain ⟨path, id⟩ := collected_id hm
    obtain ⟨path', id'⟩ := collected_id hn
    exact ((nodeId_eq_iff path path' m.name n.name).mp (id ▸ id' ▸ ids)).1

/-- `Aa` and `BB` weigh the same: one more in the first letter makes up for thirty-one less in the
second. -/
theorem build_ids_not_nodup :
    ¬ ((Graph.build true [functionFile "/proj/Aa.ts" "run", functionFile "/proj/BB.ts" "run"]
      "/proj" 0).nodes.map (·.id)).Nodup := by
  rw [build_nodes]
  decide +kernel

end ComponentAtlas

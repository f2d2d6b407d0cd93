import ComponentAtlas.Proofs.Graph.Build

/-!
What a graph collects. The declarations of all files are gone through in order, and one is left out
where an earlier one has its id in the same file, however that file is spelled and however many
extractions there are of it. Nodes show the declarations that stay, and languages come in the order
in which the nodes first have them.
-/

namespace ComponentAtlas

section Firsts

variable {α β κ : Type} [DecidableEq κ]

/-- The items whose key no earlier item has. -/
def firsts (key : α → κ) (items : List α) : List α :=
  (items.zipIdx.filter fun (a, i) => key a ∉ (items.take i).map key).map (·.1)

theorem firsts_concat (key : α → κ) (items : List α) (a : α) :
    firsts key (items ++ [a]) =
      if key a ∈ items.map key then firsts key items else firsts key items ++ [a] := by
  -- What stands before an item of the shorter list is the same in the longer one.
  have earlier : (items.zipIdx.filter fun (b, i) => key b ∉ ((items ++ [a]).take i).map key) =
      items.zipIdx.filter fun (b, i) => key b ∉ (items.take i).map key := by
    refine List.filter_congr ?_
    rintro ⟨b, i⟩ member
    have within : i < items.length := (List.mem_zipIdx' member).1
    simp only [List.take_append_of_le_length (Nat.le_of_lt within)]
  rw [firsts, List.zipIdx_append, List.filter_append, earlier, List.map_append, ← firsts]
  by_cases known : key a ∈ items.map key <;> simp [known]

theorem firsts_map (key : β → κ) (f : α → β) (items : List α) :
    firsts key (items.map f) = (firsts (key ∘ f) items).map f := by
  induction items using List.reverseRecOn with
  | nil => rfl
  | append_singleton items a ih =>
      rw [List.map_append, List.map_singleton, firsts_concat, firsts_concat, ih, List.map_map]
      simp only [Function.comp_apply]
      split
      · rfl
      · rw [List.map_append, List.map_singleton]

/-- Without repetitions, items stay in the order in which they first came. -/
theorem eraseDups_pairwise_idxOf [DecidableEq α] (as : List α) :
    as.eraseDups.Pairwise fun a b => as.idxOf a < as.idxOf b := by
  induction as using List.reverseRecOn with
  | nil => exact List.Pairwise.nil
  | append_singleton as a ih =>
      have old : ∀ b ∈ as.eraseDups, (as ++ [a]).idxOf b = as.idxOf b := fun b hb =>
        List.idxOf_append_of_mem (List.mem_eraseDups.mp hb)
      have kept : as.eraseDups.Pairwise fun b c => (as ++ [a]).idxOf b < (as ++ [a]).idxOf c :=
        ih.imp_of_mem fun {b c} hb hc before => by rwa [old b hb, old c hc]
      rw [eraseDups_concat]
      split
      · exact kept
      · rename_i fresh
        refine List.pairwise_append.mpr ⟨kept, List.pairwise_singleton _ _, ?_⟩
        intro b hb c hc
        rw [List.mem_singleton.mp hc, old b hb, List.idxOf_append_of_notMem fresh]
        have within := List.idxOf_lt_length_of_mem (List.mem_eraseDups.mp hb)
        omega

end Firsts

/-- The declarations of all files in order, each with the standard path of its file. -/
def declared [Path.WorkingDirectory] (files : List Extraction) : List (String × Declaration) :=
  files.flatMap fun e => e.declarations.map fun d => (fileKey e.path, d)

/-- What tells declarations apart: the file and the id. -/
def declaredKey (d : String × Declaration) : String × String := (d.1, d.2.id)

/-- The node has what the declaration says, and nothing has been done to it. -/
structure Node.Shows (n : Node) (d : Declaration) : Prop where
  id : n.id = nodeId d.path d.name
  name : n.name = d.name
  kind : n.kind = d.kind
  path : n.path = d.path
  line : n.line = d.line
  column : n.column = d.column
  language : n.language = d.language
  description : n.description = d.description
  exports : n.exports = d.exportedNames
  status : n.status = .idle
  message : n.message = none
  modified : n.modified = none

theorem Node.ofDeclaration_shows (d : Declaration) : (Node.ofDeclaration d).Shows d :=
  ⟨rfl, rfl, rfl, rfl, rfl, rfl, rfl, rfl, rfl, rfl, rfl, rfl⟩

theorem placeNode_of_known {placed : List Placed} {p : Placed} (h : p.key ∈ placed.map Placed.key) :
    placeNode placed p = placed := by
  obtain ⟨q, hq, same⟩ := List.mem_map.mp h
  obtain ⟨file, id⟩ := Prod.mk.inj same
  exact if_pos (List.any_eq_true.mpr ⟨q, hq, by simp [file, id]⟩)

theorem placeNode_of_new {placed : List Placed} {p : Placed} (h : p.key ∉ placed.map Placed.key) :
    placeNode placed p = placed ++ [p] := by
  refine if_neg fun known => h ?_
  obtain ⟨q, hq, same⟩ := List.any_eq_true.mp known
  rw [Bool.and_eq_true, beq_iff_eq, beq_iff_eq] at same
  exact List.mem_map.mpr ⟨q, hq, Prod.ext same.1 same.2⟩

theorem placing_table (items : List Placed) :
    placing.table items = firsts Placed.key items := by
  induction items using List.reverseRecOn with
  | nil => rfl
  | append_singleton items p ih =>
      have keys : p.key ∈ (placing.table items).map Placed.key ↔ p.key ∈ items.map Placed.key :=
        placing.mem_table_keys items p.key
      rw [Entry.table_concat, ← placeNode_eq_enter, firsts_concat, ← ih]
      split
      · rename_i known
        exact placeNode_of_known (keys.mpr known)
      · rename_i new
        exact placeNode_of_new (mt keys.mp new)

/-- The nodes of a workspace, one for each declaration that is the first with its id in its file. -/
theorem collected_eq [Path.WorkingDirectory] (files : List Extraction) (root : String) :
    collected files root =
      (firsts declaredKey (declared files)).map fun d => Node.ofDeclaration d.2 := by
  let place (d : String × Declaration) : Placed :=
    ⟨Node.ofDeclaration d.2, d.1, filingKeys (rootKey root) d.1⟩
  have offered : files.flatMap (offers (rootKey root)) = (declared files).map place := by
    rw [declared, List.map_flatMap]
    refine List.flatMap_congr fun e _ => ?_
    rw [List.map_map]
    rfl
  rw [collected, placeAll_eq_table, placing_table, offered, firsts_map, List.map_map]
  rfl

/-- The nodes of a graph show, in order, the declarations of all files but those whose id an earlier
declaration of the same file has. The languages are those of the nodes, none of them twice, in the
order in which the nodes first have them. -/
theorem build_collects [Path.WorkingDirectory] (byName : Bool) (files : List Extraction)
    (root : String) (now : Float) :
    let g := Graph.build byName files root now
    List.Forall₂ Node.Shows g.nodes ((firsts declaredKey (declared files)).map (·.2)) ∧
      g.languages.Nodup ∧ (∀ l, l ∈ g.languages ↔ ∃ n ∈ g.nodes, n.language = l) ∧
      g.languages.Pairwise fun l l' =>
        (g.nodes.map (·.language)).idxOf l < (g.nodes.map (·.language)).idxOf l' := by
  intro g
  have languages : g.languages = (g.nodes.map (·.language)).eraseDups := by
    change (g.nodes.map (·.language)).foldl addNew [] = _
    exact foldl_addMissing [] _
  refine ⟨?_, ?_, ?_, ?_⟩
  · have nodes : g.nodes = ((firsts declaredKey (declared files)).map (·.2)).map
        Node.ofDeclaration := by
      rw [List.map_map]
      exact collected_eq files root
    rw [nodes, List.forall₂_map_left_iff, List.forall₂_same]
    exact fun d _ => Node.ofDeclaration_shows d
  · rw [languages]
    exact eraseDups_nodup _
  · intro l
    rw [languages, List.mem_eraseDups, List.mem_map]
  · rw [languages]
    exact eraseDups_pairwise_idxOf _

end ComponentAtlas

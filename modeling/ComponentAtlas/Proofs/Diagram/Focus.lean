import ComponentAtlas.Proofs.Diagram.Lines
import ComponentAtlas.Proofs.Diagram.Ranking
import ComponentAtlas.Proofs.Graph.Distance

/-!
Whether a diagram declares the node that it was drawn around. The cap is put on a neighbourhood
without regard to that node, so it is declared exactly as long as fewer nodes of the neighbourhood
than the cap rank before it.
-/

namespace ComponentAtlas.Diagram

open Text

section Focus

theorem around_ids_nodup {g : Graph} (distinct : (g.nodes.map (·.id)).Nodup) {focus : Node}
    (known : focus ∈ g.nodes) (hops : ℕ) :
    ((g.around focus.id hops).nodes.map (·.id)).Nodup := by
  rw [around_of_known ⟨focus, known, rfl⟩]
  exact distinct.sublist (List.filter_sublist.map _)

theorem focus_mem_around {g : Graph} {focus : Node} (known : focus ∈ g.nodes) (hops : ℕ) :
    focus ∈ (g.around focus.id hops).nodes := by
  have found := (mem_reach_focus g focus.id hops focus.id).mpr (within_focus g focus.id hops)
  rw [around_of_known ⟨focus, known, rfl⟩, Graph.restrict]
  exact List.mem_filter.mpr ⟨known, List.contains_iff_mem.mpr found⟩

/-- The diagram around a node has a line for that node exactly where fewer nodes of the
neighbourhood than the cap rank before it, and its text then declares the node under its identifier.
In a neighbourhood within the cap fewer always do. -/
theorem drawAround_declares_iff [Path.WorkingDirectory] {g : Graph}
    (distinct : (g.nodes.map (·.id)).Nodup) {focus : Node} (known : focus ∈ g.nodes) (hops : ℕ)
    (config : Config) :
    ((∃ identifier, Line.node identifier focus ∈ lines (g.around focus.id hops) config) ↔
        ((g.around focus.id hops).ahead focus).length < config.maxNodes) ∧
      (((g.around focus.id hops).ahead focus).length < config.maxNodes →
        Declares (drawAround g focus.id hops config)
          ((identifiersOf ((g.around focus.id hops).select config.maxNodes)).get focus.id) focus) ∧
      ((g.around focus.id hops).nodes.length ≤ config.maxNodes →
        ((g.around focus.id hops).ahead focus).length < config.maxNodes) := by
  have near := focus_mem_around known hops
  have kept := mem_select_nodes (around_ids_nodup distinct known hops) near config.maxNodes
  refine ⟨?_, ?_, ?_⟩
  · simp only [mem_lines_node, kept, exists_and_left, exists_eq', and_true]
  · intro room
    exact draw_declares (kept.mpr room)
  · intro small
    exact (ahead_length_lt near).trans_le small

def functionNode (name : String) : Node :=
  ⟨name, name, .function, "/proj/" ++ name ++ ".ts", 1, 0, .typescript, none, [], .idle, none, none⟩

/-- A hub that the two nodes beside it import. -/
def hubBetween : Graph where
  nodes := ["fizz", "hub", "buzz"].map functionNode
  edges := ["fizz", "buzz"].map fun id => ⟨id, "hub", .imports, some ["hub"]⟩
  root := "/proj"
  generatedAt := 0
  languages := [.typescript]

def roomFor (maxNodes : ℕ) (h : 1 ≤ maxNodes) : Config := ⟨.topDown, .plain, true, maxNodes, h⟩

/-- With room for two the node in focus is shown beside the hub. -/
theorem drawAround_declares_fizz :
    (hubBetween.nodes.map (·.id)).Nodup ∧ functionNode "fizz" ∈ hubBetween.nodes ∧
      ∃ identifier, Declares (drawAround hubBetween "fizz" 2 (roomFor 2 (by decide))) identifier
        (functionNode "fizz") := by
  have distinct : (hubBetween.nodes.map (·.id)).Nodup := by decide
  have known : functionNode "fizz" ∈ hubBetween.nodes := List.mem_cons_self
  exact ⟨distinct, known, _, (drawAround_declares_iff distinct known 2 _).2.1 (by decide +kernel)⟩

theorem classDefinitions_without_z : ∀ text ∈ classDefinitions, 'z' ∉ text.toList := by
  rw [classDefinitions]
  simp only [List.forall_mem_cons]
  refine ⟨?_, ?_, ?_, ?_, ?_, ?_, ?_, ?_, ?_, ?_, List.forall_mem_nil _⟩ <;>
    exact not_mem_ofList rfl (by decide +kernel)

/-- With room for one the better connected hub takes it, though the diagram was drawn around another
node: no line shows its name. -/
theorem drawAround_omits_fizz :
    (hubBetween.nodes.map (·.id)).Nodup ∧
      (∀ e ∈ hubBetween.edges, e.source ∈ hubBetween.nodes.map (·.id) ∧
        e.target ∈ hubBetween.nodes.map (·.id)) ∧
      functionNode "fizz" ∈ hubBetween.nodes ∧
      ∀ identifier, ¬ Declares (drawAround hubBetween "fizz" 2 (roomFor 1 (by decide))) identifier
        (functionNode "fizz") := by
  refine ⟨by decide, by decide, List.mem_cons_self, ?_⟩
  have distinct : ((hubBetween.around "fizz" 2).nodes.map (·.id)).Nodup := by decide +kernel
  have joined : ∀ e ∈ (hubBetween.around "fizz" 2).edges,
      e.source ∈ (hubBetween.around "fizz" 2).nodes.map (·.id) ∧
        e.target ∈ (hubBetween.around "fizz" 2).nodes.map (·.id) := by decide +kernel
  have without_z : ∀ l ∈ lines (hubBetween.around "fizz" 2) (roomFor 1 (by decide)),
      'z' ∉ l.text.toList := by
    rw [lines, select_eq distinct joined]
    refine List.forall_mem_append.mpr ⟨List.forall_mem_append.mpr ⟨by decide +kernel, ?_⟩,
      by decide +kernel⟩
    intro l hl
    obtain ⟨text, member, rfl⟩ := List.mem_map.mp hl
    simpa using classDefinitions_without_z text member
  intro identifier declared
  rcases mem_draw (declared.mem_text (c := 'z') (by decide +kernel)) with newline | ⟨l, hl, inside⟩
  · exact absurd newline (by decide)
  · exact without_z l hl inside

end Focus

end ComponentAtlas.Diagram

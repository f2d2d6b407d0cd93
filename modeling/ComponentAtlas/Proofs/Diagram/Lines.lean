import ComponentAtlas.Diagram.Lines
import ComponentAtlas.Proofs.Table
import ComponentAtlas.Proofs.Text.Pieces

/-!
The lines of a diagram and its text. Every node that is kept has a line, which stands in the text
between two line breaks, and no other node has one.
-/

namespace ComponentAtlas.Diagram

open Text

section Lines

theorem foldl_addNew {α : Type} [DecidableEq α] (as : List α) :
    as.foldl addNew [] = as.eraseDups := foldl_addMissing [] as

theorem mem_groupLines {ids : Identifiers} {nodes : List Node} {identifier : String} {n : Node} :
    Line.node identifier n ∈ groupLines ids nodes ↔ n ∈ nodes ∧ ids.get n.id = identifier := by
  rw [groupLines, foldl_addNew]
  simp only [List.mem_flatMap, List.mem_eraseDups, List.mem_map, List.mem_append, List.mem_cons,
    List.mem_filter, decide_eq_true_eq, reduceCtorEq, false_or, List.not_mem_nil, or_false,
    Line.node.injEq]
  constructor
  · rintro ⟨kind, _, m, ⟨hm, _⟩, rfl, rfl⟩
    exact ⟨hm, rfl⟩
  · rintro ⟨hn, rfl⟩
    exact ⟨n.kind, ⟨n, hn, rfl⟩, n, ⟨hn, rfl⟩, rfl, rfl⟩

theorem not_mem_memberLine (ids : Identifiers) (className : String) (members : List Node)
    (identifier : String) (n : Node) :
    Line.node identifier n ∉ memberLine ids className members := by
  rw [memberLine]
  split <;> simp

theorem not_mem_classLines (ids : Identifiers) (nodes : List Node) (identifier : String)
    (n : Node) : Line.node identifier n ∉ classLines ids nodes := by
  rw [classLines]
  simp only [List.mem_append, List.mem_flatMap, not_mem_memberLine, and_false, exists_false,
    or_self, not_false_eq_true]

theorem not_mem_themeLines (config : Config) (identifier : String) (n : Node) :
    Line.node identifier n ∉ themeLines config := by
  rw [themeLines]
  split <;> simp

/-- The nodes with a line are those that are kept, each under its identifier. -/
theorem mem_lines_node [Path.WorkingDirectory] {g : Graph} {config : Config} {identifier : String}
    {n : Node} :
    Line.node identifier n ∈ lines g config ↔
      n ∈ (g.select config.maxNodes).nodes ∧
        (identifiersOf (g.select config.maxNodes)).get n.id = identifier := by
  simp only [lines, linkLines, clickLines, List.mem_append, mem_groupLines, not_mem_themeLines,
    not_mem_classLines, List.mem_cons, List.mem_map, reduceCtorEq, and_false, exists_false,
    List.not_mem_nil, false_or, or_false]

end Lines

section Text

/-- Between two line breaks the text declares the node under the identifier. -/
def Declares (text identifier : String) (n : Node) : Prop :=
  ∃ before after : String, text = before ++ "\n" ++ (Line.node identifier n).text ++ "\n" ++ after

/-- A line that is neither the first nor the last stands between two line breaks. -/
theorem join_lines_between {all before after : List Line} {l : Line}
    (h : all = before ++ l :: after) (hb : before ≠ []) (ha : after ≠ []) :
    join "\n" (all.map Line.text) = join "\n" (before.map Line.text) ++ "\n" ++ l.text ++ "\n" ++
      join "\n" (after.map Line.text) := by
  have hb' : before.map Line.text ≠ [] := mt List.map_eq_nil_iff.mp hb
  have ha' : after.map Line.text ≠ [] := mt List.map_eq_nil_iff.mp ha
  have single : [l.text] ≠ [] := List.cons_ne_nil _ _
  have shape : all.map Line.text = before.map Line.text ++ ([l.text] ++ after.map Line.text) := by
    rw [h, List.map_append, List.map_cons, List.singleton_append]
  rw [shape, join_append _ hb' (List.append_ne_nil_of_left_ne_nil single _),
    join_append _ single ha', join_singleton]
  simp only [String.append_assoc]

/-- The lines of the nodes have the heading before them and the links after them. -/
theorem lines_around_groups [Path.WorkingDirectory] (g : Graph) (config : Config) :
    ∃ before after : List Line, before ≠ [] ∧ after ≠ [] ∧ lines g config =
      before ++ groupLines (identifiersOf (g.select config.maxNodes))
        (g.select config.maxNodes).nodes ++ after := by
  refine ⟨themeLines config ++ [.heading config.direction, .blank], ?_, ?_, ?_, ?_⟩
  case refine_4 =>
    simp only [lines, List.append_assoc]
    rfl
  case refine_2 =>
    exact List.append_ne_nil_of_right_ne_nil _ (List.cons_ne_nil _ _)
  case refine_3 =>
    exact List.append_ne_nil_of_left_ne_nil (List.cons_ne_nil _ _) _

theorem draw_declares [Path.WorkingDirectory] {g : Graph} {config : Config} {n : Node}
    (kept : n ∈ (g.select config.maxNodes).nodes) :
    Declares (draw g config) ((identifiersOf (g.select config.maxNodes)).get n.id) n := by
  let ids := identifiersOf (g.select config.maxNodes)
  have grouped : Line.node (ids.get n.id) n ∈ groupLines ids (g.select config.maxNodes).nodes :=
    mem_groupLines.mpr ⟨kept, rfl⟩
  obtain ⟨front, back, hfront, hback, shape⟩ := lines_around_groups g config
  obtain ⟨earlier, later, groups⟩ := List.append_of_mem grouped
  rw [groups] at shape
  have split : lines g config =
      (front ++ earlier) ++ Line.node (ids.get n.id) n :: (later ++ back) := by
    rw [shape]
    simp only [List.append_assoc, List.cons_append]
  refine ⟨_, _, join_lines_between split ?_ ?_⟩
  · exact List.append_ne_nil_of_left_ne_nil hfront _
  · exact List.append_ne_nil_of_right_ne_nil _ hback

@[simp]
theorem text_node (identifier : String) (n : Node) :
    (Line.node identifier n).text = "    " ++ identifier ++ (shape n.kind).1 ++ "\"" ++
      label (caption n) ++ "\"" ++ (shape n.kind).2 := rfl

@[simp]
theorem text_link (source target : String) (e : Edge) (labelled : Bool) :
    (Line.link source target e labelled).text = "  " ++ linkText source target e labelled := rfl

@[simp]
theorem text_click (identifier : String) (n : Node) (path : String) :
    (Line.click identifier n path).text = "  click " ++ identifier ++ " \"vscode://file/" ++
      n.path ++ ":" ++ toString n.line ++ "\" \"" ++ path ++ "\"" := rfl

@[simp]
theorem text_members (identifiers : List String) (className : String) :
    (Line.members identifiers className).text =
      "  class " ++ join "," identifiers ++ " " ++ className := rfl

@[simp]
theorem text_classDefinition (text : String) :
    (Line.classDefinition text).text = "  " ++ text := rfl

/-- An edge has a label where labels are shown and it has names. -/
theorem linkText_cases (source target : String) (e : Edge) (labelled : Bool) :
    linkText source target e labelled =
        source ++ " " ++ arrow e.relationship ++ " " ++ target ∨
      ∃ names, e.names = some names ∧ linkText source target e labelled =
        source ++ " " ++ arrow e.relationship ++ "|\"" ++ label (namesLabel names) ++ "\"| " ++
          target := by
  unfold linkText
  dsimp only
  split
  · rename_i name more named
    exact .inr ⟨name :: more, named, rfl⟩
  · exact .inl rfl

@[simp]
theorem mem_append_text {c : Char} {s t : String} :
    c ∈ (s ++ t).toList ↔ c ∈ s.toList ∨ c ∈ t.toList := by
  rw [String.toList_append, List.mem_append]

theorem not_mem_ofList {s : String} {cs : List Char} {c : Char} (h : s = String.ofList cs)
    (absent : c ∉ cs) : c ∉ s.toList := by
  rw [h, String.toList_ofList]
  exact absent

/-- The characters of a declared name are in the text. -/
theorem Declares.mem_text {text identifier : String} {n : Node} (h : Declares text identifier n)
    {c : Char} (hc : c ∈ (label (caption n)).toList) : c ∈ text.toList := by
  obtain ⟨before, after, rfl⟩ := h
  have in_line : c ∈ (Line.node identifier n).text.toList := by simp [hc]
  simp only [mem_append_text, in_line, or_true, true_or]

theorem mem_draw [Path.WorkingDirectory] {g : Graph} {config : Config} {c : Char}
    (h : c ∈ (draw g config).toList) :
    c = '\n' ∨ ∃ l ∈ lines g config, c ∈ l.text.toList := by
  rcases mem_join h with between | ⟨text, member, inside⟩
  · exact .inl (by simpa using between)
  · obtain ⟨l, hl, rfl⟩ := List.mem_map.mp member
    exact .inr ⟨l, hl, inside⟩

end Text

end ComponentAtlas.Diagram

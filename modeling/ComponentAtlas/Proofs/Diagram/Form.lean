import ComponentAtlas.Proofs.Diagram.Identifiers
import ComponentAtlas.Proofs.Diagram.Lines
import ComponentAtlas.Proofs.Diagram.Ranking
import ComponentAtlas.Proofs.Diagram.Shown

/-!
The form of a diagram. Every node that is kept is declared once, in the block of its kind and under
an identifier of its own, and every other line uses declared identifiers only; the texts of the
lines show these identifiers. An identifier is given out where it is first asked for, so this rests
on all nodes having theirs before anything else asks.
-/

namespace ComponentAtlas.Diagram

section Reading

/-- The identifier that a line declares and the node that it stands for. -/
def Line.declared? : Line → Option (String × Node)
  | .node identifier n => some (identifier, n)
  | _ => none

def Line.linked? : Line → Option Edge
  | .link _ _ e _ => some e
  | _ => none

def Line.clicked? : Line → Option Node
  | .click _ n _ => some n
  | _ => none

/-- The name of the class whose members a line lists. -/
def Line.className? : Line → Option String
  | .members _ className => some className
  | _ => none

def Line.startsGroup : Line → Bool
  | .groupStart _ => true
  | _ => false

def Line.endsGroup : Line → Bool
  | .groupEnd => true
  | _ => false

/-- Each block runs from the line that starts a group to the next one that ends a group. -/
def blocks : List Line → List (Kind × List Line)
  | [] => []
  | .groupStart kind :: rest => (kind, rest.takeWhile (!·.endsGroup)) :: blocks rest
  | _ :: rest => blocks rest

/-- A class by its name and the nodes that have it. -/
abbrev NodeClass := String × (Node → Bool)

/-- All classes, those by kind first. -/
def classes : List NodeClass :=
  (kindClasses.map fun c => (c.1, fun n : Node => c.2.contains n.kind)) ++
    statusClasses.map fun status => (status.name, fun n : Node => decide (n.status = status))

/-- The lines draw a selection: they declare its nodes and use nothing that is not declared. -/
structure Draws (s : Graph.Selection) (maxNodes : ℕ) (ls : List Line) : Prop where
  declared_once : ((ls.filterMap Line.declared?).map (·.2)).Perm s.nodes
  within_cap : (ls.filterMap Line.declared?).length ≤ maxNodes
  identifiers_differ : ((ls.filterMap Line.declared?).map (·.1)).Nodup
  identifiers_holdable : ∀ d ∈ ls.filterMap Line.declared?, IsIdentifier d.1
  one_block_per_kind : ((blocks ls).map (·.1)).Nodup
  kinds_of_blocks : ∀ kind, kind ∈ (blocks ls).map (·.1) ↔ ∃ n ∈ s.nodes, n.kind = kind
  in_block : ∀ b ∈ blocks ls,
    (b.2.filterMap Line.declared?).map (·.2) = s.nodes.filter (·.kind = b.1)
  linked : ls.filterMap Line.linked? = s.edges
  clicked : ls.filterMap Line.clicked? = s.nodes
  ends_declared : ∀ a b e labelled, .link a b e labelled ∈ ls →
    (∃ n, .node a n ∈ ls ∧ n.id = e.source) ∧ ∃ n, .node b n ∈ ls ∧ n.id = e.target
  click_declared : ∀ identifier n path, .click identifier n path ∈ ls → .node identifier n ∈ ls
  members_declared : ∀ identifiers className, .members identifiers className ∈ ls →
    ∃ has, (className, has) ∈ classes ∧
      List.Forall₂ (fun identifier n => .node identifier n ∈ ls) identifiers (s.nodes.filter has)
  status_later : ∀ (i j : ℕ) (byKind byStatus : List String) (className : String)
    (status : EditStatus), className ∈ kindClasses.map (·.1) → status ∈ statusClasses →
    ls[i]? = some (.members byKind className) → ls[j]? = some (.members byStatus status.name) →
    i < j
  shown : ∀ l ∈ ls, l.shown = l.identifiers

end Reading

section Parts

/-- A line that names no node and no edge. -/
def Line.isFrame : Line → Bool
  | .node .. | .link .. | .click .. | .members .. => false
  | _ => true

variable {ids : Identifiers} {nodes : List Node} {l : Line}

theorem themeLines_frame {config : Config} (h : l ∈ themeLines config) :
    l.isFrame = true ∧ l.startsGroup = false := by
  unfold themeLines at h
  split at h
  · exact absurd h List.not_mem_nil
  · rw [List.mem_singleton.mp h]
    exact ⟨rfl, rfl⟩

theorem isIdentifier_get (s : Graph.Selection) (id : String) :
    IsIdentifier ((identifiersOf s).get id) :=
  (Identifiers.allotted_ofList _).isIdentifier_get id

/-- The lines of one kind, without those that start and end the block. -/
def nodeLines (ids : Identifiers) (nodes : List Node) (kind : Kind) : List Line :=
  (nodes.filter (·.kind = kind)).map fun n => .node (ids.get n.id) n

def kindsOf (nodes : List Node) : List Kind := (nodes.map (·.kind)).eraseDups

theorem groupLines_eq (ids : Identifiers) (nodes : List Node) :
    groupLines ids nodes = (kindsOf nodes).flatMap fun kind =>
      .groupStart kind :: nodeLines ids nodes kind ++ [.groupEnd, .blank] := by
  rw [groupLines, foldl_addNew]
  rfl

/-- A class has a line where some node has it. -/
theorem classLines_eq (ids : Identifiers) (nodes : List Node) :
    classLines ids nodes = (classes.filter fun c => nodes.any c.2).map fun c =>
      .members ((nodes.filter c.2).map fun n => ids.get n.id) c.1 := by
  have lines_of : ∀ cs : List NodeClass,
      cs.flatMap (fun c => memberLine ids c.1 (nodes.filter c.2)) =
        (cs.filter fun c => nodes.any c.2).map fun c =>
          .members ((nodes.filter c.2).map fun n => ids.get n.id) c.1 := by
    intro cs
    induction cs with
    | nil => rfl
    | cons c cs ih =>
        have none_has : (nodes.filter c.2).isEmpty = !nodes.any c.2 := by
          rw [Bool.eq_iff_iff]
          simp
        rw [List.flatMap_cons, ih, memberLine, none_has, List.filter_cons]
        cases nodes.any c.2 <;> rfl
  rw [← lines_of, classes, List.flatMap_append, List.flatMap_map, List.flatMap_map, classLines]

/-- What is read off the lines of a diagram comes from four parts of it: the nodes in their groups,
the edges, the nodes again, and the classes. -/
theorem filterMap_lines [Path.WorkingDirectory] {α : Type} {f : Line → Option α}
    (frame : ∀ l : Line, l.isFrame = true → f l = none) (g : Graph) (config : Config) :
    let s := g.select config.maxNodes
    let ids := identifiersOf s
    (lines g config).filterMap f =
      (kindsOf s.nodes).flatMap (fun kind =>
        (s.nodes.filter (·.kind = kind)).filterMap fun n => f (.node (ids.get n.id) n)) ++
      (s.edges.filterMap (fun e =>
        f (.link (ids.get e.source) (ids.get e.target) e config.showLabels)) ++
      (s.nodes.filterMap (fun n => f (.click (ids.get n.id) n (shownPath n.path g.root))) ++
      (classes.filter fun c => s.nodes.any c.2).filterMap fun c =>
        f (.members ((s.nodes.filter c.2).map fun n => ids.get n.id) c.1))) := by
  have theme : (themeLines config).filterMap f = [] :=
    List.filterMap_eq_nil_iff.mpr fun l hl => frame l (themeLines_frame hl).1
  have definitions : (classDefinitions.map Line.classDefinition).filterMap f = [] := by
    rw [List.filterMap_eq_nil_iff, List.forall_mem_map]
    exact fun text _ => frame _ rfl
  have heading : f (.heading config.direction) = none := frame _ rfl
  have blank : f .blank = none := frame _ rfl
  have remark : ∀ title, f (.remark title) = none := fun title => frame _ rfl
  have starts : ∀ kind, f (.groupStart kind) = none := fun kind => frame _ rfl
  have ends : f .groupEnd = none := frame _ rfl
  intro s ids
  simp only [lines, groupLines_eq, classLines_eq, nodeLines, linkLines, clickLines,
    List.filterMap_append, List.filterMap_flatMap, List.filterMap_map, theme, definitions,
    List.filterMap_cons, heading, blank, remark, starts, ends, List.filterMap_nil,
    List.nil_append, List.append_nil, List.append_assoc]
  rfl

/-- A line that names nodes or edges names those that are kept, by their identifiers. The line of a
class has members. -/
theorem mem_lines_cases [Path.WorkingDirectory] {g : Graph} {config : Config}
    (h : l ∈ lines g config) (naming : l.isFrame = false) :
    let s := g.select config.maxNodes
    let ids := identifiersOf s
    (∃ n ∈ s.nodes, l = .node (ids.get n.id) n) ∨
    (∃ e ∈ s.edges, l = .link (ids.get e.source) (ids.get e.target) e config.showLabels) ∨
    (∃ n ∈ s.nodes, l = .click (ids.get n.id) n (shownPath n.path g.root)) ∨
    ∃ c ∈ classes, s.nodes.any c.2 = true ∧
      l = .members ((s.nodes.filter c.2).map fun n => ids.get n.id) c.1 := by
  have read : l ∈ (lines g config).filterMap fun l => if l.isFrame then none else some l :=
    List.mem_filterMap.mpr ⟨l, h, by rw [naming]; rfl⟩
  rw [filterMap_lines fun l hl => by rw [hl]; rfl] at read
  simp only [Line.isFrame, Bool.false_eq_true, if_false, List.mem_append, List.mem_flatMap,
    List.mem_filterMap, Option.some.injEq] at read
  rcases read with ⟨_, _, n, hn, rfl⟩ | ⟨e, he, rfl⟩ | ⟨n, hn, rfl⟩ | ⟨c, hc, rfl⟩
  · exact .inl ⟨n, List.mem_of_mem_filter hn, rfl⟩
  · exact .inr (.inl ⟨e, he, rfl⟩)
  · exact .inr (.inr (.inl ⟨n, hn, rfl⟩))
  · exact .inr (.inr (.inr ⟨c, List.mem_of_mem_filter hc, (List.mem_filter.mp hc).2, rfl⟩))

end Parts

section Read

variable (g : Graph) (config : Config)

theorem frame_silent {l : Line} (h : l.isFrame = true) :
    l.declared? = none ∧ l.linked? = none ∧ l.clicked? = none ∧ l.className? = none := by
  cases l with
  | node | link | click | members => cases h
  | _ => exact ⟨rfl, rfl, rfl, rfl⟩

/-- The nodes that are kept are what the lines declare, in some order. -/
theorem declared_perm [Path.WorkingDirectory] :
    let s := g.select config.maxNodes
    ((lines g config).filterMap Line.declared?).Perm
      (s.nodes.map fun n => ((identifiersOf s).get n.id, n)) := by
  intro s
  have kinds : ∀ n ∈ s.nodes, n.kind ∈ kindsOf s.nodes := fun n hn =>
    List.mem_eraseDups.mpr (List.mem_map_of_mem hn)
  rw [filterMap_lines fun l hl => (frame_silent hl).1]
  simp only [Line.declared?, List.filterMap_eq_map', List.filterMap_none, List.append_nil]
  rw [← List.map_flatMap]
  exact (flatMap_filter_perm (eraseDups_nodup _) kinds).map _

theorem linked_eq [Path.WorkingDirectory] :
    (lines g config).filterMap Line.linked? = (g.select config.maxNodes).edges := by
  rw [filterMap_lines fun l hl => (frame_silent hl).2.1]
  simp [Line.linked?]

theorem clicked_eq [Path.WorkingDirectory] :
    (lines g config).filterMap Line.clicked? = (g.select config.maxNodes).nodes := by
  rw [filterMap_lines fun l hl => (frame_silent hl).2.2.1]
  simp [Line.clicked?]

/-- The class lines come in the order of the classes. -/
theorem classNames_sublist [Path.WorkingDirectory] :
    ((lines g config).filterMap Line.className?).Sublist (classes.map (·.1)) := by
  have names : (lines g config).filterMap Line.className? =
      (classes.filter fun c => (g.select config.maxNodes).nodes.any c.2).map (·.1) := by
    rw [filterMap_lines fun l hl => (frame_silent hl).2.2.2]
    simp [Line.className?]
  rw [names]
  exact List.filter_sublist.map _

theorem blocks_append {before : List Line} (h : ∀ l ∈ before, l.startsGroup = false)
    (after : List Line) : blocks (before ++ after) = blocks after := by
  induction before with
  | nil => rfl
  | cons l before ih =>
      have later := ih fun m hm => h m (List.mem_cons_of_mem l hm)
      have plain := h l List.mem_cons_self
      cases l with
      | groupStart kind => cases plain
      | _ => exact later

/-- A group is a block, whatever follows it. -/
theorem blocks_group (ids : Identifiers) (nodes : List Node) (kind : Kind) (after : List Line) :
    blocks (.groupStart kind :: nodeLines ids nodes kind ++ [.groupEnd, .blank] ++ after) =
      (kind, nodeLines ids nodes kind) :: blocks after := by
  have each : ∀ l ∈ nodeLines ids nodes kind, (!l.endsGroup) = true ∧ l.startsGroup = false := by
    rw [nodeLines, List.forall_mem_map]
    exact fun _ _ => ⟨rfl, rfl⟩
  have inner : (nodeLines ids nodes kind ++ .groupEnd :: .blank :: after).takeWhile
      (!·.endsGroup) = nodeLines ids nodes kind := by
    rw [List.takeWhile_append_of_pos fun l hl => (each l hl).1]
    simp [Line.endsGroup]
  have rest : blocks (nodeLines ids nodes kind ++ .groupEnd :: .blank :: after) = blocks after :=
    blocks_append (fun l hl => (each l hl).2) _
  rw [List.cons_append, List.cons_append, List.append_assoc, blocks]
  exact congr_arg₂ List.cons (congrArg (Prod.mk kind) inner) rest

theorem blocks_groups (ids : Identifiers) (nodes : List Node) (kinds : List Kind)
    (after : List Line) :
    blocks (kinds.flatMap (fun kind =>
      .groupStart kind :: nodeLines ids nodes kind ++ [.groupEnd, .blank]) ++ after) =
      kinds.map (fun kind => (kind, nodeLines ids nodes kind)) ++ blocks after := by
  induction kinds with
  | nil => rfl
  | cons kind kinds ih =>
      rw [List.flatMap_cons, List.append_assoc, blocks_group, ih]
      rfl

/-- No group starts outside the groups. -/
theorem lines_groups [Path.WorkingDirectory] :
    let s := g.select config.maxNodes
    ∃ front back : List Line, lines g config =
      front ++ (groupLines (identifiersOf s) s.nodes ++ back) ∧
      (∀ l ∈ front, l.startsGroup = false) ∧ ∀ l ∈ back, l.startsGroup = false := by
  intro s
  refine ⟨themeLines config ++ [.heading config.direction, .blank], ?_, ?_, ?_, ?_⟩
  case refine_2 =>
    simp only [lines, List.append_assoc]
    rfl
  · intro l hl
    rcases List.mem_append.mp hl with theme | heading
    · exact (themeLines_frame theme).2
    · simp only [List.mem_cons, List.not_mem_nil, or_false] at heading
      rcases heading with rfl | rfl <;> rfl
  · intro l hl
    simp only [linkLines, clickLines, classLines_eq, List.cons_append, List.mem_append,
      List.mem_cons, List.mem_map, List.not_mem_nil, false_or] at hl
    rcases hl with rfl | ⟨_, _, rfl⟩ | rfl | rfl | ⟨_, _, rfl⟩ | rfl | rfl | ⟨_, _, rfl⟩ |
      ⟨_, _, rfl⟩ <;> rfl

theorem lines_blocks [Path.WorkingDirectory] :
    let s := g.select config.maxNodes
    blocks (lines g config) =
      (kindsOf s.nodes).map fun kind => (kind, nodeLines (identifiersOf s) s.nodes kind) := by
  intro s
  obtain ⟨front, back, shape, front_plain, back_plain⟩ := lines_groups g config
  have nothing_after : blocks back = [] := by
    rw [← List.append_nil back, blocks_append back_plain]
    rfl
  rw [shape, blocks_append front_plain, groupLines_eq, blocks_groups, nothing_after,
    List.append_nil]

/-- There is one block per kind. -/
theorem blocks_kinds [Path.WorkingDirectory] :
    (blocks (lines g config)).map (·.1) = kindsOf (g.select config.maxNodes).nodes := by
  rw [lines_blocks, List.map_map]
  exact List.map_id _

theorem nodeLines_declared (ids : Identifiers) (nodes : List Node) (kind : Kind) :
    (nodeLines ids nodes kind).filterMap Line.declared? =
      (nodes.filter (·.kind = kind)).map fun n => (ids.get n.id, n) := by
  rw [nodeLines, List.filterMap_map, ← List.filterMap_eq_map']
  rfl

/-- No class by status comes before a class by kind. -/
theorem classNames_ordered : (classes.map (·.1)).Pairwise fun first second =>
    ¬(first ∈ statusClasses.map EditStatus.name ∧ second ∈ kindClasses.map (·.1)) := by
  decide

theorem status_members_later [Path.WorkingDirectory] {i j : ℕ} {byKind byStatus : List String}
    {className : String} {status : EditStatus} (kind_class : className ∈ kindClasses.map (·.1))
    (status_class : status ∈ statusClasses)
    (hi : (lines g config)[i]? = some (.members byKind className))
    (hj : (lines g config)[j]? = some (.members byStatus status.name)) : i < j := by
  have ordered := classNames_ordered.sublist (classNames_sublist g config)
  rw [List.pairwise_filterMap, List.pairwise_iff_getElem] at ordered
  obtain ⟨hi', line_i⟩ := List.getElem?_eq_some_iff.mp hi
  obtain ⟨hj', line_j⟩ := List.getElem?_eq_some_iff.mp hj
  have status_name : status.name ∈ statusClasses.map EditStatus.name :=
    List.mem_map_of_mem status_class
  rcases Nat.lt_trichotomy i j with before | same | after
  · exact before
  · subst same
    rw [hi, Option.some.injEq, Line.members.injEq] at hj
    have disjoint : ∀ name ∈ kindClasses.map (·.1),
        name ∉ statusClasses.map EditStatus.name := by decide
    exact absurd (hj.2 ▸ status_name) (disjoint className kind_class)
  · refine absurd ⟨status_name, kind_class⟩ (ordered j i hj' hi' after _ ?_ _ ?_)
    · rw [line_j]
      rfl
    · rw [line_i]
      rfl

/-- The text of every line shows the identifiers that the line is about. -/
theorem shown_of_mem_lines [Path.WorkingDirectory] {l : Line} (hl : l ∈ lines g config) :
    l.shown = l.identifiers := by
  have plain := isIdentifier_get (g.select config.maxNodes)
  cases frame : l.isFrame with
  | true =>
      cases l with
      | node | link | click | members => cases frame
      | _ => rfl
  | false =>
      rcases mem_lines_cases hl frame with
        ⟨n, _, rfl⟩ | ⟨e, _, rfl⟩ | ⟨n, _, rfl⟩ | ⟨c, _, some_member, rfl⟩
      · exact shown_node (plain n.id) n
      · exact shown_link (plain e.source) (plain e.target) e config.showLabels
      · exact shown_click (plain n.id) n _
      · refine shown_members ?_ (List.forall_mem_map.mpr fun n _ => plain n.id) c.1
        obtain ⟨n, hn, has⟩ := List.any_eq_true.mp some_member
        exact List.ne_nil_of_mem (List.mem_map_of_mem (List.mem_filter.mpr ⟨hn, has⟩))

end Read

section WellFormed

variable {g : Graph} (distinct : (g.nodes.map (·.id)).Nodup)
  (joined : ∀ e ∈ g.edges, e.source ∈ g.nodes.map (·.id) ∧ e.target ∈ g.nodes.map (·.id))
  (config : Config)

include distinct in
/-- Nodes that are kept have identifiers of their own. -/
theorem identifiers_nodup :
    ((g.select config.maxNodes).nodes.map fun n =>
      (identifiersOf (g.select config.maxNodes)).get n.id).Nodup := by
  let s := g.select config.maxNodes
  have kept_ids : (s.nodes.map (·.id)).Nodup := by
    rw [show s.nodes = g.kept config.maxNodes from select_nodes distinct _]
    exact distinct.sublist (List.filter_sublist.map _)
  have asked : ∀ n ∈ s.nodes, n.id ∈ (identifiersOf s).map (·.1) := fun n hn =>
    (Identifiers.mem_ids_ofList _ _).mpr (List.mem_append_left _ (List.mem_map_of_mem hn))
  refine kept_ids.of_map.map_on fun m hm n hn same => ?_
  have ids := ((Identifiers.allotted_ofList _).get_eq_iff (asked m hm) (asked n hn)).mp same
  exact List.inj_on_of_nodup_map kept_ids hm hn ids

include distinct joined in
/-- An edge that is kept has its ends among the nodes that are kept. -/
theorem ends_kept {e : Edge} (he : e ∈ (g.select config.maxNodes).edges) :
    (∃ n ∈ (g.select config.maxNodes).nodes, n.id = e.source) ∧
      ∃ n ∈ (g.select config.maxNodes).nodes, n.id = e.target := by
  rw [select_eq distinct joined] at he ⊢
  have ends := of_decide_eq_true (List.mem_filter.mp he).2
  exact ⟨List.mem_map.mp ends.1, List.mem_map.mp ends.2⟩

include distinct joined in
/-- A diagram is well formed, whatever the ids are and whatever the cap leaves out. -/
theorem lines_draws [Path.WorkingDirectory] : Draws (g.select config.maxNodes) config.maxNodes
    (lines g config) := by
  let s := g.select config.maxNodes
  let ids := identifiersOf s
  have declared := declared_perm g config
  have has_line : ∀ n ∈ s.nodes, Line.node (ids.get n.id) n ∈ lines g config :=
    fun n hn => mem_lines_node.mpr ⟨hn, rfl⟩
  constructor
  case declared_once =>
    have nodes := declared.map (·.2)
    rwa [List.map_map, List.map_id''] at nodes
    exact fun _ => rfl
  case within_cap =>
    rw [declared.length_eq, List.length_map, select_nodes distinct, kept_length distinct]
    exact Nat.min_le_left _ _
  case identifiers_differ =>
    rw [(declared.map (·.1)).nodup_iff, List.map_map]
    exact identifiers_nodup distinct config
  case identifiers_holdable =>
    intro d hd
    obtain ⟨n, _, rfl⟩ := List.mem_map.mp (declared.mem_iff.mp hd)
    exact isIdentifier_get s n.id
  case one_block_per_kind =>
    rw [blocks_kinds]
    exact eraseDups_nodup _
  case kinds_of_blocks =>
    intro kind
    rw [blocks_kinds, kindsOf, List.mem_eraseDups, List.mem_map]
  case in_block =>
    rw [lines_blocks, List.forall_mem_map]
    intro kind _
    rw [nodeLines_declared, List.map_map]
    exact List.map_id _
  case linked => exact linked_eq g config
  case clicked => exact clicked_eq g config
  case ends_declared =>
    intro a b e labelled hl
    rcases mem_lines_cases hl rfl with
      ⟨_, _, h⟩ | ⟨e', he, h⟩ | ⟨_, _, h⟩ | ⟨_, _, _, h⟩ <;> cases h
    obtain ⟨⟨m, hm, source⟩, n, hn, target⟩ := ends_kept distinct joined config he
    exact ⟨⟨m, source ▸ has_line m hm, source⟩, n, target ▸ has_line n hn, target⟩
  case click_declared =>
    intro identifier n path hl
    rcases mem_lines_cases hl rfl with
      ⟨_, _, h⟩ | ⟨_, _, h⟩ | ⟨_, hn, h⟩ | ⟨_, _, _, h⟩ <;> cases h
    exact has_line n hn
  case members_declared =>
    intro identifiers className hl
    rcases mem_lines_cases hl rfl with
      ⟨_, _, h⟩ | ⟨_, _, h⟩ | ⟨_, _, h⟩ | ⟨c, hc, _, h⟩ <;> cases h
    refine ⟨c.2, hc, List.forall₂_map_left_iff.mpr (List.forall₂_same.mpr fun n hn => ?_)⟩
    exact has_line n (List.mem_of_mem_filter hn)
  case status_later =>
    intro i j byKind byStatus className status
    exact status_members_later g config
  case shown => exact fun l hl => shown_of_mem_lines g config hl

/-- Two ids that come out alike, and a third node that a cap of two leaves out with its edge. -/
def alikeIds : Graph where
  nodes := [("a.b", Kind.component, EditStatus.editing), ("a-b", .hook, .idle),
    ("c", .component, .queued)].map fun (id, kind, status) =>
      ⟨id, id, kind, "/proj/" ++ id ++ ".ts", 1, 0, .typescript, none, [], status, none, none⟩
  edges := [("a.b", "a-b"), ("a-b", "a.b"), ("c", "a-b")].map fun (source, target) =>
    ⟨source, target, .imports, some [target]⟩
  root := "/proj"
  generatedAt := 0
  languages := [.typescript]

theorem lines_draws_alike :
    (alikeIds.nodes.map (·.id)).Nodup ∧
      (∀ e ∈ alikeIds.edges, e.source ∈ alikeIds.nodes.map (·.id) ∧
        e.target ∈ alikeIds.nodes.map (·.id)) ∧
      Draws (alikeIds.select (2 : ℕ)) 2
        (lines alikeIds ⟨.leftRight, .dark, true, 2, by decide⟩) := by
  have distinct : (alikeIds.nodes.map (·.id)).Nodup := by decide
  have joined : ∀ e ∈ alikeIds.edges, e.source ∈ alikeIds.nodes.map (·.id) ∧
      e.target ∈ alikeIds.nodes.map (·.id) := by decide
  exact ⟨distinct, joined, lines_draws distinct joined ⟨.leftRight, .dark, true, 2, by decide⟩⟩

end WellFormed

end ComponentAtlas.Diagram

import ComponentAtlas.Proofs.Diagram.Form
import ComponentAtlas.Proofs.Path.Shape

/-!
The double quotes in the lines of a diagram. Labels lose theirs, and an identifier has none, so the
lines of nodes and edges hold only the quotes around a label. The line of a click shows a path as it
is, twice: once for the editor and once for the reader.
-/

namespace ComponentAtlas.Diagram

open Text

section Pieces

/-- How many double quotes a text holds. -/
def quotes (s : String) : ℕ := s.toList.count '"'

/-- A text that ends neither a quoted text nor a line. -/
def Inert (s : String) : Prop := '"' ∉ s.toList ∧ '\n' ∉ s.toList

@[simp]
theorem quotes_append (s t : String) : quotes (s ++ t) = quotes s + quotes t := by
  rw [quotes, String.toList_append, List.count_append]
  rfl

theorem Inert.no_quotes {s : String} (h : Inert s) : quotes s = 0 := List.count_eq_zero.mpr h.1

theorem inert_of_chars {s : String} {p : Char → Bool} (h : ∀ c ∈ s.toList, p c = true)
    (quote : p '"' = false) (newline : p '\n' = false) : Inert s := by
  refine ⟨fun inside => ?_, fun inside => ?_⟩
  · exact absurd (h _ inside) (Bool.eq_false_iff.mp quote)
  · exact absurd (h _ inside) (Bool.eq_false_iff.mp newline)

theorem inert_identifier {s : String} (h : IsIdentifier s) : Inert s :=
  inert_of_chars h.plain (by decide) (by decide)

theorem inert_int (i : ℤ) : Inert (toString i) := by
  refine inert_of_chars (p := fun c => c.isDigit || c == '-') (fun c inside => ?_) rfl rfl
  simpa using mem_toString_int inside

theorem inert_shape (kind : Kind) : Inert (shape kind).1 ∧ Inert (shape kind).2 := by
  cases kind <;> exact ⟨⟨by decide, by decide⟩, by decide, by decide⟩

theorem inert_arrow (r : Relationship) : Inert (arrow r) := by
  cases r <;> exact ⟨by decide, by decide⟩

theorem mem_label {s : String} {c : Char} (h : c ∈ (label s).toList) :
    (c ∈ s.toList ∧ c ≠ '"') ∨ c ∈ "#quot;".toList := by
  rw [label, String.toList_ofList] at h
  obtain ⟨d, hd, inside⟩ := List.mem_flatMap.mp h
  split at inside
  · exact .inr inside
  · rename_i other
    rw [List.mem_singleton] at inside
    subst inside
    exact .inl ⟨hd, by simpa using other⟩

/-- A label has no quotes, whatever it was made from. -/
@[simp]
theorem quotes_label (s : String) : quotes (label s) = 0 := by
  refine List.count_eq_zero.mpr fun quote => ?_
  rcases mem_label quote with ⟨_, other⟩ | written
  · exact other rfl
  · exact absurd written (by decide)

theorem newline_label {s : String} (h : '\n' ∉ s.toList) : '\n' ∉ (label s).toList := by
  intro newline
  rcases mem_label newline with ⟨inside, _⟩ | written
  · exact h inside
  · exact absurd written (by decide)

/-- The path that is shown has only characters of the path and those between its names, and where
the path is relative those of the working directory. -/
theorem not_mem_shownPath [here : Path.WorkingDirectory] {c : Char} (slash : '/' ≠ c)
    (dot : '.' ≠ c) {path : String} (root : String) (h : c ∉ path.toList)
    (directory : Path.isAbsolute path = false → c ∉ here.path.toList) :
    c ∉ (shownPath path root).toList := by
  have free : Path.Over (· ≠ c) (Path.absolute path) :=
    Path.absolute_over slash dot (fun d inside same => h (same ▸ inside))
      fun relative d inside same => directory relative (same ▸ inside)
  rw [shownPath]
  split
  · exact h
  · rw [Path.forwardSlashes, String.toList_ofList, replaceChar, List.mem_map]
    rintro ⟨d, inside, same⟩
    split at same
    · exact slash same
    · exact Path.relative_over slash dot root free d inside same

end Pieces

section Quotes

variable {identifier source target path : String} {n : Node} {e : Edge} {labelled : Bool}

theorem quotes_node (h : IsIdentifier identifier) :
    quotes (Line.node identifier n).text = 2 := by
  have plain := (inert_identifier h).no_quotes
  have opening := (inert_shape n.kind).1.no_quotes
  have closing := (inert_shape n.kind).2.no_quotes
  have indent : quotes "    " = 0 := rfl
  have quote : quotes "\"" = 1 := rfl
  rw [text_node]
  simp only [quotes_append]
  rw [indent, plain, opening, quote, quotes_label, closing]

theorem quotes_link (hs : IsIdentifier source) (ht : IsIdentifier target) :
    quotes (Line.link source target e labelled).text = 0 ∨
      quotes (Line.link source target e labelled).text = 2 := by
  have first := (inert_identifier hs).no_quotes
  have second := (inert_identifier ht).no_quotes
  have joined := (inert_arrow e.relationship).no_quotes
  have indent : quotes "  " = 0 := rfl
  have blank : quotes " " = 0 := rfl
  have opening : quotes "|\"" = 1 := rfl
  have closing : quotes "\"| " = 1 := rfl
  rw [text_link]
  rcases linkText_cases source target e labelled with shape | ⟨names, _, shape⟩
  · left
    rw [shape]
    simp only [quotes_append]
    rw [indent, first, blank, joined, second]
  · right
    rw [shape]
    simp only [quotes_append]
    rw [indent, first, blank, joined, opening, quotes_label, closing, second]

/-- Besides the quotes around its two texts a click has those of the path, in each of them. -/
theorem quotes_click (h : IsIdentifier identifier) :
    quotes (Line.click identifier n path).text = 4 + (quotes n.path + quotes path) := by
  have plain := (inert_identifier h).no_quotes
  have digits := (inert_int n.line).no_quotes
  have start : quotes "  click " = 0 := rfl
  have editor : quotes " \"vscode://file/" = 1 := rfl
  have colon : quotes ":" = 0 := rfl
  have between : quotes "\" \"" = 2 := rfl
  have last : quotes "\"" = 1 := rfl
  rw [text_click]
  simp only [quotes_append]
  rw [start, plain, editor, colon, digits, between, last]
  omega

end Quotes

section Breaks

/-- Free text without line breaks. The working directory counts where the path of a file is
relative, and then it has no quotes either. -/
structure OnOneLine [here : Path.WorkingDirectory] (g : Graph) : Prop where
  names : ∀ n ∈ g.nodes, '\n' ∉ n.name.toList
  paths : ∀ n ∈ g.nodes, '\n' ∉ n.path.toList
  edge_names : ∀ e ∈ g.edges, ∀ name ∈ e.names.getD [], '\n' ∉ name.toList
  directory : ∀ n ∈ g.nodes, Path.isAbsolute n.path = false →
    '\n' ∉ here.path.toList ∧ '"' ∉ here.path.toList

variable {g : Graph} {config : Config} {l : Line}

theorem newline_caption {n : Node} (h : '\n' ∉ n.name.toList) : '\n' ∉ (caption n).toList := by
  unfold caption
  cases n.status with
  | idle => exact h
  | _ =>
      simp only [icon?, mem_append_text, not_or]
      exact ⟨⟨by decide, by decide⟩, h⟩

theorem newline_namesLabel {names : List String} (h : ∀ name ∈ names, '\n' ∉ name.toList) :
    '\n' ∉ (namesLabel names).toList := by
  rw [namesLabel, mem_append_text, not_or]
  constructor
  · intro inside
    rcases mem_join inside with between | ⟨name, member, there⟩
    · exact absurd between (by decide)
    · exact h name (List.mem_of_mem_take member) there
  · split <;> decide

theorem mem_themeLines :
    l ∈ themeLines config ↔ config.theme ≠ .plain ∧ l = .theme config.theme := by
  rw [themeLines]
  split <;> simp [*]

theorem classDefinitions_on_one_line : ∀ text ∈ classDefinitions, '\n' ∉ text.toList := by
  rw [classDefinitions]
  simp only [List.forall_mem_cons]
  refine ⟨?_, ?_, ?_, ?_, ?_, ?_, ?_, ?_, ?_, ?_, List.forall_mem_nil _⟩ <;>
    exact not_mem_ofList rfl (by decide +kernel)

theorem newline_frame [Path.WorkingDirectory] (hl : l ∈ lines g config) (frame : l.isFrame = true) :
    '\n' ∉ l.text.toList := by
  cases l with
  | node | link | click | members => cases frame
  | theme t => cases t <;> decide +kernel
  | heading d => cases d <;> decide +kernel
  | blank => decide
  | groupEnd => decide
  | groupStart kind => cases kind <;> decide +kernel
  | remark title =>
      have titles : title ∈ ["Relationships", "Click handlers", "Styling"] := by
        simpa [lines, mem_themeLines, groupLines_eq, nodeLines, linkLines, clickLines,
          classLines_eq] using hl
      have each : ∀ title ∈ ["Relationships", "Click handlers", "Styling"],
          '\n' ∉ (Line.remark title).text.toList := by decide +kernel
      exact each title titles
  | classDefinition text =>
      have defined : text ∈ classDefinitions := by
        simpa [lines, mem_themeLines, groupLines_eq, nodeLines, linkLines, clickLines,
          classLines_eq] using hl
      simpa using classDefinitions_on_one_line text defined

/-- A selection takes from the graph. -/
theorem select_subset (g : Graph) (cap : ℤ) :
    (g.select cap).nodes ⊆ g.nodes ∧ (g.select cap).edges ⊆ g.edges := by
  rw [Graph.select]
  split
  · exact ⟨List.Subset.refl _, List.Subset.refl _⟩
  · exact ⟨List.filter_subset_self _, List.filter_subset_self _⟩

theorem newline_node {identifier : String} {n : Node} (h : IsIdentifier identifier)
    (name : '\n' ∉ n.name.toList) : '\n' ∉ (Line.node identifier n).text.toList := by
  have plain := (inert_identifier h).2
  have opening := (inert_shape n.kind).1.2
  have closing := (inert_shape n.kind).2.2
  have shown := newline_label (newline_caption name)
  simp [plain, opening, closing, shown]

theorem newline_link {source target : String} {e : Edge} {labelled : Bool}
    (hs : IsIdentifier source) (ht : IsIdentifier target)
    (names : ∀ name ∈ e.names.getD [], '\n' ∉ name.toList) :
    '\n' ∉ (Line.link source target e labelled).text.toList := by
  have first := (inert_identifier hs).2
  have second := (inert_identifier ht).2
  have joined := (inert_arrow e.relationship).2
  rw [text_link]
  rcases linkText_cases source target e labelled with shape | ⟨shown, named, shape⟩
  · rw [shape]
    simp [first, second, joined]
  · rw [named, Option.getD_some] at names
    have inside := newline_label (newline_namesLabel names)
    rw [shape]
    simp [first, second, joined, inside]

theorem newline_click {identifier path : String} {n : Node} (h : IsIdentifier identifier)
    (given : '\n' ∉ n.path.toList) (shown : '\n' ∉ path.toList) :
    '\n' ∉ (Line.click identifier n path).text.toList := by
  have plain := (inert_identifier h).2
  have digits : '\n' ∉ n.line.repr.toList := (inert_int n.line).2
  simp [plain, digits, given, shown]

theorem newline_members {identifiers : List String} {className : String}
    (plain : ∀ identifier ∈ identifiers, IsIdentifier identifier)
    (defined : className ∈ classes.map (·.1)) :
    '\n' ∉ (Line.members identifiers className).text.toList := by
  have joined : '\n' ∉ (join "," identifiers).toList := by
    intro inside
    rcases mem_join inside with between | ⟨identifier, member, there⟩
    · exact absurd between (by decide)
    · exact (inert_identifier (plain identifier member)).2 there
  have names : ∀ name ∈ classes.map (·.1), '\n' ∉ name.toList := by decide +kernel
  have name := names className defined
  simp [joined, name]

/-- Free text on one line makes lines of one line. -/
theorem newline_line [Path.WorkingDirectory] (one_line : OnOneLine g) (hl : l ∈ lines g config) :
    '\n' ∉ l.text.toList := by
  cases frame : l.isFrame with
  | true => exact newline_frame hl frame
  | false =>
      have plain := isIdentifier_get (g.select config.maxNodes)
      obtain ⟨nodes, edges⟩ := select_subset g config.maxNodes
      rcases mem_lines_cases hl frame with
        ⟨n, hn, rfl⟩ | ⟨e, he, rfl⟩ | ⟨n, hn, rfl⟩ | ⟨c, hc, _, rfl⟩
      · exact newline_node (plain _) (one_line.names n (nodes hn))
      · exact newline_link (plain _) (plain _) (one_line.edge_names e (edges he))
      · have path := one_line.paths n (nodes hn)
        exact newline_click (plain _) path (not_mem_shownPath (by decide) (by decide) g.root path
          fun relative => (one_line.directory n (nodes hn) relative).1)
      · refine newline_members ?_ (List.mem_map_of_mem hc)
        rw [List.forall_mem_map]
        exact fun n _ => plain n.id

end Breaks

section Drawn

variable [Path.WorkingDirectory] {g : Graph} (one_line : OnOneLine g) (config : Config)

include one_line in
theorem splitText_draw : splitText '\n' (draw g config) =
    (lines g config).map Line.text := by
  have some_line : (lines g config).map Line.text ≠ [] := by
    obtain ⟨before, after, nonempty, _, shape⟩ := lines_around_groups g config
    rw [shape, List.append_assoc, List.map_append]
    exact List.append_ne_nil_of_left_ne_nil (mt List.map_eq_nil_iff.mp nonempty) _
  refine splitText_join some_line ?_
  rw [List.forall_mem_map]
  exact fun l hl c inside same => newline_line one_line hl (same ▸ inside)

include one_line in
/-- The text is cut at its line breaks into the lines, and no name ends a quoted text early: a node
has two quotes and an edge two or none. A click has those that the path of the file has besides its
four, once for each of its two texts. -/
theorem draw_quotes :
    splitText '\n' (draw g config) = (lines g config).map Line.text ∧
      (∀ identifier n, .node identifier n ∈ lines g config →
        quotes (Line.node identifier n).text = 2) ∧
      (∀ source target e labelled, .link source target e labelled ∈ lines g config →
        quotes (Line.link source target e labelled).text = 0 ∨
          quotes (Line.link source target e labelled).text = 2) ∧
      ∀ identifier n path, .click identifier n path ∈ lines g config →
        quotes (Line.click identifier n path).text = 4 + (quotes n.path + quotes path) ∧
          (quotes (Line.click identifier n path).text = 4 ↔ '"' ∉ n.path.toList) := by
  have plain := isIdentifier_get (g.select config.maxNodes)
  refine ⟨splitText_draw one_line config, ?_, ?_, ?_⟩
  · intro identifier n hl
    rcases mem_lines_cases hl rfl with
      ⟨m, _, h⟩ | ⟨_, _, h⟩ | ⟨_, _, h⟩ | ⟨_, _, _, h⟩ <;> cases h
    exact quotes_node (plain n.id)
  · intro source target e labelled hl
    rcases mem_lines_cases hl rfl with
      ⟨_, _, h⟩ | ⟨_, _, h⟩ | ⟨_, _, h⟩ | ⟨_, _, _, h⟩ <;> cases h
    exact quotes_link (plain e.source) (plain e.target)
  · intro identifier n path hl
    rcases mem_lines_cases hl rfl with
      ⟨_, _, h⟩ | ⟨_, _, h⟩ | ⟨_, hn, h⟩ | ⟨_, _, _, h⟩ <;> cases h
    rw [quotes_click (plain n.id)]
    refine ⟨rfl, ?_⟩
    constructor
    · intro four
      exact List.count_eq_zero.mp (show quotes n.path = 0 by omega)
    · intro absent
      have given : quotes n.path = 0 := List.count_eq_zero.mpr absent
      have shown : quotes (shownPath n.path g.root) = 0 :=
        List.count_eq_zero.mpr (not_mem_shownPath (by decide) (by decide) g.root absent
          fun relative => (one_line.directory n
            ((select_subset g config.maxNodes).1 hn) relative).2)
      rw [given, shown]

end Drawn

/-- A node whose name and path have a quote, and an edge that has its name. -/
def quotedName : Graph where
  nodes := ["a\"b", "c"].map fun name =>
    ⟨name, name, .component, "/proj/" ++ name ++ ".ts", 1, 0, .typescript, none, [], .editing, none,
      none⟩
  edges := [⟨"c", "a\"b", .imports, some ["a\"b"]⟩]
  root := "/proj"
  generatedAt := 0
  languages := [.typescript]

theorem quotedName_on_one_line : OnOneLine quotedName :=
  ⟨by decide +kernel, by decide +kernel, by decide +kernel, by decide +kernel⟩

theorem draw_quotes_quoted :
    OnOneLine quotedName ∧
      splitText '\n' (draw quotedName .default) = (lines quotedName .default).map Line.text ∧
      ∀ identifier n, .node identifier n ∈ lines quotedName .default →
        quotes (Line.node identifier n).text = 2 := by
  have drawn := draw_quotes quotedName_on_one_line .default
  exact ⟨quotedName_on_one_line, drawn.1, drawn.2.1⟩

/-- The quote in the path of the file stands in both texts of the click, and ends them early. -/
theorem draw_click_six_quotes :
    OnOneLine quotedName ∧ ∃ identifier n path,
      .click identifier n path ∈ lines quotedName .default ∧
        quotes (Line.click identifier n path).text = 6 := by
  refine ⟨quotedName_on_one_line, ?_⟩
  obtain ⟨n, kept, path⟩ : ∃ n ∈ (quotedName.select (50 : ℕ)).nodes, n.path = "/proj/a\"b.ts" := by
    rw [Graph.select, if_pos (by decide)]
    exact ⟨_, List.mem_cons_self, rfl⟩
  have clicked : .click ((identifiersOf (quotedName.select (50 : ℕ))).get n.id) n
      (shownPath n.path quotedName.root) ∈ lines quotedName .default := by
    simp only [lines, clickLines, List.mem_append, List.mem_map]
    exact .inl (.inl (.inl (.inr ⟨n, kept, rfl⟩)))
  refine ⟨_, n, _, clicked, ?_⟩
  rw [quotes_click (isIdentifier_get _ n.id), path]
  decide +kernel

end ComponentAtlas.Diagram

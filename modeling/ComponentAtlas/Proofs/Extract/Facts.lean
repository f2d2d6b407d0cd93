import ComponentAtlas.Proofs.Extract.Candidates

/-!
The facts that extraction gives, for every text. Nothing fails; the declarations of a file have
different names, each stands on a line of the text, and every import brings in some name. What
builds a graph from these facts relies on all of this without a check.
-/

namespace ComponentAtlas

open Text

/-- An import brings in something, and one thing only where it brings in a whole namespace. -/
structure ImportStatement.BringsNames (i : ImportStatement) : Prop where
  some_name : i.names ≠ []
  one_namespace : i.isNamespace = true → i.names.length = 1

theorem bringsNames_of_one {i : ImportStatement} {name : String} (h : i.names = [name]) :
    i.BringsNames := by
  constructor
  · rw [h]
    exact List.cons_ne_nil _ _
  · intro _
    rw [h, List.length_singleton]

section Imports

namespace TypeScript

theorem bringsNames_of_mem_ofNames {source : String} {isReexport : Bool} {names : List String}
    {i : ImportStatement} (h : i ∈ ofNames source isReexport names) : i.BringsNames := by
  unfold ofNames at h
  split at h
  · cases h
  · rename_i some_name
    rw [List.mem_singleton.mp h]
    exact ⟨mt List.isEmpty_iff.mpr some_name, fun namespaced => nomatch namespaced⟩

theorem bringsNames_of_mem_defaultPart {m : ImportMatch} {i : ImportStatement}
    (h : i ∈ m.defaultPart) : i.BringsNames := by
  obtain ⟨_, _, rfl⟩ := List.mem_map.mp h
  exact bringsNames_of_one rfl

theorem imports_bringNames {content : List Char} {i : ImportStatement}
    (h : i ∈ importsOf content ++ reexportsOf content) : i.BringsNames := by
  simp only [importsOf, reexportsOf, List.mem_append, List.mem_flatMap, List.mem_map,
    or_assoc] at h
  rcases h with ⟨m, _, brace⟩ | ⟨m, _, rfl⟩ | ⟨m, _, star⟩ | ⟨m, _, brace⟩ | ⟨m, _, rfl⟩ |
    ⟨m, _, rfl⟩
  · rcases List.mem_append.mp brace with standard | named
    · exact bringsNames_of_mem_defaultPart standard
    · exact bringsNames_of_mem_ofNames named
  · exact bringsNames_of_one rfl
  · rcases List.mem_append.mp star with standard | namespaced
    · exact bringsNames_of_mem_defaultPart standard
    · rw [List.mem_singleton.mp namespaced]
      exact bringsNames_of_one rfl
  · exact bringsNames_of_mem_ofNames brace
  · exact bringsNames_of_one rfl
  · exact bringsNames_of_one rfl

end TypeScript

namespace Python

theorem fromImports_bringNames {content : List Char} {i : ImportStatement}
    (h : i ∈ fromImports content) : i.BringsNames := by
  obtain ⟨m, _, shown⟩ := List.mem_filterMap.mp h
  cases names : FromImport.importedNames m with
  | nil =>
      rw [names] at shown
      cases shown
  | cons name more =>
      rw [names] at shown
      cases shown
      exact ⟨List.cons_ne_nil _ _, fun namespaced => nomatch namespaced⟩

theorem importItem?_bringsName {item : List Char} {i : ImportStatement}
    (h : importItem? item = some i) : i.BringsNames := by
  unfold importItem? at h
  dsimp only at h
  split at h
  · cases h
  · split at h
    · cases h
    · cases h
      exact bringsNames_of_one rfl

theorem imports_bringNames {content : List Char} {i : ImportStatement}
    (h : i ∈ fromImports content ++ plainImports content) : i.BringsNames := by
  rcases List.mem_append.mp h with named | plain
  · exact fromImports_bringNames named
  · obtain ⟨m, _, items⟩ := List.mem_flatMap.mp plain
    obtain ⟨item, _, shown⟩ := List.mem_filterMap.mp items
    exact importItem?_bringsName shown

end Python

namespace CSharp

theorem usings_bringNames {content : List Char} {i : ImportStatement} (h : i ∈ usings content) :
    i.BringsNames := by
  rcases List.mem_append.mp h with directive | shorthand
  · obtain ⟨_, _, rfl⟩ := List.mem_map.mp directive
    exact bringsNames_of_one rfl
  · obtain ⟨_, _, rfl⟩ := List.mem_map.mp shorthand
    exact bringsNames_of_one rfl

end CSharp

end Imports

/-- Each language has one extractor. -/
theorem Extractor.supports_iff (e : Extractor) (language : Language) :
    e.supports language = true ↔ ofLanguage language = e := by
  cases e <;> cases language <;> decide

section Failures

/-- What is noticed is declared under every name that is one, with or without a failure. -/
theorem Findings.mem_names_toExtraction (f : Findings) (path : String) (content : List Char)
    (name : String) : name ∈ (f.toExtraction path content).declarations.map (·.name) ↔
      name ∈ f.candidates.map (·.name) ∧ name ≠ "" := by
  have names : (f.toExtraction path content).declarations.map (·.name) =
      (claimNames [] f.candidates).map (·.name) := by
    rw [Findings.toExtraction, List.map_map]
    rfl
  rw [names, mem_names_claimNames]
  simp

/-- A failure without a message is told as well. -/
theorem failureMessage_ne_empty (message : String) : failureMessage message ≠ "" := by
  unfold failureMessage
  split
  · decide
  · rename_i named
    exact fun empty => named (beq_iff_eq.mpr empty)

/-- A search that stops at a failure keeps the names that it noticed, and tells of the failure. -/
theorem Findings.failing_toExtraction (names : List String) (message path : String)
    (content : List Char) :
    let x := (Findings.failing names message).toExtraction path content
    (∀ name, name ∈ x.declarations.map (·.name) ↔ name ∈ names ∧ name ≠ "") ∧
      x.errors = [failureMessage message] := by
  refine ⟨fun name => ?_, rfl⟩
  rw [mem_names_toExtraction, failing, List.map_map]
  simp [Function.comp_def]

end Failures

/-- Every extractor gets to the end of the text. -/
theorem Extractor.findings_sound (e : Extractor) (path : String) (content : List Char)
    (language : Option Language) :
    let f := e.findings path content language
    f.failure = none ∧ (∀ c ∈ f.candidates, c.Stands e content) ∧
      ∀ i ∈ f.imports, i.BringsNames := by
  cases e with
  | typescript =>
      refine ⟨rfl, ?_, fun i hi => TypeScript.imports_bringNames hi⟩
      intro c hc
      obtain ⟨noticed, member, rfl⟩ := List.mem_map.mp hc
      exact (TypeScript.candidates_stand member).congr rfl rfl
  | python =>
      refine ⟨rfl, ?_, fun i hi => Python.imports_bringNames hi⟩
      intro c hc
      obtain ⟨noticed, member, rfl⟩ := List.mem_map.mp hc
      exact (Python.candidates_stand member).congr rfl rfl
  | csharp =>
      obtain ⟨candidates, all, stand⟩ := CSharp.findings_complete path content
      dsimp only [Extractor.findings]
      rw [all]
      exact ⟨rfl, stand, fun i hi => CSharp.usings_bringNames hi⟩

section Places

theorem statement_opens {before after : List Char} (h : Extractor.python.Opening before after) :
    columnNumber (before ++ after) before.length = 0 ∧
      ∃ word ∈ ["class", "def", "async"], word.toList <+: firstPiece '\n' after := by
  obtain ⟨start, word, member, rest, rfl⟩ := h
  have plain : ∀ word ∈ ["class", "def", "async"], '\n' ∉ word.toList := by decide
  refine ⟨columnNumber_lineStart _ start, word, member, ?_⟩
  rw [firstPiece_append (plain word member)]
  exact List.prefix_append _ _

theorem keyword_opens {before after : List Char} (h : Extractor.csharp.Opening before after) :
    ∃ c, (firstPiece '\n' after).head? = some c ∧ c ≠ ' ' ∧ c ≠ '\t' := by
  obtain ⟨c, rest, rfl, notBlank, notTab, notFeed⟩ := h
  refine ⟨c, ?_, notBlank, notTab⟩
  have kept : (c != '\n') = true := bne_iff_ne.mpr notFeed
  rw [firstPiece, List.takeWhile_cons, if_pos kept, List.head?_cons]

/-- A declaration is on the line of its candidate's place, which goes on from its column as the
text does from there. -/
theorem declare_place {e : Extractor} {content : List Char} {c : Candidate}
    (h : c.Stands e content) (path : String) (language : Language) :
    let d := c.declare path content language
    ∃ (n column : Nat) (row : List Char), (splitOn '\n' content)[n]? = some row ∧
      d.line = n + 1 ∧ d.column = column ∧ column ≤ row.length ∧
      (e = .python → column = 0 ∧ ∃ word ∈ ["class", "def", "async"], word.toList <+: row) ∧
      (e = .csharp → ∃ c, row[column]? = some c ∧ c ≠ ' ' ∧ c ≠ '\t') := by
  obtain ⟨⟨before, after, rfl, offset, opening⟩, stated⟩ := h
  obtain ⟨n, row, found, number, within, onward⟩ := line_at_place before after
  rw [offset] at stated
  refine ⟨n, _, row, found, ?_, ?_, within, ?_, ?_⟩
  · rw [Candidate.declare, offset, number]
    rfl
  · simp only [Candidate.declare, offset, stated]
  · rintro rfl
    obtain ⟨zero, word, member, opens⟩ := statement_opens opening
    rw [zero, List.drop_zero] at onward
    exact ⟨zero, word, member, onward ▸ opens⟩
  · rintro rfl
    obtain ⟨c, first, solid⟩ := keyword_opens opening
    exact ⟨c, by rw [← List.head?_drop, onward, first], solid⟩

end Places

/-- The facts of every text: nothing fails, names are told apart, every declaration stands on a line
of the text, where Python and C# declarations open as their languages have it, and every import
brings in its names. -/
theorem Extractor.extract_sound (e : Extractor) (path : String) (content : List Char)
    (language : Option Language) :
    let x := e.extract path content language
    x.errors = [] ∧
      (∀ d ∈ x.declarations, d.name ≠ "") ∧ (x.declarations.map (·.name)).Nodup ∧
      (∀ d ∈ x.declarations, ∃ (n column : Nat) (row : List Char),
        (splitOn '\n' content)[n]? = some row ∧ d.line = n + 1 ∧ d.column = column ∧
          column ≤ row.length ∧
          (e = .python → column = 0 ∧ ∃ word ∈ ["class", "def", "async"], word.toList <+: row) ∧
          (e = .csharp → ∃ c, row[column]? = some c ∧ c ≠ ' ' ∧ c ≠ '\t')) ∧
      ∀ i ∈ x.imports, i.names ≠ [] ∧ (i.isNamespace = true → i.names.length = 1) := by
  intro x
  obtain ⟨complete, stand, imports⟩ :=
    e.findings_sound path content (language.or (languageOf? path))
  refine ⟨?_, ?_, ?_, ?_, fun i hi => ⟨(imports i hi).some_name, (imports i hi).one_namespace⟩⟩
  · show (Option.toList _).map failureMessage = []
    rw [complete]
    rfl
  · intro d hd
    obtain ⟨c, claimed, rfl⟩ := List.mem_map.mp hd
    exact (name_of_mem_claimNames claimed).1
  · show (((claimNames [] _).map (Candidate.declare path content _)).map (·.name)).Nodup
    rw [List.map_map]
    exact claimNames_names_nodup [] _
  · intro d hd
    obtain ⟨c, claimed, rfl⟩ := List.mem_map.mp hd
    exact declare_place (stand c ((claimNames_sublist _ _).subset claimed)) path _

end ComponentAtlas

import ComponentAtlas.Extract.Python
import ComponentAtlas.Proofs.Graph.RelativeImports
import ComponentAtlas.Proofs.Text.Words

/-!
Modules with dots in front. One dot is the directory of the importing file and each further dot one
directory up, so the source that a module is turned into leads to the place that its parts name
below that directory. The module is then sought as a file with an extension, or as a directory with
a file that stands for it.
-/

namespace ComponentAtlas.Python

open Text

/-! Modules and the directories that they count from. -/

/-- A module with dots in front of its parts; there may be no parts. -/
structure RelativeModule where
  dots : Nat
  some_dot : 0 < dots
  parts : List Word

namespace RelativeModule

variable (m : RelativeModule)

def chars : List Char := List.replicate m.dots '.' ++ joinChars ['.'] (m.parts.map Word.chars)

def text : String := String.ofList m.chars

def names : List String := m.parts.map fun w => String.ofList w.chars

/-- The names that lead to the directory from which the parts count. -/
def lead : List String := if m.dots = 1 then ["."] else List.replicate (m.dots - 1) ".."

end RelativeModule

section Sources

theorem dot_not_mem (w : Word) : '.' ∉ w.chars := fun inside =>
  absurd (w.word '.' inside) (by decide)

namespace RelativeModule

variable (m : RelativeModule)

theorem lead_ne_nil : m.lead ≠ [] := by
  have some_dot := m.some_dot
  rw [lead]
  split
  · exact List.cons_ne_nil _ _
  · rename_i more
    rw [Ne, List.replicate_eq_nil_iff]
    omega

/-- Behind the dots the text goes on with a word, if at all. -/
theorem dropWhile_chars :
    m.chars.dropWhile (· == '.') = joinChars ['.'] (m.parts.map Word.chars) := by
  have dots : ∀ c ∈ List.replicate m.dots '.', (c == '.') = true := fun c hc =>
    beq_iff_eq.mpr (List.mem_replicate.mp hc).2
  rw [chars, List.dropWhile_append_of_pos dots]
  cases m.parts with
  | nil => rfl
  | cons w parts =>
      obtain ⟨rest, shape⟩ := joinChars_cons ['.'] w.chars (parts.map Word.chars)
      obtain ⟨c, cs, first⟩ := List.exists_cons_of_ne_nil w.nonempty
      have other : c ≠ '.' := fun same =>
        dot_not_mem w (by rw [first, same]; exact List.mem_cons_self)
      rw [List.map_cons, shape, first, List.cons_append,
        List.dropWhile_cons_of_neg (by simpa using other)]

theorem joinChars_parts_isEmpty :
    (joinChars ['.'] (m.parts.map Word.chars)).isEmpty = m.parts.isEmpty := by
  cases m.parts with
  | nil => rfl
  | cons w parts =>
      obtain ⟨rest, shape⟩ := joinChars_cons ['.'] w.chars (parts.map Word.chars)
      rw [List.map_cons, shape]
      simp [w.nonempty]

theorem way_parts : String.ofList (replaceChar '.' '/' (joinChars ['.'] (m.parts.map Word.chars))) =
    join "/" m.names := by
  have plain : ∀ p ∈ m.parts.map Word.chars, '.' ∉ p :=
    List.forall_mem_map.mpr fun w _ => dot_not_mem w
  rw [replaceChar_joinChars '/' plain, join, names, List.map_map]
  simp [Function.comp_def]

/-- A module is turned into the way up that its dots count, and then its parts. -/
theorem moduleSource_text : moduleSource m.text = join "/" (m.lead ++ m.names) := by
  have length : m.chars.length - (joinChars ['.'] (m.parts.map Word.chars)).length = m.dots := by
    simp [chars]
  have way : join "/" (m.lead ++ if m.parts.isEmpty then [] else [join "/" m.names]) =
      join "/" (m.lead ++ m.names) := by
    cases shape : m.parts with
    | nil => simp [names, shape]
    | cons w parts =>
        have some_name : m.names ≠ [] := by simp [names, shape]
        exact join_join "/" m.lead_ne_nil some_name
  rw [← way]
  simp only [moduleSource, text, String.toList_ofList, String.length_ofList, m.dropWhile_chars,
    length, m.joinChars_parts_isEmpty, m.way_parts, lead]
  have some_dot := m.some_dot
  split
  · omega
  · rename_i one
    simp [one]
  · rename_i several
    have more : ¬ m.dots = 1 := several
    simp [more]

theorem proper_names : ∀ n ∈ m.names, Path.Proper n := by
  refine List.forall_mem_map.mpr fun w _ => ?_
  have dot : '.' ∉ (String.ofList w.chars).toList := by
    rw [String.toList_ofList]
    exact dot_not_mem w
  refine ⟨?_, fun same => dot (by rw [same]; decide), fun c hc slash => ?_⟩
  · have some_char : String.ofList w.chars ≠ "" := by
      simp [w.nonempty]
    have other : String.ofList w.chars ≠ "." := fun same => dot (by rw [same]; decide)
    simp [Path.isHere, some_char, other]
  · rw [String.toList_ofList] at hc
    exact absurd (w.word c hc) (by rw [slash]; decide)

theorem eq_of_mem_lead {n : String} (h : n ∈ m.lead) : n = "." ∨ n = ".." := by
  rw [lead] at h
  split at h
  · exact .inl (List.mem_singleton.mp h)
  · exact .inr (List.mem_replicate.mp h).2

theorem no_slash_lead : ∀ n ∈ m.lead, ∀ c ∈ n.toList, c ≠ '/' := by
  intro n hn
  rcases m.eq_of_mem_lead hn with rfl | rfl <;> simp

/-- The source is no absolute path, and its names lead up and then down. -/
theorem names_moduleSource : Path.isAbsolute (moduleSource m.text) = false ∧
    (Path.parts (moduleSource m.text)).names = List.replicate (m.dots - 1) ".." ++ m.names := by
  have plain : ∀ n ∈ m.lead ++ m.names, ∀ c ∈ n.toList, c ≠ '/' := fun n hn =>
    (List.mem_append.mp hn).elim (m.no_slash_lead n) fun hn => (m.proper_names n hn).no_slash
  have kept : m.names.filter (!Path.isHere ·) = m.names :=
    List.filter_eq_self.mpr fun n hn => by simp [(m.proper_names n hn).not_here]
  have up : m.lead.filter (!Path.isHere ·) = List.replicate (m.dots - 1) ".." := by
    rw [lead]
    split
    · rename_i one
      rw [one]
      decide
    · exact List.filter_eq_self.mpr fun n hn => by
        rw [(List.mem_replicate.mp hn).2]
        decide
  refine ⟨?_, ?_⟩
  · obtain ⟨first, lead, shape⟩ := List.exists_cons_of_ne_nil m.lead_ne_nil
    have member : first ∈ m.lead := shape ▸ List.mem_cons_self
    have own := m.no_slash_lead first member
    have nonempty : first ≠ "" := by rcases m.eq_of_mem_lead member with rfl | rfl <;> decide
    rw [m.moduleSource_text, shape, List.cons_append, Path.isAbsolute_join nonempty]
    exact Path.isAbsolute_of_no_slash own
  · rw [m.moduleSource_text, Path.names_join plain, List.filter_append, up, kept]

end RelativeModule

end Sources

section Places

variable (m : RelativeModule) {importer : String} {base : List String}

theorem RelativeModule.names_over : ∀ n ∈ m.names, Path.Over (· ≠ '\\') n := by
  refine List.forall_mem_map.mpr fun w _ c hc => ?_
  rw [String.toList_ofList] at hc
  rintro rfl
  exact absurd (w.word '\\' hc) (by decide)

/-- From the directory of a file the source of a module leads to the place that its parts name below
the directory that its dots count. -/
theorem standard_joined_moduleSource (normal : Path.Normal importer)
    (plain : Path.Over (· ≠ '\\') importer)
    (up : Path.Above (m.dots - 1) (Path.directory importer) base) :
    Path.standard (Path.joined (Path.directory importer) (moduleSource m.text)) =
      Path.ofNames (base ++ m.names) := by
  obtain ⟨names, proper, rfl⟩ := normal.exists_names
  have above : ∀ n ∈ names.dropLast, Path.Proper n := fun n hn =>
    proper n (List.dropLast_subset names hn)
  obtain ⟨below, levels, split⟩ := up
  rw [Path.directory_ofNames proper] at split ⊢
  rw [Path.names_ofNames above] at split
  have clean : ∀ n ∈ base ++ m.names, Path.Over (· ≠ '\\') n := by
    intro n hn
    rcases List.mem_append.mp hn with hn | hn
    · have member : n ∈ names :=
        List.dropLast_subset names (split ▸ List.mem_append_left below hn)
      rw [← Path.names_ofNames proper] at member
      exact fun c hc => plain c (Path.mem_pieces (List.mem_filter.mp member).1 c hc).1
    · exact m.names_over n hn
  obtain ⟨relative, steps⟩ := m.names_moduleSource
  rw [split] at above
  rw [Path.standard, split, Path.normalize_joined above relative, steps, ← levels,
    Path.climbAll_up_down above m.proper_names,
    Path.forwardSlashes_eq (Path.ofNames_over (by decide) clean)]

end Places

section Candidates

/-- A module is sought at the place that its parts name below the directory that its dots count, and
nowhere else: as a file with an extension or none, or as a file that stands for the directory. -/
theorem candidatePaths_moduleSource (m : RelativeModule) {importer : String} {base : List String}
    (normal : Path.Normal importer) (plain : Path.Over (· ≠ '\\') importer)
    (up : Path.Above (m.dots - 1) (Path.directory importer) base)
    (below_root : m.parts = [] → base ≠ []) :
    let place := Path.ofNames (base ++ m.names)
    let candidates := candidatePaths (moduleSource m.text) importer
    Path.ofNames (base ++ m.names ++ ["__init__.py"]) ∈ candidates ∧
      (m.parts ≠ [] → place ++ ".py" ∈ candidates) ∧
      ∀ file, file ∈ candidates ↔ file = place ∨ StandsFor file place := by
  intro place candidates
  have sought (file : String) : file ∈ candidates ↔ file = place ∨ StandsFor file place :=
    mem_candidatePaths_iff (standard_joined_moduleSource m normal plain up)
  have python : ".py" ∈ sourceExtensions := by decide
  have some_name : base ++ m.names ≠ [] := by
    intro nothing
    obtain ⟨none_above, none_below⟩ := List.append_eq_nil_iff.mp nothing
    exact below_root (List.map_eq_nil_iff.mp none_below) none_above
  refine ⟨(sought _).mpr (.inr ⟨".py", python, .inr ⟨"__init__", by decide, ?_⟩⟩), ?_, sought⟩
  · have file : "__init__.py" = "__init__" ++ ".py" := rfl
    rw [Path.ofNames_concat some_name, file, ← String.append_assoc]
  · exact fun _ => (sought _).mpr (.inr ⟨".py", python, .inl rfl⟩)

/-- Two dots lead out of the directory of the importing file, once. -/
theorem candidatePaths_moduleSource_up :
    let part (s : String) (nonempty : s.toList ≠ []) (word : ∀ c ∈ s.toList, isWord c = true) :
        Word := ⟨s.toList, nonempty, word⟩
    let m : RelativeModule := ⟨2, by decide,
      [part "pkg" (by decide) (List.all_eq_true.mp (by decide)),
        part "mod" (by decide) (List.all_eq_true.mp (by decide))]⟩
    m.text = "..pkg.mod" ∧
      "/p/pkg/mod/__init__.py" ∈ candidatePaths (moduleSource "..pkg.mod") "/p/app/views.py" ∧
      "/p/pkg/mod.py" ∈ candidatePaths (moduleSource "..pkg.mod") "/p/app/views.py" := by
  intro part m
  have normal : Path.Normal "/p/app/views.py" := ⟨by decide +kernel, by decide +kernel⟩
  have absent : '\\' ∉ "/p/app/views.py".toList := by decide +kernel
  have above : Path.Above 1 (Path.directory "/p/app/views.py") ["p"] :=
    ⟨["app"], rfl, by decide +kernel⟩
  obtain ⟨inside, beside, _⟩ := candidatePaths_moduleSource m normal
    (fun _ hc same => absent (same ▸ hc)) above fun none => absurd none (List.cons_ne_nil _ _)
  have text : m.text = "..pkg.mod" := by decide
  have package : Path.ofNames (["p"] ++ m.names ++ ["__init__.py"]) = "/p/pkg/mod/__init__.py" := by
    decide +kernel
  have file : Path.ofNames (["p"] ++ m.names) ++ ".py" = "/p/pkg/mod.py" := by decide +kernel
  have beside := beside (List.cons_ne_nil _ _)
  rw [text, package] at inside
  rw [text, file] at beside
  exact ⟨text, inside, beside⟩

end Candidates

end ComponentAtlas.Python

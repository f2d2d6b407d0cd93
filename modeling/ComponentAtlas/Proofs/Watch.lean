import ComponentAtlas.Watch
import ComponentAtlas.Proofs.Path.Way
import ComponentAtlas.Proofs.Text.Places
import ComponentAtlas.Proofs.Workspace.Scan

/-!
The changes that a watch collects against the files that a scan visits. Both look at the extension
of a file and at the folders on the way to it, each in a way of its own: a scan at the end of the
name and at the folders, a watch at the lower case of the suffix and at all names below the root.
-/

namespace ComponentAtlas

open Text

namespace Path

section Suffix

theorem suffixOf_suffix (name : String) : (suffixOf name).toList <:+ name.toList := by
  unfold suffixOf
  dsimp only
  split
  · exact List.nil_suffix
  · rename_i parted
    have longer : (lastPiece '.' name.toList).length < name.toList.length := by
      simp only [Bool.or_eq_true, decide_eq_true_eq, not_or, Nat.not_le] at parted
      rw [String.length_toList]
      omega
    -- What is shorter than the name has a dot before it.
    have some_dot : '.' ∈ name.toList := by
      by_contra no_dot
      rw [lastPiece_of_not_mem no_dot] at longer
      exact Nat.lt_irrefl _ longer
    obtain ⟨before, after, split, plain⟩ := exists_last_separator some_dot
    rw [String.toList_ofList, split, lastPiece_append_cons before plain]
    exact List.suffix_append _ _

/-- Where a name ends in a dot and some letters and does not start with that dot, they are its
suffix. -/
theorem suffixOf_append {name : String} {before after : List Char}
    (shape : name.toList = before ++ '.' :: after) (front : before ≠ []) (back : after ≠ [])
    (plain : '.' ∉ after) : suffixOf name = String.ofList ('.' :: after) := by
  have long : ¬ name.length ≤ after.length + 1 := by
    have positive := List.length_pos_iff.mpr front
    rw [← String.length_toList, shape, List.length_append, List.length_cons]
    omega
  unfold suffixOf
  rw [shape, lastPiece_append_cons before plain]
  simp [back, long]

end Suffix

end Path

namespace Workspace

section Extensions

theorem languageOf?_isSome_iff (path : String) :
    (languageOf? path).isSome = true ↔ lower (Path.suffix path) ∈ extensions :=
  lookup_isSome_iff_mem

/-- An extension is in lower case, and no dot stands in it but the first one. -/
theorem extension_shape : ∀ e ∈ extensions, lower e = e ∧
    e = String.ofList ('.' :: e.toList.tail) ∧ e.toList.tail ≠ [] ∧ '.' ∉ e.toList.tail := by
  decide

/-- No skipped folder is named like a source file. -/
theorem not_suffix_of_skipped : ∀ folder ∈ skippedFolders, ∀ e ∈ extensions,
    ¬ e.toList <:+ folder.toList := by
  decide

/-- What a name that is not hidden ends in is its suffix, where that is an extension. -/
theorem suffixOf_of_suffix {name e : String} (shown : Watch.isHidden name = false)
    (known : e ∈ extensions) (ends : e.toList <:+ name.toList) : Path.suffixOf name = e := by
  obtain ⟨_, whole, some_letter, plain⟩ := extension_shape e known
  obtain ⟨before, shape⟩ := ends
  rw [whole, String.toList_ofList] at shape
  have front : before ≠ [] := by
    rintro rfl
    simp [Watch.isHidden, ← shape] at shown
  rw [Path.suffixOf_append shape.symm front some_letter plain]
  exact whole.symm

end Extensions

section Visits

/-- Every name in the tree is one of its own. -/
def WellNamed (t : Tree) : Prop := ∀ entry ∈ t.entries, ∀ n ∈ entry.1, Path.Proper n

theorem parts_pathText {names : Names} (h : ∀ n ∈ names, Path.Proper n) :
    Path.parts (Tree.pathText names) = ⟨1, names⟩ :=
  Path.parts_text (Nat.le_succ 1) fun n hn => ⟨(h n hn).not_here, (h n hn).no_slash⟩

variable {t : Tree} {root names : Names} {patterns : List String}

theorem WellNamed.proper (h : WellNamed t) (file : t.isFile names = true) :
    ∀ n ∈ names, Path.Proper n := by
  obtain ⟨item, listed⟩ := Tree.entry_of_isFile file
  exact h _ listed

theorem mem_visited_iff (named : WellNamed t) (file : t.isFile (root ++ names) = true) :
    Tree.pathText (root ++ names) ∈ (scan t root patterns .live).visited ↔
      IsSource t root patterns names := by
  have visited : (scan t root patterns .live).visited =
      (sourceFiles t root patterns).map fun names => Tree.pathText (root ++ names) := by
    rw [scan_eq_onward, onward_eq, sourcePlaces]
    simp [Scan.start, Scan.visited]
  rw [visited, List.mem_map]
  constructor
  · rintro ⟨other, member, same⟩
    have source := mem_sourceFiles.mp member
    have places := congrArg Path.parts same
    rw [parts_pathText (named.proper source.file), parts_pathText (named.proper file)] at places
    have equal : other = names := List.append_cancel_left (congrArg Path.Parts.names places)
    exact equal ▸ source
  · exact fun source => ⟨names, mem_sourceFiles.mpr source, rfl⟩

end Visits

end Workspace

namespace Watch

open Workspace

variable {w : Watch}

section Pending

theorem isRelevant_iff (path : String) :
    w.isRelevant path = true ↔ lower (Path.suffix path) ∈ extensions ∧
      ∀ n ∈ w.decidingNames (Path.parts path), isHidden n = false ∧ n ∉ skippedFolders := by
  simp [isRelevant, languageOf?_isSome_iff]

/-- However a path is spelled, its parts decide. -/
theorem isRelevant_congr {path other : String} (same : Path.parts path = Path.parts other) :
    w.isRelevant path = w.isRelevant other := by
  have suffix : Path.suffix path = Path.suffix other := by
    rw [Path.suffix, Path.suffix, Path.fileName, Path.fileName, same]
  rw [isRelevant, isRelevant, languageOf?, languageOf?, suffix, same]

theorem mem_pending_note (now : Float) (path shown : String) :
    shown ∈ (w.note now path).pending ↔
      shown ∈ w.pending ∨
        path ≠ "" ∧ w.isRelevant path = true ∧ (Path.parts path).text = shown := by
  unfold note
  by_cases counts : path ≠ "" ∧ w.isRelevant path = true
  · rw [if_neg (by simpa using counts)]
    by_cases waits : (Path.parts path).text ∈ w.pending
    · simp only [List.contains_iff_mem, waits, if_true, counts, ne_eq, not_false_eq_true, true_and]
      exact ⟨.inl, fun h => h.elim id fun same => same ▸ waits⟩
    · simp [waits, counts, eq_comm]
  · rw [if_pos (by simpa [or_iff_not_imp_left] using counts)]
    exact ⟨.inl, fun h => h.resolve_right fun noted => counts ⟨noted.1, noted.2.1⟩⟩

@[simp]
theorem isRelevant_note (w : Watch) (now : Float) (path other : String) :
    (w.note now path).isRelevant other = w.isRelevant other := by
  unfold note
  split <;> rfl

theorem mem_pending_foldl (now : Float) (paths : List String) (shown : String) :
    shown ∈ (paths.foldl (note · now) w).pending ↔
      shown ∈ w.pending ∨ ∃ path ∈ paths,
        path ≠ "" ∧ w.isRelevant path = true ∧ (Path.parts path).text = shown := by
  induction paths generalizing w with
  | nil => simp
  | cons path paths ih =>
      rw [List.foldl_cons, ih, mem_pending_note, or_assoc]
      simp only [isRelevant_note, List.exists_mem_cons_iff]

/-- An event makes the path of one of its ends wait exactly when that path counts. -/
theorem mem_pending_handle {e : FileEvent} (ofFile : e.isFolder = false) {path : String}
    (plain : (Path.parts path).text = path) (named : path ≠ "")
    (h : e.source = some path ∨ e.destination = some path) (now : Float) :
    path ∈ (w.handle now e).pending ↔ path ∈ w.pending ∨ w.isRelevant path = true := by
  have inside : path ∈ e.source.toList ++ e.destination.toList := by
    simpa [eq_comm] using h
  rw [handle, if_neg (by simp [ofFile]), mem_pending_foldl]
  refine or_congr_right ⟨?_, fun relevant => ⟨path, inside, named, relevant, plain⟩⟩
  rintro ⟨other, _, _, relevant, same⟩
  have parts := congrArg Path.parts same
  rw [Path.parts_text_parts] at parts
  exact isRelevant_congr parts ▸ relevant

end Pending

section Visited

variable {t : Tree} {root names : Names}

theorem decidingNames_pathText (same_root : w.root = Path.parts (Tree.pathText root))
    (proper : ∀ n ∈ root ++ names, Path.Proper n) :
    w.decidingNames (Path.parts (Tree.pathText (root ++ names))) = names := by
  have above : ∀ n ∈ root, Path.Proper n := fun n hn => proper n (List.mem_append_left names hn)
  rw [decidingNames, same_root, parts_pathText above, parts_pathText proper, Path.below?]
  simp

theorem suffix_pathText (proper : ∀ n ∈ root ++ names, Path.Proper n) {name : String}
    (last : names.getLast? = some name) :
    Path.suffix (Tree.pathText (root ++ names)) = Path.suffixOf name := by
  rw [Path.suffix, Path.fileName, parts_pathText proper, List.getLast?_append, last]
  rfl

/-- Of a source file the extension is known and no folder is skipped, so only hidden names are left
to decide. -/
theorem isRelevant_of_isSource (same_root : w.root = Path.parts (Tree.pathText root))
    (proper : ∀ n ∈ root ++ names, Path.Proper n) {patterns : List String}
    (source : IsSource t root patterns names) :
    w.isRelevant (Tree.pathText (root ++ names)) = true ↔ ∀ n ∈ names, isHidden n = false := by
  obtain ⟨name, last, e, known, ends⟩ := source.extension
  rw [isRelevant_iff, decidingNames_pathText same_root proper, suffix_pathText proper last]
  constructor
  · exact fun relevant n hn => (relevant.2 n hn).1
  · intro shown
    have suffix : Path.suffixOf name = e :=
      suffixOf_of_suffix (shown name (List.mem_of_getLast? last)) known ends
    rw [suffix, (extension_shape e known).1]
    refine ⟨known, fun n hn => ⟨shown n hn, fun skipped => ?_⟩⟩
    rw [← List.dropLast_append_getLast? name last, List.mem_append, List.mem_singleton] at hn
    rcases hn with folder | rfl
    · exact source.folders n folder skipped
    · exact not_suffix_of_skipped n skipped e known ends

theorem isSource_of_isRelevant (same_root : w.root = Path.parts (Tree.pathText root))
    (proper : ∀ n ∈ root ++ names, Path.Proper n) (below : names ≠ [])
    (file : t.isFile (root ++ names) = true)
    (lower_case : lower (Path.suffix (Tree.pathText (root ++ names))) =
      Path.suffix (Tree.pathText (root ++ names)))
    (relevant : w.isRelevant (Tree.pathText (root ++ names)) = true) :
    IsSource t root [] names := by
  have last := List.getLast?_eq_some_getLast below
  rw [isRelevant_iff, decidingNames_pathText same_root proper, lower_case,
    suffix_pathText proper last] at relevant
  obtain ⟨known, counted⟩ := relevant
  refine ⟨file, ⟨_, last, _, known, Path.suffixOf_suffix _⟩, ?_, rfl⟩
  exact fun folder hf => (counted folder (List.dropLast_subset names hf)).2

/-- A watch and a scan of one workspace, without patterns. A change of a visited file is collected
exactly when no name on the way to it is hidden; and a file whose change is collected is visited, if
its extension is written in lower case. -/
theorem handle_collects_visited (now : Float) {e : FileEvent} (named : WellNamed t)
    (same_root : w.root = Path.parts (Tree.pathText root)) (below : names ≠ [])
    (file : t.isFile (root ++ names) = true) (ofFile : e.isFolder = false)
    (of_path : e.source = some (Tree.pathText (root ++ names)) ∨
      e.destination = some (Tree.pathText (root ++ names)))
    (fresh : Tree.pathText (root ++ names) ∉ w.pending) :
    let path := Tree.pathText (root ++ names)
    let visited := path ∈ (scan t root [] .live).visited
    let waits := path ∈ (w.handle now e).pending
    (visited → (waits ↔ ∀ n ∈ names, isHidden n = false)) ∧
      (waits → lower (Path.suffix path) = Path.suffix path → visited) := by
  intro path visited waits
  have proper := named.proper file
  have parts : Path.parts path = ⟨1, root ++ names⟩ := parts_pathText proper
  have some_text : path ≠ "" := by
    intro empty
    rw [empty] at parts
    have one_slash : (Path.parts "").slashes = 1 := congrArg Path.Parts.slashes parts
    exact absurd one_slash (by decide)
  have plain : (Path.parts path).text = path := by
    rw [parts]
    rfl
  have waits_iff : waits ↔ w.isRelevant path = true :=
    (mem_pending_handle ofFile plain some_text of_path now).trans (or_iff_right fresh)
  have visited_iff : visited ↔ IsSource t root [] names := mem_visited_iff named file
  rw [waits_iff, visited_iff]
  exact ⟨isRelevant_of_isSource same_root proper, fun relevant lower_case =>
    isSource_of_isRelevant same_root proper below file lower_case relevant⟩

/-- The tree of one empty file. -/
def oneFile (names : Names) : Tree := ⟨[(names, .file [])]⟩

theorem wellNamed_oneFile {names : Names} (h : ∀ n ∈ names, Path.Proper n) :
    WellNamed (oneFile names) := by
  intro entry listed
  rw [oneFile, List.mem_singleton] at listed
  exact listed ▸ h

theorem handle_collects_visited_below_src :
    let path := "/proj/src/a.ts"
    path ∈ (scan (oneFile ["proj", "src", "a.ts"]) ["proj"] [] .live).visited ∧
      path ∈ ((start "/proj" 2.0).handle 100.0 ⟨some path, none, false⟩).pending := by
  intro path
  have named : WellNamed (oneFile ["proj", "src", "a.ts"]) := wellNamed_oneFile (by decide)
  have source : IsSource (oneFile ["proj", "src", "a.ts"]) ["proj"] [] ["src", "a.ts"] :=
    ⟨by decide, ⟨"a.ts", rfl, ".ts", by decide, by decide⟩, by decide, by decide⟩
  have visited := (mem_visited_iff named source.file).mpr source
  have same_root : (start "/proj" 2.0).root = Path.parts (Tree.pathText ["proj"]) := by decide
  have agree := handle_collects_visited 100.0 named same_root (List.cons_ne_nil "src" ["a.ts"])
    source.file (rfl : (FileEvent.mk (some path) none false).isFolder = false) (.inl rfl)
    List.not_mem_nil
  exact ⟨visited, (agree.1 visited).mpr (by decide)⟩

/-- A hidden file is visited, but its changes are not collected. -/
theorem visited_of_hidden :
    let path := "/proj/.eslintrc.js"
    (oneFile ["proj", ".eslintrc.js"]).isFile ["proj", ".eslintrc.js"] = true ∧
      ¬ (path ∈ (scan (oneFile ["proj", ".eslintrc.js"]) ["proj"] [] .live).visited ↔
        path ∈ ((start "/proj" 2.0).handle 100.0 ⟨some path, none, false⟩).pending) := by
  intro path
  have named : WellNamed (oneFile ["proj", ".eslintrc.js"]) := wellNamed_oneFile (by decide)
  have source : IsSource (oneFile ["proj", ".eslintrc.js"]) ["proj"] [] [".eslintrc.js"] :=
    ⟨by decide, ⟨".eslintrc.js", rfl, ".js", by decide, by decide⟩, by decide, by decide⟩
  have visited := (mem_visited_iff named source.file).mpr source
  have passed : path ∉ ((start "/proj" 2.0).handle 100.0 ⟨some path, none, false⟩).pending := by
    decide
  exact ⟨source.file, fun agree => passed (agree.mp visited)⟩

/-- The changes of a file are collected, but no scan visits it: its extension is in upper case. -/
theorem collected_of_upper_case :
    let path := "/proj/A.TS"
    path ∈ ((start "/proj" 2.0).handle 100.0 ⟨some path, none, false⟩).pending ∧
      path ∉ (scan (oneFile ["proj", "A.TS"]) ["proj"] [] .live).visited := by
  intro path
  have named : WellNamed (oneFile ["proj", "A.TS"]) := wellNamed_oneFile (by decide)
  have waits : path ∈ ((start "/proj" 2.0).handle 100.0 ⟨some path, none, false⟩).pending := by
    decide
  have other : ∀ e ∈ extensions, ¬ e.toList <:+ "A.TS".toList := by decide
  refine ⟨waits, fun visited => ?_⟩
  have file : (oneFile ["proj", "A.TS"]).isFile (["proj"] ++ ["A.TS"]) = true := by decide
  have source := (mem_visited_iff named file).mp visited
  obtain ⟨name, last, e, known, ends⟩ := source.extension
  obtain rfl : "A.TS" = name := Option.some.inj last
  exact other e known ends

end Visited

end Watch

end ComponentAtlas

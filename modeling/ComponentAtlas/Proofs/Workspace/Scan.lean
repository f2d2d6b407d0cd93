import ComponentAtlas.Proofs.Workspace.Files

/-!
What a scan does. However the walk is divided into extensions and places, and wherever it looks at
the signal, it visits the source files in order and stops after as many of them as the signal
leaves; what it has found is what these files give.
-/

namespace ComponentAtlas.Workspace

section Steps

variable {α β : Type}

namespace Walk

theorem steps_of_cancelled (step : Walk → α → Walk) {w : Walk}
    (h : w.cancelled = true) (as : List α) : w.steps step as = w := by
  cases as with
  | nil => rfl
  | cons a as => rw [steps, if_pos h]

theorem steps_append (step : Walk → α → Walk) (w : Walk) (as bs : List α) :
    w.steps step (as ++ bs) = (w.steps step as).steps step bs := by
  induction as generalizing w with
  | nil => rfl
  | cons a as ih =>
      rw [List.cons_append, steps, steps]
      split
      · rename_i ended
        exact (steps_of_cancelled step ended bs).symm
      · exact ih (step w a)

/-- To look at the signal before every part of a walk as well makes no difference. -/
theorem steps_flatMap (step : Walk → β → Walk) (parts : α → List β) (w : Walk) (as : List α) :
    w.steps (fun w a => w.steps step (parts a)) as = w.steps step (as.flatMap parts) := by
  induction as generalizing w with
  | nil => rfl
  | cons a as ih =>
      rw [List.flatMap_cons, steps_append, steps, ih]
      split
      · rename_i ended
        rw [steps_of_cancelled step ended, steps_of_cancelled step ended]
      · rfl

variable {t : Tree} {root : Names} {patterns : List String} {token : Token}

theorem pass_eq (w : Walk) (names : Names) :
    w.pass t root patterns token names =
      if isVisited t root patterns names then w.visit t token (root ++ names) else w := by
  unfold pass isVisited
  cases t.isFile (root ++ names) <;> cases isExcluded patterns names <;> rfl

/-- What is passed by leaves no trace, not even where the signal is looked at. -/
theorem steps_pass (w : Walk) (places : List Names) :
    w.steps (pass t root patterns token) places =
      w.steps (visit t token) ((places.filter (isVisited t root patterns)).map (root ++ ·)) := by
  induction places generalizing w with
  | nil => rfl
  | cons names places ih =>
      by_cases ended : w.cancelled = true
      · rw [steps_of_cancelled _ ended, steps_of_cancelled _ ended]
      · rw [steps, if_neg ended, pass_eq, ih]
        cases visited : isVisited t root patterns names with
        | false => simp [visited]
        | true => simp [visited, steps, ended]

end Walk

end Steps

section Reach

/-- The files that are visited until the signal comes, where the given reports were heard before. -/
def Token.onward (token : Token) (t : Tree) (heard : List Extraction) : List Names → List Names
  | [] => []
  | place :: places =>
    let heard := heard ++ [extractFile t place]
    place :: if token.upon heard then [] else token.onward t heard places

/-- The files that are visited before the signal is given. -/
def Token.reach (token : Token) (t : Tree) (places : List Names) : List Names :=
  if token.given then [] else token.onward t [] places

/-- What a scan has found that goes on with the given files after `s`. -/
def Scan.onward (t : Tree) (s : Scan) (places : List Names) : Scan :=
  places.foldl (fun s place => s.add (extractFile t place)) s

theorem steps_visit (t : Tree) (token : Token) (w : Walk) (places : List Names) :
    (w.steps (Walk.visit t token) places).found =
      w.found.onward t (if w.cancelled then [] else token.onward t w.found.reports places) := by
  induction places generalizing w with
  | nil => cases w.cancelled <;> rfl
  | cons place places ih =>
      rw [Walk.steps]
      cases ended : w.cancelled with
      | true => rfl
      | false =>
          rw [if_neg Bool.false_ne_true, if_neg Bool.false_ne_true, ih, Token.onward]
          simp only [Walk.visit, ended, Bool.false_or]
          rfl

theorem Token.onward_subset (token : Token) (t : Tree) (heard : List Extraction)
    (places : List Names) : token.onward t heard places ⊆ places := by
  induction places generalizing heard with
  | nil => exact List.Subset.refl _
  | cons place places ih =>
      refine List.cons_subset_cons place ?_
      split
      · exact List.nil_subset _
      · exact ih _

theorem Token.mem_of_mem_reach (token : Token) {t : Tree} {places : List Names} {place : Names}
    (h : place ∈ token.reach t places) : place ∈ places := by
  unfold Token.reach at h
  split at h
  · cases h
  · exact token.onward_subset t [] places h

/-- Where nobody gives the signal, all files are visited. -/
@[simp]
theorem Token.reach_live (t : Tree) (places : List Names) : live.reach t places = places := by
  have onward : ∀ heard, live.onward t heard places = places := by
    induction places with
    | nil => exact fun _ => rfl
    | cons place places ih => exact fun heard => congrArg (place :: ·) (ih _)
  exact onward []

@[simp]
theorem Token.reach_cancelled (t : Tree) (places : List Names) : cancelled.reach t places = [] :=
  rfl

/-- The signal after so many files leaves so many files. -/
@[simp]
theorem Token.reach_cancelledAfter (t : Tree) (n : ℕ) (places : List Names) :
    (cancelledAfter n).reach t places = places.take n := by
  have onward : ∀ heard : List Extraction, heard.length < n →
      (cancelledAfter n).onward t heard places = places.take (n - heard.length) := by
    induction places with
    | nil => exact fun _ _ => List.take_nil.symm
    | cons place places ih =>
        intro heard room
        have left : n - heard.length = n - (heard.length + 1) + 1 := by omega
        rw [left, List.take_succ_cons, Token.onward]
        congr 1
        by_cases last : n ≤ heard.length + 1
        · have none_left : n - (heard.length + 1) = 0 := by omega
          simp [cancelledAfter, last, none_left]
        · have more := ih (heard ++ [extractFile t place]) (by simp; omega)
          rw [List.length_append, List.length_singleton] at more
          simpa [cancelledAfter, last] using more
  cases n with
  | zero => rfl
  | succ n => exact onward [] n.succ_pos

variable (t : Tree) (root : Names) (patterns : List String)

/-- The source files by their names from the root of the tree. -/
def sourcePlaces : List Names := (sourceFiles t root patterns).map (root ++ ·)

theorem scan_eq_onward (token : Token) :
    scan t root patterns token =
      Scan.start.onward t (token.reach t (sourcePlaces t root patterns)) := by
  have walk := Walk.steps_flatMap (Walk.pass t root patterns token) (placesNamed t root)
    ⟨token.given, Scan.start⟩ extensions
  have files : (extensions.flatMap (placesNamed t root)).filter (isVisited t root patterns) =
      sourceFiles t root patterns := List.filter_flatMap
  rw [Walk.steps_pass, files] at walk
  exact (congrArg Walk.found walk).trans (steps_visit t token ⟨token.given, Scan.start⟩ _)

end Reach

section Found

theorem extractBytes_path (path : String) (bytes : List UInt8) :
    (extractBytes path bytes).path = path := by
  unfold extractBytes
  split
  · rfl
  · split
    · unfold extract
      split <;> rfl
    · rfl

@[simp]
theorem extractFile_path (t : Tree) (place : Names) :
    (extractFile t place).path = Tree.pathText place := extractBytes_path _ _

/-- What files add to what was found before them. -/
theorem onward_eq (t : Tree) (s : Scan) (places : List Names) :
    s.onward t places =
      { filesScanned := s.filesScanned + places.length
        reports := s.reports ++ places.map (extractFile t)
        results := s.results ++ (places.map (extractFile t)).filter (!·.isEmpty)
        errors := s.errors ++ (places.map (extractFile t)).filter (!·.errors.isEmpty) } := by
  induction places generalizing s with
  | nil => simp [Scan.onward]
  | cons place places ih =>
      have rest := ih (s.add (extractFile t place))
      unfold Scan.onward at rest ⊢
      rw [List.foldl_cons, rest]
      cases empty : (extractFile t place).isEmpty <;>
        cases fine : (extractFile t place).errors.isEmpty <;>
        simp [Scan.add, empty, fine, Nat.add_assoc, Nat.add_comm 1]

theorem onward_append (t : Tree) (s : Scan) (places more : List Names) :
    s.onward t (places ++ more) = (s.onward t places).onward t more := List.foldl_append

end Found

/-- Whenever the signal comes, each file that is visited before has one report, and the reports are
counted. -/
theorem scan_reports (t : Tree) (root : Names) (patterns : List String) (token : Token) :
    let s := scan t root patterns token
    s.reports = (token.reach t (sourcePlaces t root patterns)).map (extractFile t) ∧
      s.filesScanned = s.reports.length := by
  intro s
  have found : s = _ := scan_eq_onward t root patterns token
  rw [onward_eq] at found
  rw [found]
  simp [Scan.start]

/-- A scan that nothing stops visits the source files, each once and in their order, and reports
each of them. Those with facts are its results and those with faults its errors. -/
theorem scan_live_visits (t : Tree) (root : Names) (patterns : List String) :
    let s := scan t root patterns Token.live
    let files := sourceFiles t root patterns
    let extractions := files.map fun names => extractFile t (root ++ names)
    (∀ names, names ∈ files ↔ IsSource t root patterns names) ∧
      files.Nodup ∧ files.Pairwise Precedes ∧
      s.reports = extractions ∧
      s.visited = files.map (fun names => Tree.pathText (root ++ names)) ∧
      s.filesScanned = files.length ∧
      s.results = extractions.filter (!·.isEmpty) ∧
      s.errors = extractions.filter (!·.errors.isEmpty) := by
  intro s files extractions
  have found : s = _ := scan_eq_onward t root patterns Token.live
  rw [Token.reach_live, onward_eq] at found
  refine ⟨fun _ => mem_sourceFiles, sourceFiles_nodup, sourceFiles_pairwise, ?_⟩
  rw [found]
  simp [Scan.start, Scan.visited, sourcePlaces, Function.comp_def, files, extractions]

/-- A scan that is stopped after `n` files has visited the first `n` files of the whole scan, and
what it has found is what the whole scan had found by then and went on with. -/
theorem scan_cancelledAfter (t : Tree) (root : Names) (patterns : List String) (n : Nat) :
    let files := sourcePlaces t root patterns
    let whole := scan t root patterns Token.live
    let part := scan t root patterns (Token.cancelledAfter n)
    whole = Scan.start.onward t files ∧ part = Scan.start.onward t (files.take n) ∧
      whole = part.onward t (files.drop n) ∧
      part.reports = whole.reports.take n ∧
      part.visited = whole.visited.take n ∧ part.filesScanned = min n whole.filesScanned ∧
      part.results <+: whole.results ∧ part.errors <+: whole.errors := by
  intro files whole part
  have all : whole = Scan.start.onward t files := by
    rw [show whole = _ from scan_eq_onward t root patterns Token.live, Token.reach_live]
  have first : part = Scan.start.onward t (files.take n) := by
    rw [show part = _ from scan_eq_onward t root patterns _, Token.reach_cancelledAfter]
  have rest : whole = part.onward t (files.drop n) := by
    rw [all, first, ← onward_append, List.take_append_drop]
  have reports : part.reports = whole.reports.take n := by
    rw [all, first, onward_eq, onward_eq]
    simp [Scan.start]
  refine ⟨all, first, rest, reports, ?_, ?_, ?_, ?_⟩
  · rw [Scan.visited, Scan.visited, reports, List.map_take]
  · have counted := (scan_reports t root patterns (Token.cancelledAfter n)).2
    have counted_all := (scan_reports t root patterns Token.live).2
    rw [counted, counted_all, ← List.length_take]
    exact congrArg List.length reports
  · rw [rest, onward_eq]
    exact List.prefix_append _ _
  · rw [rest, onward_eq]
    exact List.prefix_append _ _

end ComponentAtlas.Workspace

import Mathlib.Data.List.Infix
import Mathlib.Data.List.Lex
import Mathlib.Data.List.Nodup
import ComponentAtlas.Workspace.Scan
import ComponentAtlas.Proofs.Table
import ComponentAtlas.Proofs.Text.Pieces

/-!
The source files of a workspace. A file of the tree is one of them if its name has an extension of
the table, no folder between the root and it is skipped, and no pattern fits its path. Each is
listed once, and they are ordered by extension and then by path.
-/

namespace ComponentAtlas

namespace Tree

theorem mem_stations (way names : Names) : names ∈ stations way ↔ names ≠ [] ∧ names <+: way := by
  unfold stations
  constructor
  · intro h
    obtain ⟨n, hn, rfl⟩ := List.mem_map.mp h
    have short : n < way.length := List.mem_range.mp hn
    refine ⟨?_, List.take_prefix _ _⟩
    rw [← List.length_pos_iff, List.length_take]
    omega
  · rintro ⟨some_name, start⟩
    have long := List.length_pos_iff.mpr some_name
    have short := start.length_le
    refine List.mem_map.mpr ⟨names.length - 1, List.mem_range.mpr (by omega), ?_⟩
    rw [Nat.sub_add_cancel long, ← List.prefix_iff_eq_take.mp start]

theorem mem_placesBelow {t : Tree} {root names : Names} {item : Item} (some_name : names ≠ [])
    (h : (root ++ names, item) ∈ t.entries) : names ∈ t.placesBelow root := by
  have below : isStrictPrefix root (root ++ names) = true := by
    simp [isStrictPrefix, some_name]
  unfold placesBelow
  rw [List.mem_eraseDups, List.mem_flatMap]
  refine ⟨_, h, ?_⟩
  simp only [below, if_true, List.drop_left, mem_stations]
  exact ⟨some_name, List.prefix_refl _⟩

theorem placesBelow_nodup (t : Tree) (root : Names) : (t.placesBelow root).Nodup :=
  eraseDups_nodup _

/-- What can be read is listed: folders alone may be there without being listed. -/
theorem entry_of_isFile {t : Tree} {names : Names} (h : t.isFile names = true) :
    ∃ item, (names, item) ∈ t.entries := by
  unfold isFile file? item? entry? at h
  cases found : t.entries.lookup names with
  | none =>
      -- A place that is not listed is a folder or nothing.
      rw [found] at h
      dsimp only at h
      by_cases within : (names.isEmpty || t.entries.any fun e => isStrictPrefix names e.1) = true
      · rw [if_pos within] at h
        cases h
      · rw [if_neg within] at h
        cases h
  | some item => exact ⟨item, mem_of_lookup found⟩

end Tree

namespace Workspace

open Text

section Extensions

theorem extensions_eq : extensions = [".ts", ".tsx", ".js", ".jsx", ".py", ".cs"] := rfl

/-- What the name of a source file ends in. -/
theorem ends_in_extension_iff (name : List Char) :
    (∃ e ∈ extensions, e.toList <:+ name) ↔
      ".ts".toList <:+ name ∨ ".tsx".toList <:+ name ∨ ".js".toList <:+ name ∨
        ".jsx".toList <:+ name ∨ ".py".toList <:+ name ∨ ".cs".toList <:+ name := by
  simp only [extensions_eq, List.exists_mem_cons_iff, List.not_mem_nil, false_and, exists_false,
    or_false]

theorem hasExtension_iff (extension : String) (names : Names) :
    hasExtension extension names = true ↔
      extension.toList <:+ (names.getLast?.getD "").toList := endsWith_iff _ _

/-- No extension ends in another one. -/
theorem extensions_apart :
    ∀ i (hi : i < extensions.length) j (hj : j < extensions.length),
      extensions[i].toList <:+ extensions[j].toList → i = j := by
  decide

theorem extension_index_unique {i j : Nat} (hi : i < extensions.length) (hj : j < extensions.length)
    {names : Names} (h : hasExtension extensions[i] names = true)
    (h' : hasExtension extensions[j] names = true) : i = j := by
  rw [hasExtension_iff] at h h'
  rcases List.suffix_or_suffix_of_suffix h h' with inside | inside
  · exact extensions_apart i hi j hj inside
  · exact (extensions_apart j hj i hi inside).symm

/-- How many extensions come before that of a file. -/
def extensionRank (names : Names) : Nat := extensions.findIdx fun e => hasExtension e names

theorem extensionRank_eq {i : Nat} (hi : i < extensions.length) {names : Names}
    (h : hasExtension extensions[i] names = true) : extensionRank names = i := by
  unfold extensionRank
  rw [List.findIdx_eq hi]
  refine ⟨h, ?_⟩
  intro j hj
  rw [Bool.eq_false_iff]
  intro h'
  have same := extension_index_unique hi (hj.trans hi) h h'
  omega

end Extensions

section Order

theorem pathLe_iff (as bs : Names) : pathLe as bs = true ↔ as = bs ∨ List.Lex (· < ·) as bs := by
  induction as generalizing bs with
  | nil =>
      cases bs with
      | nil => simp [pathLe]
      | cons b bs => simp [pathLe]
  | cons a as ih =>
      cases bs with
      | nil => simp [pathLe]
      | cons b bs =>
          rw [pathLe]
          by_cases same : a = b
          · subst same
            simp only [beq_self_eq_true, if_true, ih, List.cons.injEq, true_and, List.lex_cons_iff]
          · have first : List.Lex (· < ·) (a :: as) (b :: bs) ↔ a < b := by
              constructor
              · rintro (_ | less | _)
                · exact less
                · exact absurd rfl same
              · exact List.Lex.rel
            simp only [beq_iff_eq, same, if_false, decide_eq_true_eq, List.cons.injEq, false_and,
              false_or, first]

theorem pathLe_trans (as bs cs : Names) (h : pathLe as bs = true) (h' : pathLe bs cs = true) :
    pathLe as cs = true := by
  rw [pathLe_iff] at h h' ⊢
  rcases h with rfl | h
  · exact h'
  · rcases h' with rfl | h'
    · exact .inr h
    · exact .inr (List.lex_trans String.lt_trans h h')

theorem pathLe_total (as bs : Names) : (pathLe as bs || pathLe bs as) = true := by
  induction as generalizing bs with
  | nil => simp [pathLe]
  | cons a as ih =>
      cases bs with
      | nil => simp [pathLe]
      | cons b bs =>
          rw [pathLe, pathLe]
          by_cases same : a = b
          · subst same
            simpa using ih bs
          · have either : a < b ∨ b < a := by
              by_contra neither
              rw [not_or, String.not_lt, String.not_lt] at neither
              exact same (String.le_antisymm neither.2 neither.1)
            have apart : ¬ b = a := fun e => same e.symm
            simpa only [beq_iff_eq, same, apart, if_false, Bool.or_eq_true, decide_eq_true_eq] using
              either

-- As texts the two paths would stand the other way.
example : pathLe ["a", "b.ts"] ["a-b.ts"] = true ∧ "a-b.ts" < "a/b.ts" := by
  constructor <;> decide

end Order

section Listing

variable (t : Tree) (root : Names) (patterns : List String)

/-- A file that a scan reads, and does not pass by. -/
def isVisited (names : Names) : Bool := t.isFile (root ++ names) && !isExcluded patterns names

def filesNamed (extension : String) : List Names :=
  (placesNamed t root extension).filter (isVisited t root patterns)

/-- The files that a scan visits, by their names from the root. -/
def sourceFiles : List Names := extensions.flatMap (filesNamed t root patterns)

/-- What makes a file one of the source files: the end of its name, the folders on the way to it
and the patterns. -/
structure IsSource (names : Names) : Prop where
  file : t.isFile (root ++ names) = true
  extension : ∃ name, names.getLast? = some name ∧ ∃ e ∈ extensions, e.toList <:+ name.toList
  folders : ∀ folder ∈ names.dropLast, folder ∉ skippedFolders
  unmatched : matchesAny (join "/" names) patterns = false

/-- The order of source files: that of their extensions, and for one extension that of their names,
compared one after another. -/
def Precedes (a b : Names) : Prop :=
  extensionRank a < extensionRank b ∨ extensionRank a = extensionRank b ∧ List.Lex (· < ·) a b

variable {t root patterns}

theorem isExcluded_eq_false_iff {names : Names} :
    isExcluded patterns names = false ↔
      (∀ folder ∈ names.dropLast, folder ∉ skippedFolders) ∧
        matchesAny (join "/" names) patterns = false := by
  simp [isExcluded]

theorem mem_filesNamed {extension : String} {names : Names} :
    names ∈ filesNamed t root patterns extension ↔
      names ∈ t.placesBelow root ∧ hasExtension extension names = true ∧
        t.isFile (root ++ names) = true ∧ isExcluded patterns names = false := by
  simp [filesNamed, placesNamed, isVisited, and_assoc]

theorem extension_of_mem_filesNamed {extension : String} {names : Names}
    (h : names ∈ filesNamed t root patterns extension) : hasExtension extension names = true :=
  (mem_filesNamed.mp h).2.1

theorem exists_extension_iff {names : Names} :
    (∃ e ∈ extensions, hasExtension e names = true) ↔
      ∃ name, names.getLast? = some name ∧ ∃ e ∈ extensions, e.toList <:+ name.toList := by
  simp only [hasExtension_iff]
  cases last : names.getLast? with
  | none =>
      have named : "" ∉ extensions := by decide
      simpa using named
  | some name => simp

theorem mem_sourceFiles {names : Names} :
    names ∈ sourceFiles t root patterns ↔ IsSource t root patterns names := by
  unfold sourceFiles
  rw [List.mem_flatMap]
  simp only [mem_filesNamed, isExcluded_eq_false_iff]
  constructor
  · rintro ⟨e, he, _, ends, file, folders, unmatched⟩
    exact ⟨file, exists_extension_iff.mp ⟨e, he, ends⟩, folders, unmatched⟩
  · rintro ⟨file, extension, folders, unmatched⟩
    obtain ⟨e, he, ends⟩ := exists_extension_iff.mpr extension
    have some_name : names ≠ [] := by
      obtain ⟨name, last, _⟩ := extension
      rintro rfl
      cases last
    obtain ⟨item, listed⟩ := Tree.entry_of_isFile file
    exact ⟨e, he, Tree.mem_placesBelow some_name listed, ends, file, folders, unmatched⟩

theorem filesNamed_pairwise (extension : String) :
    (filesNamed t root patterns extension).Pairwise (List.Lex (· < ·)) := by
  have sorted := List.pairwise_mergeSort pathLe_trans pathLe_total
    ((t.placesBelow root).filter (hasExtension extension))
  have distinct : (placesNamed t root extension).Nodup :=
    ((Tree.placesBelow_nodup t root).filter _).mergeSort
  have strict : (placesNamed t root extension).Pairwise (List.Lex (· < ·)) := by
    refine (sorted.and distinct).imp ?_
    rintro a b ⟨le, apart⟩
    exact ((pathLe_iff a b).mp le).resolve_left apart
  exact strict.filter _

theorem sourceFiles_pairwise : (sourceFiles t root patterns).Pairwise Precedes := by
  unfold sourceFiles
  rw [List.pairwise_flatMap]
  constructor
  · intro e he
    obtain ⟨i, hi, rfl⟩ := List.getElem_of_mem he
    refine (filesNamed_pairwise _).imp_of_mem ?_
    intro a b ha hb before
    right
    rw [extensionRank_eq hi (extension_of_mem_filesNamed ha),
      extensionRank_eq hi (extension_of_mem_filesNamed hb)]
    exact ⟨rfl, before⟩
  · rw [List.pairwise_iff_getElem]
    intro i j hi hj before a ha b hb
    left
    rw [extensionRank_eq hi (extension_of_mem_filesNamed ha),
      extensionRank_eq hj (extension_of_mem_filesNamed hb)]
    exact before

theorem Precedes.ne {a b : Names} (h : Precedes a b) : a ≠ b := by
  rintro rfl
  rcases h with less | ⟨_, less⟩
  · omega
  · exact List.lex_irrefl String.lt_irrefl a less

theorem sourceFiles_nodup : (sourceFiles t root patterns).Nodup :=
  sourceFiles_pairwise.imp Precedes.ne

end Listing

end Workspace

end ComponentAtlas

import ComponentAtlas.Proofs.Text.Places
import ComponentAtlas.Proofs.Text.Wildcard
import ComponentAtlas.Workspace.Exclusion

/-!
What patterns leave out. The star of a pattern passes over slashes, a pattern for folders of any
depth is tried without its first stars too, and every pattern is tried on the last name alone. So
a folder between slashes is found at any depth, and at the start if no stars stand before it; names
that only begin or end like the folder, and a file of that name, are not taken for it.
-/

namespace ComponentAtlas.Workspace

open Text

/-- A name that a pattern can hold as it is: without slashes and without characters that have a
meaning of their own. -/
structure PlainName (name : String) : Prop where
  literal : Literal name
  slashless : '/' ∉ name.toList

section Forms

variable {pattern x : String}

theorem patternForms_anyDepth (pattern : String) :
    patternForms ("**/" ++ pattern) = ["**/" ++ pattern, pattern] := by
  have rest : afterStart? "**/".toList ("**/" ++ pattern).toList = some pattern.toList :=
    afterStart?_eq_some_iff.mpr String.toList_append
  rw [patternForms, rest, Option.map_some, String.ofList_toList]
  rfl

/-- Without two stars in front, a pattern has one form only. -/
theorem patternForms_single (h : ¬ ['*', '*'] <+: pattern.toList) :
    patternForms pattern = [pattern] := by
  have rest : afterStart? "**/".toList pattern.toList = none := by
    refine Option.eq_none_iff_forall_ne_some.mpr fun rest found => h ?_
    rw [afterStart?_eq_some_iff.mp found]
    exact ⟨'/' :: rest, rfl⟩
  rw [patternForms, rest]
  rfl

theorem patternForms_literal (plain : Literal x) : patternForms x = [x] :=
  patternForms_single fun stars => plain.not_mem_star (stars.subset List.mem_cons_self)

theorem patternForms_star_literal (plain : Literal x) : patternForms ("*" ++ x) = ["*" ++ x] := by
  refine patternForms_single fun stars => plain.not_mem_star ?_
  rw [String.toList_append] at stars
  exact (List.cons_prefix_cons.mp stars).2.subset List.mem_cons_self

theorem patternForms_folder (plain : Literal x) : patternForms (x ++ "/**") = [x ++ "/**"] := by
  refine patternForms_single fun stars => plain.not_mem_star ?_
  rw [String.toList_append] at stars
  cases chars : x.toList with
  | nil => simp [chars] at stars
  | cons c rest =>
      rw [chars, List.cons_append, List.cons_prefix_cons] at stars
      exact stars.1 ▸ List.mem_cons_self

end Forms

section Paths

variable {folders : List String} {file x : String}

/-- Names behind which a path goes on are folders. -/
theorem exists_folders {front rest : List String} (names : folders ++ [file] = front ++ x :: rest)
    (some_rest : rest ≠ []) : ∃ more, folders = front ++ x :: more := by
  obtain ⟨more, last, rfl⟩ := List.eq_nil_or_concat rest |>.resolve_left some_rest
  rw [List.concat_eq_append, ← List.cons_append, ← List.append_assoc] at names
  exact ⟨more, (List.append_inj' names rfl).1⟩

variable (plain : ∀ name ∈ folders ++ [file], '/' ∉ name.toList)
include plain

/-- A slash of the path stands between two of its names. -/
theorem names_of_slash {before after : String}
    (h : join "/" (folders ++ [file]) = before ++ "/" ++ after) :
    folders ++ [file] = splitText '/' before ++ splitText '/' after := by
  have names : splitText '/' (join "/" (folders ++ [file])) = folders ++ [file] :=
    splitText_join (by simp) fun name member _ inside same => plain name member (same ▸ inside)
  rw [← names, h]
  exact splitText_append '/' before after

theorem lastPiece_path :
    String.ofList (lastPiece '/' (join "/" (folders ++ [file])).toList) = file := by
  have slashless : '/' ∉ file.toList := plain file (by simp)
  by_cases nested : folders = []
  · simp [nested, lastPiece_of_not_mem slashless]
  · have split : (join "/" (folders ++ [file])).toList =
        (join "/" folders).toList ++ '/' :: file.toList := by
      simp [join_concat "/" nested]
    rw [split, lastPiece_append_cons _ slashless, String.ofList_toList]

variable (slashless : '/' ∉ x.toList)
include slashless

/-- Whatever a path ends with, its last name ends with it as well. -/
theorem exists_of_path_ends {front : String} (split : join "/" (folders ++ [file]) = front ++ x) :
    ∃ start, file = start ++ x := by
  refine ⟨String.ofList (lastPiece '/' front.toList), ?_⟩
  rw [← lastPiece_path plain, split, String.toList_append, lastPiece_append _ slashless,
    String.ofList_append, String.ofList_toList]

theorem eq_of_path_eq (same : join "/" (folders ++ [file]) = x) : file = x := by
  rw [← lastPiece_path plain, same, lastPiece_of_not_mem slashless, String.ofList_toList]

/-- A path starts with a name and a slash where the name is that of its first folder. -/
theorem path_starts_iff :
    (∃ back, join "/" (folders ++ [file]) = x ++ "/" ++ back) ↔ folders.head? = some x := by
  constructor
  · rintro ⟨back, split⟩
    have names := names_of_slash plain split
    rw [splitText_plain slashless] at names
    obtain ⟨more, rfl⟩ : ∃ more, folders = [] ++ x :: more :=
      exists_folders names (splitText_ne_nil '/' back)
    rfl
  · intro first
    obtain ⟨more, rfl⟩ := List.head?_eq_some_iff.mp first
    exact ⟨_, join_cons "/" x (by simp)⟩

/-- A path holds a name between slashes, or starts with it and a slash, where one of its folders has
the name. -/
theorem path_holds_iff :
    ((∃ front back, join "/" (folders ++ [file]) = front ++ "/" ++ (x ++ "/" ++ back)) ∨
      ∃ back, join "/" (folders ++ [file]) = x ++ "/" ++ back) ↔ x ∈ folders := by
  constructor
  · rintro (⟨front, back, split⟩ | starts)
    · have names := names_of_slash plain split
      have inner : splitText '/' (x ++ "/" ++ back) = [x] ++ splitText '/' back := by
        rw [← splitText_plain slashless]
        exact splitText_append '/' x back
      rw [inner] at names
      obtain ⟨more, rfl⟩ := exists_folders names (splitText_ne_nil '/' back)
      exact List.mem_append_right _ List.mem_cons_self
    · exact List.mem_of_mem_head? ((path_starts_iff plain slashless).mp starts)
  · intro member
    obtain ⟨above, below, rfl⟩ := List.append_of_mem member
    rcases List.eq_nil_or_concat above with rfl | ⟨_, _, rfl⟩
    · exact .inr ⟨_, join_cons "/" x (by simp)⟩
    · left
      rw [List.append_assoc, join_append "/" (by simp) (by simp), List.cons_append,
        join_cons "/" x (by simp)]
      exact ⟨_, _, rfl⟩

end Paths

section Matching

theorem fits_folder_iff {x s : String} (literal : Literal x) :
    fits (x ++ "/**") s = true ↔ ∃ back, s = x ++ "/" ++ back := by
  have slash : Literal (x ++ "/") := literal.append (by decide)
  rw [← fits_literal_stars_iff slash, String.append_assoc]
  rfl

theorem fits_anyDepth_iff {x s : String} (literal : Literal x) :
    fits ("**/" ++ (x ++ "/**")) s = true ↔
      ∃ front back, s = front ++ "/" ++ (x ++ "/" ++ back) := by
  have slashes : Literal ("/" ++ (x ++ "/")) :=
    Literal.append (by decide) (literal.append (by decide))
  have front : ∀ rest : String, "**/" ++ rest = "**" ++ ("/" ++ rest) :=
    fun rest => @String.append_assoc "**" "/" rest
  have pattern : "**/" ++ (x ++ "/**") = "**" ++ ("/" ++ (x ++ "/") ++ "**") := by
    rw [front, String.append_assoc, String.append_assoc]
    rfl
  rw [pattern, fits_stars_literal_stars_iff slashes]
  simp only [String.append_assoc]

variable {folders : List String} {file x : String}

/-- A pattern fits a path where one of its forms fits the path or its last name. -/
theorem matchesAny_single_iff (plain : ∀ name ∈ folders ++ [file], '/' ∉ name.toList)
    (pattern : String) :
    matchesAny (join "/" (folders ++ [file])) [pattern] = true ↔
      ∃ form ∈ patternForms pattern,
        fits form (join "/" (folders ++ [file])) = true ∨ fits form file = true := by
  simp only [matchesAny, lastPiece_path plain, List.any_cons, List.any_nil, Bool.or_false,
    List.any_eq_true, Bool.or_eq_true]

/-- A folder between stars fits the paths with such a folder, one behind a name the paths that start
with it; a name behind a star fits the paths whose last name ends with it, and a name alone those
whose last name it is. Several patterns fit what one of them does. Here `folders` are all names of
the path but the last one. -/
theorem matchesAny_iff {s : String} (plain : ∀ name ∈ folders ++ [file], '/' ∉ name.toList)
    (hx : PlainName x) (hs : PlainName s) :
    let path := join "/" (folders ++ [file])
    (matchesAny path ["**/" ++ x ++ "/**"] = true ↔ x ∈ folders) ∧
      (matchesAny path [x ++ "/**"] = true ↔ folders.head? = some x) ∧
      (matchesAny path ["*" ++ s] = true ↔ ∃ start, file = start ++ s) ∧
      (matchesAny path [s] = true ↔ file = s) ∧
      ∀ patterns, matchesAny path patterns = true ↔
        ∃ pattern ∈ patterns, matchesAny path [pattern] = true := by
  intro path
  have whole := matchesAny_single_iff plain
  -- The last name alone is never below a folder.
  have above : ∀ name rest, file ≠ name ++ "/" ++ rest := by
    intro name rest same
    exact plain file (by simp) (by simp [same])
  refine ⟨?_, ?_, ?_, ?_, ?_⟩
  · rw [String.append_assoc, whole, patternForms_anyDepth, ← path_holds_iff plain hx.slashless]
    simp [fits_folder_iff hx.literal, fits_anyDepth_iff hx.literal, above]
  · rw [whole, patternForms_folder hx.literal, ← path_starts_iff plain hx.slashless]
    simp [fits_folder_iff hx.literal, above]
  · rw [whole, patternForms_star_literal hs.literal]
    simp only [List.mem_singleton, exists_eq_left, fits_star_literal_iff hs.literal]
    constructor
    · rintro (⟨front, split⟩ | ends)
      · exact exists_of_path_ends plain hs.slashless split
      · exact ends
    · exact .inr
  · rw [whole, patternForms_literal hs.literal]
    simp only [List.mem_singleton, exists_eq_left, fits_literal_iff hs.literal]
    exact or_iff_right_of_imp (eq_of_path_eq plain hs.slashless)
  · intro patterns
    simp [matchesAny]

/-- A folder `build` that is not the first one, and a file whose name only ends like `build.ts`. -/
theorem matchesAny_iff_rebuild :
    let path := join "/" (["src", "build"] ++ ["rebuild.ts"])
    PlainName "build" ∧ PlainName "build.ts" ∧ matchesAny path ["**/build/**"] = true ∧
      matchesAny path ["build/**"] = false ∧ matchesAny path ["*build.ts"] = true ∧
      matchesAny path ["build.ts"] = false ∧ matchesAny path ["build/**", "*build.ts"] = true := by
  have folder : PlainName "build" := ⟨by decide, by decide⟩
  have name : PlainName "build.ts" := ⟨by decide, by decide⟩
  have plain : ∀ name ∈ ["src", "build"] ++ ["rebuild.ts"], '/' ∉ name.toList := by decide
  obtain ⟨deep, start, ending, last, several⟩ := matchesAny_iff plain folder name
  have ends := ending.mpr ⟨"re", by decide⟩
  refine ⟨folder, name, deep.mpr (by decide), ?_, ends, ?_, ?_⟩
  · exact Bool.eq_false_iff.mpr (mt start.mp (by decide))
  · exact Bool.eq_false_iff.mpr (mt last.mp (by decide))
  · exact (several _).mpr ⟨"*build.ts", by decide, ends⟩

end Matching

end ComponentAtlas.Workspace

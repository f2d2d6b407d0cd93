import ComponentAtlas.Graph.Index
import ComponentAtlas.Proofs.Path.Way

/-!
The form in which files are compared. It is absolute whatever the working directory is, and normal
but for backslashes and for paths with exactly two slashes in front. Spellings of one path have the
same form: names that stay where they are may be left out, so may a name that is left again, and a
relative path may be spelled from the root.
-/

namespace ComponentAtlas

namespace Path

theorem names_here {name : String} (h : isHere name = true) : (parts name).names = [] := by
  have either : name = "" ∨ name = "." := by simpa [isHere] using h
  rcases either with rfl | rfl <;> decide

theorem names_proper {name : String} (h : Proper name) : (parts name).names = [name] := by
  have own : pieces name = [name] := Text.splitText_plain fun slash => h.no_slash '/' slash rfl
  rw [parts, own, List.filter_cons_of_pos (by simp [h.not_here]), List.filter_nil]

/-- From every place of an absolute path the names lead to the same place. -/
def SameWay (names names' : List String) : Prop :=
  ∀ stack, names.foldl (climb true) stack = names'.foldl (climb true) stack

theorem SameWay.append {names names' : List String} (way : SameWay names names')
    (before after : List String) :
    SameWay (before ++ names ++ after) (before ++ names' ++ after) := by
  intro stack
  rw [List.foldl_append, List.foldl_append, List.foldl_append, List.foldl_append, way _]

/-- To enter a place and to leave it again is to stay. -/
theorem sameWay_turn {name : String} (h : Proper name) : SameWay [name, ".."] [] := by
  intro stack
  have up : isHere ".." = false := by decide
  simp [climb, h.not_here, h.not_up, up]

theorem normalize_eq_of_sameWay {p q : String} (slashes : leadingSlashes p = leadingSlashes q)
    (rooted : isAbsolute p = true) (way : SameWay (parts p).names (parts q).names) :
    normalize p = normalize q := by
  have some_slash : (leadingSlashes q != 0) = true := by
    rw [← slashes, bne_iff_ne, ne_eq, leadingSlashes_eq_zero_iff, rooted]
    exact Bool.true_eq_false.mp
  have climbs : climbAll true (pieces p) = climbAll true (pieces q) := by
    unfold climbAll
    rw [foldl_climb_filter true (pieces p), foldl_climb_filter true (pieces q)]
    exact congrArg List.reverse (way [])
  unfold normalize normalParts
  dsimp only
  rw [slashes, some_slash, climbs]

end Path

variable [here : Path.WorkingDirectory]

theorem isAbsolute_workingDirectory : Path.isAbsolute here.path = true := by
  have one := here.rooted
  rw [← Bool.not_eq_false, ← Path.leadingSlashes_eq_zero_iff]
  omega

theorem isAbsolute_fileKey (path : String) : Path.isAbsolute (fileKey path) = true := by
  refine Path.isAbsolute_standard ?_
  rw [Path.absolute, Path.isAbsolute_normalize]
  exact Path.isAbsolute_joined isAbsolute_workingDirectory

/-- Only a backslash or exactly two leading slashes keep the key of a file from being normal. -/
theorem normal_fileKey {path : String} (plain : Path.Over (· ≠ '\\') (Path.absolute path))
    (slashes : Path.leadingSlashes path ≠ 2) : Path.Normal (fileKey path) := by
  have normal := Path.normal_absolute slashes
  have key : fileKey path = Path.absolute path := by
    rw [fileKey, Path.standard, normal.normal, Path.forwardSlashes_eq plain]
  rw [key]
  exact normal

/-- Paths with the same slashes in front and the same way behind them are spellings of one path. -/
theorem fileKey_eq_of_sameWay {p q : String}
    (slashes : Path.leadingSlashes p = Path.leadingSlashes q)
    (way : Path.SameWay (Path.parts p).names (Path.parts q).names) : fileKey p = fileKey q := by
  have same_kind : Path.isAbsolute p = Path.isAbsolute q := by
    rw [Bool.eq_iff_iff, ← Bool.not_eq_false, ← Bool.not_eq_false,
      ← Path.leadingSlashes_eq_zero_iff, ← Path.leadingSlashes_eq_zero_iff, slashes]
  refine congrArg Path.standard ?_
  rw [Path.absolute, Path.absolute]
  cases rooted : Path.isAbsolute p with
  | true =>
      have rooted' := same_kind.symm.trans rooted
      rw [Path.joined, Path.joined, if_pos rooted, if_pos rooted']
      exact Path.normalize_eq_of_sameWay slashes rooted way
  | false =>
      have relative' := same_kind.symm.trans rooted
      refine Path.normalize_eq_of_sameWay ?_ (Path.isAbsolute_joined isAbsolute_workingDirectory) ?_
      · rw [Path.leadingSlashes_joined rooted, Path.leadingSlashes_joined relative']
      · rw [Path.names_joined rooted, Path.names_joined relative']
        simpa using way.append (Path.parts here.path).names []

/-- An empty name or a dot between other names does not count. -/
theorem fileKey_here {a n : String} (some_letter : ∃ c ∈ a.toList, c ≠ '/')
    (h : Path.isHere n = true) (b : String) :
    fileKey (a ++ "/" ++ n ++ "/" ++ b) = fileKey (a ++ "/" ++ b) := by
  refine fileKey_eq_of_sameWay ?_ ?_
  · simp only [String.append_assoc, Path.leadingSlashes_append some_letter]
  · intro stack
    simp only [Path.names_append, Path.names_here h, List.append_nil]

/-- A name that is left again at once does not count. -/
theorem fileKey_turn {a n : String} (some_letter : ∃ c ∈ a.toList, c ≠ '/')
    (h : Path.Proper n) (b : String) :
    fileKey (a ++ "/" ++ n ++ "/" ++ ".." ++ "/" ++ b) = fileKey (a ++ "/" ++ b) := by
  refine fileKey_eq_of_sameWay ?_ ?_
  · simp only [String.append_assoc, Path.leadingSlashes_append some_letter]
  · have up : (Path.parts "..").names = [".."] := by decide
    have turn := (Path.sameWay_turn h).append (Path.parts a).names (Path.parts b).names
    simpa only [Path.names_append, Path.names_proper h, up, List.append_assoc, List.append_nil,
      List.cons_append, List.nil_append] using turn

/-- A path is the same as seen from the working directory and from the root. -/
theorem fileKey_joined (path : String) : fileKey (Path.joined here.path path) = fileKey path := by
  have rooted : Path.isAbsolute (Path.joined here.path path) = true :=
    Path.isAbsolute_joined isAbsolute_workingDirectory
  rw [fileKey, Path.absolute, Path.joined, if_pos rooted]
  rfl

example : let _ : Path.WorkingDirectory := .ofPath "/home/u"
    ["a//b/../c.ts", "./a/c.ts", "/home/u/a/c.ts", "../u/a/c.ts"].map fileKey =
      List.replicate 4 "/home/u/a/c.ts" := by decide +kernel

end ComponentAtlas

import ComponentAtlas.Text.Wildcard

/-!
Which files of a workspace are left out: those below dependency and build folders, and those that a
wildcard pattern fits.
-/

namespace ComponentAtlas.Workspace

open Text

/-- The folders of dependencies, build results and tools. -/
def skippedFolders : List String :=
  ["node_modules", "dist", "build", ".git", "venv", ".venv", "__pycache__", "bin", "obj"]

/-- The pattern, and what follows if it starts with a folder of any depth. -/
def patternForms (pattern : String) : List String :=
  pattern :: ((afterStart? "**/".toList pattern.toList).map String.ofList).toList

/-- Whether one of the patterns fits the path or its last name. The star of a pattern passes over
slashes, so `x/**` and `**/x/**` fit everything below a folder `x`. -/
def matchesAny (path : String) (patterns : List String) : Bool :=
  let name := String.ofList (lastPiece '/' path.toList)
  patterns.any fun pattern =>
    (patternForms pattern).any fun form => fits form path || fits form name

/-- Whether a file at `names` below the root is left out. -/
def isExcluded (patterns : List String) (names : List String) : Bool :=
  names.dropLast.any skippedFolders.contains || matchesAny (join "/" names) patterns

end ComponentAtlas.Workspace

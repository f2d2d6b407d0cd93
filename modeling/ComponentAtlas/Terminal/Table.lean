import ComponentAtlas.Text.Pieces

/-!
Tables of counts with a frame of lines. Every column is as wide as its widest cell; names stand on
the left and counts on the right of theirs.
-/

namespace ComponentAtlas.Terminal

open Text

structure CountTable where
  title : String
  heading : String
  rows : List (String × Nat)

def spaces (n : Nat) : String := String.ofList (List.replicate n ' ')

def ruled (c : Char) (n : Nat) : String := String.ofList (List.replicate n c)

def padRight (width : Nat) (s : String) : String := s ++ spaces (width - s.length)

def padLeft (width : Nat) (s : String) : String := spaces (width - s.length) ++ s

/-- The text in the middle; an odd blank goes to its right. -/
def centred (width : Nat) (s : String) : String :=
  padRight width (spaces ((width - s.length) / 2) ++ s)

namespace CountTable

def countHeading : String := "Count"

def nameWidth (t : CountTable) : Nat :=
  t.rows.foldl (fun w row => max w row.1.length) t.heading.length

def countWidth (t : CountTable) : Nat :=
  t.rows.foldl (fun w row => max w (toString row.2).length) countHeading.length

/-- A line of the frame from its left end, line, crossing and right end. -/
def rule (t : CountTable) (left line cross right : Char) : String :=
  left.toString ++ ruled line (t.nameWidth + 2) ++ cross.toString ++
    ruled line (t.countWidth + 2) ++ right.toString

def row (t : CountTable) (bar name count : String) : String :=
  s!"{bar} {padRight t.nameWidth name} {bar} {padLeft t.countWidth count} {bar}"

def lines (t : CountTable) : List String :=
  [centred (t.nameWidth + t.countWidth + 7) t.title,
    t.rule '┏' '━' '┳' '┓',
    t.row "┃" t.heading countHeading,
    t.rule '┡' '━' '╇' '┩'] ++
  t.rows.map (fun (name, count) => t.row "│" name (toString count)) ++
  [t.rule '└' '─' '┴' '┘']

def text (t : CountTable) : String := join "" (t.lines.map (· ++ "\n"))

end CountTable

end ComponentAtlas.Terminal
